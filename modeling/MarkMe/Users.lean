import MarkMe.Lib.Sql
import Mathlib.Data.List.Nodup

/-! The `users` table.

    `CREATE TABLE users(id INTEGER PRIMARY KEY AUTOINCREMENT, ip VARCHAR(50), password VARCHAR(50),
    coordinates VARCHAR(50))`. A table value carries what the primary key and AUTOINCREMENT enforce:
    the rows stand in the order of their distinct ids, and no id is above the largest one ever
    given out. `meaning` resolves a statement over this table, and `Op.eval` is what running it does:
    rows are delivered in row order, a comparison with the integer column compares numbers, a
    comparison with a text column compares bytes and never holds of NULL. -/

namespace MarkMe
open Text

/-- A non-zero result code of SQLite. -/
abbrev ErrCode := {c : ℤ // c ≠ 0}

/-- A failed call: its result code and the message SQLite allocates for it, if any. -/
structure SqlError where
  code : ErrCode
  msg : Option Bytes
  deriving DecidableEq

inductive TextColumn where | ip | password | coordinates
  deriving DecidableEq

inductive Column where
  | id
  | text (c : TextColumn)
  deriving DecidableEq

def Column.name : Column → Bytes
  | .id => ascii "id"
  | .text .ip => ascii "ip"
  | .text .password => ascii "password"
  | .text .coordinates => ascii "coordinates"

/-- A row; `none` is the SQL NULL. -/
structure User where
  id : ℕ
  ip : Option Bytes
  password : Option Bytes
  coordinates : Option Bytes
  deriving DecidableEq

namespace User

def get (r : User) : TextColumn → Option Bytes
  | .ip => r.ip
  | .password => r.password
  | .coordinates => r.coordinates

def set (r : User) (c : TextColumn) (v : Bytes) : User :=
  match c with
  | .ip => { r with ip := some v }
  | .password => { r with password := some v }
  | .coordinates => { r with coordinates := some v }

/-- The text SQLite delivers for a column. -/
def value (r : User) : Column → Option Bytes
  | .id => some (toDec r.id)
  | .text c => r.get c

/-- A row just inserted, before its one given column is filled in. -/
def blank (id : ℕ) : User := ⟨id, none, none, none⟩

@[simp] theorem set_id (r : User) (c : TextColumn) (v : Bytes) : (r.set c v).id = r.id := by
  cases c <;> rfl

end User

/-- The largest rowid; AUTOINCREMENT inserts nothing after it. -/
def maxRowid : ℕ := 9223372036854775807

/-- The table: rows in rowid order, and the AUTOINCREMENT counter. -/
@[ext] structure Users where
  rows : List User
  seq : ℕ
  sorted : rows.Pairwise (fun r r' => r.id < r'.id)
  bounded : ∀ r ∈ rows, r.id ≤ seq
  seq_le : seq ≤ maxRowid

instance : DecidableEq Users := fun u u' =>
  decidable_of_iff (u.rows = u'.rows ∧ u.seq = u'.seq) Users.ext_iff.symm

namespace Users

def empty : Users := ⟨[], 0, List.Pairwise.nil, by simp, by decide⟩

/-- A table with one row. -/
def single (r : User) (h : r.id ≤ maxRowid) : Users := ⟨[r], r.id, List.pairwise_singleton _ _, by simp, h⟩

theorem ids_nodup (u : Users) : (u.rows.map User.id).Nodup :=
  List.pairwise_map.mpr (u.sorted.imp fun h => Nat.ne_of_lt h)

/-- Two rows of one id are one row. -/
theorem eq_of_id {u : Users} {r r' : User} (hr : r ∈ u.rows) (hr' : r' ∈ u.rows)
    (h : r.id = r'.id) : r = r' :=
  List.inj_on_of_nodup_map u.ids_nodup hr hr' h

/-- Set a text column in the rows selected. -/
def setWhere (u : Users) (sel : User → Bool) (c : TextColumn) (v : Bytes) : Users where
  rows := u.rows.map fun r => if sel r then r.set c v else r
  seq := u.seq
  sorted := by
    refine List.pairwise_map.mpr (u.sorted.imp fun {r r'} h => ?_)
    have hid : ∀ x : User, (if sel x then x.set c v else x).id = x.id := fun x => by
      split <;> simp
    rw [hid, hid]
    exact h
  bounded := by
    intro r hr
    obtain ⟨x, hx, rfl⟩ := List.mem_map.mp hr
    have := u.bounded x hx
    split <;> simpa using this
  seq_le := u.seq_le

/-- Append a row under a fresh id. -/
def insertRow (u : Users) (c : TextColumn) (v : Bytes) (h : u.seq < maxRowid) : Users where
  rows := u.rows ++ [(User.blank (u.seq + 1)).set c v]
  seq := u.seq + 1
  sorted := by
    refine List.pairwise_append.mpr ⟨u.sorted, List.pairwise_singleton _ _, fun r hr r' hr' => ?_⟩
    rw [List.mem_singleton] at hr'
    rw [hr', User.set_id]
    exact Nat.lt_succ_of_le (u.bounded r hr)
  bounded := by
    intro r hr
    rw [List.mem_append, List.mem_singleton] at hr
    rcases hr with hr | rfl
    · exact Nat.le_succ_of_le (u.bounded r hr)
    · simp [User.blank]
  seq_le := h

/-- The row of an id. -/
def find (u : Users) (v : ℕ) : Option User := u.rows.find? (fun r => r.id == v)

/-- The stored password hash of an id. -/
def passwordOf (u : Users) (v : ℕ) : Option Bytes := (u.find v).bind User.password

/-- The stored coordinates of an id. -/
def coordinatesOf (u : Users) (v : ℕ) : Option Bytes := (u.find v).bind User.coordinates

/-- The address of an id. -/
def ownerOf (u : Users) (v : ℕ) : Option Bytes := (u.find v).bind User.ip

/-- The id of the last row of an address. -/
def lastAt (u : Users) (ip : Bytes) : Option ℕ :=
  (u.rows.filter (fun r => r.ip == some ip)).getLast?.map User.id

def addIp (u : Users) (ip : Bytes) : Option Users :=
  if h : u.seq < maxRowid then some (u.insertRow .ip ip h) else none

def setPassword (u : Users) (v : ℕ) (pass : Bytes) : Users :=
  u.setWhere (fun r => r.id == v) .password pass

def setCoordinates (u : Users) (ip coordinates : Bytes) : Users :=
  u.setWhere (fun r => r.ip == some ip) .coordinates coordinates

theorem find_some {u : Users} {v : ℕ} {r : User} : u.find v = some r ↔ r ∈ u.rows ∧ r.id = v := by
  constructor
  · intro h
    exact ⟨List.mem_of_find?_eq_some h, by simpa using List.find?_some h⟩
  · rintro ⟨hr, rfl⟩
    cases hf : u.find r.id with
    | none => simpa using List.find?_eq_none.mp hf r hr
    | some r' =>
      have h' : r'.id = r.id := by simpa using List.find?_some hf
      rw [eq_of_id (List.mem_of_find?_eq_some hf) hr h']

theorem find_none {u : Users} {v : ℕ} : u.find v = none ↔ ∀ r ∈ u.rows, r.id ≠ v := by
  simp [find, List.find?_eq_none]

/-- Selecting by id gives at most the one row. -/
theorem filter_id (u : Users) (v : ℕ) : u.rows.filter (fun r => r.id == v) = (u.find v).toList := by
  have key : ∀ l : List User, l.Pairwise (fun r r' => r.id < r'.id) →
      l.filter (fun r => r.id == v) = (l.find? (fun r => r.id == v)).toList := by
    intro l
    induction l with
    | nil => intro _; rfl
    | cons r l ih =>
      intro hl
      obtain ⟨hr, hl⟩ := List.pairwise_cons.mp hl
      by_cases hv : r.id = v
      · have hnone : l.filter (fun r => r.id == v) = [] := by
          rw [List.filter_eq_nil_iff]
          intro x hx
          have := hr x hx
          simp only [beq_iff_eq]
          omega
        simp [hv, hnone]
      · simp [hv, ih hl]
  exact key u.rows u.sorted

theorem lastAt_some {u : Users} {ip : Bytes} {v : ℕ} (h : u.lastAt ip = some v) :
    ∃ r ∈ u.rows, r.id = v ∧ r.ip = some ip := by
  rw [lastAt, Option.map_eq_some_iff] at h
  obtain ⟨r, hr, rfl⟩ := h
  obtain ⟨hm, hip⟩ := List.mem_filter.mp (List.mem_of_getLast? hr)
  exact ⟨r, hm, rfl, by simpa using hip⟩

theorem lastAt_none {u : Users} {ip : Bytes} : u.lastAt ip = none ↔ ∀ r ∈ u.rows, r.ip ≠ some ip := by
  simp [lastAt]

theorem ownerOf_some {u : Users} {v : ℕ} {ip : Bytes} :
    u.ownerOf v = some ip ↔ ∃ r, u.find v = some r ∧ r.ip = some ip := Option.bind_eq_some_iff

theorem lastAt_owner {u : Users} {ip : Bytes} {v : ℕ} (h : u.lastAt ip = some v) : u.ownerOf v = some ip := by
  obtain ⟨r, hr, hid, hip⟩ := lastAt_some h
  exact ownerOf_some.mpr ⟨r, find_some.mpr ⟨hr, hid⟩, hip⟩

/-- An id with an address is one that was given out. -/
theorem owner_le {u : Users} {v : ℕ} {ip : Bytes} (h : u.ownerOf v = some ip) : v ≤ maxRowid := by
  obtain ⟨r, hr, -⟩ := ownerOf_some.mp h
  obtain ⟨hmem, rfl⟩ := find_some.mp hr
  exact (u.bounded r hmem).trans u.seq_le

end Users

/-! ### Statements over the table -/

inductive Cond where
  | idIs (v : ℕ)
  | textIs (c : TextColumn) (v : Bytes)

def Cond.holds (r : User) : Cond → Bool
  | .idIs v => r.id == v
  | .textIs c v => r.get c == some v

inductive Op where
  | select (c : Column) (conds : List Cond)
  | insert (c : TextColumn) (v : Bytes)
  | update (c : TextColumn) (v : Bytes) (conds : List Cond)

/-- A result row: the name and the text of every column selected. -/
abbrev Row := List (Bytes × Option Bytes)

/-- SQLITE_FULL. -/
def fullError : SqlError := ⟨⟨13, by decide⟩, some (ascii "database or disk is full")⟩

def matching (conds : List Cond) (r : User) : Bool := conds.all (Cond.holds r)

/-- The table after a statement and the rows it delivers. -/
def Op.eval (u : Users) : Op → Except SqlError (Users × List Row)
  | .select c conds =>
    .ok (u, (u.rows.filter (matching conds)).map fun r => [(c.name, r.value c)])
  | .insert c v => if h : u.seq < maxRowid then .ok (u.insertRow c v h, []) else .error fullError
  | .update c v conds => .ok (u.setWhere (matching conds) c v, [])

def columns : List (Bytes × Column) :=
  [Column.id, .text .ip, .text .password, .text .coordinates].map fun c => (c.name, c)

def textColumn : Column → Option TextColumn
  | .id => none
  | .text c => some c

/-- A condition on the integer column is covered for decimal literals only. -/
def condOf (e : Sql.Eqn) : Option Cond :=
  match columns.lookup e.col with
  | some .id => if isNumeral e.lit then some (.idIs (decVal e.lit)) else none
  | some (.text c) => some (.textIs c e.lit)
  | none => none

/-- The operation on the `users` table a statement stands for. -/
def meaning : Sql.Stmt → Option Op
  | .select c t es =>
    if t = ascii "users" then
      (columns.lookup c).bind fun c => (es.mapM condOf).map (Op.select c)
    else none
  | .insert t c l =>
    if t = ascii "users" then ((columns.lookup c).bind textColumn).map (Op.insert · l) else none
  | .update t e es =>
    if t = ascii "users" then
      ((columns.lookup e.col).bind textColumn).bind fun c => (es.mapM condOf).map (Op.update c e.lit)
    else none

end MarkMe
