import MarkMe.Host

/-! `SQLConnection` and its guard, with the handles SQLite has given out.

    A handle is the number of the `sqlite3_open` call that made it. `Handles` records what every
    `sqlite3_open` stored in its result and which handles were passed to `sqlite3_close`, so leaks
    and double closes can be seen. Opening asks the environment how the next `sqlite3_open` ends.

        closed ──open ok──▶ connected ──close──▶ closed
           │ open fails: the handle, if any, is closed at once; `db_` keeps pointing to it -/

namespace MarkMe
open Text

abbrev Handle := ℕ

structure Handles where
  opened : List (Option Handle)
  closed : List Handle

/-- `sqlite3_open`: the result code and what is stored in `*ppDb`. -/
def sqlite3_open (o : OpenOutcome) (h : Handles) : ℤ × Option Handle × Handles :=
  let n := h.opened.length
  match o with
  | .ok => (0, some n, { h with opened := h.opened ++ [some n] })
  | .fail code null =>
    let db := if null then none else some n
    (code, db, { h with opened := h.opened ++ [db] })

def sqlite3_close (d : Handle) (h : Handles) : Handles := { h with closed := h.closed ++ [d] }

structure SQLConnection where
  db_ : Option Handle
  filename_ : Bytes
  errorCode_ : ℤ
  connected_ : Bool

namespace SQLConnection

/-- `SQLConnection(file)`. -/
def new (file : Bytes) : SQLConnection := ⟨none, file, 0, false⟩

def isConnected (c : SQLConnection) : Bool := c.connected_

def getHandle (c : SQLConnection) : Option Handle := c.db_

/-- The common end of the two overloads of `open`: call `sqlite3_open` on `filename_`. -/
def connect (c : SQLConnection) (o : OpenOutcome) (h : Handles) : SQLConnection × Handles × Bool :=
  let (rc, db, h) := sqlite3_open o h
  let connected := rc == 0
  let h := match connected, db with
    | false, some d => sqlite3_close d h
    | _, _ => h
  ({ c with db_ := db, errorCode_ := rc, connected_ := connected }, h, connected)

/-- `open()`. -/
def open_ (c : SQLConnection) (o : OpenOutcome) (h : Handles) : SQLConnection × Handles × Bool :=
  if c.connected_ then (c, h, true)
  else if c.filename_ = [] then (c, h, false)
  else c.connect o h

def close (c : SQLConnection) (h : Handles) : SQLConnection × Handles :=
  if !c.connected_ then (c, h)
  else match c.db_ with
    | some d => ({ c with db_ := none, connected_ := false }, sqlite3_close d h)
    | none => ({ c with connected_ := false }, h)

/-- `open(file)`: a connection to another file is replaced without being closed. -/
def openFile (c : SQLConnection) (file : Bytes) (o : OpenOutcome) (h : Handles) :
    SQLConnection × Handles × Bool :=
  if c.connected_ && c.filename_ == file then (c, h, true)
  else if file = [] then
    let (c, h) := c.close h
    (c, h, false)
  else { c with filename_ := file }.connect o h

/-- The three ways a call of `sqlite3_open` goes. -/
theorem connect_cases (c : SQLConnection) (o : OpenOutcome) (h : Handles) :
    (c.connect o h).1 = ⟨some h.opened.length, c.filename_, 0, true⟩ ∧
        (c.connect o h).2.1 = ⟨h.opened ++ [some h.opened.length], h.closed⟩ ∨
      ∃ code, (c.connect o h).1 = ⟨none, c.filename_, code, false⟩ ∧
          (c.connect o h).2.1 = ⟨h.opened ++ [none], h.closed⟩ ∨
        (c.connect o h).1 = ⟨some h.opened.length, c.filename_, code, false⟩ ∧
          (c.connect o h).2.1 = ⟨h.opened ++ [some h.opened.length], h.closed ++ [h.opened.length]⟩ := by
  cases o with
  | ok => exact Or.inl ⟨rfl, rfl⟩
  | fail code null =>
    have hcode : (code.1 == 0) = false := beq_eq_false_iff_ne.mpr code.2
    refine Or.inr ⟨code, ?_⟩
    cases null with
    | true => exact Or.inl (by simp [connect, sqlite3_open, hcode])
    | false => exact Or.inr (by simp [connect, sqlite3_open, hcode, sqlite3_close])

end SQLConnection

end MarkMe
