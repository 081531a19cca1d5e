import MarkMe.SQLDatabase
import MarkMe.Lib.Machine

/-! What the result vector of a `SQLDatabase` holds after any calls of `execute`.

    The vector lives as long as the object and only the row callback touches it, so it shows the
    columns of the last row that any call so far has delivered, a call that failed later included.
    A statement without rows therefore shows the rows of an earlier one, and of several rows, or of
    several columns, no statement shows what it found.

        calls      SELECT id → 2 rows    UPDATE    SELECT coordinates → no row
        vector     [row 2]               [row 2]   [row 2] -/

namespace MarkMe
open Text

/-- A call of `execute`: the connection, the rows that `sqlite3_exec` passes to the callback, and
    the error it ends with, perhaps after some rows. -/
structure Call where
  conn : SQLConnection
  rows : List Row
  error : Option SqlError

namespace SQLDatabase

/-- `execute(conn, query)` by what `sqlite3_exec` does in it. -/
def exec (d : SQLDatabase) (c : Call) : SQLDatabase × Bool :=
  match passed c.conn with
  | none => (d, false)
  | some _ =>
    let d := { d with queryResults_ := deliver d.queryResults_ c.rows }
    match c.error with
    | none => ({ d with lastErrorCode_ := 0 }, true)
    | some err => ({ d with lastErrorCode_ := err.code, lastErrorStr_ := err.msg.getD d.lastErrorStr_ }, false)

/-- A database after some calls from its constructor on. -/
abbrev after (h : List Call) : SQLDatabase := Machine.final exec new h

/-- The call that `execute` makes when it gets this answer. -/
def callOf (conn : SQLConnection) : Except SqlError (Users × List Row) → Call
  | .ok (_, rows) => ⟨conn, rows, none⟩
  | .error err => ⟨conn, [], some err⟩

theorem execute_exec (d : SQLDatabase) (conn : SQLConnection) (u : Users)
    (answer : Except SqlError (Users × List Row)) :
    ((d.execute conn u answer).1, (d.execute conn u answer).2.2) = d.exec (callOf conn answer) := by
  rcases answer with err | ⟨u', rows⟩
  · rw [execute, exec, callOf]
    cases passed conn <;> rfl
  · rw [execute, exec, callOf]
    cases passed conn <;> rfl

/-! ### The last row -/

/-- The rows a call delivers. -/
def Call.delivered (c : Call) : List Row := if c.conn.connected_ then c.rows else []

/-- The rows delivered so far. -/
def delivered (h : List Call) : List Row := h.flatMap Call.delivered

theorem deliver_append (results : SQLQueryResults) (rows rows' : List Row) :
    deliver results (rows ++ rows') = deliver (deliver results rows) rows' :=
  List.foldl_append

theorem exec_results (d : SQLDatabase) (c : Call) :
    (d.exec c).1.queryResults_ = deliver d.queryResults_ (Call.delivered c) := by
  rw [exec, Call.delivered]
  cases hconn : c.conn.connected_ with
  | false =>
    rw [passed_closed hconn]
    rfl
  | true =>
    rw [passed_connected hconn]
    cases c.error <;> rfl

/-- The rows of all calls go through the callback one after the other. -/
theorem final_results : ∀ (d : SQLDatabase) (h : List Call),
    (Machine.final exec d h).queryResults_ = deliver d.queryResults_ (delivered h)
  | _, [] => rfl
  | d, c :: h => by
    have ih := final_results (d.exec c).1 h
    rw [Machine.final, ih, exec_results, ← deliver_append]
    rfl

/-- No row so far, or the last one had no columns. -/
def Untouched (h : List Call) : Prop := ∀ row ∈ (delivered h).getLast?, row = []

theorem callback_eq_nil {results : SQLQueryResults} {row : Row} : callback results row = [] ↔ row = [] := by
  rw [callback_eq, List.map_eq_nil_iff]

theorem results_eq_nil (h : List Call) : (after h).queryResults_ = [] ↔ Untouched h := by
  have hnew : (after h).queryResults_ = deliver [] (delivered h) := final_results new h
  rw [hnew, deliver_eq, Untouched]
  cases (delivered h).getLast? with
  | none => simp
  | some row => simp [callback_eq_nil]

/-! ### Two histories -/

/-- Both vectors are the same, and empty for a statement without rows. -/
def SameResults (d₁ d₂ : SQLDatabase) (rows : List Row) : Prop :=
  d₁.queryResults_ = d₂.queryResults_ ∧ (rows = [] → d₁.queryResults_ = [])

theorem deliver_of_ne_nil {rows : List Row} (h : rows ≠ []) (results results' : SQLQueryResults) :
    deliver results rows = deliver results' rows := by
  rw [deliver_eq, deliver_eq, List.getLast?_eq_some_getLast h]
  rfl

/-- A statement that runs on two databases shows the same on both exactly if it has a row, or both
    vectors were untouched. -/
theorem results_forget_iff (h₁ h₂ : List Call) (conn₁ conn₂ : SQLConnection) (rows : List Row)
    (hc₁ : conn₁.connected_ = true) (hc₂ : conn₂.connected_ = true) :
    SameResults ((after h₁).exec ⟨conn₁, rows, none⟩).1 ((after h₂).exec ⟨conn₂, rows, none⟩).1 rows
      ↔ rows ≠ [] ∨ Untouched h₁ ∧ Untouched h₂ := by
  have hrows₁ : Call.delivered ⟨conn₁, rows, none⟩ = rows := by simp [Call.delivered, hc₁]
  have hrows₂ : Call.delivered ⟨conn₂, rows, none⟩ = rows := by simp [Call.delivered, hc₂]
  rw [SameResults, exec_results, exec_results, hrows₁, hrows₂, ← results_eq_nil, ← results_eq_nil]
  rcases eq_or_ne rows [] with rfl | hne
  · constructor
    · rintro ⟨hsame, hempty⟩
      have hnil₁ : (after h₁).queryResults_ = [] := hempty rfl
      exact Or.inr ⟨hnil₁, hsame.symm.trans hnil₁⟩
    · rintro (habs | ⟨hnil₁, hnil₂⟩)
      · exact absurd rfl habs
      · exact ⟨hnil₁.trans hnil₂.symm, fun _ => hnil₁⟩
  · exact ⟨fun _ => Or.inl hne, fun _ => ⟨deliver_of_ne_nil hne _ _, fun hnil => absurd hnil hne⟩⟩

/-- A connection that is open. -/
def connA : SQLConnection := ⟨some 0, ascii "users.db", 0, true⟩

/-- One row of one column. -/
def rowSeven : List Row := [[(ascii "id", some (ascii "7"))]]

/-- A database that has once found the row of user 7. -/
def foundSeven : List Call := [⟨connA, rowSeven, none⟩]

/-- Databases that have found different rows show the same row of user 8. -/
theorem results_forget_seven :
    let foundTwo : List Call := [⟨connA, [[(ascii "ip", some (ascii "10.0.0.2"))]], none⟩]
    let rowEight : List Row := [[(ascii "id", some (ascii "8"))]]
    SameResults ((after foundSeven).exec ⟨connA, rowEight, none⟩).1
      ((after foundTwo).exec ⟨connA, rowEight, none⟩).1 rowEight := by
  intro foundTwo rowEight
  exact (results_forget_iff foundSeven foundTwo connA connA rowEight rfl rfl).mpr (Or.inl (by decide))

/-- A SELECT without a row shows user 7 on it, and nothing on a new database. -/
theorem results_remembered :
    connA.connected_ = true ∧
      ¬ SameResults ((after foundSeven).exec ⟨connA, [], none⟩).1 ((after []).exec ⟨connA, [], none⟩).1 [] := by
  refine ⟨rfl, fun hsame => ?_⟩
  exact absurd hsame.1 (by decide)

/-! ### Rows and columns -/

/-- A map with the columns of a row and nothing else. -/
def Shows (m : StrMap) (row : Row) : Prop :=
  ∀ k v, m.lookup k = some v ↔ (k, v) ∈ row.map fun cv => (cstr cv.1, cstr (cv.2.getD (ascii "NULL")))

/-- A map with one entry shows a row of one column at most. -/
theorem Shows.length {k v : Bytes} {row : Row} (h : Shows [(k, v)] row)
    (hnames : (row.map fun cv => cstr cv.1).Nodup) : row.length = 1 := by
  have hkey : ∀ cv ∈ row, cstr cv.1 = k := by
    intro cv hcv
    have hlookup := (h _ _).mpr (List.mem_map_of_mem hcv)
    rw [List.lookup_cons] at hlookup
    split at hlookup
    · rename_i hk
      exact eq_of_beq hk
    · cases hlookup
  have hmem := (h k v).mp (by simp)
  rcases row with _ | ⟨a, _ | ⟨b, rest⟩⟩
  · cases hmem
  · rfl
  · have hab : cstr a.1 = cstr b.1 := (hkey a (by simp)).trans (hkey b (by simp)).symm
    simp [hab] at hnames

/-- A row of one column is shown by its one map. -/
theorem shows_single (cv : Bytes × Option Bytes) :
    List.Forall₂ Shows (callback [] [cv]) [[cv]] := by
  rw [callback_eq]
  refine List.Forall₂.cons (fun k v => ?_) List.Forall₂.nil
  rw [List.map_singleton, List.mem_singleton, List.lookup_cons, Prod.mk.injEq]
  by_cases hk : k = cstr cv.1
  · simp [hk, eq_comm]
  · simp [beq_false_of_ne hk, hk]

/-- On a new database a statement shows its rows exactly if it has none, or one row of one column. -/
theorem rows_shown_iff (conn : SQLConnection) (names : List Bytes) (rows : List Row)
    (hconn : conn.connected_ = true) (hnames : (names.map cstr).Nodup)
    (hrows : ∀ row ∈ rows, row.map Prod.fst = names) :
    List.Forall₂ Shows (new.exec ⟨conn, rows, none⟩).1.queryResults_ rows
      ↔ rows = [] ∨ rows.length = 1 ∧ names.length = 1 := by
  have hresults : (new.exec ⟨conn, rows, none⟩).1.queryResults_ = deliver [] rows := by
    rw [exec_results]
    simp [Call.delivered, hconn, new]
  have hdistinct : ∀ row ∈ rows, (row.map fun cv => cstr cv.1).Nodup := by
    intro row hrow
    have hmap : (row.map fun cv => cstr cv.1) = (row.map Prod.fst).map cstr := by simp
    rwa [hmap, hrows row hrow]
  rw [hresults]
  rcases List.eq_nil_or_concat rows with rfl | ⟨init, last, rfl⟩
  · simp [deliver]
  rw [List.concat_eq_append] at *
  have hlast : last ∈ init ++ [last] := by simp
  have hcols : last.length = names.length := by rw [← hrows last hlast, List.length_map]
  have hdeliver : deliver [] (init ++ [last]) = callback [] last := by
    rw [deliver_eq, List.getLast?_concat]
    rfl
  rw [hdeliver]
  constructor
  · intro hshown
    -- as many maps as rows, and a map for every column of the last row
    have hlen := hshown.length_eq
    rw [callback_eq, List.length_map, List.length_append, List.length_singleton] at hlen
    rw [callback_eq] at hshown
    have hshows := hshown.get (i := init.length) (by rw [List.length_map]; omega) (by simp)
    simp only [List.get_eq_getElem, List.getElem_map, List.getElem_concat_length] at hshows
    have hone := hshows.length (hdistinct last hlast)
    refine Or.inr ⟨?_, hcols.symm.trans hone⟩
    rw [List.length_append, List.length_singleton]
    omega
  · rintro (hnil | ⟨hone, hcol⟩)
    · simp at hnil
    · have hinit : init = [] := by simpa using hone
      obtain ⟨cv, rfl⟩ := List.length_eq_one_iff.mp (hcols.trans hcol)
      rw [hinit]
      exact shows_single cv

theorem rows_shown_seven :
    List.Forall₂ Shows (new.exec ⟨connA, rowSeven, none⟩).1.queryResults_ rowSeven :=
  (rows_shown_iff connA [ascii "id"] rowSeven rfl (List.nodup_singleton _) (by simp [rowSeven])).mpr
    (Or.inr ⟨rfl, rfl⟩)

/-- Two rows of one column. -/
def rowsSevenEight : List Row := rowSeven ++ [[(ascii "id", some (ascii "8"))]]

/-- Of two rows only the second is left. -/
theorem rows_lost :
    connA.connected_ = true ∧ (∀ row ∈ rowsSevenEight, row.map Prod.fst = [ascii "id"]) ∧
      ¬ List.Forall₂ Shows (new.exec ⟨connA, rowsSevenEight, none⟩).1.queryResults_ rowsSevenEight := by
  refine ⟨rfl, by simp [rowsSevenEight, rowSeven], fun hshown => ?_⟩
  have hlen : (new.exec ⟨connA, rowsSevenEight, none⟩).1.queryResults_.length = rowsSevenEight.length :=
    hshown.length_eq
  exact absurd hlen (by decide)

end SQLDatabase

end MarkMe
