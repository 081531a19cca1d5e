import MarkMe.SQLConnection
import Mathlib.Data.List.Induction

/-! `SQLDatabase`: the result vector, the last error, and running a statement.

    The row callback clears the vector and then adds one single-entry map per column, so after a
    statement that delivers rows the vector holds the columns of the last row, and after one that
    delivers none it is untouched. `deliver_eq` says both. -/

namespace MarkMe
open Text

/-- `std::map<std::string, std::string>`, as its entries. -/
abbrev StrMap := List (Bytes × Bytes)

/-- `emplace`: an existing key keeps its value. -/
def StrMap.emplace (m : StrMap) (k v : Bytes) : StrMap :=
  if (m.lookup k).isSome then m else m ++ [(k, v)]

/-- `operator[]`, read: a missing key reads as the empty string. -/
def StrMap.at (m : StrMap) (k : Bytes) : Bytes := (m.lookup k).getD []

abbrev SQLQueryResults := List StrMap

structure SQLDatabase where
  queryResults_ : SQLQueryResults
  lastErrorStr_ : Bytes
  lastErrorCode_ : ℤ

namespace SQLDatabase

def new : SQLDatabase := ⟨[], [], 0⟩

/-- The row callback. `query_results` is `&queryResults_`, never null. Column names and values
    arrive as C strings. -/
def callback (_results : SQLQueryResults) (row : Row) : SQLQueryResults :=
  row.foldl (fun results cv =>
    results ++ [StrMap.emplace [] (cstr cv.1) (cstr (cv.2.getD (ascii "NULL")))]) []

/-- `sqlite3_exec` calls the callback once for every row. -/
def deliver (results : SQLQueryResults) (rows : List Row) : SQLQueryResults :=
  rows.foldl callback results

/-- The handle that `execute` passes to `sqlite3_exec`; on a closed connection it does not get there. -/
def passed (conn : SQLConnection) : Option (Option Handle) :=
  if !conn.isConnected then none else some conn.getHandle

/-- `execute(conn, query)` on what `sqlite3_exec` answers to the text of the query. -/
def execute (d : SQLDatabase) (conn : SQLConnection) (u : Users)
    (answer : Except SqlError (Users × List Row)) : SQLDatabase × Users × Bool :=
  match passed conn with
  | none => (d, u, false)
  | some _ =>
    match answer with
    | .ok (u', rows) =>
      ({ d with queryResults_ := deliver d.queryResults_ rows, lastErrorCode_ := 0 }, u', true)
    | .error err =>
      ({ d with lastErrorCode_ := err.code, lastErrorStr_ := err.msg.getD d.lastErrorStr_ }, u, false)

/-- `formatQueryString(query, args...)`. -/
def formatQueryString (H : Host) (query : Bytes) : List Bytes → Bytes
  | [] => query
  | args => H.format query args

theorem passed_connected {conn : SQLConnection} (h : conn.connected_ = true) : passed conn = some conn.db_ := by
  rw [passed, SQLConnection.isConnected, h]
  rfl

theorem passed_closed {conn : SQLConnection} (h : conn.connected_ = false) : passed conn = none := by
  rw [passed, SQLConnection.isConnected, h]
  rfl

/-- The entries of one row, in column order. -/
theorem callback_eq (results : SQLQueryResults) (row : Row) :
    callback results row = row.map fun cv => [(cstr cv.1, cstr (cv.2.getD (ascii "NULL")))] := by
  have key : ∀ (row : Row) (acc : SQLQueryResults),
      row.foldl (fun results cv =>
          results ++ [StrMap.emplace [] (cstr cv.1) (cstr (cv.2.getD (ascii "NULL")))]) acc
        = acc ++ row.map fun cv => [(cstr cv.1, cstr (cv.2.getD (ascii "NULL")))] := by
    intro row
    induction row with
    | nil => intro acc; simp
    | cons cv row ih =>
      intro acc
      rw [List.foldl_cons, ih, List.map_cons, List.append_assoc]
      rfl
  exact key row []

/-- Only the last row leaves a trace, and no row leaves the vector as it was. -/
theorem deliver_eq (results : SQLQueryResults) (rows : List Row) :
    deliver results rows = (rows.getLast?.map (callback [])).getD results := by
  induction rows using List.reverseRecOn with
  | nil => rfl
  | append_singleton rows row _ =>
    rw [deliver, List.foldl_append, List.foldl_cons, List.foldl_nil, List.getLast?_concat]
    simp only [callback_eq, Option.map_some, Option.getD_some]

end SQLDatabase

end MarkMe
