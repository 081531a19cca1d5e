import MarkMe.Results

/-! The two reports of an `execute` call: what it returns, and `getLastErrorCode()` after it.

    Any connections and any databases, opened, closed and used in any order. A call that reaches
    SQLite writes the code and returns by it. A call on a closed connection returns false and leaves
    the code as it was, which is 0 on an object that is new or whose last statement went well.

        execute     returns    code
        ran         true       0
        failed      false      SQLite's
        closed      false      as before -/

namespace MarkMe
open Text

/-- What is done to one connection. -/
inductive ConnOp where
  | open_ (o : OpenOutcome)
  | openFile (file : Bytes) (o : OpenOutcome)
  | close

def SQLConnection.apply (c : SQLConnection) (h : Handles) : ConnOp → SQLConnection × Handles
  | .open_ o => ((c.open_ o h).1, (c.open_ o h).2.1)
  | .openFile file o => ((c.openFile file o h).1, (c.openFile file o h).2.1)
  | .close => c.close h

/-- One operation of a program, on a numbered connection and a numbered database. -/
inductive Operation where
  | connection (c : ℕ) (op : ConnOp)
  /-- `execute`, and what `sqlite3_exec` does if it is called. -/
  | execute (d c : ℕ) (rows : List Row) (error : Option SqlError)

structure Objects where
  connections : ℕ → SQLConnection
  databases : ℕ → SQLDatabase
  handles : Handles

/-- What is known right after an `execute`. -/
structure Status where
  returned : Bool
  /-- `getLastErrorCode()`. -/
  code : ℤ
  /-- SQLite ran the statement successfully. -/
  ran : Bool

structure Status.Agrees (st : Status) : Prop where
  code : st.returned = true ↔ st.code = 0
  ran : st.returned = true ↔ st.ran = true

namespace Objects

def new (files : ℕ → Bytes) : Objects := ⟨fun c => .new (files c), fun _ => .new, ⟨[], []⟩⟩

def step (s : Objects) : Operation → Objects × Option Status
  | .connection c op =>
    let (conn, h) := (s.connections c).apply s.handles op
    ({ s with connections := Function.update s.connections c conn, handles := h }, none)
  | .execute d c rows error =>
    let (db, returned) := (s.databases d).exec ⟨s.connections c, rows, error⟩
    ({ s with databases := Function.update s.databases d db },
      some ⟨returned, db.lastErrorCode_, (s.connections c).connected_ && error.isNone⟩)

/-- A call is made on an open connection, or on a database that has an error already. -/
def Described (s : Objects) : Operation → Prop
  | .connection _ _ => True
  | .execute d c _ _ => (s.connections c).connected_ = true ∨ (s.databases d).lastErrorCode_ ≠ 0

/-- An `execute` that reaches SQLite is described by both reports. -/
theorem exec_agrees {d : SQLDatabase} {conn : SQLConnection} (hconn : conn.connected_ = true) (rows : List Row)
    (error : Option SqlError) :
    Status.Agrees ⟨(d.exec ⟨conn, rows, error⟩).2, (d.exec ⟨conn, rows, error⟩).1.lastErrorCode_,
      conn.connected_ && error.isNone⟩ := by
  cases error with
  | none => constructor <;> simp [SQLDatabase.exec, SQLDatabase.passed_connected hconn, hconn]
  | some err =>
    have hcode : err.code.1 ≠ 0 := err.code.2
    constructor <;> simp [SQLDatabase.exec, SQLDatabase.passed_connected hconn, hcode]

/-- One that does not reports false next to the old code. -/
theorem exec_closed {d : SQLDatabase} {conn : SQLConnection} (hconn : conn.connected_ = false) (rows : List Row)
    (error : Option SqlError) : d.exec ⟨conn, rows, error⟩ = (d, false) := by
  rw [SQLDatabase.exec, SQLDatabase.passed_closed hconn]

theorem step_agrees_iff (s : Objects) (op : Operation) :
    (∀ st, (s.step op).2 = some st → st.Agrees) ↔ s.Described op := by
  cases op with
  | connection c op => simp [step, Described]
  | execute d c rows error =>
    have hout : (s.step (.execute d c rows error)).2
        = some ⟨((s.databases d).exec ⟨s.connections c, rows, error⟩).2,
          ((s.databases d).exec ⟨s.connections c, rows, error⟩).1.lastErrorCode_,
          (s.connections c).connected_ && error.isNone⟩ := rfl
    rw [hout]
    simp only [Option.some.injEq, forall_eq', Described]
    cases hconn : (s.connections c).connected_ with
    | true =>
      have hagrees := exec_agrees (d := s.databases d) hconn rows error
      rw [hconn] at hagrees
      exact ⟨fun _ => Or.inl rfl, fun _ => hagrees⟩
    | false =>
      rw [exec_closed hconn]
      constructor
      · intro hagrees
        refine Or.inr fun hzero => ?_
        exact absurd (hagrees.code.mpr hzero) Bool.false_ne_true
      · rintro (habs | hcode)
        · exact absurd habs Bool.false_ne_true
        · exact ⟨by simpa using hcode, by simp⟩

/-- In any run the reports of all calls agree exactly if no call meets a closed connection and a
    stored 0. -/
theorem status_agrees_iff (files : ℕ → Bytes) (ops : List Operation) :
    (∀ ev ∈ Machine.trace step (new files) ops, ∀ st, ev.out = some st → st.Agrees)
      ↔ ∀ ev ∈ Machine.trace step (new files) ops, ev.pre.Described ev.input := by
  refine forall₂_congr fun ev hev => ?_
  obtain ⟨_, op, _, _, rfl⟩ := Machine.exists_of_mem_trace hev
  exact step_agrees_iff _ op

/-- A first `execute` on a connection that is not open. -/
theorem status_unconnected :
    ∃ ev ∈ Machine.trace step (new fun _ => ascii "users.db") [.execute 0 0 [] none],
      ∃ st, ev.out = some st ∧ st.returned = false ∧ st.code = 0 ∧ ¬ st.Agrees := by
  refine ⟨_, List.mem_singleton_self _, ⟨false, 0, false⟩, rfl, rfl, rfl, fun hagrees => ?_⟩
  exact absurd (hagrees.code.mpr rfl) Bool.false_ne_true

end Objects

end MarkMe
