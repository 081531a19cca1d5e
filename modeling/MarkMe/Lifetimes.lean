import MarkMe.Connections
import MarkMe.Status

/-! The life of one `SQLConnection`, from its constructor to its destructor.

    Both overloads of `open`, `close`, guards that come and go and `execute` of any database, in any
    order. Whatever happens, a handle is closed once at most, and only an open one is used: after a
    failed open `db_` still points to a closed handle, and `connected_` keeps everybody away from it.
    Not every handle is closed, though. `open(file)` on an open connection to another file takes the
    new handle and forgets the old one.

        connected_   db_         handles not closed
        true         d           d, and those forgotten by open(file)
        false        anything    those forgotten by open(file) -/

namespace MarkMe
open Text

namespace SQLConnection

/-- The destructor. -/
def destroy (c : SQLConnection) (h : Handles) : SQLConnection × Handles := c.close h

end SQLConnection

/-- The constructor of a guard. -/
def UniqueSQLConnection.new (conn : SQLConnection) (o : OpenOutcome) (h : Handles) : SQLConnection × Handles :=
  ((conn.open_ o h).1, (conn.open_ o h).2.1)

/-- Its destructor. -/
def UniqueSQLConnection.destroy (conn : SQLConnection) (h : Handles) : SQLConnection × Handles := conn.close h

/-- What is done with a connection while it lives. All guards hold the same reference, so they may end
    in any order. -/
inductive Use where
  | call (op : ConnOp)
  | guard (o : OpenOutcome)
  | unguard
  /-- `execute` of a numbered database, and what `sqlite3_exec` does if it is called. -/
  | execute (d : ℕ) (rows : List Row) (error : Option SqlError)

structure Life where
  connection : SQLConnection
  databases : ℕ → SQLDatabase
  handles : Handles

namespace Life

/-- `SQLConnection()` is the one without a file name. -/
def new (file : Bytes) : Life := ⟨.new file, fun _ => .new, ⟨[], []⟩⟩

def become (s : Life) (r : SQLConnection × Handles) : Life := { s with connection := r.1, handles := r.2 }

def step (s : Life) : Use → Life × Option (Option Handle)
  | .call op => (s.become (s.connection.apply s.handles op), none)
  | .guard o => (s.become (UniqueSQLConnection.new s.connection o s.handles), none)
  | .unguard => (s.become (UniqueSQLConnection.destroy s.connection s.handles), none)
  | .execute d rows error =>
    let c : Call := ⟨s.connection, rows, error⟩
    ({ s with databases := Function.update s.databases d ((s.databases d).exec c).1 }, SQLDatabase.passed c.conn)

def destroy (s : Life) : Life := s.become (s.connection.destroy s.handles)

/-- A life after some uses. -/
abbrev after (file : Bytes) (uses : List Use) : Life := Machine.final step (new file) uses

abbrev historyOf (file : Bytes) (uses : List Use) : List (Machine.Event Life Use (Option (Option Handle))) :=
  Machine.trace step (new file) uses

end Life

/-- The two ends of a handler are such a guard. -/
theorem guard_ends (e : Env) (s : St) (body : St → St) :
    (s.guarded e).dbConnection_
        = (UniqueSQLConnection.new s.dbConnection_ (e.opens s.handles.opened.length) s.handles).1 ∧
      (Session.withConnection e body s).dbConnection_
        = (UniqueSQLConnection.destroy (body (s.guarded e)).dbConnection_ (body (s.guarded e)).handles).1 :=
  ⟨rfl, rfl⟩

/-! ### Handles are used while they are open -/

/-- Handles are closed once at most, and an open connection has one that is not closed. -/
structure Safe (c : SQLConnection) (h : Handles) : Prop where
  given : ∀ d, some d ∈ h.opened → d < h.opened.length
  returned : ∀ d ∈ h.closed, some d ∈ h.opened
  once : h.closed.Nodup
  current : c.connected_ = true → ∃ d, c.db_ = some d ∧ some d ∈ h.opened ∧ d ∉ h.closed

namespace Safe
variable {c : SQLConnection} {h : Handles}

theorem new (file : Bytes) : Safe (.new file) ⟨[], []⟩ :=
  ⟨by simp, by simp, List.nodup_nil, by simp [SQLConnection.new]⟩

/-- The next handle has not been closed. -/
theorem fresh (hs : Safe c h) : h.opened.length ∉ h.closed := fun hmem =>
  absurd (hs.given _ (hs.returned _ hmem)) (Nat.lt_irrefl _)

theorem given_open (hs : Safe c h) {x : Option Handle} (hx : ∀ d ∈ x, d = h.opened.length) :
    ∀ d, some d ∈ h.opened ++ [x] → d < (h.opened ++ [x]).length := by
  intro d hd
  rw [List.length_append, List.length_singleton]
  rcases List.mem_append.mp hd with hd | hd
  · exact (hs.given d hd).trans (Nat.lt_succ_self _)
  · rw [hx d (List.mem_singleton.mp hd).symm]
    exact Nat.lt_succ_self _

/-- `sqlite3_open` is safe whatever became of the handle before. -/
theorem connect (hs : Safe c h) (o : OpenOutcome) : Safe (c.connect o h).1 (c.connect o h).2.1 := by
  have hold : ∀ (x : Option Handle), ∀ d ∈ h.closed, some d ∈ h.opened ++ [x] := fun x d hd =>
    List.mem_append_left _ (hs.returned d hd)
  have hnew : some h.opened.length ∈ h.opened ++ [some h.opened.length] :=
    List.mem_append_right _ (List.mem_singleton_self _)
  rcases c.connect_cases o h with ⟨hc, hh⟩ | ⟨code, ⟨hc, hh⟩ | ⟨hc, hh⟩⟩
  · rw [hc, hh]
    exact ⟨hs.given_open (by simp), hold _, hs.once, fun _ => ⟨_, rfl, hnew, hs.fresh⟩⟩
  · rw [hc, hh]
    exact ⟨hs.given_open (by simp), hold _, hs.once, by simp⟩
  · rw [hc, hh]
    refine ⟨hs.given_open (by simp), fun d hd => ?_, ?_, by simp⟩
    · rcases List.mem_append.mp hd with hd | hd
      · exact hold _ d hd
      · rw [List.mem_singleton.mp hd]
        exact hnew
    · exact List.nodup_append.mpr ⟨hs.once, List.nodup_singleton _, fun d hd d' hd' heq =>
        hs.fresh (List.mem_singleton.mp hd' ▸ heq ▸ hd)⟩

theorem open_ (hs : Safe c h) (o : OpenOutcome) : Safe (c.open_ o h).1 (c.open_ o h).2.1 := by
  rw [SQLConnection.open_]
  split
  · exact hs
  · split
    · exact hs
    · exact hs.connect o

/-- The handle of an open connection has not been closed yet. -/
theorem close (hs : Safe c h) : Safe (c.close h).1 (c.close h).2 := by
  rw [SQLConnection.close]
  cases hc : c.connected_ with
  | false => exact hs
  | true =>
    obtain ⟨d, hdb, hmem, hopen⟩ := hs.current hc
    rw [hdb]
    refine ⟨hs.given, fun d' hd => ?_, ?_, by simp⟩
    · rcases List.mem_append.mp hd with hd | hd
      · exact hs.returned d' hd
      · rw [List.mem_singleton.mp hd]
        exact hmem
    · exact List.nodup_append.mpr ⟨hs.once, List.nodup_singleton _, fun d' hd d'' hd' heq =>
        hopen (List.mem_singleton.mp hd' ▸ heq ▸ hd)⟩

theorem openFile (hs : Safe c h) (file : Bytes) (o : OpenOutcome) :
    Safe (c.openFile file o h).1 (c.openFile file o h).2.1 := by
  rw [SQLConnection.openFile]
  split
  · exact hs
  · split
    · exact hs.close
    · have hnamed : Safe { c with filename_ := file } h := ⟨hs.given, hs.returned, hs.once, hs.current⟩
      exact hnamed.connect o

end Safe

namespace Life
variable {s : Life}

theorem safe_step (s : Life) (u : Use) (hs : Safe s.connection s.handles) :
    Safe (s.step u).1.connection (s.step u).1.handles := by
  cases u with
  | call op =>
    cases op with
    | open_ o => exact hs.open_ o
    | openFile file o => exact hs.openFile file o
    | close => exact hs.close
  | guard o => exact hs.open_ o
  | unguard => exact hs.close
  | execute d rows error => exact hs

theorem safe_after (file : Bytes) (uses : List Use) :
    Safe (after file uses).connection (after file uses).handles :=
  Machine.inv_final (I := fun s : Life => Safe s.connection s.handles) safe_step uses (Safe.new file)

/-- What `execute` passes to SQLite is an open handle. -/
theorem passed_open (hs : Safe s.connection s.handles) {u : Use} {p : Option Handle} (hp : (s.step u).2 = some p) :
    ∃ d, p = some d ∧ some d ∈ s.handles.opened ∧ d ∉ s.handles.closed := by
  cases u with
  | call op => cases hp
  | guard o => cases hp
  | unguard => cases hp
  | execute d rows error =>
    have hpassed : SQLDatabase.passed s.connection = some p := hp
    cases hc : s.connection.connected_ with
    | false =>
      rw [SQLDatabase.passed_closed hc] at hpassed
      cases hpassed
    | true =>
      rw [SQLDatabase.passed_connected hc] at hpassed
      obtain ⟨d, hdb, hmem, hopen⟩ := hs.current hc
      exact ⟨d, (Option.some.inj hpassed).symm.trans hdb, hmem, hopen⟩

/-- No handle is closed twice, its destructor included, and no `execute` uses one that is closed. -/
theorem handles_safe (file : Bytes) (uses : List Use) :
    (after file uses).handles.closed.Nodup ∧ (after file uses).destroy.handles.closed.Nodup ∧
      ∀ ev ∈ historyOf file uses, ∀ p, ev.out = some p →
        ∃ d, p = some d ∧ some d ∈ ev.pre.handles.opened ∧ d ∉ ev.pre.handles.closed := by
  have hs := safe_after file uses
  refine ⟨hs.once, hs.close.once, fun ev hev p hp => ?_⟩
  obtain ⟨before, u, _, _, rfl⟩ := Machine.exists_of_mem_trace hev
  exact passed_open (safe_after file before) hp

/-! ### Handles that are forgotten -/

/-- The handles not yet closed are the one of the open connection. -/
def Accounted (s : Life) : Prop :=
  ∀ d, some d ∈ s.handles.opened ∧ d ∉ s.handles.closed ↔
    s.connection.isConnected = true ∧ s.connection.getHandle = some d

/-- An open connection is opened on another file. -/
def Replaces (s : Life) (u : Use) : Prop :=
  ∃ file o, u = .call (.openFile file o) ∧ s.connection.isConnected = true ∧ file ≠ [] ∧
    s.connection.filename_ ≠ file

/-- What the invariant of a request says about the handles. -/
theorem accounted_of_balanced (hb : Balanced s.connection s.handles) : s.Accounted := by
  intro d
  have hgiven : some d ∈ s.handles.opened ↔ d ∈ s.handles.given := by simp [Handles.given]
  have hnodup : (s.handles.closed ++ s.connection.current.toList).Nodup := hb.balanced ▸ hb.nodup
  have hcurrent : d ∈ s.connection.current.toList ↔
      s.connection.isConnected = true ∧ s.connection.getHandle = some d := by
    rw [SQLConnection.current, SQLConnection.isConnected, SQLConnection.getHandle]
    cases s.connection.connected_ <;> simp
  rw [hgiven, ← hb.balanced, List.mem_append, ← hcurrent]
  constructor
  · rintro ⟨hd | hd, hopen⟩
    · exact absurd hd hopen
    · exact hd
  · intro hd
    exact ⟨Or.inr hd, fun hclosed => (List.nodup_append.mp hnodup).2.2 d hclosed d hd rfl⟩

/-- Opening on a file is only dangerous while another one is open. -/
theorem balanced_openFile {c : SQLConnection} {h : Handles} (hb : Balanced c h) {file : Bytes} (o : OpenOutcome)
    (hfile : c.connected_ = true → file ≠ [] → c.filename_ = file) :
    Balanced (c.openFile file o h).1 (c.openFile file o h).2.1 := by
  rw [SQLConnection.openFile]
  split
  · exact hb
  · rename_i hother
    split
    · exact hb.close.1
    · rename_i hne
      have hc : c.connected_ = false := by
        rw [Bool.eq_false_iff]
        intro hc
        exact hother (by simp [hc, hfile hc hne])
      have hnamed : Balanced { c with filename_ := file } h := ⟨hb.numbered, hb.balanced⟩
      exact hnamed.connect hc o

theorem balanced_step {u : Use} (hb : Balanced s.connection s.handles) (hu : ¬ s.Replaces u) :
    Balanced (s.step u).1.connection (s.step u).1.handles := by
  cases u with
  | call op =>
    cases op with
    | open_ o => exact hb.open_ o
    | openFile file o =>
      refine balanced_openFile hb o fun hc hne => ?_
      by_contra hother
      exact hu ⟨file, o, rfl, hc, hne, hother⟩
    | close => exact hb.close.1
  | guard o => exact hb.open_ o
  | unguard => exact hb.close.1
  | execute d rows error => exact hb

/-- The handle of the replaced connection stays open, and `db_` does not point to it any more. -/
theorem replaced_lost {u : Use} (hs : Safe s.connection s.handles) (hu : s.Replaces u) :
    ¬ (s.step u).1.Accounted := by
  obtain ⟨file, o, rfl, hc, hne, hother⟩ := hu
  obtain ⟨d, -, hmem, hopen⟩ := hs.current hc
  have hlt := hs.given d hmem
  have hstep : (s.step (.call (.openFile file o))).1
      = s.become ((SQLConnection.connect { s.connection with filename_ := file } o s.handles).1,
          (SQLConnection.connect { s.connection with filename_ := file } o s.handles).2.1) := by
    have hnot : (s.connection.connected_ && s.connection.filename_ == file) = false := by simp [hother]
    simp only [step, SQLConnection.apply, SQLConnection.openFile, hnot, if_neg hne, Bool.false_eq_true, if_false]
  rw [hstep]
  intro hacc
  have hd := (hacc d).mp
  rcases SQLConnection.connect_cases { s.connection with filename_ := file } o s.handles with
    ⟨hc', hh⟩ | ⟨code, ⟨hc', hh⟩ | ⟨hc', hh⟩⟩
  · simp only [become, hc', hh, SQLConnection.getHandle] at hd
    obtain ⟨-, heq⟩ := hd ⟨List.mem_append_left _ hmem, hopen⟩
    exact absurd (Option.some.inj heq) (Nat.ne_of_gt hlt)
  · simp only [become, hc', hh, SQLConnection.isConnected] at hd
    exact Bool.false_ne_true (hd ⟨List.mem_append_left _ hmem, hopen⟩).1
  · simp only [become, hc', hh, SQLConnection.isConnected] at hd
    have hopen' : d ∉ s.handles.closed ++ [s.handles.opened.length] := by
      simp [hopen, Nat.ne_of_lt hlt]
    exact Bool.false_ne_true (hd ⟨List.mem_append_left _ hmem, hopen'⟩).1

/-- The first connection of all is forgotten when another file is opened. -/
theorem leak_switch :
    let s := after (ascii "users.db") [.call (.open_ .ok), .call (.openFile (ascii "backup.db") .ok)]
    ¬ s.Accounted ∧ some 0 ∈ s.destroy.handles.opened ∧ 0 ∉ s.destroy.handles.closed := by
  intro s
  refine ⟨fun hacc => ?_, by decide, by decide⟩
  have hlost := ((hacc 0).mp ⟨by decide, by decide⟩).2
  revert hlost
  decide

/-- Every handle is accounted for in every state of a life, and closed at its end, exactly if no open
    connection is opened on another file. -/
theorem no_leak_iff (file : Bytes) (uses : List Use) :
    ((∀ ev ∈ historyOf file uses, ev.post.Accounted) ∧
        ∀ d, some d ∈ (after file uses).destroy.handles.opened → d ∈ (after file uses).destroy.handles.closed)
      ↔ ∀ ev ∈ historyOf file uses, ¬ ev.pre.Replaces ev.input := by
  have hall : (∀ ev ∈ historyOf file uses, ev.post.Accounted) ↔ ∀ ev ∈ historyOf file uses, ¬ ev.pre.Replaces ev.input := by
    refine Machine.shown_iff_guard
      (I := fun s : Life => Safe s.connection s.handles ∧ Balanced s.connection s.handles)
      (G := fun ev => ¬ ev.pre.Replaces ev.input) (fun s u hs hu => ?_) (fun s u hs => ?_)
      ⟨Safe.new file, Balanced.new file⟩
    · exact ⟨safe_step s u hs.1, balanced_step hs.2 hu⟩
    · exact ⟨fun hacc hu => replaced_lost hs.1 hu hacc, fun hu => accounted_of_balanced (balanced_step hs.2 hu)⟩
  rw [hall, and_iff_left_iff_imp]
  intro hguard d hd
  have hb : Balanced (after file uses).connection (after file uses).handles :=
    Machine.inv_of_guard (I := fun s : Life => Balanced s.connection s.handles)
      (fun _ _ hs hu => balanced_step hs hu) (Balanced.new file) hguard
  obtain ⟨hclose, hc⟩ := hb.close
  have hacc : (after file uses).destroy.Accounted := accounted_of_balanced hclose
  by_contra hopen
  have hconn := ((hacc d).mp ⟨hd, hopen⟩).1
  rw [SQLConnection.isConnected, show (after file uses).destroy.connection.connected_ = false from hc] at hconn
  cases hconn

end Life

end MarkMe
