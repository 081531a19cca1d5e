import MarkMe.Grammar

/-! What the answers of the credential check are worth.

    The check ends in one of three ways, decided by the environment and the table it meets. `Scene`
    is that meeting: after the store half of a `/store_and_get` it is not the beginning any more.
    `/check` and `/get` come to the same verdict on the same scene. A verdict without a query is the
    trouble: with no connection and no error left from before, the check denies unasked.

        sqlite3_open   error before   credential query   row        verdict
        fails          yes            not run                       silent
        fails          no             not run                       denied
        ok                            fails                         silent
        ok                            runs               found      granted
        ok                            runs               missing    denied -/

namespace MarkMe
open Text Session

/-- How the credential check ends. -/
inductive Verdict where
  | silent
  | denied
  | granted
  deriving DecidableEq

def Verdict.choose {α : Type*} (silent denied granted : α) : Verdict → α
  | .silent => silent
  | .denied => denied
  | .granted => granted

/-- What a credential check meets: the table, the `sqlite3_open` calls and the statements before it,
    and whether an error is left from these. -/
structure Scene where
  users : Users
  opens : ℕ
  calls : ℕ
  failed : Bool

namespace Scene
variable (H : Host) (e : Env) (id pass : Bytes)

/-- The `sqlite3_open` of the check succeeds. -/
def connects (m : Scene) : Bool :=
  match e.opens m.opens with
  | .ok => true
  | .fail _ _ => false

/-- The credential query fails. -/
def queryFails (m : Scene) : Bool := (e.stmts m.calls).isSome

/-- The coordinates query after it fails. -/
def readFails (m : Scene) : Bool := (e.stmts (m.calls + 1)).isSome

def verdict (m : Scene) : Verdict :=
  if m.connects e then
    if m.queryFails e then .silent
    else if Spec.credential H m.users id pass then .granted
    else .denied
  else if m.failed then .silent
  else .denied

end Scene

/-! ### The two users of the check -/

namespace Spec
variable {H : Host} {e : Env} {id pass : Bytes} {a : State}

def State.scene (a : State) : Scene := ⟨a.users, a.opens, a.calls.length, a.failed⟩

/-- The state in which the check comes to its verdict. -/
def asked (H : Host) (e : Env) (id pass : Bytes) (a : State) : State :=
  if a.connects e then a.opened.run e (.selectCredential id (hashText H pass)) else a.opened

theorem asked_users (a : State) : (asked H e id pass a).users = a.users := by
  rw [asked]
  split
  · exact run_users rfl
  · rfl

theorem asked_sent (a : State) : (asked H e id pass a).sent = a.sent := by
  rw [asked]
  split
  · exact run_sent _ _
  · rfl

theorem authenticate_verdict (deny grant : State → State) (a : State) :
    authenticate H e id pass deny grant a
      = (a.scene.verdict H e id pass).choose (asked H e id pass a) (deny (asked H e id pass a))
          (grant (asked H e id pass a)) := by
  have hconn : a.scene.connects e = a.connects e := rfl
  rw [authenticate, asked, Scene.verdict, hconn]
  cases a.connects e with
  | false => cases hf : a.failed <;> simp [State.scene, hf, Verdict.choose]
  | true =>
    have hfail : (a.opened.run e (.selectCredential id (hashText H pass))).failed = a.scene.queryFails e :=
      run_failed rfl
    have husers : (a.opened.run e (.selectCredential id (hashText H pass))).users = a.scene.users := run_users rfl
    simp only [if_true, hfail, husers]
    cases a.scene.queryFails e with
    | true => rfl
    | false => cases credential H a.scene.users id pass <;> rfl

theorem check_sent (a : State) : (checkFriendIdAndPassword H e id pass a).sent
    = a.sent ++ (a.scene.verdict H e id pass).choose [] [⟨ascii "wrong", e.writes a.sent.length⟩]
        [⟨ascii "ok", e.writes a.sent.length⟩] := by
  rw [checkFriendIdAndPassword, authenticate_verdict]
  cases a.scene.verdict H e id pass <;> simp [Verdict.choose, State.send, asked_sent]

/-- What it takes to be granted: a connection, a query that runs, and the row. -/
theorem granted_iff : a.scene.verdict H e id pass = .granted ↔
    a.connects e = true ∧ a.scene.queryFails e = false ∧ credential H a.users id pass = true := by
  have hconn : a.scene.connects e = a.connects e := rfl
  have husers : a.scene.users = a.users := rfl
  rw [Scene.verdict, hconn, husers]
  cases a.connects e <;> cases a.scene.queryFails e <;> cases credential H a.users id pass <;>
    cases a.scene.failed <;> simp

theorem asked_calls (H : Host) (id pass : Bytes) (hconn : a.connects e = true) :
    ∃ done, (asked H e id pass a).calls
      = a.calls ++ [((Query.selectCredential id (hashText H pass)).statement, done)] := by
  rw [asked, if_pos hconn]
  exact run_log _ a.opened

/-- What `/get` sends once the credentials are granted. -/
def revealed (e : Env) (id : Bytes) (a : State) : List Sent :=
  if a.scene.readFails e then []
  else [⟨coordinatesReply (a.users.coordinatesOf (decVal id)), e.writes a.sent.length⟩]

theorem get_sent (a : State) : (getFriendCoordinates H e id pass a).sent
    = a.sent ++ (a.scene.verdict H e id pass).choose [] [⟨ascii "err 1", e.writes a.sent.length⟩]
        (revealed e id a) := by
  rw [getFriendCoordinates, authenticate_verdict]
  cases hverdict : a.scene.verdict H e id pass with
  | silent => simp [Verdict.choose, asked_sent]
  | denied => simp [Verdict.choose, State.send, asked_sent]
  | granted =>
    obtain ⟨hconn, -⟩ := granted_iff.mp hverdict
    obtain ⟨done, hlog⟩ := asked_calls H id pass hconn
    have hfail : ((asked H e id pass a).run e (.selectCoordinates id)).failed = a.scene.readFails e := by
      rw [run_failed rfl, hlog, List.length_append]
      rfl
    simp only [Verdict.choose, hfail, revealed, asked_users]
    split
    · rw [run_sent, asked_sent, List.append_nil]
    · rw [State.send, run_sent, asked_sent]
      rfl

theorem denied_cases (h : a.scene.verdict H e id pass = .denied) :
    e.opens a.opens ≠ .ok ∨ credential H a.users id pass = false := by
  have hconn : a.scene.connects e = a.connects e := rfl
  rw [Scene.verdict, hconn] at h
  cases hopen : a.connects e with
  | false =>
    refine Or.inl fun hok => ?_
    rw [State.connects, hok] at hopen
    cases hopen
  | true =>
    rw [hopen] at h
    refine Or.inr (Bool.eq_false_iff.mpr fun hcred => ?_)
    have hcred : credential H a.scene.users id pass = true := hcred
    cases hfails : a.scene.queryFails e <;> simp [hfails, hcred] at h

theorem store_opens (s ip : Bytes) (a : State) : (storeCoordinates e s ip a).opens = a.opens + 1 := by
  rw [storeCoordinates]
  split
  · exact run_opens _ _
  · rfl

/-- How often the database was opened in front of the question. -/
theorem storeHalf_opens {coordinates : Option Bytes} (friend : Option (Bytes × Bytes)) {u : Users} {b : State}
    (hb : storeHalf e coordinates (start u) = .ok b) : b.opens = (Command.storeAndGet coordinates friend).asking := by
  cases coordinates with
  | none =>
    cases hb
    rfl
  | some s =>
    rw [storeHalf] at hb
    cases hip : e.remote with
    | error err =>
      rw [hip] at hb
      cases hb
    | ok ip =>
      rw [hip] at hb
      cases hb
      exact store_opens _ _ _

/-- All that a coordinates query may send. -/
theorem get_answers (id pass : Bytes) (a : State) : ∀ s ∈ (getFriendCoordinates H e id pass a).sent, s ∈ a.sent ∨
    (credential H a.users id pass = true ∧ s.data = coordinatesReply (a.users.coordinatesOf (decVal id))) ∨
    ((e.opens a.opens ≠ .ok ∨ credential H a.users id pass = false) ∧ s.data = ascii "err 1") := by
  intro s hs
  rw [get_sent, List.mem_append] at hs
  refine hs.imp_right fun hs => ?_
  cases hverdict : a.scene.verdict H e id pass with
  | silent =>
    rw [hverdict] at hs
    cases hs
  | denied =>
    rw [hverdict] at hs
    rw [List.mem_singleton.mp hs]
    exact Or.inr ⟨denied_cases hverdict, rfl⟩
  | granted =>
    obtain ⟨-, -, hcred⟩ := granted_iff.mp hverdict
    rw [hverdict, Verdict.choose, revealed] at hs
    split at hs
    · cases hs
    · rw [List.mem_singleton.mp hs]
      exact Or.inl ⟨hcred, rfl⟩

/-- And a check. -/
theorem check_answers (id pass : Bytes) (a : State) :
    ∀ s ∈ (checkFriendIdAndPassword H e id pass a).sent, s ∈ a.sent ∨
      (credential H a.users id pass = true ∧ s.data = ascii "ok") ∨
      ((e.opens a.opens ≠ .ok ∨ credential H a.users id pass = false) ∧ s.data = ascii "wrong") := by
  intro s hs
  rw [check_sent, List.mem_append] at hs
  refine hs.imp_right fun hs => ?_
  cases hverdict : a.scene.verdict H e id pass with
  | silent =>
    rw [hverdict] at hs
    cases hs
  | denied =>
    rw [hverdict] at hs
    rw [List.mem_singleton.mp hs]
    exact Or.inr ⟨denied_cases hverdict, rfl⟩
  | granted =>
    obtain ⟨-, -, hcred⟩ := granted_iff.mp hverdict
    rw [hverdict] at hs
    rw [List.mem_singleton.mp hs]
    exact Or.inl ⟨hcred, rfl⟩

end Spec

/-! ### The requests that come to a check -/

/-- The friend words of a `/get`, `/check` or `/store_and_get`, accepted by `checkFriendFormat`. -/
def Request.Presents (r : Request) (id pass : Bytes) : Prop :=
  checkFriendFormat id pass = true ∧
    ((r.header = ascii "/get" ∨ r.header = ascii "/check") ∧ words 3 r.message = [r.header, id, pass] ∨
      r.header = ascii "/store_and_get" ∧ ∃ lat lon, words 5 r.message = [r.header, lat, lon, id, pass])

/-- What the check of a request meets on this table; nothing if the store half throws. -/
def Request.scene (r : Request) (u : Users) : Option Scene :=
  match r.command.coordinates with
  | none => some ⟨u, 0, 0, false⟩
  | some s =>
    match r.env.remote with
    | .error _ => none
    | .ok ip =>
      match r.env.opens 0, r.env.stmts 0 with
      | .fail _ _, _ => some ⟨u, 1, 0, false⟩
      | .ok, some _ => some ⟨u, 1, 1, true⟩
      | .ok, none => some ⟨u.setCoordinates ip.to_string s, 1, 1, false⟩

/-- The handler that answers. -/
def Request.answer (H : Host) (r : Request) (id pass : Bytes) : Spec.State → Spec.State :=
  if r.header = ascii "/check" then Spec.checkFriendIdAndPassword H r.env id pass
  else Spec.getFriendCoordinates H r.env id pass

section
variable {H : Host} {r : Request} {id pass : Bytes} {u : Users}

theorem presents_command (hp : r.Presents id pass) :
    r.command = .get id pass ∧ r.header ≠ ascii "/check" ∨
      r.command = .check id pass ∧ r.header = ascii "/check" ∨
      ∃ coordinates, r.command = .storeAndGet coordinates (some (id, pass)) ∧ r.header ≠ ascii "/check" := by
  obtain ⟨hf, ⟨hheader, hwords⟩ | ⟨hheader, lat, lon, hwords⟩⟩ := hp
  · obtain ⟨x, y, hfive⟩ : ∃ x y, words 5 r.message = [r.header, id, pass, x, y] := by
      simp only [words, List.cons.injEq, and_true] at hwords
      exact ⟨_, _, by rw [words_five, hwords.1, hwords.2.1, hwords.2.2]⟩
    rw [Request.command, command, hfive]
    rcases hheader with hheader | hheader
    · rw [hheader, commandOf_get, if_pos hf]
      exact Or.inl ⟨rfl, by decide⟩
    · rw [hheader, commandOf_check, if_pos hf]
      exact Or.inr (Or.inl ⟨rfl, rfl⟩)
  · rw [Request.command, command, hwords, hheader, commandOf_store_and_get, if_pos hf]
    exact Or.inr (Or.inr ⟨_, rfl, by decide⟩)

/-- A `/check` in the right form presents its credentials. -/
theorem check_presents (hf : checkFriendFormat id pass = true)
    (hm : r.message = ascii "/check " ++ id ++ ascii " " ++ pass) :
    r.header = ascii "/check" ∧ r.Presents id pass := by
  have hsplit : ascii "/check " ++ id ++ ascii " " ++ pass
      = ascii "/check" ++ ascii " " ++ (id ++ ascii " " ++ pass) := by
    simp only [show ascii "/check " = ascii "/check" ++ ascii " " from rfl, List.append_assoc]
  have hwords : words 5 r.message = [ascii "/check", id, pass, [], []] := by
    rw [hm, hsplit, words_friend (by decide) (solid_of_all rfl) hf]
  rw [words_five] at hwords
  simp only [List.cons.injEq] at hwords
  obtain ⟨hheader, hid, hpass, -⟩ := hwords
  exact ⟨hheader, hf, Or.inl ⟨Or.inr hheader, by simp only [words, Request.header, hid, hpass]⟩⟩

/-- Such a request is its store half and then the check. -/
theorem presents_handle (hp : r.Presents id pass) :
    Spec.handle H r.env r.command (Spec.start u)
      = (Spec.storeHalf r.env r.command.coordinates (Spec.start u)).map (r.answer H id pass) := by
  rw [Request.answer]
  rcases presents_command hp with ⟨hcommand, hheader⟩ | ⟨hcommand, hheader⟩ | ⟨coordinates, hcommand, hheader⟩
  · rw [hcommand, if_neg hheader]
    rfl
  · rw [hcommand, if_pos hheader]
    rfl
  · rw [hcommand, if_neg hheader]
    rfl

/-- The state behind a scene: nothing is sent, and at most one update of coordinates has been run. -/
structure Spec.Reached (u : Users) (m : Scene) (a : Spec.State) : Prop where
  scene : a.scene = m
  sent : a.sent = []
  calls : ∀ p ∈ a.calls, ∃ s ip, p.1.sql = (Query.updateCoordinates s ip).text
  users : a.users = u ∨ ∃ s ip, a.users = u.setCoordinates ip s

/-- The store half leads to the scene of the request. -/
theorem store_half_scene (r : Request) (u : Users) :
    (∃ m a, r.scene u = some m ∧ Spec.storeHalf r.env r.command.coordinates (Spec.start u) = .ok a ∧
      Spec.Reached u m a) ∨
    r.scene u = none ∧ ∃ err, Spec.storeHalf r.env r.command.coordinates (Spec.start u) = .error err := by
  rw [Request.scene]
  cases r.command.coordinates with
  | none => exact Or.inl ⟨_, _, rfl, rfl, rfl, rfl, by simp [Spec.start], Or.inl rfl⟩
  | some s =>
    rw [Spec.storeHalf]
    cases r.env.remote with
    | error err => exact Or.inr ⟨rfl, err, rfl⟩
    | ok ip =>
      refine Or.inl ?_
      dsimp only [Except.map]
      rw [Spec.storeCoordinates, Spec.State.connects]
      cases ho : r.env.opens 0 with
      | fail code null =>
        have hopen : r.env.opens (Spec.start u).opens = .fail code null := ho
        rw [hopen]
        exact ⟨_, _, rfl, rfl, rfl, rfl, by simp [Spec.start, Spec.State.opened], Or.inl rfl⟩
      | ok =>
        have hopen : r.env.opens (Spec.start u).opens = .ok := ho
        rw [hopen]
        have hstmt : r.env.stmts (Spec.start u).opened.calls.length = r.env.stmts 0 := rfl
        have hrun := Spec.run_eq (e := r.env) (q := .updateCoordinates s ip.to_string) (a := (Spec.start u).opened) rfl
        rw [hstmt] at hrun
        have hlog : ∀ done : Bool, ∀ p ∈ [((Query.updateCoordinates s ip.to_string).statement, done)],
            ∃ s ip, p.1.sql = (Query.updateCoordinates s ip).text := fun done p hp =>
          ⟨s, ip.to_string, congrArg (fun q : Statement × Bool => q.1.sql) (List.mem_singleton.mp hp)⟩
        rw [if_pos rfl, hrun]
        cases r.env.stmts 0 with
        | some err => exact ⟨_, _, rfl, rfl, rfl, rfl, hlog false, Or.inl rfl⟩
        | none => exact ⟨_, _, rfl, rfl, rfl, rfl, hlog true, Or.inr ⟨s, ip.to_string, rfl⟩⟩

theorem answer_users (r : Request) (a : Spec.State) : (r.answer H id pass a).users = a.users := by
  rw [Request.answer]
  split
  · rw [Spec.checkFriendIdAndPassword, Spec.authenticate_verdict]
    cases a.scene.verdict H r.env id pass <;> simp [Verdict.choose, Spec.State.send, Spec.asked_users]
  · rw [Spec.getFriendCoordinates, Spec.authenticate_verdict]
    cases a.scene.verdict H r.env id pass with
    | silent => exact Spec.asked_users a
    | denied => exact Spec.asked_users a
    | granted =>
      have hread := run_users (e := r.env) (q := .selectCoordinates id) (a := Spec.asked H r.env id pass a) rfl
      simp only [Verdict.choose]
      split <;> exact hread.trans (Spec.asked_users a)

/-- A request with credentials is its answer on its scene, and nothing at all without a scene. -/
theorem presents_outcome (hp : r.Presents id pass) (H : Host) (u : Users) :
    (∃ m a, r.scene u = some m ∧ Spec.Reached u m a ∧ (handleRequest H u r).1 = a.users ∧
      (handleRequest H u r).2.sent = (r.answer H id pass a).sent ∧
      (handleRequest H u r).2.execs.map ExecCall.view = (r.answer H id pass a).calls) ∨
    r.scene u = none ∧ (handleRequest H u r).2.sent = [] := by
  have hreq : Spec.request H u r
      = (Spec.storeHalf r.env r.command.coordinates (Spec.start u)).map (r.answer H id pass) := by
    rw [Spec.request, presents_handle hp]
  rcases store_half_scene r u with ⟨m, a, hm, hhalf, hreached⟩ | ⟨hnone, err, hhalf⟩
  · rw [hhalf] at hreq
    obtain ⟨husers, hcalls, hsent⟩ := request_done hreq
    exact Or.inl ⟨m, a, hm, hreached, husers.trans (answer_users r a), hsent, hcalls⟩
  · rw [hhalf] at hreq
    exact Or.inr ⟨hnone, (request_threw hreq).2.2⟩

/-- The row of the id, if it holds the hash. -/
theorem credential_row : Spec.credential H u id pass = true ↔
    ∃ row ∈ u.rows, row.id = decVal id ∧ row.password = some (hashText H pass) := by
  rw [Spec.credential, Option.any_eq_true]
  constructor
  · rintro ⟨row, hfind, hpass⟩
    obtain ⟨hrow, hid⟩ := Users.find_some.mp hfind
    exact ⟨row, hrow, hid, eq_of_beq hpass⟩
  · rintro ⟨row, hrow, hid, hpass⟩
    exact ⟨row, Users.find_some.mpr ⟨hrow, hid⟩, by rw [hpass]; exact beq_self_eq_true _⟩

/-- Coordinates do not matter for the credentials. -/
theorem credential_set (u : Users) (ip s : Bytes) :
    Spec.credential H (u.setCoordinates ip s) id pass = Spec.credential H u id pass := by
  have hset : (Query.updateCoordinates s ip).effect u = some (u.setCoordinates ip s) := rfl
  rw [Bool.eq_iff_iff, credential_iff, credential_iff, effect_passwordOf hset (by simp)]

theorem Spec.Reached.credential {m : Scene} {a : Spec.State} (h : Spec.Reached u m a) :
    Spec.credential H m.users id pass = Spec.credential H u id pass := by
  have husers : m.users = a.users := by rw [← h.scene]; rfl
  rw [husers]
  rcases h.users with heq | ⟨s, ip, heq⟩
  · rw [heq]
  · rw [heq, credential_set]

/-! ### Database failures and wrong passwords -/

/-- A refusal by the credentials is for a table without that row, and a refusal by the coordinates
    for a row without coordinates. -/
structure Honest (H : Host) (id pass : Bytes) (u : Users) (sent : List Sent) : Prop where
  denied : ∀ s ∈ sent, s.data = ascii "err 1" ∨ s.data = ascii "wrong" →
    ¬ ∃ row ∈ u.rows, row.id = decVal id ∧ row.password = some (hashText H pass)
  bare : ∀ s ∈ sent, s.data = ascii "err 2" →
    ∃ row ∈ u.rows, row.id = decVal id ∧ row.password = some (hashText H pass) ∧ row.coordinates = none

/-- Stored coordinates that are taken for a refusal. -/
def refusals : List Bytes := [ascii "NULL", ascii "err 1", ascii "err 2", ascii "wrong"]

/-- The row holds the hash, and either the connection fails with no error left from before, or the
    coordinates are read and look like a refusal. -/
def Scene.Misreports (H : Host) (e : Env) (id pass : Bytes) (reads : Prop) (m : Scene) : Prop :=
  Spec.credential H m.users id pass = true ∧
    (m.connects e = false ∧ m.failed = false ∨
      reads ∧ m.connects e = true ∧ m.queryFails e = false ∧ m.readFails e = false ∧
        ∃ s, m.users.coordinatesOf (decVal id) = some s ∧ cstr s ∈ refusals)

/-- What goes wrong, by the verdict. -/
theorem misreports_verdict {e : Env} {reads : Prop} {m : Scene} : m.Misreports H e id pass reads ↔
    (m.verdict H e id pass).choose False (Spec.credential H m.users id pass = true)
      (reads ∧ m.readFails e = false ∧ ∃ s, m.users.coordinatesOf (decVal id) = some s ∧ cstr s ∈ refusals) := by
  rw [Scene.Misreports, Scene.verdict]
  cases m.connects e <;> cases m.queryFails e <;> cases Spec.credential H m.users id pass <;>
    cases m.failed <;> simp [Verdict.choose]

/-- Nothing said. -/
theorem Honest.nil (H : Host) (id pass : Bytes) (u : Users) : Honest H id pass u [] := ⟨by simp, by simp⟩

/-- No refusal. -/
theorem Honest.other {d : Bytes} {ok : Bool} (hd : d ∉ [ascii "err 1", ascii "err 2", ascii "wrong"]) :
    Honest H id pass u [⟨d, ok⟩] := by
  simp only [List.mem_cons, List.not_mem_nil, or_false, not_or] at hd
  obtain ⟨hone, htwo, hwrong⟩ := hd
  refine ⟨fun s hs hdenied => ?_, fun s hs hbare => ?_⟩
  · rw [List.mem_singleton.mp hs] at hdenied
    exact (hdenied.elim hone hwrong).elim
  · rw [List.mem_singleton.mp hs] at hbare
    exact absurd hbare htwo

theorem honest_denied {d : Bytes} {ok : Bool} (hd : d = ascii "err 1" ∨ d = ascii "wrong") :
    Honest H id pass u [⟨d, ok⟩] ↔ Spec.credential H u id pass = false := by
  rw [← Bool.not_eq_true, credential_row]
  constructor
  · intro h
    exact h.denied _ (List.mem_singleton_self _) hd
  · intro h
    refine ⟨fun _ _ _ => h, fun s hs hbare => ?_⟩
    rw [List.mem_singleton.mp hs] at hbare
    have hne : ascii "err 1" ≠ ascii "err 2" ∧ ascii "wrong" ≠ ascii "err 2" := by decide
    rcases hd with rfl | rfl
    · exact absurd hbare hne.1
    · exact absurd hbare hne.2

/-- The one row that holds the hash says what the id's coordinates are. -/
theorem credential_coordinates (h : Spec.credential H u id pass = true) :
    (∃ row ∈ u.rows, row.id = decVal id ∧ row.password = some (hashText H pass) ∧ row.coordinates = none)
      ↔ u.coordinatesOf (decVal id) = none := by
  obtain ⟨row, hrow, hid, hpass⟩ := credential_row.mp h
  have hcoord : u.coordinatesOf (decVal id) = row.coordinates := by
    rw [Users.coordinatesOf, Users.find_some.mpr ⟨hrow, hid⟩, Option.bind_some]
  rw [hcoord]
  constructor
  · rintro ⟨row', hrow', hid', -, hnone⟩
    rwa [Users.eq_of_id hrow hrow' (hid.trans hid'.symm)]
  · exact fun hnone => ⟨row, hrow, hid, hpass, hnone⟩

theorem honest_revealed {ok : Bool} (h : Spec.credential H u id pass = true) :
    Honest H id pass u [⟨Spec.coordinatesReply (u.coordinatesOf (decVal id)), ok⟩] ↔
      ¬ ∃ s, u.coordinatesOf (decVal id) = some s ∧ cstr s ∈ refusals := by
  have hrow := credential_coordinates h
  have hwords : ascii "err 2" ≠ ascii "err 1" ∧ ascii "err 2" ≠ ascii "wrong" := by decide
  cases hcoord : u.coordinatesOf (decVal id) with
  | none =>
    refine ⟨fun _ => by simp, fun _ => ⟨fun s hs hdenied => ?_, fun _ _ _ => hrow.mpr hcoord⟩⟩
    rw [List.mem_singleton.mp hs] at hdenied
    exact (hdenied.elim hwords.1 hwords.2).elim
  | some s =>
    have hbare : ¬ ∃ row ∈ u.rows, row.id = decVal id ∧ row.password = some (hashText H pass) ∧
        row.coordinates = none := by
      rw [hrow, hcoord]
      simp
    -- with coordinates in the row, no refusal is true
    have hany : ∀ d : Bytes, Honest H id pass u [⟨d, ok⟩] ↔ d ∉ [ascii "err 1", ascii "err 2", ascii "wrong"] := by
      intro d
      have hsent : (⟨d, ok⟩ : Sent) ∈ [⟨d, ok⟩] := List.mem_singleton_self _
      refine ⟨fun hhonest => ?_, Honest.other⟩
      simp only [List.mem_cons, List.not_mem_nil, or_false, not_or]
      refine ⟨fun hd => ?_, fun hd => ?_, fun hd => ?_⟩
      · exact hhonest.denied _ hsent (Or.inl hd) (credential_row.mp h)
      · exact hbare (hhonest.bare _ hsent hd)
      · exact hhonest.denied _ hsent (Or.inr hd) (credential_row.mp h)
    rw [hany, Spec.coordinatesReply, refusals]
    simp only [Option.some.injEq, exists_eq_left']
    by_cases hnull : cstr s = ascii "NULL"
    · simp [hnull]
    · simp [hnull, beq_false_of_ne hnull]

/-- An answer is honest on its scene exactly if the scene is none of the misreported ones. -/
theorem scene_honest_iff {m : Scene} {a : Spec.State} (h : Spec.Reached u m a) :
    Honest H id pass a.users (r.answer H id pass a).sent
      ↔ ¬ m.Misreports H r.env id pass (r.header ≠ ascii "/check") := by
  have husers : m.users = a.users := by rw [← h.scene]; rfl
  have hgranted : a.scene.verdict H r.env id pass = .granted ↔ _ := Spec.granted_iff
  rw [h.scene] at hgranted
  rw [misreports_verdict, husers, Request.answer]
  by_cases hheader : r.header = ascii "/check"
  · rw [if_pos hheader, Spec.check_sent, h.sent, h.scene, List.nil_append]
    cases m.verdict H r.env id pass with
    | silent => exact iff_of_true (Honest.nil _ _ _ _) not_false
    | denied => simpa [Verdict.choose] using honest_denied (Or.inr rfl)
    | granted => exact iff_of_true (Honest.other (by decide)) fun hreads => hreads.1 hheader
  · rw [if_neg hheader, Spec.get_sent, h.sent, h.scene, List.nil_append]
    cases hverdict : m.verdict H r.env id pass with
    | silent => exact iff_of_true (Honest.nil _ _ _ _) not_false
    | denied => simpa [Verdict.choose] using honest_denied (Or.inl rfl)
    | granted =>
      obtain ⟨-, -, hcred⟩ := hgranted.mp hverdict
      simp only [Verdict.choose, Spec.revealed, h.scene]
      cases m.readFails r.env with
      | true => simpa using Honest.nil _ _ _ _
      | false => simpa [hheader] using honest_revealed hcred

/-- A `/get`, `/check` or `/store_and_get` reports a wrong password or missing coordinates truthfully
    exactly if it is not misreported. -/
theorem answers_honest_iff (H : Host) (u : Users) (r : Request) (id pass : Bytes) (hp : r.Presents id pass) :
    Honest H id pass (handleRequest H u r).1 (handleRequest H u r).2.sent
      ↔ ∀ m ∈ r.scene u, ¬ m.Misreports H r.env id pass (r.header ≠ ascii "/check") := by
  rcases presents_outcome hp H u with ⟨m, a, hm, hreached, husers, hsent, -⟩ | ⟨hnone, hsent⟩
  · rw [husers, hsent, hm]
    simpa using scene_honest_iff hreached
  · rw [hsent, hnone]
    exact iff_of_true (Honest.nil _ _ _ _) (by simp)

/-! ### The two paths -/

/-- The request has SQLite read the coordinates of the id. -/
def Outcome.ReadsCoordinates (H : Host) (id : Bytes) (o : Outcome) : Prop :=
  ∃ x ∈ o.execs, x.sql = SQLDatabase.formatQueryString H selectCoordinates [id]

/-- A `/check` and a `/get` come to the same. -/
structure PathsAgree (H : Host) (id : Bytes) (check get : Outcome) : Prop where
  wrong : (∃ s ∈ check.sent, s.data = ascii "wrong") ↔ ∃ s ∈ get.sent, s.data = ascii "err 1"
  ok : (∃ s ∈ check.sent, s.data = ascii "ok") ↔ get.ReadsCoordinates H id
  silent : check.sent = [] ↔ get.sent = [] ∧ ¬ get.ReadsCoordinates H id

/-- The coordinates query is told from the other two by its eighth byte at the latest. -/
theorem text_ne_read (id : Bytes) :
    (∀ i p, (Query.selectCredential i p).text ≠ (Query.selectCoordinates id).text) ∧
      ∀ s ip, (Query.updateCoordinates s ip).text ≠ (Query.selectCoordinates id).text := by
  have hread : (Query.selectCoordinates id).text.take 8 = ascii "SELECT c" := rfl
  constructor
  · intro i p heq
    have htake : (Query.selectCredential i p).text.take 8 = ascii "SELECT i" := rfl
    rw [heq, hread] at htake
    exact absurd htake (by decide)
  · intro s ip heq
    have htake : (Query.updateCoordinates s ip).text.take 8 = ascii "UPDATE u" := rfl
    rw [heq, hread] at htake
    exact absurd htake (by decide)

namespace Spec
variable {e : Env} {a : State}

/-- The check itself reads no coordinates. -/
theorem asked_reads (ha : ∀ p ∈ a.calls, p.1.sql ≠ (Query.selectCoordinates id).text) :
    ∀ p ∈ (asked H e id pass a).calls, p.1.sql ≠ (Query.selectCoordinates id).text := by
  cases hconn : a.connects e with
  | false =>
    rw [asked, hconn]
    exact ha
  | true =>
    obtain ⟨done, hlog⟩ := asked_calls H id pass hconn
    rw [hlog]
    intro p hp
    rcases List.mem_append.mp hp with hp | hp
    · exact ha p hp
    · rw [List.mem_singleton.mp hp]
      exact (text_ne_read id).1 _ _

/-- The coordinates are read exactly when the credentials are granted. -/
theorem get_reads_iff (ha : ∀ p ∈ a.calls, p.1.sql ≠ (Query.selectCoordinates id).text) :
    (∃ p ∈ (getFriendCoordinates H e id pass a).calls, p.1.sql = (Query.selectCoordinates id).text)
      ↔ a.scene.verdict H e id pass = .granted := by
  have hasked : ¬ ∃ p ∈ (asked H e id pass a).calls, p.1.sql = (Query.selectCoordinates id).text := by
    rintro ⟨p, hp, heq⟩
    exact asked_reads ha p hp heq
  rw [getFriendCoordinates, authenticate_verdict]
  cases a.scene.verdict H e id pass with
  | silent => exact iff_of_false hasked (by simp)
  | denied => exact iff_of_false hasked (by simp)
  | granted =>
    obtain ⟨done, hlog⟩ := run_log (e := e) (.selectCoordinates id) (asked H e id pass a)
    refine iff_of_true ⟨((Query.selectCoordinates id).statement, done), ?_, rfl⟩ rfl
    simp only [Verdict.choose]
    split
    · rw [hlog]
      simp
    · rw [State.send, hlog]
      simp

end Spec

/-- The reply for stored coordinates in the right form is no refusal of the credentials. -/
theorem reply_ne_denied {o : Option Bytes} (h : ∀ s ∈ o, IsCoordinates s) :
    Spec.coordinatesReply o ≠ ascii "err 1" := by
  cases o with
  | none => decide
  | some s =>
    have hs : IsCoordinates s := h s rfl
    rw [Spec.coordinatesReply]
    split
    · decide
    · rw [cstr_eq_self (coordinates_safe hs).no_nul]
      intro heq
      exact word_not_coordinates (d := ascii "err 1") (by simp) (heq ▸ hs)

/-- Without an error left behind, the verdict depends on the environment and the credentials only. -/
theorem verdict_congr {e e' : Env} {m m' : Scene} (hopen : e.opens m.opens = e'.opens m'.opens)
    (hstmt : e.stmts m.calls = e'.stmts m'.calls) (hm : m.failed = false) (hm' : m'.failed = false)
    (hcred : Spec.credential H m.users id pass = Spec.credential H m'.users id pass) :
    m.verdict H e id pass = m'.verdict H e' id pass := by
  rw [Scene.verdict, Scene.verdict, Scene.connects, Scene.connects, hopen, Scene.queryFails, Scene.queryFails,
    hstmt, hm, hm', hcred]

/-- The store half was refused or ran without any failure. -/
def Request.StoresWell (r : Request) : Prop :=
  r.command.coordinates = none ∨
    (∃ ip, r.env.remote = .ok ip) ∧ r.env.opens 0 = .ok ∧ r.env.stmts 0 = none

theorem scene_stores_well (h : r.StoresWell) (u : Users) : ∃ m, r.scene u = some m ∧ m.failed = false := by
  rw [Request.scene]
  rcases h with hnone | ⟨⟨ip, hip⟩, hopen, hstmt⟩
  · rw [hnone]
    exact ⟨_, rfl, rfl⟩
  · rw [hip, hopen, hstmt]
    cases r.command.coordinates with
    | none => exact ⟨_, rfl, rfl⟩
    | some s => exact ⟨_, rfl, rfl⟩

theorem scene_check (hp : r.Presents id pass) (hheader : r.header = ascii "/check") (u : Users) :
    r.scene u = some ⟨u, 0, 0, false⟩ := by
  have hnone : r.command.coordinates = none := by
    rcases presents_command hp with ⟨-, hne⟩ | ⟨hcommand, -⟩ | ⟨_, -, hne⟩
    · exact absurd hheader hne
    · rw [hcommand]
      rfl
    · exact absurd hheader hne
  rw [Request.scene, hnone]

/-- A request that answers by `/get` reads the coordinates when the credentials are granted. -/
theorem reads_granted {m : Scene} {a : Spec.State} {o : Outcome} (hget : r.header ≠ ascii "/check")
    (h : Spec.Reached u m a) (hcalls : o.execs.map ExecCall.view = (r.answer H id pass a).calls) :
    o.ReadsCoordinates H id ↔ a.scene.verdict H r.env id pass = .granted := by
  have hnot : ∀ p ∈ a.calls, p.1.sql ≠ (Query.selectCoordinates id).text := by
    intro p hp
    obtain ⟨s, ip, heq⟩ := h.calls p hp
    rw [heq]
    exact (text_ne_read id).2 s ip
  have htext : SQLDatabase.formatQueryString H selectCoordinates [id] = (Query.selectCoordinates id).text :=
    query_text H (.selectCoordinates id)
  rw [Request.answer, if_neg hget] at hcalls
  rw [← Spec.get_reads_iff hnot, Outcome.ReadsCoordinates, htext, ← hcalls]
  simp [ExecCall.view]

/-- On any table of a run, `/check` and `/get` agree when their connection and their credential query turn
    out alike, and so does the get part of a `/store_and_get` whose store was refused or went well. -/
theorem paths_agree (H : Host) (reqs : List Request) {check get : Request} {id pass : Bytes}
    (hcheck : check.Presents id pass) (hcheck' : check.header = ascii "/check")
    (hget : get.Presents id pass) (hget' : get.header ≠ ascii "/check") (hstore : get.StoresWell)
    (hsame : ∀ m ∈ get.scene (tableAfter H reqs),
      get.env.opens m.opens = check.env.opens 0 ∧ get.env.stmts m.calls = check.env.stmts 0) :
    PathsAgree H id (handleRequest H (tableAfter H reqs) check).2 (handleRequest H (tableAfter H reqs) get).2 := by
  generalize hu : tableAfter H reqs = u at hsame ⊢
  have hgood : ∀ row ∈ u.rows, row.Good := hu ▸ (run_grammar H reqs).1
  obtain ⟨m', hm', hfailed⟩ := scene_stores_well hstore u
  obtain ⟨hopen, hstmt⟩ := hsame m' hm'
  have hscene := scene_check hcheck hcheck' u
  rcases presents_outcome hcheck H u with ⟨m, a, hm, hreached, -, hsent, -⟩ | ⟨hnone, -⟩
  swap
  · rw [hscene] at hnone
    cases hnone
  rcases presents_outcome hget H u with ⟨_, a', hm'', hreached', husers', hsent', hcalls'⟩ | ⟨hnone, -⟩
  swap
  · rw [hm'] at hnone
    cases hnone
  obtain rfl : m' = _ := Option.some.inj (hm'.symm.trans hm'')
  obtain rfl : _ = m := Option.some.inj (hscene.symm.trans hm)
  have hverdict : a'.scene.verdict H get.env id pass = a.scene.verdict H check.env id pass := by
    rw [hreached.scene, hreached'.scene]
    exact verdict_congr hopen hstmt hfailed rfl hreached'.credential
  have hreply : Spec.coordinatesReply (a'.users.coordinatesOf (decVal id)) ≠ ascii "err 1" := by
    refine reply_ne_denied fun s hs => ?_
    obtain ⟨row, hfind, hcoord⟩ := Option.bind_eq_some_iff.mp hs
    have hrow := (request_grammar H hgood get).1 row (husers' ▸ (Users.find_some.mp hfind).1)
    exact hrow.coordinates s hcoord
  have hreads := reads_granted hget' hreached' hcalls'
  rw [Request.answer, if_pos hcheck', Spec.check_sent, hreached.sent, List.nil_append] at hsent
  rw [Request.answer, if_neg hget', Spec.get_sent, hreached'.sent, List.nil_append] at hsent'
  have hwords : ascii "ok" ≠ ascii "wrong" := by decide
  rw [hverdict] at hreads hsent'
  cases hv : a.scene.verdict H check.env id pass with
  | silent =>
    rw [hv] at hsent hsent' hreads
    constructor <;> simp [hsent, hsent', hreads, Verdict.choose]
  | denied =>
    rw [hv] at hsent hsent' hreads
    constructor <;> simp [hsent, hsent', hreads, Verdict.choose, hwords.symm]
  | granted =>
    rw [hv] at hsent hsent' hreads
    constructor <;> simp [hsent, hsent', hreads, Verdict.choose, hwords, Spec.revealed, hreply]

end

/-- User 1 with the password "a". -/
def userOne : Users := Users.single ⟨1, some (ascii "10.0.0.1"), some (hashText Host.small (ascii "a")), none⟩ (by decide)

/-- A client whose `sqlite3_open` calls fail. -/
def Request.unopened (ip : Address) (bytes : Bytes) (fits : bytes.length ≤ BUFFER_SIZE_IN_BYTES) : Request :=
  ⟨⟨.ok ip, fun _ => .fail ⟨14, by decide⟩ false, fun _ => none, fun _ => true, initA.env.draws⟩, .data bytes fits⟩

theorem answers_honest_calm : Honest Host.small (ascii "1") (ascii "a")
    (handleRequest Host.small userOne (Request.calm clientA (ascii "/check 1 a") (by decide))).1
    (handleRequest Host.small userOne (Request.calm clientA (ascii "/check 1 a") (by decide))).2.sent := by
  have hfriend : checkFriendFormat (ascii "1") (ascii "a") = true := by decide
  obtain ⟨hheader, hp⟩ := check_presents (r := Request.calm clientA (ascii "/check 1 a") (by decide)) hfriend rfl
  refine (answers_honest_iff Host.small userOne _ _ _ hp).mpr ?_
  rintro m ⟨⟩ ⟨-, ⟨habs, -⟩ | ⟨hread, -⟩⟩
  · cases habs
  · exact hread hheader

theorem paths_agree_first :
    PathsAgree Host.small (ascii "1")
      (handleRequest Host.small (tableAfter Host.small [initA])
        (Request.calm clientB (ascii "/check 1 00000000") (by decide))).2
      (handleRequest Host.small (tableAfter Host.small [initA])
        (Request.calm clientB (ascii "/store_and_get 1.5 2.5 1 00000000") (by decide))).2 := by
  have hfriend : checkFriendFormat (ascii "1") (ascii "00000000") = true := by decide
  obtain ⟨hheader, hcheck⟩ :=
    check_presents (r := Request.calm clientB (ascii "/check 1 00000000") (by decide)) hfriend rfl
  have hget : (Request.calm clientB (ascii "/store_and_get 1.5 2.5 1 00000000") (by decide)).Presents (ascii "1")
      (ascii "00000000") :=
    ⟨hfriend, Or.inr ⟨by decide +kernel, ascii "1.5", ascii "2.5", by decide +kernel⟩⟩
  exact paths_agree Host.small [initA] hcheck hheader hget (by decide +kernel)
    (Or.inr ⟨⟨clientB, rfl⟩, rfl, rfl⟩) fun _ _ => ⟨rfl, rfl⟩

/-- The right password is called wrong when the database cannot be opened. -/
theorem answers_misreported :
    (Request.unopened clientA (ascii "/check 1 a") (by decide)).Presents (ascii "1") (ascii "a") ∧
    ¬ Honest Host.small (ascii "1") (ascii "a")
      (handleRequest Host.small userOne (Request.unopened clientA (ascii "/check 1 a") (by decide))).1
      (handleRequest Host.small userOne (Request.unopened clientA (ascii "/check 1 a") (by decide))).2.sent := by
  refine ⟨(check_presents (by decide) rfl).2, fun hhonest => ?_⟩
  have hsent : (handleRequest Host.small userOne
      (Request.unopened clientA (ascii "/check 1 a") (by decide))).2.sent = [⟨ascii "wrong", true⟩] := by
    decide +kernel
  have hrow : ∃ row ∈ (handleRequest Host.small userOne
      (Request.unopened clientA (ascii "/check 1 a") (by decide))).1.rows,
      row.id = decVal (ascii "1") ∧ row.password = some (hashText Host.small (ascii "a")) := by
    decide +kernel
  exact hhonest.denied ⟨ascii "wrong", true⟩ (by rw [hsent]; exact List.mem_singleton_self _) (Or.inr rfl) hrow

end MarkMe
