import Mathlib.Logic.Relation
import MarkMe.Requests

/-! What a request may do, action by action.

    A handler opens the connection, runs statements and writes replies. `May` says which of these a
    command permits in which state, and `handle_acts` says that a handler does nothing else. So an
    invariant of requests needs one argument for each permitted action; how the branches of the
    handlers fit together is settled here. `Query.touch` is the same kind of fact about a single
    statement: what it makes of each row that is there already.

        start ──open──▶ · ──run q──▶ · ──run q'──▶ · ──send d──▶ end       every arrow permitted -/

namespace MarkMe
open Text Session

/-! ### One statement, row by row -/

/-- What a statement makes of a row of the table. -/
def Query.touch (r : User) : Query → User
  | .updatePassword pass id => if r.id == decVal id then r.set .password pass else r
  | .updateCoordinates coordinates ip => if r.ip == some ip then r.set .coordinates coordinates else r
  | _ => r

namespace Users

theorem find_setWhere (u : Users) (sel : User → Bool) (c : TextColumn) (x : Bytes) (v : ℕ) :
    (u.setWhere sel c x).find v = (u.find v).map fun r => if sel r then r.set c x else r := by
  have hid : (fun r : User => r.id == v) ∘ (fun r => if sel r then r.set c x else r) = fun r => r.id == v := by
    funext r
    simp only [Function.comp]
    split <;> simp
  rw [find, setWhere, List.find?_map, hid, find]

theorem find_addIp {u u' : Users} {ip : Bytes} (h : u.addIp ip = some u') (v : ℕ) :
    u'.find v = if v = u.seq + 1 then some ⟨v, some ip, none, none⟩ else u.find v := by
  obtain ⟨hlt, rfl⟩ : ∃ hlt, u.insertRow .ip ip hlt = u' := by
    rw [addIp] at h
    split at h
    · exact ⟨_, Option.some.inj h⟩
    · cases h
  rw [find, insertRow, List.find?_append, ← find]
  split
  · rename_i hv
    have hnone : u.find v = none := find_none.mpr fun r hr => by
      have := u.bounded r hr
      omega
    rw [hnone, hv]
    simp [User.blank, User.set]
  · rename_i hv
    have hv' : (u.seq + 1 == v) = false := by simpa using fun h => hv h.symm
    simp [User.blank, hv']

/-- A row just inserted is found by its address. -/
theorem lastAt_addIp {u u' : Users} {ip : Bytes} (h : u.addIp ip = some u') : ∃ v, u'.lastAt ip = some v := by
  have hrow := find_addIp h (u.seq + 1)
  rw [if_pos rfl] at hrow
  cases hlast : u'.lastAt ip with
  | some v => exact ⟨v, rfl⟩
  | none => exact absurd rfl (lastAt_none.mp hlast _ (find_some.mp hrow).1)

theorem lastAt_setPassword (u : Users) (v : ℕ) (pass ip : Bytes) :
    (u.setPassword v pass).lastAt ip = u.lastAt ip := by
  have hsel : (fun r : User => r.ip == some ip) ∘ (fun r => if r.id == v then r.set .password pass else r)
      = fun r => r.ip == some ip := by
    funext r
    simp only [Function.comp]
    split <;> rfl
  rw [lastAt, setPassword, setWhere, List.filter_map, hsel, List.getLast?_map, Option.map_map, lastAt]
  congr 1
  funext r
  simp only [Function.comp]
  split <;> rfl

end Users

/-- A row stays, touched. -/
theorem effect_kept {q : Query} {u u' : Users} {v : ℕ} {r : User} (h : q.effect u = some u')
    (hr : u.find v = some r) : u'.find v = some (q.touch r) := by
  have hid : r.id = v := (Users.find_some.mp hr).2
  cases q with
  | insertIp ip =>
    have hv : v ≠ u.seq + 1 := by
      have := u.bounded r (Users.find_some.mp hr).1
      omega
    rw [Users.find_addIp h, if_neg hv, hr]
    rfl
  | updatePassword pass id =>
    cases h
    rw [Users.setPassword, Users.find_setWhere, hr]
    rfl
  | updateCoordinates coordinates ip =>
    cases h
    rw [Users.setCoordinates, Users.find_setWhere, hr]
    rfl
  | selectIdByIp ip => cases h; exact hr
  | selectCredential id pass => cases h; exact hr
  | selectCoordinates id => cases h; exact hr

/-- A new row is a fresh id with an address and nothing else. -/
theorem effect_new {q : Query} {u u' : Users} {v : ℕ} (h : q.effect u = some u')
    (hr : u.find v = none) :
    u'.find v = none ∨ ∃ ip, q = .insertIp ip ∧ u'.find v = some ⟨v, some ip, none, none⟩ := by
  cases q with
  | insertIp ip =>
    rw [Users.find_addIp h]
    split
    · exact Or.inr ⟨ip, rfl, rfl⟩
    · exact Or.inl hr
  | updatePassword pass id =>
    cases h
    rw [Users.setPassword, Users.find_setWhere, hr]
    exact Or.inl rfl
  | updateCoordinates coordinates ip =>
    cases h
    rw [Users.setCoordinates, Users.find_setWhere, hr]
    exact Or.inl rfl
  | selectIdByIp ip => cases h; exact Or.inl hr
  | selectCredential id pass => cases h; exact Or.inl hr
  | selectCoordinates id => cases h; exact Or.inl hr

theorem touch_id (q : Query) (r : User) : (q.touch r).id = r.id := by
  cases q <;> simp only [Query.touch] <;> split <;> simp

theorem touch_ip (q : Query) (r : User) : (q.touch r).ip = r.ip := by
  cases q <;> simp only [Query.touch] <;> split <;> simp [User.set]

/-- An id never changes hands. -/
theorem effect_ownerOf {q : Query} {u u' : Users} {v : ℕ} {ip : Bytes} (h : q.effect u = some u')
    (hv : u.ownerOf v = some ip) : u'.ownerOf v = some ip := by
  obtain ⟨r, hr, hip⟩ := Users.ownerOf_some.mp hv
  exact Users.ownerOf_some.mpr ⟨_, effect_kept h hr, (touch_ip q r).trans hip⟩

/-- Only a password update of its id changes a stored hash. -/
theorem effect_passwordOf {q : Query} {u u' : Users} {v : ℕ} (h : q.effect u = some u')
    (hq : ∀ pass id, q = .updatePassword pass id → decVal id ≠ v) : u'.passwordOf v = u.passwordOf v := by
  rw [Users.passwordOf, Users.passwordOf]
  cases hr : u.find v with
  | none =>
    rcases effect_new h hr with hnone | ⟨ip, -, hnew⟩
    · rw [hnone]
    · rw [hnew]
      rfl
  | some r =>
    rw [effect_kept h hr, Option.bind_some, Option.bind_some]
    cases q with
    | updatePassword pass id =>
      have hne : r.id ≠ decVal id := by
        rw [(Users.find_some.mp hr).2]
        exact (hq pass id rfl).symm
      simp [Query.touch, hne]
    | updateCoordinates coordinates ip =>
      rw [Query.touch]
      split <;> rfl
    | _ => rfl

/-- Only a coordinates update of its address changes the coordinates of a row. -/
theorem effect_coordinatesOf {q : Query} {u u' : Users} {v : ℕ} {ip : Bytes} (h : q.effect u = some u')
    (hv : u.ownerOf v = some ip) (hq : ∀ s, q ≠ .updateCoordinates s ip) :
    u'.coordinatesOf v = u.coordinatesOf v := by
  obtain ⟨r, hr, hip⟩ := Users.ownerOf_some.mp hv
  rw [Users.coordinatesOf, Users.coordinatesOf, effect_kept h hr, hr, Option.bind_some, Option.bind_some]
  cases q with
  | updateCoordinates s ip' =>
    have hne : r.ip ≠ some ip' := by
      rw [hip]
      rintro ⟨⟩
      exact hq s rfl
    simp [Query.touch, hne]
  | updatePassword pass id =>
    rw [Query.touch]
    split <;> rfl
  | _ => rfl

theorem coordinatesOf_set {u : Users} {v : ℕ} {ip : Bytes} (hv : u.ownerOf v = some ip) (s : Bytes) :
    (u.setCoordinates ip s).coordinatesOf v = some s := by
  obtain ⟨r, hr, hip⟩ := Users.ownerOf_some.mp hv
  rw [Users.coordinatesOf, Users.setCoordinates, Users.find_setWhere, hr]
  simp [hip, User.set]

/-- The credential check compares with the stored hash. -/
theorem credential_iff {H : Host} {u : Users} {id pass : Bytes} :
    Spec.credential H u id pass = true ↔ u.passwordOf (decVal id) = some (hashText H pass) := by
  rw [Spec.credential, Users.passwordOf]
  cases u.find (decVal id) <;> simp

/-! ### Permitted actions -/

/-- The friend a command asks for coordinates of. -/
def Command.friend : Command → Option (Bytes × Bytes)
  | .get id pass => some (id, pass)
  | .storeAndGet _ friend => friend
  | _ => none

/-- The credentials a command presents. -/
def Command.credentials : Command → Option (Bytes × Bytes)
  | .check id pass => some (id, pass)
  | c => c.friend

/-- The coordinates a command stores. -/
def Command.coordinates : Command → Option Bytes
  | .storeAndGet coordinates _ => coordinates
  | _ => none

/-- The number of the `sqlite3_open` in front of the answer: a command that stores has made one before. -/
def Command.asking (c : Command) : ℕ := if c.coordinates.isSome then 1 else 0

/-- The arguments of a command passed the validators. -/
structure Command.Valid (c : Command) : Prop where
  credentials : ∀ f ∈ c.credentials, checkFriendFormat f.1 f.2 = true
  coordinates : ∀ s ∈ c.coordinates, IsCoordinates s

theorem command_valid (data : Bytes) : (command data).Valid := by
  have hread := reads_message data
  have hlat := word_no_space (afterWord data)
  generalize command data = c at hread ⊢
  cases hread with
  | init => exact ⟨by simp [Command.credentials, Command.friend], by simp [Command.coordinates]⟩
  | nothing => exact ⟨by simp [Command.credentials, Command.friend], by simp [Command.coordinates]⟩
  | get _ h => exact ⟨by simpa [Command.credentials, Command.friend] using h, by simp [Command.coordinates]⟩
  | check _ h => exact ⟨by simpa [Command.credentials] using h, by simp [Command.coordinates]⟩
  | storeAndGet _ hs hf =>
    constructor
    · intro f hmem
      obtain ⟨rfl, h⟩ := hf f hmem
      exact h
    · intro s hmem
      obtain ⟨rfl, h⟩ := hs s hmem
      obtain ⟨hlat', hlon⟩ := (check_pair hlat).mp h
      exact ⟨_, _, hlat', hlon, rfl⟩

namespace Spec

inductive Action where
  | open_
  | run (q : Query)
  | send (data : Bytes)

def Action.take (e : Env) : Action → State → State
  | .open_, a => a.opened
  | .run q, a => a.run e q
  | .send data, a => a.send e data

/-- What a request of command `c` may do in state `a`. -/
inductive May (H : Host) (e : Env) : Command → State → Action → Prop
  | open_ {c : Command} {a : State} : May H e c a .open_
  | lookup {a : State} {ip : Address} : e.remote = .ok ip →
      May H e .init a (.run (.selectIdByIp ip.to_string))
  | insert {a : State} {ip : Address} : e.remote = .ok ip →
      May H e .init a (.run (.insertIp ip.to_string))
  /-- The id comes from a row of the client's own address. -/
  | commit {a : State} {ip : Address} {v : ℕ} : e.remote = .ok ip →
      a.users.lastAt ip.to_string = some v →
      May H e .init a (.run (.updatePassword (hashText H (password e)) (toDec v)))
  | welcome {a : State} {ip : Address} {v : ℕ} : e.remote = .ok ip →
      a.users.lastAt ip.to_string = some v →
      ((Query.updatePassword (hashText H (password e)) (toDec v)).statement, true) ∈ a.calls →
      May H e .init a (.send (toDec v ++ ascii " " ++ password e))
  | store {c : Command} {a : State} {ip : Address} {s : Bytes} : e.remote = .ok ip →
      c.coordinates = some s → May H e c a (.run (.updateCoordinates s ip.to_string))
  | credential {c : Command} {a : State} {id pass : Bytes} : c.credentials = some (id, pass) →
      May H e c a (.run (.selectCredential id (hashText H pass)))
  | verdict {a : State} {id pass d : Bytes} : d = ascii "ok" ∨ d = ascii "wrong" →
      May H e (.check id pass) a (.send d)
  | read {c : Command} {a : State} {id pass : Bytes} : c.friend = some (id, pass) →
      May H e c a (.run (.selectCoordinates id))
  | refusal {c : Command} {a : State} {f : Bytes × Bytes} {d : Bytes} : c.friend = some f →
      d = ascii "err 1" ∨ d = ascii "err 2" → May H e c a (.send d)
  | reveal {c : Command} {a : State} {f : Bytes × Bytes} {r : User} {s : Bytes} : c.friend = some f →
      r ∈ a.users.rows → r.coordinates = some s → cstr s ≠ ascii "NULL" → May H e c a (.send (cstr s))

def Step (H : Host) (e : Env) (c : Command) (a b : State) : Prop :=
  ∃ x, May H e c a x ∧ b = x.take e a

/-- `b` comes from `a` by permitted actions. -/
def Acts (H : Host) (e : Env) (c : Command) : State → State → Prop := Relation.ReflTransGen (Step H e c)

section
variable {H : Host} {e : Env} {c : Command} {a b : State}

theorem acts_take {x : Action} (h : Acts H e c a b) (hx : May H e c b x) : Acts H e c a (x.take e b) :=
  h.tail ⟨x, hx, rfl⟩

/-- A property kept by every permitted action is kept by a handler. -/
theorem acts_inv {I : State → Prop} (hstep : ∀ a x, May H e c a x → I a → I (x.take e a))
    (h : Acts H e c a b) (ha : I a) : I b := by
  induction h with
  | refl => exact ha
  | tail _ hbc ih =>
    obtain ⟨x, hx, rfl⟩ := hbc
    exact hstep _ x hx ih

/-- A statement is carried out and takes effect, or it is logged as failed and nothing changes. -/
theorem run_cases (q : Query) (a : State) :
    (∃ u, q.effect a.users = some u ∧ e.stmts a.calls.length = none ∧ a.run e q
      = { a with users := u, calls := a.calls ++ [(q.statement, true)], failed := false }) ∨
    a.run e q = { a with calls := a.calls ++ [(q.statement, false)], failed := true } := by
  rw [State.run]
  cases hs : e.stmts a.calls.length with
  | some err => exact Or.inr rfl
  | none =>
    cases he : q.effect a.users with
    | none => exact Or.inr rfl
    | some u => exact Or.inl ⟨u, rfl, rfl, rfl⟩

/-- A statement that is no password update of `v` leaves its stored hash. -/
theorem run_passwordOf {q : Query} {v : ℕ} (hq : ∀ pass id, q = .updatePassword pass id → decVal id ≠ v)
    (a : State) : (a.run e q).users.passwordOf v = a.users.passwordOf v := by
  rcases run_cases (e := e) q a with ⟨u, hu, -, heq⟩ | heq
  · rw [heq]
    exact effect_passwordOf hu hq
  · rw [heq]

theorem run_ownerOf {q : Query} {v : ℕ} {ip : Bytes} (hv : a.users.ownerOf v = some ip) :
    (a.run e q).users.ownerOf v = some ip := by
  rcases run_cases (e := e) q a with ⟨u, hu, -, heq⟩ | heq
  · rw [heq]
    exact effect_ownerOf hu hv
  · rw [heq]
    exact hv

theorem run_sent (q : Query) (a : State) : (a.run e q).sent = a.sent := by
  rcases run_cases (e := e) q a with ⟨u, -, -, heq⟩ | heq <;> rw [heq]

theorem run_opens (q : Query) (a : State) : (a.run e q).opens = a.opens := by
  rcases run_cases (e := e) q a with ⟨u, -, -, heq⟩ | heq <;> rw [heq]

/-- A statement that has an effect fails only if SQLite does. -/
theorem run_eq {q : Query} {u : Users} (hq : q.effect a.users = some u) :
    a.run e q = if (e.stmts a.calls.length).isSome
      then { a with calls := a.calls ++ [(q.statement, false)], failed := true }
      else { a with users := u, calls := a.calls ++ [(q.statement, true)], failed := false } := by
  rw [State.run, hq]
  cases e.stmts a.calls.length <;> rfl

theorem run_failed {q : Query} {u : Users} (hq : q.effect a.users = some u) :
    (a.run e q).failed = (e.stmts a.calls.length).isSome := by
  rw [run_eq hq]
  split <;> simp [*]

theorem run_log (q : Query) (a : State) : ∃ done, (a.run e q).calls = a.calls ++ [(q.statement, done)] := by
  rcases run_cases (e := e) q a with ⟨u, -, -, heq⟩ | heq <;> rw [heq] <;> exact ⟨_, rfl⟩

/-- The log only grows. -/
theorem run_calls {p : Statement × Bool} (q : Query) (hp : p ∈ a.calls) : p ∈ (a.run e q).calls := by
  rcases run_cases (e := e) q a with ⟨u, -, -, heq⟩ | heq <;> rw [heq] <;>
    exact List.mem_append_left _ hp

theorem lookup_users (ip : Bytes) (a : State) : (a.run e (.selectIdByIp ip)).users = a.users :=
  run_users rfl

theorem lookup_lastAt {ip : Bytes} {v : ℕ} (h : a.lookup e ip = some v) : a.users.lastAt ip = some v := by
  rw [State.lookup] at h
  split at h
  · cases h
  · exact h

theorem commit_acts {ip : Address} {v : ℕ} (hip : e.remote = .ok ip)
    (h : Acts H e .init a b) (hv : b.users.lastAt ip.to_string = some v) :
    Acts H e .init a (commitPassword H e v b) := by
  have hrun := acts_take h (May.commit hip hv)
  rw [commitPassword]
  rcases run_cases (e := e) (.updatePassword (hashText H (password e)) (toDec v)) b with ⟨u, hu, -, heq⟩ | heq
  · rw [Action.take, heq] at hrun
    rw [heq]
    refine acts_take hrun (May.welcome hip ?_ (by simp))
    cases hu
    rw [Users.lastAt_setPassword, hv]
  · rw [Action.take, heq] at hrun
    rw [heq]
    exact hrun

theorem init_acts {ip : Address} (hip : e.remote = .ok ip) (a : State) :
    Acts H e .init a (initUser H e ip.to_string a) := by
  have hopen : Acts H e .init a a.opened := acts_take .refl .open_
  rw [initUser]
  split
  · have hfind := acts_take hopen (May.lookup hip)
    dsimp only
    split
    · rename_i v hv
      refine commit_acts hip hfind ?_
      rw [lookup_users]
      exact lookup_lastAt hv
    · have hins := acts_take hfind (May.insert hip)
      have hagain := acts_take hins (May.lookup hip)
      split
      · rename_i v hv
        refine commit_acts hip hagain ?_
        rw [lookup_users]
        exact lookup_lastAt hv
      · exact hagain
  · exact hopen

theorem store_acts {ip : Address} {s : Bytes} (hip : e.remote = .ok ip) (hs : c.coordinates = some s)
    (a : State) : Acts H e c a (storeCoordinates e s ip.to_string a) := by
  have hopen : Acts H e c a a.opened := acts_take .refl .open_
  rw [storeCoordinates]
  split
  · exact acts_take hopen (.store hip hs)
  · exact hopen

theorem authenticate_acts {id pass : Bytes} {deny grant : State → State} (hc : c.credentials = some (id, pass))
    (hdeny : ∀ b, Acts H e c a b → Acts H e c a (deny b))
    (hgrant : ∀ b, Acts H e c a b → Acts H e c a (grant b)) (h : Acts H e c a b) :
    Acts H e c a (authenticate H e id pass deny grant b) := by
  have hopen : Acts H e c a b.opened := acts_take h .open_
  have hquery := acts_take hopen (May.credential hc)
  rw [authenticate]
  split
  · dsimp only
    split
    · exact hquery
    · split
      · exact hgrant _ hquery
      · exact hdeny _ hquery
  · split
    · exact hopen
    · exact hdeny _ hopen

theorem check_acts {id pass : Bytes} (a : State) :
    Acts H e (.check id pass) a (checkFriendIdAndPassword H e id pass a) :=
  authenticate_acts rfl (fun _ h => acts_take h (.verdict (Or.inr rfl)))
    (fun _ h => acts_take h (.verdict (Or.inl rfl))) .refl

theorem credentials_of_friend {f : Bytes × Bytes} (hf : c.friend = some f) : c.credentials = some f := by
  cases c with
  | check id pass => cases hf
  | _ => exact hf

/-- The reply for a row is the refusal or its coordinates. -/
theorem reply_acts {f : Bytes × Bytes} (hf : c.friend = some f) (v : ℕ) (h : Acts H e c a b) :
    Acts H e c a (b.send e (coordinatesReply ((b.users.find v).bind User.coordinates))) := by
  have hrefuse := acts_take h (May.refusal hf (Or.inr rfl))
  cases hfind : b.users.find v with
  | none => exact hrefuse
  | some r =>
    rw [Option.bind_some]
    cases hs : r.coordinates with
    | none => exact hrefuse
    | some s =>
      rw [coordinatesReply]
      split
      · exact hrefuse
      · rename_i hnull
        exact acts_take h (.reveal hf (Users.find_some.mp hfind).1 hs (by simpa using hnull))

theorem get_acts {id pass : Bytes} (hf : c.friend = some (id, pass)) (h : Acts H e c a b) :
    Acts H e c a (getFriendCoordinates H e id pass b) := by
  refine authenticate_acts (credentials_of_friend hf)
    (fun _ hb => acts_take hb (.refusal hf (Or.inl rfl))) (fun b hb => ?_) h
  have hread := acts_take hb (May.read hf)
  dsimp only
  split
  · exact hread
  · rw [← run_users (a := b) (e := e) (q := .selectCoordinates id) rfl]
    exact reply_acts hf _ hread

/-- A handler does nothing but what its command permits. -/
theorem handle_acts (h : handle H e c a = .ok b) : Acts H e c a b := by
  cases c with
  | nothing => cases h; exact .refl
  | init =>
    rw [handle] at h
    cases hip : e.remote with
    | error err => rw [hip] at h; cases h
    | ok ip =>
      rw [hip] at h
      cases h
      exact init_acts hip a
  | get id pass => cases h; exact get_acts rfl .refl
  | check id pass => cases h; exact check_acts a
  | storeAndGet coordinates friend =>
    have hget : ∀ b, Acts H e (.storeAndGet coordinates friend) a b →
        Acts H e (.storeAndGet coordinates friend) a (getHalf H e friend b) := by
      intro b hb
      cases friend with
      | none => exact hb
      | some f => exact get_acts rfl hb
    cases coordinates with
    | none => cases h; exact hget a .refl
    | some s =>
      rw [handle, storeHalf] at h
      cases hip : e.remote with
      | error err => rw [hip] at h; cases h
      | ok ip =>
        rw [hip] at h
        cases h
        exact hget _ (store_acts hip rfl a)

end

end Spec

/-- What a request leaves behind is reached by permitted actions; one that throws has done
    nothing. -/
theorem request_acts (H : Host) (u : Users) (r : Request) :
    ∃ a, Spec.Acts H r.env r.command (Spec.start u) a ∧ (handleRequest H u r).1 = a.users ∧
      (handleRequest H u r).2.execs.map ExecCall.view = a.calls ∧ (handleRequest H u r).2.sent = a.sent := by
  cases hreq : Spec.request H u r with
  | ok a => exact ⟨a, Spec.handle_acts hreq, request_done hreq⟩
  | error err => exact ⟨Spec.start u, .refl, request_threw hreq⟩

end MarkMe
