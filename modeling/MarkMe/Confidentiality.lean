import MarkMe.Actions

/-! Coordinates are shown to those who know the password.

    Two tables agree up to `v` if they differ at most in the coordinates of that id. Every statement
    keeps this agreement, and a reply depends on the coordinates only where a row has been asked for
    with its password. Requests that never do that for `v` keep two sessions alike all the way, so
    two runs from agreeing tables answer the same.

        u  ──r₁──▶ · ──r₂──▶ · ⋯     the same replies, as long as no request
        u' ──r₁──▶ · ──r₂──▶ · ⋯     knows the password of `v` -/

namespace MarkMe
open Text Session

/-- The row without its coordinates if it is the one to hide. -/
def User.hide (v : ℕ) (r : User) : User := if r.id = v then { r with coordinates := none } else r

/-- Equal except for the coordinates of `v`. -/
structure Users.Agree (v : ℕ) (u u' : Users) : Prop where
  rows : u.rows.map (User.hide v) = u'.rows.map (User.hide v)
  seq : u.seq = u'.seq

/-- The friend a message names to see the coordinates of. -/
def Request.asks (r : Request) : Option (Bytes × Bytes) :=
  match words 5 r.message with
  | [header, a, b, c, d] =>
    if header = ascii "/get" then some (a, b)
    else if header = ascii "/store_and_get" then some (c, d)
    else none
  | _ => none

theorem friend_asks {r : Request} {f : Bytes × Bytes} (h : r.command.friend = some f) : r.asks = some f := by
  have hread := reads_message r.message
  rw [Request.command] at h
  rw [Request.asks, words_five]
  generalize MarkMe.command r.message = c at hread h
  cases hread with
  | get hheader _ =>
    simp only [hheader]
    exact h
  | storeAndGet hheader _ hf =>
    simp only [hheader]
    rw [(hf f h).1]
    rfl
  | _ => cases h

section
variable {v : ℕ}

@[simp] theorem hide_id (r : User) : (r.hide v).id = r.id := by
  rw [User.hide]; split <;> rfl

@[simp] theorem hide_ip (r : User) : (r.hide v).ip = r.ip := by
  rw [User.hide]; split <;> rfl

@[simp] theorem hide_password (r : User) : (r.hide v).password = r.password := by
  rw [User.hide]; split <;> rfl

theorem hide_of_ne {r : User} (h : r.id ≠ v) : r.hide v = r := if_neg h

/-- Hiding first makes no difference to a hidden update. -/
theorem hide_set (r : User) (c : TextColumn) (x : Bytes) :
    (r.set c x).hide v = ((r.hide v).set c x).hide v := by
  by_cases h : r.id = v
  · cases c <;> simp [User.hide, User.set, h]
  · rw [hide_of_ne h]

namespace Users

theorem Agree.find {u u' : Users} (h : u.Agree v u') (w : ℕ) :
    (u.find w).map (User.hide v) = (u'.find w).map (User.hide v) := by
  have hmap : ∀ t : Users, (t.find w).map (User.hide v)
      = (t.rows.map (User.hide v)).find? (fun r => r.id == w) := by
    intro t
    rw [List.find?_map, Users.find]
    congr 2
    funext r
    simp
  rw [hmap, hmap, h.rows]

theorem Agree.passwordOf {u u' : Users} (h : u.Agree v u') (w : ℕ) : u.passwordOf w = u'.passwordOf w := by
  have hmap : ∀ o : Option User, o.bind User.password = (o.map (User.hide v)).bind User.password := by
    intro o
    cases o <;> simp
  rw [Users.passwordOf, Users.passwordOf, hmap, h.find w, ← hmap]

/-- The coordinates of every other id are the same. -/
theorem Agree.coordinates {u u' : Users} (h : u.Agree v u') {w : ℕ} (hw : w ≠ v) :
    (u.find w).bind User.coordinates = (u'.find w).bind User.coordinates := by
  have hf := h.find w
  have hid : ∀ (t : Users) (r : User), t.find w = some r → r.hide v = r := fun t r hr =>
    hide_of_ne (by rw [(find_some.mp hr).2]; exact hw)
  cases hr : u.find w with
  | none =>
    rw [hr, Option.map_none, eq_comm, Option.map_eq_none_iff] at hf
    rw [hf]
  | some r =>
    cases hr' : u'.find w with
    | none => simp [hr, hr'] at hf
    | some r' =>
      rw [hr, hr', Option.map_some, Option.map_some, hid u r hr, hid u' r' hr'] at hf
      rw [hf]

theorem Agree.lastAt {u u' : Users} (h : u.Agree v u') (ip : Bytes) : u.lastAt ip = u'.lastAt ip := by
  have hmap : ∀ t : Users, t.lastAt ip
      = ((t.rows.map (User.hide v)).filter (fun r => r.ip == some ip)).getLast?.map User.id := by
    intro t
    have hsel : (fun r : User => r.ip == some ip) ∘ User.hide v = fun r => r.ip == some ip := by
      funext r
      simp
    rw [List.filter_map, hsel, List.getLast?_map, Option.map_map, Users.lastAt]
    congr 1
    funext r
    simp
  rw [hmap, hmap, h.rows]

theorem Agree.setWhere {u u' : Users} (h : u.Agree v u') {sel : User → Bool}
    (hsel : ∀ r, sel (r.hide v) = sel r) (c : TextColumn) (x : Bytes) :
    (u.setWhere sel c x).Agree v (u'.setWhere sel c x) where
  seq := h.seq
  rows := by
    have hupd : ∀ r : User, (if sel r then r.set c x else r).hide v
        = (if sel (r.hide v) then (r.hide v).set c x else r.hide v).hide v := by
      intro r
      rw [hsel]
      split
      · exact hide_set r c x
      · by_cases hr : r.id = v
        · simp [User.hide, hr]
        · rw [hide_of_ne hr, hide_of_ne hr]
    have hmap : ∀ t : Users, (t.setWhere sel c x).rows.map (User.hide v)
        = (t.rows.map (User.hide v)).map fun r => (if sel r then r.set c x else r).hide v := by
      intro t
      rw [Users.setWhere, List.map_map, List.map_map]
      exact List.map_congr_left fun r _ => hupd r
    rw [hmap, hmap, h.rows]

theorem Agree.insertRow {u u' : Users} (h : u.Agree v u') (c : TextColumn) (x : Bytes)
    (hu : u.seq < maxRowid) (hu' : u'.seq < maxRowid) : (u.insertRow c x hu).Agree v (u'.insertRow c x hu') where
  seq := congrArg (· + 1) h.seq
  rows := by simp only [Users.insertRow, List.map_append, h.rows, h.seq]

end Users

/-- Agreeing tables refuse a statement alike or come to agree again. -/
theorem effect_agree {u u' : Users} (h : u.Agree v u') (q : Query) :
    (q.effect u = none ∧ q.effect u' = none) ∨
    ∃ w w', q.effect u = some w ∧ q.effect u' = some w' ∧ w.Agree v w' := by
  cases q with
  | insertIp ip =>
    by_cases hfull : u.seq < maxRowid
    · have hfull' : u'.seq < maxRowid := h.seq ▸ hfull
      exact Or.inr ⟨_, _, dif_pos hfull, dif_pos hfull', h.insertRow .ip ip hfull hfull'⟩
    · have hfull' : ¬ u'.seq < maxRowid := h.seq ▸ hfull
      exact Or.inl ⟨dif_neg hfull, dif_neg hfull'⟩
  | updatePassword pass id => exact Or.inr ⟨_, _, rfl, rfl, h.setWhere (by simp) _ _⟩
  | updateCoordinates coordinates ip => exact Or.inr ⟨_, _, rfl, rfl, h.setWhere (by simp) _ _⟩
  | selectIdByIp ip => exact Or.inr ⟨u, u', rfl, rfl, h⟩
  | selectCredential id pass => exact Or.inr ⟨u, u', rfl, rfl, h⟩
  | selectCoordinates id => exact Or.inr ⟨u, u', rfl, rfl, h⟩

/-! ### Two sessions side by side -/

namespace Spec

/-- Two sessions that have done the same so far, on agreeing tables. -/
structure Alike (v : ℕ) (a a' : State) : Prop where
  users : a.users.Agree v a'.users
  opens : a.opens = a'.opens
  calls : a.calls = a'.calls
  failed : a.failed = a'.failed
  sent : a.sent = a'.sent

variable {H : Host} {e : Env} {a a' : State}

theorem Alike.opened (h : Alike v a a') : Alike v a.opened a'.opened :=
  ⟨h.users, congrArg (· + 1) h.opens, h.calls, h.failed, h.sent⟩

theorem Alike.connects (h : Alike v a a') : a.connects e = a'.connects e := by
  rw [State.connects, State.connects, h.opens]

theorem Alike.send (h : Alike v a a') (data : Bytes) : Alike v (a.send e data) (a'.send e data) :=
  ⟨h.users, h.opens, h.calls, h.failed, by rw [State.send, State.send, h.sent]⟩

theorem Alike.run (h : Alike v a a') (q : Query) : Alike v (a.run e q) (a'.run e q) := by
  rw [State.run, State.run, h.calls]
  cases e.stmts a'.calls.length with
  | some err => exact ⟨h.users, h.opens, rfl, rfl, h.sent⟩
  | none =>
    rcases effect_agree h.users q with ⟨hn, hn'⟩ | ⟨w, w', hw, hw', hagree⟩
    · rw [hn, hn']
      exact ⟨h.users, h.opens, rfl, rfl, h.sent⟩
    · rw [hw, hw']
      exact ⟨hagree, h.opens, rfl, rfl, h.sent⟩

theorem Alike.lookup (h : Alike v a a') (ip : Bytes) : a.lookup e ip = a'.lookup e ip := by
  rw [State.lookup, State.lookup, (h.run _).failed, h.users.lastAt]

theorem Alike.commit (h : Alike v a a') (w : ℕ) : Alike v (commitPassword H e w a) (commitPassword H e w a') := by
  have hrun := h.run (e := e) (.updatePassword (hashText H (password e)) (toDec w))
  simp only [commitPassword, hrun.failed]
  split
  · exact hrun
  · exact hrun.send _

theorem Alike.init (h : Alike v a a') (ip : Bytes) : Alike v (initUser H e ip a) (initUser H e ip a') := by
  have hfind := h.opened.run (e := e) (.selectIdByIp ip)
  have hins := hfind.run (e := e) (.insertIp ip)
  simp only [initUser, h.connects, h.opened.lookup, hins.lookup]
  split
  · cases a'.opened.lookup e ip with
    | some w => exact hfind.commit w
    | none =>
      dsimp only
      cases (State.lookup e ip _) with
      | some w => exact (hins.run _).commit w
      | none => exact hins.run _
  · exact h.opened

theorem Alike.store (h : Alike v a a') (s ip : Bytes) :
    Alike v (storeCoordinates e s ip a) (storeCoordinates e s ip a') := by
  rw [storeCoordinates, storeCoordinates, h.connects]
  split
  · exact h.opened.run _
  · exact h.opened

theorem Alike.credential (h : Alike v a a') (id pass : Bytes) :
    Spec.credential H a.users id pass = Spec.credential H a'.users id pass := by
  rw [Bool.eq_iff_iff, credential_iff, credential_iff, h.users.passwordOf]

theorem Alike.authenticate {id pass : Bytes} {deny grant : State → State}
    (hdeny : ∀ {b b'}, Alike v b b' → Alike v (deny b) (deny b'))
    (hgrant : ∀ {b b'}, Alike v b b' → Spec.credential H a.users id pass = true → Alike v (grant b) (grant b'))
    (h : Alike v a a') :
    Alike v (Spec.authenticate H e id pass deny grant a) (Spec.authenticate H e id pass deny grant a') := by
  have hrun := h.opened.run (e := e) (.selectCredential id (hashText H pass))
  have husers : (a.opened.run e (.selectCredential id (hashText H pass))).users = a.users := run_users rfl
  simp only [Spec.authenticate, h.connects, hrun.failed, ← hrun.credential (H := H) id pass, husers, h.failed]
  split
  · split
    · exact hrun
    · split
      · exact hgrant hrun ‹_›
      · exact hdeny hrun
  · split
    · exact h.opened
    · exact hdeny h.opened

theorem Alike.get {id pass : Bytes} (h : Alike v a a')
    (hguard : decVal id = v → Spec.credential H a.users id pass = false) :
    Alike v (getFriendCoordinates H e id pass a) (getFriendCoordinates H e id pass a') := by
  refine Alike.authenticate (fun hb => hb.send _) (fun {b b'} hb hcred => ?_) h
  have hread := hb.run (e := e) (.selectCoordinates id)
  -- the row shown is not the hidden one
  have hne : decVal id ≠ v := fun hv => by
    rw [hguard hv] at hcred
    cases hcred
  simp only [hread.failed, hb.users.coordinates hne]
  split
  · exact hread
  · exact hread.send _

theorem store_passwordOf (s ip : Bytes) (w : ℕ) (a : State) :
    (storeCoordinates e s ip a).users.passwordOf w = a.users.passwordOf w := by
  rw [storeCoordinates]
  split
  · exact run_passwordOf (by simp) _
  · rfl

/-- Two sessions handle a command alike unless it shows the password of `v`. -/
theorem Alike.handle {c : Command} (h : Alike v a a')
    (hguard : ∀ f ∈ c.friend, decVal f.1 = v → Spec.credential H a.users f.1 f.2 = false) :
    (∃ b b', Spec.handle H e c a = .ok b ∧ Spec.handle H e c a' = .ok b' ∧ Alike v b b') ∨
    ∃ err, Spec.handle H e c a = .error err ∧ Spec.handle H e c a' = .error err := by
  cases c with
  | nothing => exact Or.inl ⟨a, a', rfl, rfl, h⟩
  | init =>
    rw [Spec.handle, Spec.handle]
    cases e.remote with
    | error err => exact Or.inr ⟨err, rfl, rfl⟩
    | ok ip => exact Or.inl ⟨_, _, rfl, rfl, h.init _⟩
  | get id pass => exact Or.inl ⟨_, _, rfl, rfl, h.get (hguard _ rfl)⟩
  | check id pass =>
    exact Or.inl ⟨_, _, rfl, rfl, h.authenticate (fun hb => hb.send _) (fun hb _ => hb.send _)⟩
  | storeAndGet coordinates friend =>
    have hget : ∀ {b b'}, Alike v b b' → b.users.passwordOf v = a.users.passwordOf v →
        Alike v (getHalf H e friend b) (getHalf H e friend b') := by
      intro b b' hb hpass
      cases friend with
      | none => exact hb
      | some f =>
        refine hb.get fun hv => ?_
        have hfalse := hguard f rfl hv
        rw [Bool.eq_false_iff, ne_eq, credential_iff] at hfalse ⊢
        rwa [hv, hpass, ← hv]
    rw [Spec.handle, Spec.handle]
    cases coordinates with
    | none => exact Or.inl ⟨_, _, rfl, rfl, hget h rfl⟩
    | some s =>
      rw [storeHalf, storeHalf]
      cases e.remote with
      | error err => exact Or.inr ⟨err, rfl, rfl⟩
      | ok ip => exact Or.inl ⟨_, _, rfl, rfl, hget (h.store _ _) (store_passwordOf _ _ _ _)⟩

end Spec

theorem request_agree {H : Host} {u u' : Users} {r : Request} (h : u.Agree v u')
    (hguard : ∀ id pass, r.asks = some (id, pass) → isNumeral id = true → decVal id = v →
      u.passwordOf v ≠ some (hashText H pass)) :
    (handleRequest H u r).1.Agree v (handleRequest H u' r).1 ∧
      (handleRequest H u r).2.sent = (handleRequest H u' r).2.sent := by
  have hstart : Spec.Alike v (Spec.start u) (Spec.start u') := ⟨h, rfl, rfl, rfl, rfl⟩
  have hhandle := hstart.handle (H := H) (e := r.env) (c := r.command) (by
    intro f hf hv
    have hid := ((check_friend_iff _ _).mp
      ((command_valid r.message).credentials f (Spec.credentials_of_friend hf))).1
    rw [Bool.eq_false_iff, ne_eq, credential_iff, hv]
    exact hguard f.1 f.2 (friend_asks hf) hid hv)
  rcases hhandle with ⟨b, b', hb, hb', halike⟩ | ⟨err, hb, hb'⟩
  · obtain ⟨husers, -, hsent⟩ := request_done hb
    obtain ⟨husers', -, hsent'⟩ := request_done hb'
    rw [husers, husers', hsent, hsent']
    exact ⟨halike.users, halike.sent⟩
  · obtain ⟨husers, -, hsent⟩ := request_threw hb
    obtain ⟨husers', -, hsent'⟩ := request_threw hb'
    rw [husers, husers', hsent, hsent']
    exact ⟨h, rfl⟩

end

/-- Confidentiality of coordinates: runs of the same requests from tables that differ at most in the
    coordinates of `v` get the same replies, unless a message asks for `v` with its password. -/
theorem coordinates_confidential (H : Host) {v : ℕ} {u u' : Users} (h : u.Agree v u')
    (reqs : List Request)
    (hguard : ∀ ev ∈ Machine.trace (handleRequest H) u reqs, ∀ id pass,
      ev.input.asks = some (id, pass) → isNumeral id = true → decVal id = v →
        ev.pre.passwordOf v ≠ some (hashText H pass)) :
    (Machine.trace (handleRequest H) u reqs).map (fun ev => ev.out.sent)
      = (Machine.trace (handleRequest H) u' reqs).map (fun ev => ev.out.sent) :=
  Machine.unwinding (R := Users.Agree v)
    (G := fun u r => ∀ id pass, r.asks = some (id, pass) → isNumeral id = true → decVal id = v →
      u.passwordOf v ≠ some (hashText H pass))
    Outcome.sent (fun _ _ _ => request_agree) h hguard

/-- A stranger who guesses a password cannot tell two positions of a user apart. -/
theorem coordinates_confidential_stranger :
    let row := fun position =>
      User.mk 1 (some clientA.to_string) (some (hashText Host.small (ascii "b"))) (some position)
    let guess := [Request.calm clientB (ascii "/get 1 a") (by decide)]
    (Machine.trace (handleRequest Host.small) (Users.single (row (ascii "1.5 2.5")) (by decide)) guess).map
        (fun ev => ev.out.sent)
      = (Machine.trace (handleRequest Host.small) (Users.single (row (ascii "9.5 9.5")) (by decide)) guess).map
        (fun ev => ev.out.sent) := by
  refine coordinates_confidential Host.small (v := 1) ⟨by decide, rfl⟩ _ fun ev hev id pass hasks _ _ => ?_
  rw [Machine.trace, Machine.trace, List.mem_singleton] at hev
  subst hev
  have hguess : (Request.calm clientB (ascii "/get 1 a") (by decide)).asks = some (ascii "1", ascii "a") := by
    decide
  cases hguess.symm.trans hasks
  decide +kernel

end MarkMe
