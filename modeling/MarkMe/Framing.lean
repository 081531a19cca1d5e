import MarkMe.Answers

/-! Requests that arrive in pieces.

    A session takes whatever its one read delivers for the whole request. There is no length, no
    terminator and no second read, so a prefix of a message is a message of its own. Mostly it does
    what the message does, or nothing, because the arguments that are missing are missed. `Slipped`
    lists the five kinds of prefixes that may do something else, `Slip.Matters` says on which tables
    each of them does, and `Slip.Leaves` what it leaves even so.

        received                   of the message             table             reply
        /init                      /init2                     by an /init       by an /init
        /get 7 k                   /get 7 k3                  the message's     for another password
        /store_and_get 1.5 2.5     /store_and_get 1.5 2.55    another place     none
        /store_and_get … 7 k       /store_and_get … 7 k3      the message's     for another password
        /store_and_get 1.5 2.5     /store_and_get … 7 k3      the message's     none -/

namespace MarkMe
open Text Session

/-- The table and the replies a message leaves, for a read that delivers it all. -/
def effect (H : Host) (e : Env) (u : Users) (bytes : Bytes) : Users × List Sent :=
  let o := conclude u (receiveDataHandle H e false bytes.length
    (((Session.new H.dbFilename).start.fill bytes).toSt u))
  (o.1, o.2.sent)

/-- For what fits into the buffer this is what a request leaves. -/
theorem effect_request (H : Host) (e : Env) (u : Users) (bytes : Bytes)
    (fits : bytes.length ≤ BUFFER_SIZE_IN_BYTES) :
    effect H e u bytes = ((handleRequest H u ⟨e, .data bytes fits⟩).1,
      (handleRequest H u ⟨e, .data bytes fits⟩).2.sent) := rfl

namespace Spec

/-- What a command leaves. -/
def effect (H : Host) (e : Env) (u : Users) (c : Command) : Users × List Sent :=
  match handle H e c (start u) with
  | .ok a => (a.users, a.sent)
  | .error _ => (u, [])

variable {H : Host} {e : Env}

theorem effect_nothing (u : Users) : effect H e u .nothing = (u, []) := rfl

theorem effect_idle (u : Users) : effect H e u (.storeAndGet none none) = (u, []) := rfl

theorem get_users (id pass : Bytes) (a : State) : (getFriendCoordinates H e id pass a).users = a.users := by
  have hsend : ∀ d b, (State.send e d b).users = b.users := fun _ _ => rfl
  have hcred : ∀ b : State, (b.run e (.selectCredential id (hashText H pass))).users = b.users :=
    fun _ => run_users rfl
  have hread : ∀ b : State, (b.run e (.selectCoordinates id)).users = b.users := fun _ => run_users rfl
  simp only [getFriendCoordinates, authenticate]
  split
  · split
    · exact hcred _
    · split
      · split
        · rw [hread, hcred]; rfl
        · rw [hsend, hread, hcred]; rfl
      · rw [hsend, hcred]; rfl
  · split
    · rfl
    · rfl

theorem store_sent (s ip : Bytes) (a : State) : (storeCoordinates e s ip a).sent = a.sent := by
  rw [storeCoordinates]
  split
  · rcases run_cases (e := e) (.updateCoordinates s ip) a.opened with ⟨w, -, -, heq⟩ | heq <;> rw [heq] <;> rfl
  · rfl

/-- The tables after a `/store_and_get` are the same whatever it asks for, and one that asks for nothing
    is answered nothing. -/
theorem effect_half (u : Users) (coordinates : Option Bytes) (friend friend' : Option (Bytes × Bytes)) :
    (effect H e u (.storeAndGet coordinates friend)).1 = (effect H e u (.storeAndGet coordinates friend')).1 ∧
      (effect H e u (.storeAndGet coordinates none)).2 = [] := by
  have hget : ∀ f a, (getHalf H e f a).users = a.users := by
    intro f a
    cases f with
    | none => rfl
    | some f => exact get_users f.1 f.2 a
  have hsent : ∀ a, (getHalf H e none a).sent = a.sent := fun _ => rfl
  simp only [effect, handle]
  cases coordinates with
  | none => exact ⟨(hget _ _).trans (hget _ _).symm, rfl⟩
  | some s =>
    rw [storeHalf]
    cases e.remote with
    | error err => exact ⟨rfl, rfl⟩
    | ok ip => exact ⟨(hget _ _).trans (hget _ _).symm, (hsent _).trans (store_sent _ _ _)⟩

/-- A question leaves the table as it is. -/
theorem effect_question (u : Users) (id pass : Bytes) :
    (effect H e u (.get id pass)).1 = u ∧ (effect H e u (.check id pass)).1 = u := by
  refine ⟨get_users id pass (start u), ?_⟩
  have hcheck : effect H e u (.check id pass) = ((checkFriendIdAndPassword H e id pass (start u)).users,
    (checkFriendIdAndPassword H e id pass (start u)).sent) := rfl
  rw [hcheck, checkFriendIdAndPassword, authenticate_verdict]
  cases (start u).scene.verdict H e id pass <;> exact asked_users (start u)

/-! ### Commands without failures -/

section
variable {ip : Address} (he : e.Calm) (hip : e.remote = .ok ip)
include he

theorem effect_get (u : Users) (id pass : Bytes) :
    effect H e u (.get id pass) = (u, [⟨getReply H u id pass, true⟩]) := by
  obtain ⟨husers, hsent⟩ := get_calm (H := H) he id pass (start u)
  exact Prod.ext husers hsent

theorem effect_check (u : Users) (id pass : Bytes) :
    effect H e u (.check id pass) = (u, [⟨if credential H u id pass then ascii "ok" else ascii "wrong", true⟩]) :=
  Prod.ext (effect_question u id pass).2 (check_calm he id pass (start u))

include hip

/-- A `/store_and_get` reads from the table it leaves. -/
theorem effect_store (u : Users) (coordinates : Option Bytes) (friend : Option (Bytes × Bytes)) :
    effect H e u (.storeAndGet coordinates friend)
      = (coordinates.elim u (u.setCoordinates ip.to_string),
        (friend.map fun f =>
          ⟨getReply H (coordinates.elim u (u.setCoordinates ip.to_string)) f.1 f.2, true⟩).toList) := by
  have hget : ∀ (a : State), a.sent = [] → ((getHalf H e friend a).users, (getHalf H e friend a).sent)
      = (a.users, (friend.map fun f => (⟨getReply H a.users f.1 f.2, true⟩ : Sent)).toList) := by
    intro a ha
    cases friend with
    | none => exact Prod.ext rfl ha
    | some f =>
      obtain ⟨husers, hsent⟩ := get_calm (H := H) he f.1 f.2 a
      rw [ha] at hsent
      exact Prod.ext husers hsent
  rw [effect, handle]
  cases coordinates with
  | none => exact hget (start u) rfl
  | some s =>
    obtain ⟨husers, hsent⟩ := store_calm he s ip.to_string (start u)
    have hstored := hget (storeCoordinates e s ip.to_string (start u)) hsent
    rw [husers] at hstored
    rw [storeHalf, hip]
    exact hstored

/-- An `/init` comes to nothing for a client without a row when the table is full. -/
theorem effect_init (u : Users) : effect H e u .init = (u, []) ↔ ¬ (u.lastAt ip.to_string = none → u.seq < maxRowid) := by
  rw [effect, handle, hip]
  simp only [Except.map]
  have hstart : (start u).users = u := rfl
  cases hlast : u.lastAt ip.to_string with
  | some v =>
    obtain ⟨-, hsent⟩ := init_known (H := H) he (a := start u) hlast
    rw [hsent]
    simp [start]
  | none =>
    by_cases hroom : u.seq < maxRowid
    · have hadd : u.addIp ip.to_string = some (u.insertRow .ip ip.to_string hroom) := dif_pos hroom
      obtain ⟨v, hv⟩ := Users.lastAt_addIp hadd
      obtain ⟨-, hsent⟩ := init_new (H := H) he (a := start u) hlast hadd hv
      rw [hsent]
      simp [start, hroom]
    · obtain ⟨husers, hsent⟩ := init_refused (H := H) he (a := start u) hlast (dif_neg hroom)
      rw [husers, hsent]
      simp [start, hroom]

end

/-- Replies to two passwords for the same id differ exactly if one of them is right. -/
theorem reply_eq_iff {u : Users} (hu : ∀ row ∈ u.rows, row.Good) (id pass pass' : Bytes) :
    getReply H u id pass = getReply H u id pass' ↔ credential H u id pass = credential H u id pass' := by
  have hne : coordinatesReply ((u.find (decVal id)).bind User.coordinates) ≠ ascii "err 1" := by
    refine reply_ne_denied fun s hs => ?_
    obtain ⟨row, hrow, hcoord⟩ := Option.bind_eq_some_iff.mp hs
    exact (hu row (Users.find_some.mp hrow).1).coordinates s hcoord
  rw [getReply, getReply]
  cases credential H u id pass <;> cases credential H u id pass' <;> simp [hne, hne.symm]

end Spec

theorem effect_command (H : Host) (e : Env) (u : Users) (bytes : Bytes) :
    effect H e u bytes = Spec.effect H e u (command bytes) := by
  rw [effect, Spec.effect, ← message_refines]
  cases receiveDataHandle H e false bytes.length (((Session.new H.dbFilename).start.fill bytes).toSt u) <;> rfl

/-! ### Words cut short -/

/-- Five words cut short. -/
theorem cut_five {a b c d f a' b' c' d' f' : Bytes} (h : Cut [a, b, c, d, f] [a', b', c', d', f']) :
    (a <+: a' ∧ b = [] ∧ c = [] ∧ d = [] ∧ f = []) ∨ (a = a' ∧ c = [] ∧ d = [] ∧ f = []) ∨
    (a = a' ∧ b = b' ∧ d = [] ∧ f = []) ∨ (a = a' ∧ b = b' ∧ c = c' ∧ f = []) ∨
    (a = a' ∧ b = b' ∧ c = c' ∧ d = d' ∧ f <+: f') := by
  cases h with
  | cut _ hnil _ => simp_all
  | same h =>
    cases h with
    | cut _ hnil _ => simp_all
    | same h =>
      cases h with
      | cut _ hnil _ => simp_all
      | same h =>
        cases h with
        | cut _ hnil _ => simp_all
        | same h =>
          cases h with
          | cut hpre _ _ => simp [hpre]
          | same _ => simp

theorem friend_nil (id : Bytes) : checkFriendFormat id [] = false := by
  rw [checkFriendFormat]
  simp

/-- The beginning of a good password is a good password. -/
theorem friend_shorter {id pass pass' : Bytes} (hpre : pass <+: pass') (hne : pass ≠ [])
    (h : checkFriendFormat id pass' = true) : checkFriendFormat id pass = true := by
  obtain ⟨hid, -, hbytes⟩ := (check_friend_iff _ _).mp h
  exact (check_friend_iff _ _).mpr ⟨hid, hne, fun b hb => hbytes b (hpre.subset hb)⟩

/-- Coordinates with an empty second number are refused. -/
theorem pair_nil {lat : Bytes} (hlat : ∀ b ∈ lat, isSpace b = false) :
    checkCoordinatesFormat (lat ++ ascii " " ++ []) = false := by
  rw [Bool.eq_false_iff, ne_eq, check_pair hlat]
  exact fun h => h.2.ne_nil rfl

/-! ### Slips -/

/-- A piece that is taken for a message of its own. -/
inductive Slip where
  /-- A header that is `/init` so far. -/
  | init
  /-- A `/get` or `/check` with a part of the password. -/
  | question (id pass pass' : Bytes)
  /-- A `/store_and_get` with a part of the longitude. -/
  | place (coordinates : Bytes)
  /-- One with a part of the password. -/
  | friend (id pass pass' : Bytes)
  /-- One with nothing of the password. -/
  | silence (coordinates : Bytes)

/-- The words received, and those of the message. -/
inductive SlippedWords : List Bytes → List Bytes → Slip → Prop
  | init {header a b c d header' a' b' c' d' : Bytes} : header = ascii "/init" → header' ≠ ascii "/init" →
      SlippedWords [header, a, b, c, d] [header', a', b', c', d'] .init
  | question {header a b c d b' c' d' : Bytes} : header = ascii "/get" ∨ header = ascii "/check" → b ≠ b' →
      checkFriendFormat a b = true →
      SlippedWords [header, a, b, c, d] [header, a, b', c', d'] (.question a b b')
  | place {header a b c d b' c' d' : Bytes} : header = ascii "/store_and_get" → b ≠ b' →
      checkCoordinatesFormat (a ++ ascii " " ++ b) = true →
      SlippedWords [header, a, b, c, d] [header, a, b', c', d'] (.place (a ++ ascii " " ++ b))
  | friend {header a b c d d' : Bytes} : header = ascii "/store_and_get" → d ≠ d' → checkFriendFormat c d = true →
      SlippedWords [header, a, b, c, d] [header, a, b, c, d'] (.friend c d d')
  | silence {header a b c c' d' : Bytes} : header = ascii "/store_and_get" →
      checkCoordinatesFormat (a ++ ascii " " ++ b) = true → checkFriendFormat c' d' = true →
      SlippedWords [header, a, b, c, []] [header, a, b, c', d'] (.silence (a ++ ascii " " ++ b))

/-- The first `k` bytes of the message `m` slip so. -/
def Slipped (m : Bytes) (k : ℕ) (x : Slip) : Prop := SlippedWords (words 5 (m.take k)) (words 5 m) x

/-- What the piece and the message have in common all the same. -/
def Slip.Leaves (u : Users) (piece message : Users × List Sent) : Slip → Prop
  | .init => message = (u, [])
  | .question _ _ _ => piece.1 = u ∧ message.1 = u
  | .place _ => piece.2 = []
  | .friend _ _ _ => piece.1 = message.1
  | .silence _ => piece.1 = message.1 ∧ piece.2 = []

/-- On this table the slip of a client at `ip` can be seen. -/
def Slip.Matters (H : Host) (u : Users) (ip : Address) : Slip → Prop
  | .init => u.lastAt ip.to_string = none → u.seq < maxRowid
  | .question id pass pass' | .friend id pass pass' =>
    checkFriendFormat id pass' = true → Spec.credential H u id pass ≠ Spec.credential H u id pass'
  | .place s | .silence s => ∃ row ∈ u.rows, row.ip = some ip.to_string ∧ row.coordinates ≠ some s

/-- Handling the first `k` bytes of `m` has the effect of handling `m` whole, or none at all. -/
def PieceAgrees (H : Host) (e : Env) (u : Users) (m : Bytes) (k : ℕ) : Prop :=
  effect H e u (m.take k) = effect H e u m ∨ effect H e u (m.take k) = (u, [])

/-! ### The commands of a slip -/

/-- The commands of the piece and of the message. -/
inductive Slip.Commands : Slip → Command → Command → Prop
  | init : Commands .init .init .nothing
  | get {id pass pass' : Bytes} : Commands (.question id pass pass') (.get id pass)
      (if checkFriendFormat id pass' then .get id pass' else .nothing)
  | check {id pass pass' : Bytes} : Commands (.question id pass pass') (.check id pass)
      (if checkFriendFormat id pass' then .check id pass' else .nothing)
  | place {s : Bytes} {coordinates : Option Bytes} {f : Option (Bytes × Bytes)} : coordinates ≠ some s →
      Commands (.place s) (.storeAndGet (some s) none) (.storeAndGet coordinates f)
  | friend {id pass pass' : Bytes} {coordinates : Option Bytes} :
      (∀ s ∈ coordinates, IsCoordinates s) →
      Commands (.friend id pass pass') (.storeAndGet coordinates (some (id, pass)))
        (.storeAndGet coordinates (if checkFriendFormat id pass' then some (id, pass') else none))
  | silence {s : Bytes} {f : Bytes × Bytes} :
      Commands (.silence s) (.storeAndGet (some s) none) (.storeAndGet (some s) (some f))

section
variable {header a b c d header' a' b' c' d' : Bytes}

/-- A third or a fifth word is received only behind the header and the second word. -/
theorem two_received (hcut : Cut [header, a, b, c, d] [header', a', b', c', d']) (h : ¬ (b = [] ∧ d = [])) :
    header = header' ∧ a = a' := by
  rcases cut_five hcut with hw | hw | hw | hw | hw
  · exact absurd ⟨hw.2.2.1, hw.2.2.2.2⟩ h
  · exact absurd ⟨hw.2.1, hw.2.2.2⟩ h
  · exact ⟨hw.1, hw.2.1⟩
  · exact ⟨hw.1, hw.2.1⟩
  · exact ⟨hw.1, hw.2.1⟩

/-- A fifth word is received only behind the four others. -/
theorem four_received (hcut : Cut [header, a, b, c, d] [header', a', b', c', d']) (h : d ≠ []) :
    header = header' ∧ a = a' ∧ b = b' ∧ c = c' ∧ d <+: d' := by
  rcases cut_five hcut with hw | hw | hw | hw | hw
  · exact absurd hw.2.2.2.2 h
  · exact absurd hw.2.2.2 h
  · exact absurd hw.2.2.2 h
  · exact absurd hw.2.2.2 h
  · exact hw

/-- A third word cut short is the last one received. -/
theorem third_cut (hcut : Cut [header, a, b, c, d] [header', a', b', c', d']) (h : b ≠ b') : c = [] ∧ d = [] := by
  rcases cut_five hcut with hw | hw | hw | hw | hw
  · exact ⟨hw.2.2.2.1, hw.2.2.2.2⟩
  · exact ⟨hw.2.2.1, hw.2.2.2⟩
  · exact hw.2.2
  · exact absurd hw.2.2.1 h
  · exact absurd hw.2.2.1 h

/-- Coordinates accepted were received with the header and the latitude. -/
theorem place_received (hcut : Cut [header, a, b, c, d] [header', a', b', c', d'])
    (hlat : ∀ x ∈ a, isSpace x = false) (hok : checkCoordinatesFormat (a ++ ascii " " ++ b) = true) :
    header = header' ∧ a = a' := by
  refine two_received hcut ?_
  rintro ⟨rfl, -⟩
  rw [pair_nil hlat] at hok
  cases hok

/-- A header that goes on after `/init` is none. -/
theorem init_longer (hpre : ascii "/init" <+: header') (hne : header' ≠ ascii "/init") :
    commandOf [header', a', b', c', d'] = .nothing := by
  have hother : ∀ w, ¬ ascii "/init" <+: w → header' ≠ w := fun w hw heq => hw (heq ▸ hpre)
  rw [commandOf, if_neg hne, if_neg (hother _ (by decide)), if_neg (hother _ (by decide)),
    if_neg (hother _ (by decide))]

/-- The words received make the command of the message or none, unless they slip. -/
theorem cut_command (hcut : Cut [header, a, b, c, d] [header', a', b', c', d'])
    (hlat : ∀ x ∈ a, isSpace x = false) :
    (∃ x, SlippedWords [header, a, b, c, d] [header', a', b', c', d'] x) ∨
      commandOf [header, a, b, c, d] = commandOf [header', a', b', c', d'] ∨
      commandOf [header, a, b, c, d] = .nothing ∨ commandOf [header, a, b, c, d] = .storeAndGet none none := by
  by_cases hinit : header = ascii "/init"
  · by_cases hinit' : header' = ascii "/init"
    · exact Or.inr (Or.inl (by rw [hinit, hinit', commandOf_init, commandOf_init]))
    · exact Or.inl ⟨_, .init hinit hinit'⟩
  by_cases hfriend : header = ascii "/get" ∨ header = ascii "/check"
  · cases hf : checkFriendFormat a b with
    | false =>
      refine Or.inr (Or.inr (Or.inl ?_))
      rcases hfriend with rfl | rfl
      · rw [commandOf_get, hf]
        rfl
      · rw [commandOf_check, hf]
        rfl
    | true =>
      have hb : b ≠ [] := ((check_friend_iff _ _).mp hf).2.1
      obtain ⟨rfl, rfl⟩ := two_received hcut fun h => hb h.1
      rcases eq_or_ne b b' with rfl | hne
      · refine Or.inr (Or.inl ?_)
        rcases hfriend with rfl | rfl
        · rw [commandOf_get, commandOf_get, hf]
        · rw [commandOf_check, commandOf_check, hf]
      · exact Or.inl ⟨_, .question hfriend hne hf⟩
  by_cases hstore : header = ascii "/store_and_get"
  · cases hf : checkFriendFormat c d with
    | true =>
      have hd : d ≠ [] := ((check_friend_iff _ _).mp hf).2.1
      obtain ⟨rfl, rfl, rfl, rfl, -⟩ := four_received hcut hd
      rcases eq_or_ne d d' with rfl | hne
      · exact Or.inr (Or.inl rfl)
      · exact Or.inl ⟨_, .friend hstore hne hf⟩
    | false =>
      cases hok : checkCoordinatesFormat (a ++ ascii " " ++ b) with
      | false =>
        refine Or.inr (Or.inr (Or.inr ?_))
        rw [hstore, commandOf_store_and_get, hok, hf]
        rfl
      | true =>
        obtain ⟨rfl, rfl⟩ := place_received hcut hlat hok
        rcases eq_or_ne b b' with rfl | hne
        · cases hf' : checkFriendFormat c' d' with
          | false =>
            refine Or.inr (Or.inl ?_)
            rw [hstore, commandOf_store_and_get, commandOf_store_and_get, hf, hf']
            rfl
          | true =>
            -- with a part of the password received it would have been accepted
            rcases eq_or_ne d [] with rfl | hd
            · exact Or.inl ⟨_, .silence hstore hok hf'⟩
            · obtain ⟨-, -, -, rfl, hpre⟩ := four_received hcut hd
              rw [friend_shorter hpre hd hf'] at hf
              cases hf
        · exact Or.inl ⟨_, .place hstore hne hok⟩
  · obtain ⟨hget, hcheck⟩ := not_or.mp hfriend
    refine Or.inr (Or.inr (Or.inl ?_))
    rw [commandOf, if_neg hinit, if_neg hget, if_neg hstore, if_neg hcheck]

/-- The commands of the words of a slip. -/
theorem slipped_commands {x : Slip} (hcut : Cut [header, a, b, c, d] [header', a', b', c', d'])
    (hlat : ∀ x ∈ a, isSpace x = false) (hx : SlippedWords [header, a, b, c, d] [header', a', b', c', d'] x) :
    x.Commands (commandOf [header, a, b, c, d]) (commandOf [header', a', b', c', d']) := by
  cases hx with
  | init hinit hinit' =>
    have hpre : header <+: header' := by
      rcases cut_five hcut with hw | hw | hw | hw | hw
      · exact hw.1
      all_goals exact absurd (hw.1.symm.trans hinit) hinit'
    rw [init_longer (hinit ▸ hpre) hinit', hinit, commandOf_init]
    exact .init
  | question hfriend _ hf =>
    rcases hfriend with rfl | rfl
    · rw [commandOf_get, commandOf_get, hf]
      exact .get
    · rw [commandOf_check, commandOf_check, hf]
      exact .check
  | place hstore hne hok =>
    obtain ⟨rfl, rfl⟩ := third_cut hcut hne
    rw [hstore, commandOf_store_and_get, commandOf_store_and_get, hok, friend_nil]
    refine .place fun heq => hne ?_
    obtain ⟨-, heq⟩ := Option.ite_none_right_eq_some.mp heq
    exact (List.append_cancel_left (Option.some.inj heq)).symm
  | friend hstore _ hf =>
    rw [hstore, commandOf_store_and_get, commandOf_store_and_get, hf]
    refine .friend fun s hs => ?_
    obtain ⟨hok, heq⟩ := Option.ite_none_right_eq_some.mp hs
    obtain ⟨hdlat, hdlon⟩ := (check_pair hlat).mp hok
    exact ⟨a, b, hdlat, hdlon, (Option.some.inj heq).symm⟩
  | silence hstore hok hf' =>
    rw [hstore, commandOf_store_and_get, commandOf_store_and_get, hok, hf', friend_nil]
    exact .silence

end

/-! ### What a slip leaves, and when it can be seen -/

section
variable {H : Host} {e : Env} {u : Users} {x : Slip} {c c' : Command}

theorem commands_leave (h : x.Commands c c') (e : Env) (u : Users) :
    x.Leaves u (Spec.effect H e u c) (Spec.effect H e u c') := by
  cases h with
  | init => exact rfl
  | @get id pass pass' =>
    refine ⟨(Spec.effect_question u id pass).1, ?_⟩
    split
    · exact (Spec.effect_question u id pass').1
    · rfl
  | @check id pass pass' =>
    refine ⟨(Spec.effect_question u id pass).2, ?_⟩
    split
    · exact (Spec.effect_question u id pass').2
    · rfl
  | place _ => exact (Spec.effect_half u _ none none).2
  | friend _ => exact (Spec.effect_half u _ _ _).1
  | silence => exact ⟨(Spec.effect_half u _ _ _).1, (Spec.effect_half u _ none none).2⟩

/-- Other coordinates make another table, unless the client has no row. -/
theorem setCoordinates_inj {ip s s' : Bytes} (hne : s ≠ s') (h : u.setCoordinates ip s = u.setCoordinates ip s') :
    u.setCoordinates ip s = u := by
  have hrows := List.map_inj_left.mp (congrArg Users.rows h)
  refine setCoordinates_eq_self.mpr fun row hrow hip => ?_
  have hset := hrows row hrow
  rw [if_pos (by simp [hip]), if_pos (by simp [hip])] at hset
  exact absurd (Option.some.inj (congrArg User.coordinates hset)) hne

theorem setCoordinates_seen {ip : Address} {s : Bytes} : u.setCoordinates ip.to_string s = u ↔
    ¬ ∃ row ∈ u.rows, row.ip = some ip.to_string ∧ row.coordinates ≠ some s := by
  rw [setCoordinates_eq_self]
  simp only [not_exists, not_and, not_not]

theorem good_set (hu : ∀ row ∈ u.rows, row.Good) {s : Bytes} (hs : IsCoordinates s) (ip : Bytes) :
    ∀ row ∈ (u.setCoordinates ip s).rows, row.Good := by
  intro row hrow
  obtain ⟨r, hr, rfl⟩ := List.mem_map.mp hrow
  have hgood := hu r hr
  split
  · exact ⟨hgood.password, fun s' hs' => Option.some.inj hs' ▸ hs⟩
  · exact hgood

theorem commands_agree_iff (h : x.Commands c c') (hu : ∀ row ∈ u.rows, row.Good) {ip : Address} (he : e.Calm)
    (hip : e.remote = .ok ip) :
    (Spec.effect H e u c = Spec.effect H e u c' ∨ Spec.effect H e u c = (u, [])) ↔ ¬ x.Matters H u ip := by
  cases h with
  | init => rw [Spec.effect_nothing, or_self, Spec.effect_init he hip, Slip.Matters]
  | @get id pass pass' =>
    rw [Spec.effect_get he, Slip.Matters]
    cases hf : checkFriendFormat id pass' with
    | true =>
      rw [if_pos rfl, Spec.effect_get he]
      simp [Spec.reply_eq_iff hu]
    | false =>
      rw [if_neg Bool.false_ne_true, Spec.effect_nothing]
      simp
  | @check id pass pass' =>
    rw [Spec.effect_check he, Slip.Matters]
    cases hf : checkFriendFormat id pass' with
    | true =>
      have hother : ascii "ok" ≠ ascii "wrong" := by decide
      rw [if_pos rfl, Spec.effect_check he]
      cases Spec.credential H u id pass <;> cases Spec.credential H u id pass' <;> simp [hother, hother.symm]
    | false =>
      rw [if_neg Bool.false_ne_true, Spec.effect_nothing]
      simp
  | @place s coordinates f hne =>
    rw [Spec.effect_store he hip, Spec.effect_store he hip, Slip.Matters, ← setCoordinates_seen]
    refine ⟨fun h => ?_, fun h => Or.inr (Prod.ext h rfl)⟩
    rcases h with h | h
    · have htable : u.setCoordinates ip.to_string s = coordinates.elim u (u.setCoordinates ip.to_string) :=
        congrArg Prod.fst h
      cases coordinates with
      | none => exact htable
      | some s' => exact setCoordinates_inj (fun heq => hne (heq ▸ rfl)) htable
    · exact congrArg Prod.fst h
  | @friend id pass pass' coordinates hcoord =>
    rw [Spec.effect_store he hip, Spec.effect_store he hip, Slip.Matters]
    generalize htable : coordinates.elim u (u.setCoordinates ip.to_string) = w
    have hgood : ∀ row ∈ w.rows, row.Good := by
      rw [← htable]
      cases coordinates with
      | none => exact hu
      | some s => exact good_set hu (hcoord s rfl) _
    have hcred : ∀ p, Spec.credential H w id p = Spec.credential H u id p := by
      intro p
      rw [← htable]
      cases coordinates with
      | none => rfl
      | some s => exact credential_set u _ s
    cases hf : checkFriendFormat id pass' with
    | true => simp [Spec.reply_eq_iff hgood, hcred]
    | false => simp
  | @silence s f =>
    rw [Spec.effect_store he hip, Spec.effect_store he hip, Slip.Matters, ← setCoordinates_seen]
    simp

end

/-- The commands of a piece that slips. -/
theorem slip_commands {m : Bytes} {k : ℕ} {x : Slip} (hx : Slipped m k x) :
    x.Commands (command (m.take k)) (command m) := by
  have hcut := cut_words 5 (m.take k) (m.drop k)
  rw [List.take_append_drop] at hcut
  rw [Slipped] at hx
  rw [command, command]
  rw [words_five] at hcut hx ⊢
  rw [words_five m] at hcut hx ⊢
  exact slipped_commands hcut (word_no_space _) hx

/-- A `/get` or `/check` keeps the table, and so does what is received of it. -/
theorem question_kept {H : Host} {e : Env} {u : Users} {p m : Bytes} (hcut : Cut (words 5 p) (words 5 m))
    (hm : word m = ascii "/get" ∨ word m = ascii "/check") : (Spec.effect H e u (command p)).1 = u := by
  have hpre : word p <+: word m := by
    rw [words_five, words_five m] at hcut
    rcases cut_five hcut with hw | hw | hw | hw | hw
    · exact hw.1
    all_goals exact hw.1 ▸ List.prefix_refl _
  have hread := reads_message p
  generalize command p = c at hread ⊢
  cases hread with
  | init hinit =>
    rw [hinit] at hpre
    rcases hm with hm | hm <;> rw [hm] at hpre <;> exact absurd hpre (by decide)
  | get _ _ => exact (Spec.effect_question u _ _).1
  | check _ _ => exact (Spec.effect_question u _ _).2
  | storeAndGet hstore _ _ =>
    rw [hstore] at hpre
    rcases hm with hm | hm <;> rw [hm] at hpre <;> exact absurd hpre (by decide)
  | nothing _ => rfl

/-- A piece does what its message does, or nothing, or it slips. -/
theorem piece_slips (H : Host) (e : Env) (u : Users) (m : Bytes) (k : ℕ) :
    PieceAgrees H e u m k ∨ ∃ x, Slipped m k x := by
  have hcut := cut_words 5 (m.take k) (m.drop k)
  rw [List.take_append_drop, words_five, words_five m] at hcut
  rw [PieceAgrees, effect_command, effect_command]
  rcases cut_command hcut (word_no_space (afterWord (m.take k))) with hx | h | h | h
  · exact Or.inr hx
  · exact Or.inl (Or.inl (congrArg _ h))
  · exact Or.inl (Or.inr (congrArg _ h))
  · exact Or.inl (Or.inr ((congrArg _ h).trans (Spec.effect_idle u)))

/-- One that slips does so without failures exactly if the slip does not matter. -/
theorem slip_agrees_iff {H : Host} {e : Env} {u : Users} {m : Bytes} {k : ℕ} {x : Slip} (hx : Slipped m k x)
    (hu : ∀ row ∈ u.rows, row.Good) {ip : Address} (he : e.Calm) (hip : e.remote = .ok ip) :
    PieceAgrees H e u m k ↔ ¬ x.Matters H u ip := by
  rw [PieceAgrees, effect_command, effect_command]
  exact commands_agree_iff (slip_commands hx) hu he hip

/-- With the whole longitude received the table is that of the message. -/
theorem store_received {H : Host} {e : Env} {u : Users} {p m : Bytes} (hcut : Cut (words 5 p) (words 5 m))
    {a b c d header' a' c' d' : Bytes} (hb : b ≠ []) (hp : words 5 p = [ascii "/store_and_get", a, b, c, d])
    (hm : words 5 m = [header', a', b, c', d']) :
    (effect H e u p).1 = (effect H e u m).1 ∧ (d = [] → (effect H e u p).2 = []) := by
  rw [effect_command, effect_command, command, command, hp, hm]
  rw [hp, hm] at hcut
  obtain ⟨rfl, rfl⟩ := two_received hcut fun h => hb h.1
  rw [commandOf_store_and_get, commandOf_store_and_get]
  refine ⟨(Spec.effect_half u _ _ _).1, ?_⟩
  rintro rfl
  rw [friend_nil]
  exact (Spec.effect_half u _ none none).2

/-- One prefix of each kind: of an unknown header, of a wrong password, of a longitude, of a friend's
    password, and of a position in front of a question. -/
theorem piece_misread :
    let u := tableAfter Host.small [initA]
    let e := Env.calm clientA fun _ => .digit 0
    ¬ PieceAgrees Host.small e Users.empty (ascii "/init2") 5 ∧
      ¬ PieceAgrees Host.small e u (ascii "/check 1 000000001") 17 ∧
      ¬ PieceAgrees Host.small e u (ascii "/store_and_get 1.5 2.55 1 00000000") 22 ∧
      ¬ PieceAgrees Host.small e u (ascii "/store_and_get 1.5 2.5 1 000000001") 33 ∧
      ¬ PieceAgrees Host.small e u (ascii "/store_and_get 1.5 2.5 1 00000000") 22 := by
  simp only [PieceAgrees]
  decide +kernel

/-- A request that arrives in pieces: without failures, handling the bytes received has the effect of
    the whole message or none, unless they slip in a way that matters on the table. Whatever fails,
    it does so or the bytes slip, and a slip leaves what it leaves. A `/get` or `/check` and its
    pieces keep the table; a piece of a `/store_and_get` with the whole longitude makes the table of
    the message, and without the password it is answered nothing. -/
theorem piece_effect (H : Host) (m : Bytes) (k : ℕ) :
    (∀ (reqs : List Request) (e : Env) (ip : Address), e.Calm → e.remote = .ok ip →
      (PieceAgrees H e (tableAfter H reqs) m k ↔ ∀ x, Slipped m k x → ¬ x.Matters H (tableAfter H reqs) ip)) ∧
    (∀ (e : Env) (u : Users), PieceAgrees H e u m k ∨ ∃ x, Slipped m k x) ∧
    (∀ (e : Env) (u : Users) (x : Slip), Slipped m k x →
      x.Leaves u (effect H e u (m.take k)) (effect H e u m)) ∧
    (∀ (e : Env) (u : Users), word m = ascii "/get" ∨ word m = ascii "/check" →
      (effect H e u (m.take k)).1 = u ∧ (effect H e u m).1 = u) ∧
    (∀ (e : Env) (u : Users) (a b c d header' a' c' d' : Bytes), b ≠ [] →
      words 5 (m.take k) = [ascii "/store_and_get", a, b, c, d] → words 5 m = [header', a', b, c', d'] →
      (effect H e u (m.take k)).1 = (effect H e u m).1 ∧ (d = [] → (effect H e u (m.take k)).2 = [])) := by
  have hcut := cut_words 5 (m.take k) (m.drop k)
  rw [List.take_append_drop] at hcut
  refine ⟨fun reqs e ip he hip => ?_, fun e u => piece_slips H e u m k, fun e u x hx => ?_, fun e u hheader => ?_,
    fun e u a b c d header' a' c' d' hb hp hm => store_received hcut hb hp hm⟩
  · have hgood : ∀ row ∈ (tableAfter H reqs).rows, row.Good := (run_grammar H reqs).1
    refine ⟨fun h x hx => (slip_agrees_iff hx hgood he hip).mp h, fun h => ?_⟩
    rcases piece_slips H e (tableAfter H reqs) m k with hdone | ⟨x, hx⟩
    · exact hdone
    · exact (slip_agrees_iff hx hgood he hip).mpr (h x hx)
  · rw [effect_command, effect_command]
    exact commands_leave (slip_commands hx) e u
  · have hwhole : Cut (words 5 m) (words 5 m) := by
      have hself := cut_words 5 m []
      rwa [List.append_nil] at hself
    rw [effect_command, effect_command]
    exact ⟨question_kept hcut hheader, question_kept hwhole hheader⟩

/-- A password cut short is the right one. -/
theorem piece_effect_get : ¬ PieceAgrees Host.small (Env.calm clientB fun _ => .digit 0)
    (tableAfter Host.small [initA]) (ascii "/get 1 000000001") 15 := by
  intro h
  have hslip : Slipped (ascii "/get 1 000000001") 15 (.question (ascii "1") (ascii "00000000") (ascii "000000001")) :=
    .question (Or.inl rfl) (by decide) (by decide)
  have hmatters : Slip.Matters Host.small (tableAfter Host.small [initA]) clientB
      (.question (ascii "1") (ascii "00000000") (ascii "000000001")) := fun _ => by decide +kernel
  exact ((piece_effect Host.small (ascii "/get 1 000000001") 15).1 [initA] _ clientB (Env.calm_calm _ _) rfl).mp h _
    hslip hmatters

end MarkMe
