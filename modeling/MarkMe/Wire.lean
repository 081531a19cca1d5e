import MarkMe.Service

/-! The protocol on the wire.

    `Says` is the grammar of the messages: words with any white space between them, the header first,
    and whatever comes behind the words a command takes is not looked at. Every message says exactly
    one thing, `receiveDataHandle` does what it says, and no two replies look alike, so a client that
    sends words and reads words deals with the service itself.

        ask ──Says──▶ message ──▶ server ──▶ reply ──Answer.read──▶ answer -/

namespace MarkMe
open Text Session

/-! ### Messages -/

/-- A numeral and a secret, as a message spells a friend. -/
structure IsFriend (id pass : Bytes) : Prop where
  id : isNumeral id = true
  pass_ne : pass ≠ []
  pass : ∀ b ∈ pass, isDigit b = true ∨ isLower b = true

theorem friend_iff {id pass : Bytes} : checkFriendFormat id pass = true ↔ IsFriend id pass :=
  (check_friend_iff id pass).trans ⟨fun ⟨h, h', h''⟩ => ⟨h, h', h''⟩, fun ⟨h, h', h''⟩ => ⟨h, h', h''⟩⟩

/-- What a message says; an `/init` is to be given the password `fresh`. -/
inductive Says (fresh m : Bytes) : Ask Bytes Coordinates → Prop
  | init : Begins [ascii "/init"] m → Says fresh m (.init fresh)
  | get {id pass : Bytes} : IsFriend id pass → Begins [ascii "/get", id, pass] m →
      Says fresh m (.get (decVal id) pass)
  | check {id pass : Bytes} : IsFriend id pass → Begins [ascii "/check", id, pass] m →
      Says fresh m (.check (decVal id) pass)
  /-- The two halves are read on their own. -/
  | storeAndGet {place : Option Coordinates} {friend : Option (ℕ × Bytes)} : Begins [ascii "/store_and_get"] m →
      (∀ c, place = some c ↔ ∃ lat lon, IsDecimal lat ∧ IsDecimal lon ∧ c.1 = lat ++ ascii " " ++ lon ∧
        Begins [ascii "/store_and_get", lat, lon] m) →
      (∀ v pass, friend = some (v, pass) ↔ ∃ a b id, IsFriend id pass ∧ v = decVal id ∧
        Begins [ascii "/store_and_get", a, b, id, pass] m) →
      Says fresh m (.storeAndGet place friend)
  | nothing : ¬ Begins [ascii "/init"] m → ¬ Begins [ascii "/store_and_get"] m →
      (∀ id pass, IsFriend id pass → ¬ Begins [ascii "/get", id, pass] m ∧ ¬ Begins [ascii "/check", id, pass] m) →
      Says fresh m .nothing

section
variable {fresh m : Bytes}

theorem begins_one {w : Bytes} (hne : w ≠ []) : Begins [w] m ↔ word m = w := by
  rw [begins_iff]
  simp [words, hne]

theorem IsFriend.ne_nil {id pass : Bytes} (h : IsFriend id pass) : id ≠ [] ∧ pass ≠ [] :=
  ⟨(numeral_solid h.id).1, h.pass_ne⟩

/-- The arguments of a message. -/
theorem begins_friend {w id pass : Bytes} (hne : w ≠ []) (h : IsFriend id pass) :
    Begins [w, id, pass] m ↔ word m = w ∧ word (afterWord m) = id ∧ word (afterWord (afterWord m)) = pass := by
  obtain ⟨hid, hpass⟩ := h.ne_nil
  rw [begins_iff]
  simp [words, hne, hid, hpass]

theorem begins_place {w lat lon : Bytes} (hne : w ≠ []) (hlat : IsDecimal lat) (hlon : IsDecimal lon) :
    Begins [w, lat, lon] m ↔ word m = w ∧ word (afterWord m) = lat ∧ word (afterWord (afterWord m)) = lon := by
  rw [begins_iff]
  simp [words, hne, hlat.ne_nil, hlon.ne_nil]

/-- A friend behind two words. -/
theorem begins_behind {w id pass : Bytes} (hne : w ≠ []) (h : IsFriend id pass) :
    (∃ a b, Begins [w, a, b, id, pass] m) ↔ word m = w ∧
      word (afterWord (afterWord (afterWord m))) = id ∧
      word (afterWord (afterWord (afterWord (afterWord m)))) = pass := by
  obtain ⟨hid, hpass⟩ := h.ne_nil
  simp only [begins_iff, List.length_cons, List.length_nil, words, List.cons.injEq, and_true, List.mem_cons,
    List.not_mem_nil, or_false, forall_eq_or_imp, forall_eq, ne_eq]
  constructor
  · rintro ⟨a, b, ⟨hw, -, -, hid, hpass⟩, -⟩
    exact ⟨hw, hid, hpass⟩
  · rintro ⟨hw, rfl, rfl⟩
    -- a word comes only where the one before it has ended
    have hbefore : ∀ s : Bytes, word (afterWord s) ≠ [] → word s ≠ [] := fun s hs h0 =>
      hs (by rw [afterWord_of_word_nil h0, word_nil])
    have hb := hbefore _ hid
    exact ⟨_, _, ⟨hw, rfl, rfl, rfl, rfl⟩, hne, hbefore _ hb, hb, hid, hpass⟩

/-- What there is at most one of can be looked for. -/
theorem option_exists {α : Type*} {P : α → Prop} (huniq : ∀ x y, P x → P y → x = y) :
    ∃ o : Option α, ∀ x, o = some x ↔ P x := by
  by_cases h : ∃ x, P x
  · obtain ⟨y, hy⟩ := h
    exact ⟨some y, fun x => ⟨fun hx => Option.some.inj hx ▸ hy, fun hx => congrArg some (huniq y x hy hx)⟩⟩
  · exact ⟨none, fun x => ⟨nofun, fun hx => absurd ⟨x, hx⟩ h⟩⟩

/-- The place a `/store_and_get` names. -/
theorem place_iff (hm : word m = ascii "/store_and_get") (c : Coordinates) :
    (∃ lat lon, IsDecimal lat ∧ IsDecimal lon ∧ c.1 = lat ++ ascii " " ++ lon ∧
        Begins [ascii "/store_and_get", lat, lon] m) ↔
      checkCoordinatesFormat (word (afterWord m) ++ ascii " " ++ word (afterWord (afterWord m))) = true ∧
        c.1 = word (afterWord m) ++ ascii " " ++ word (afterWord (afterWord m)) := by
  rw [check_pair (word_no_space _)]
  constructor
  · rintro ⟨lat, lon, hlat, hlon, hc, hbegins⟩
    obtain ⟨-, rfl, rfl⟩ := (begins_place (by decide) hlat hlon).mp hbegins
    exact ⟨⟨hlat, hlon⟩, hc⟩
  · rintro ⟨⟨hlat, hlon⟩, hc⟩
    exact ⟨_, _, hlat, hlon, hc, (begins_place (by decide) hlat hlon).mpr ⟨hm, rfl, rfl⟩⟩

/-- The friend it names. -/
theorem named_iff (hm : word m = ascii "/store_and_get") (v : ℕ) (pass : Bytes) :
    (∃ a b id, IsFriend id pass ∧ v = decVal id ∧ Begins [ascii "/store_and_get", a, b, id, pass] m) ↔
      checkFriendFormat (word (afterWord (afterWord (afterWord m))))
          (word (afterWord (afterWord (afterWord (afterWord m))))) = true ∧
        v = decVal (word (afterWord (afterWord (afterWord m)))) ∧
        pass = word (afterWord (afterWord (afterWord (afterWord m)))) := by
  rw [friend_iff]
  constructor
  · rintro ⟨a, b, id, hf, rfl, hbegins⟩
    obtain ⟨-, rfl, rfl⟩ := (begins_behind (by decide) hf).mp ⟨a, b, hbegins⟩
    exact ⟨hf, rfl, rfl⟩
  · rintro ⟨hf, rfl, rfl⟩
    obtain ⟨a, b, hbegins⟩ := (begins_behind (by decide) hf).mpr ⟨hm, rfl, rfl⟩
    exact ⟨a, b, _, hf, rfl, hbegins⟩

/-- Every message says something. -/
theorem says_exists (fresh m : Bytes) : ∃ a, Says fresh m a := by
  -- `/get` and `/check` take a friend and nothing else
  have hnothing : word m ≠ ascii "/init" → word m ≠ ascii "/store_and_get" →
      (∀ id pass, IsFriend id pass → ¬ Begins [ascii "/get", id, pass] m ∧ ¬ Begins [ascii "/check", id, pass] m) →
      ∃ a, Says fresh m a := fun hinit hstore hfriends =>
    ⟨_, .nothing (fun h => hinit ((begins_one (by decide)).mp h)) (fun h => hstore ((begins_one (by decide)).mp h))
      hfriends⟩
  by_cases hinit : word m = ascii "/init"
  · exact ⟨_, .init ((begins_one (by decide)).mpr hinit)⟩
  by_cases hstore : word m = ascii "/store_and_get"
  · obtain ⟨place, hplace⟩ : ∃ place : Option Coordinates, ∀ c, place = some c ↔ _ :=
      option_exists fun c d hc hd => Subtype.ext (((place_iff hstore c).mp hc).2.trans ((place_iff hstore d).mp hd).2.symm)
    obtain ⟨friend, hfriend⟩ : ∃ friend : Option (ℕ × Bytes), ∀ f, friend = some f ↔ _ :=
      option_exists fun f g hf hg => by
        obtain ⟨-, hv, hpass⟩ := (named_iff hstore f.1 f.2).mp hf
        obtain ⟨-, hv', hpass'⟩ := (named_iff hstore g.1 g.2).mp hg
        exact Prod.ext (hv.trans hv'.symm) (hpass.trans hpass'.symm)
    exact ⟨_, .storeAndGet ((begins_one (by decide)).mpr hstore) hplace fun v pass => hfriend (v, pass)⟩
  by_cases hf : IsFriend (word (afterWord m)) (word (afterWord (afterWord m)))
  · by_cases hget : word m = ascii "/get"
    · exact ⟨_, .get hf ((begins_friend (by decide) hf).mpr ⟨hget, rfl, rfl⟩)⟩
    by_cases hcheck : word m = ascii "/check"
    · exact ⟨_, .check hf ((begins_friend (by decide) hf).mpr ⟨hcheck, rfl, rfl⟩)⟩
    exact hnothing hinit hstore fun id pass hf => ⟨fun h => hget ((begins_friend (by decide) hf).mp h).1,
      fun h => hcheck ((begins_friend (by decide) hf).mp h).1⟩
  · refine hnothing hinit hstore fun id pass hf' => ⟨fun h => ?_, fun h => ?_⟩
    · obtain ⟨-, rfl, rfl⟩ := (begins_friend (by decide) hf').mp h
      exact hf hf'
    · obtain ⟨-, rfl, rfl⟩ := (begins_friend (by decide) hf').mp h
      exact hf hf'

/-- The ask of a `/store_and_get`. -/
theorem ask_storeAndGet (fresh : Bytes) {coordinates : Option Bytes} {friend : Option (Bytes × Bytes)}
    (h : (Command.storeAndGet coordinates friend).Valid) : ∃ place : Option Coordinates,
      (∀ c, place = some c ↔ coordinates = some c.1) ∧ (Command.storeAndGet coordinates friend).ask fresh h
        = .storeAndGet place (friend.map fun f => (decVal f.1, f.2)) := by
  cases coordinates with
  | none => exact ⟨none, by simp, rfl⟩
  | some s => exact ⟨some ⟨s, h.coordinates s rfl⟩, fun c => by simp [Subtype.ext_iff], rfl⟩

/-- The words that a command is made of. -/
theorem command_words (m : Bytes) : command m = commandOf [word m, word (afterWord m), word (afterWord (afterWord m)),
    word (afterWord (afterWord (afterWord m))), word (afterWord (afterWord (afterWord (afterWord m))))] := rfl

/-- The command of a message that says nothing. -/
theorem command_nothing (hinit : word m ≠ ascii "/init") (hstore : word m ≠ ascii "/store_and_get")
    (hfriends : ∀ id pass, IsFriend id pass → ¬ Begins [ascii "/get", id, pass] m ∧ ¬ Begins [ascii "/check", id, pass] m) :
    command m = .nothing := by
  have hf : checkFriendFormat (word (afterWord m)) (word (afterWord (afterWord m))) = true →
      word m ≠ ascii "/get" ∧ word m ≠ ascii "/check" := fun h => by
    obtain ⟨hget, hcheck⟩ := hfriends _ _ (friend_iff.mp h)
    rw [begins_friend (by decide) (friend_iff.mp h)] at hget hcheck
    exact ⟨fun hheader => hget ⟨hheader, rfl, rfl⟩, fun hheader => hcheck ⟨hheader, rfl, rfl⟩⟩
  rw [command_words, commandOf, if_neg hinit, if_neg hstore]
  split_ifs with hget h hcheck h
  · exact absurd hget (hf h).1
  · rfl
  · exact absurd hcheck (hf h).2
  · rfl
  · rfl

theorem command_ask (fresh : Bytes) {c : Command} (hc : command m = c) :
    (command m).ask fresh (command_valid m) = c.ask fresh (hc ▸ command_valid m) := by
  subst hc
  rfl

/-- What it says is what its command asks. -/
theorem Says.ask_eq {a : Ask Bytes Coordinates} (h : Says fresh m a) :
    a = (command m).ask fresh (command_valid m) := by
  have hfive := command_words m
  cases h with
  | init hm =>
    rw [(begins_one (by decide)).mp hm, commandOf_init] at hfive
    rw [command_ask fresh hfive]
    rfl
  | get hf hm =>
    obtain ⟨hheader, rfl, rfl⟩ := (begins_friend (by decide) hf).mp hm
    rw [hheader, commandOf_get, if_pos (friend_iff.mpr hf)] at hfive
    rw [command_ask fresh hfive]
    rfl
  | check hf hm =>
    obtain ⟨hheader, rfl, rfl⟩ := (begins_friend (by decide) hf).mp hm
    rw [hheader, commandOf_check, if_pos (friend_iff.mpr hf)] at hfive
    rw [command_ask fresh hfive]
    rfl
  | @storeAndGet place friend hm hplace hfriend =>
    have hheader := (begins_one (by decide)).mp hm
    simp only [place_iff hheader] at hplace
    simp only [named_iff hheader] at hfriend
    rw [hheader, commandOf_store_and_get] at hfive
    obtain ⟨place', hplace', hask⟩ := ask_storeAndGet fresh (hfive ▸ command_valid m)
    rw [command_ask fresh hfive, hask]
    have heq : place = place' := Option.ext fun c => by
      rw [hplace, hplace', Option.ite_none_right_eq_some, Option.some.injEq, eq_comm (a := c.1)]
    have hfriend' : ∀ f, friend = some f ↔ _ := fun f => hfriend f.1 f.2
    rw [heq]
    congr 1
    refine Option.ext fun f => ?_
    rw [hfriend']
    split <;> simp [*, Prod.ext_iff, eq_comm]
  | nothing hinit hstore hfriends =>
    rw [begins_one (by decide)] at hinit hstore
    rw [command_ask fresh (command_nothing hinit hstore hfriends)]
    rfl

end

/-- A message says one thing, and that is what its request asks. -/
theorem says_iff {fresh m : Bytes} {a : Ask Bytes Coordinates} :
    Says fresh m a ↔ a = (command m).ask fresh (command_valid m) := by
  refine ⟨Says.ask_eq, ?_⟩
  rintro rfl
  obtain ⟨a, ha⟩ := says_exists fresh m
  exact ha.ask_eq ▸ ha

/-! ### Replies -/

/-- What the bytes of a reply can only mean. -/
def Answer.read (s : Bytes) : Option (Answer Bytes Coordinates) :=
  let a := word s
  let b := word (afterWord s)
  if checkFriendFormat a b then some (.welcome (decVal a) b)
  else if h : checkCoordinatesFormat (a ++ ascii " " ++ b) = true then
    some (.place ⟨_, a, b, ((check_pair (word_no_space s)).mp h).1, ((check_pair (word_no_space s)).mp h).2, rfl⟩)
  else if s = ascii "ok" then some .ok
  else if s = ascii "wrong" then some .wrong
  else if s = ascii "err 1" then some .denied
  else if s = ascii "err 2" then some .nowhere
  else none

/-- The words of a reply that has two. -/
theorem reply_words {a b : Bytes} (ha : a ≠ []) (ha' : ∀ x ∈ a, isSpace x = false) (hb : b ≠ [])
    (hb' : ∀ x ∈ b, isSpace x = false) :
    word (a ++ ascii " " ++ b) = a ∧ word (afterWord (a ++ ascii " " ++ b)) = b := by
  have h : words 2 (a ++ ascii " " ++ b) = [a, b] := by
    rw [words_spaced 1 ha ha', words_last 0 hb hb', words]
  simpa [words] using h

theorem read_welcome {v : ℕ} {pass : Bytes} (h : IsFriend (toDec v) pass) :
    Answer.read (Answer.welcome v pass).print = some (.welcome v pass) := by
  obtain ⟨⟨hid, hid'⟩, hpass, hpass'⟩ := friend_solid (friend_iff.mpr h)
  obtain ⟨ha, hb⟩ := reply_words hid hid' hpass hpass'
  rw [Answer.print, Answer.read]
  simp only [ha, hb]
  rw [if_pos (friend_iff.mpr h), decVal_toDec]

theorem read_place (c : Coordinates) : Answer.read (Answer.place c).print = some (.place c) := by
  obtain ⟨s, lat, lon, hlat, hlon, rfl⟩ := c
  obtain ⟨ha, hb⟩ := reply_words hlat.ne_nil hlat.no_space hlon.ne_nil hlon.no_space
  have hdot : ¬ IsFriend lat lon := by
    rintro ⟨hnum, -, -⟩
    obtain ⟨x, y, -, -, rfl⟩ := hlat
    exact absurd ((numeral_iff.mp hnum).2 46 (by simp)) (by decide)
  rw [Answer.print, Answer.read]
  simp only [ha, hb]
  rw [if_neg (fun h => hdot (friend_iff.mp h)), dif_pos ((check_pair hlat.no_space).mpr ⟨hlat, hlon⟩)]

/-- The fixed words. -/
theorem read_word : Answer.read (ascii "ok") = some .ok ∧ Answer.read (ascii "wrong") = some .wrong ∧
    Answer.read (ascii "err 1") = some .denied ∧ Answer.read (ascii "err 2") = some .nowhere := by
  refine ⟨?_, ?_, ?_, ?_⟩ <;> rfl

/-- What the service reveals. -/
theorem read_reveal {hash : Bytes → UInt64} (g : Clients) (v : ℕ) (pass : Bytes) :
    Answer.read (Service.reveal hash g v pass).print = some (Service.reveal hash g v pass) := by
  rw [Service.reveal]
  split
  · split
    · exact read_place _
    · exact read_word.2.2.2
  · exact read_word.2.2.1

/-- Every answer of the service to a visit can be read off its reply. -/
theorem visit_read {H : Host} {g : Clients} (v : Visit) {d : Answer Bytes Coordinates}
    (h : (serve H g v.asks).2 = some d) : Answer.read d.print = some d := by
  rw [Visit.asks] at h
  generalize hask : v.request.ask = a at h
  cases a with
  | nothing => cases h
  | init secret =>
    -- the only secret that is handed out is the one generated
    have hfresh : ∀ w, IsFriend (toDec w) secret := by
      have hsays : Says (Spec.password v.request.env) v.request.message v.request.ask := says_iff.mpr rfl
      rw [hask] at hsays
      cases hsays
      exact fun w => friend_iff.mp (welcome_format w _)
    have hinit : ∃ w, d = .welcome w secret := by
      rw [serve, Service.step, Service.init] at h
      split at h
      · exact ⟨_, (Option.some.inj h).symm⟩
      · split at h
        · exact ⟨_, (Option.some.inj h).symm⟩
        · cases h
    obtain ⟨w, rfl⟩ := hinit
    exact read_welcome (hfresh w)
  | get w pass =>
    cases h
    exact read_reveal g w pass
  | check w pass =>
    cases h
    split
    · exact read_word.1
    · exact read_word.2.1
  | storeAndGet place friend =>
    cases friend with
    | none => cases h
    | some f =>
      cases h
      exact read_reveal _ _ _

/-- A run of visits against the service, with the replies read. -/
theorem visits_read (H : Host) (vs : List Visit) :
    Represents (tableAfter H (vs.map Visit.request)) (Machine.final (serve H) Registry.empty (vs.map Visit.asks)) ∧
      (historyOf H (vs.map Visit.request)).map (fun ev => ev.out.sent.map fun d => Answer.read d.data)
        = (Machine.trace (serve H) Registry.empty (vs.map Visit.asks)).map (fun ev => (ev.out.map some).toList) := by
  refine Machine.refinement Represents (fun o : Outcome => o.sent.map fun d => Answer.read d.data)
    (fun d : Option (Answer Bytes Coordinates) => (d.map some).toList) (fun _ g v h => ?_) vs represents_empty
  obtain ⟨hfinal, hsent⟩ := visit_represents (H := H) v h
  refine ⟨hfinal, ?_⟩
  rw [hsent]
  cases hanswer : (serve H g v.asks).2 with
  | none => rfl
  | some d => exact congrArg (fun x => [x]) (visit_read v hanswer)

/-- A client that speaks the grammar and reads words deals with the service: every message says exactly one thing,
    and after any visits of any clients every reply reads as the service's answer to what was said. -/
theorem wire_faithful (H : Host) (vs : List Visit) :
    ∃ asks : List (Ask Bytes Coordinates),
      (∀ asks', List.Forall₂ (fun v a => Says (Spec.password v.request.env) v.request.message a) vs asks'
        ↔ asks' = asks) ∧
      (historyOf H (vs.map Visit.request)).map (fun ev => ev.out.sent.map fun d => Answer.read d.data)
        = (Machine.trace (serve H) Registry.empty ((vs.map Visit.address).zip asks)).map
          (fun ev => (ev.out.map some).toList) := by
  refine ⟨vs.map fun v => v.request.ask, fun asks' => ?_, ?_⟩
  · rw [eq_comm (a := asks'), ← List.forall₂_eq_eq_eq, List.forall₂_map_left_iff]
    simp only [says_iff, eq_comm]
    exact Iff.rfl
  · have hzip : (vs.map Visit.address).zip (vs.map fun v => v.request.ask) = vs.map Visit.asks := by
      rw [List.zip_map']
      rfl
    rw [hzip]
    exact (visits_read H vs).2

end MarkMe
