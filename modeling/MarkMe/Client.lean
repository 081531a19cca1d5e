import MarkMe.Wire

/-! The other end of the wire.

    A client that has something to ask spells it in words with a space between them; where it sends no
    place along, two words that are none stand for it. The server makes of it what was meant, whatever
    else it has served before, and what it sends back reads as the answer.

        ask ──Ask.print──▶ "/store_and_get 1.0 2.0 7 xyz" ──▶ server ──▶ "3.0 4.0" ──Answer.read──▶ answer -/

namespace MarkMe
open Text Session

/-- A secret like the ones that are generated. -/
def IsSecret (pass : Bytes) : Prop := pass ≠ [] ∧ ∀ b ∈ pass, isDigit b = true ∨ isLower b = true

theorem IsSecret.friend {pass : Bytes} (h : IsSecret pass) (v : ℕ) : IsFriend (toDec v) pass :=
  ⟨toDec_numeral v, h.1, h.2⟩

/-- What a client can ask whose `/init` is given the password `fresh`. -/
def Ask.Sayable (fresh : Bytes) : Ask Bytes Coordinates → Prop
  | .nothing => True
  | .init secret => secret = fresh
  | .get _ pass | .check _ pass => IsSecret pass
  | .storeAndGet _ friend => ∀ f ∈ friend, IsSecret f.2

/-- The words for a place, or for none. -/
def placeWords : Option Coordinates → List Bytes
  | some c => [word c.1, word (afterWord c.1)]
  | none => [ascii "-", ascii "-"]

def friendWords : Option (ℕ × Bytes) → List Bytes
  | some f => [toDec f.1, f.2]
  | none => []

def Ask.spell : Ask Bytes Coordinates → List Bytes
  | .nothing => []
  | .init _ => [ascii "/init"]
  | .get v pass => [ascii "/get", toDec v, pass]
  | .check v pass => [ascii "/check", toDec v, pass]
  | .storeAndGet place friend => ascii "/store_and_get" :: (placeWords place ++ friendWords friend)

/-- The message for an ask. -/
def Ask.print (a : Ask Bytes Coordinates) : Bytes := unwords a.spell

example : (Ask.storeAndGet none (some (7, ascii "xyz"))).print = ascii "/store_and_get - - 7 xyz" := by decide +kernel

/-! ### What is said is understood -/

section
variable {fresh : Bytes} {a : Ask Bytes Coordinates}

theorem IsFriend.solid {id pass : Bytes} (h : IsFriend id pass) : Solid id ∧ Solid pass :=
  friend_solid (friend_iff.mpr h)

/-- A position is two words. -/
theorem place_words (c : Coordinates) : ∃ lat lon, IsDecimal lat ∧ IsDecimal lon ∧ c.1 = lat ++ ascii " " ++ lon ∧
    placeWords (some c) = [lat, lon] := by
  obtain ⟨s, lat, lon, hlat, hlon, rfl⟩ := c
  obtain ⟨ha, hb⟩ := reply_words hlat.ne_nil hlat.no_space hlon.ne_nil hlon.no_space
  exact ⟨lat, lon, hlat, hlon, rfl, by rw [placeWords, ha, hb]⟩

theorem place_solid (place : Option Coordinates) : ∀ w ∈ placeWords place, Solid w := by
  cases place with
  | none =>
    have hdash : Solid (ascii "-") := ⟨by decide, solid_of_all rfl⟩
    simpa [placeWords] using hdash
  | some c =>
    obtain ⟨lat, lon, hlat, hlon, -, hwords⟩ := place_words c
    rw [hwords]
    simpa using And.intro ⟨hlat.ne_nil, hlat.no_space⟩ ⟨hlon.ne_nil, hlon.no_space⟩

theorem friend_words_solid {friend : Option (ℕ × Bytes)} (h : ∀ f ∈ friend, IsSecret f.2) :
    ∀ w ∈ friendWords friend, Solid w := by
  cases friend with
  | none => simp [friendWords]
  | some f => simpa [friendWords] using ((h f rfl).friend f.1).solid

theorem spell_solid (h : a.Sayable fresh) : ∀ w ∈ a.spell, Solid w := by
  have hheader : ∀ header ∈ [ascii "/init", ascii "/get", ascii "/check", ascii "/store_and_get"], Solid header := by
    intro header hmem
    have hall : ∀ n ∈ [ascii "/init", ascii "/get", ascii "/check", ascii "/store_and_get"],
        n ≠ [] ∧ n.all (!isSpace ·) = true := by decide
    exact ⟨(hall header hmem).1, solid_of_all (hall header hmem).2⟩
  cases a with
  | nothing => simp [Ask.spell]
  | init secret => simpa [Ask.spell] using hheader _ (by simp)
  | get v pass =>
    obtain ⟨hid, hpass⟩ := (IsSecret.friend h v).solid
    simpa [Ask.spell] using ⟨hheader (ascii "/get") (by simp), hid, hpass⟩
  | check v pass =>
    obtain ⟨hid, hpass⟩ := (IsSecret.friend h v).solid
    simpa [Ask.spell] using ⟨hheader (ascii "/check") (by simp), hid, hpass⟩
  | storeAndGet place friend =>
    rw [Ask.spell, List.forall_mem_cons, List.forall_mem_append]
    exact ⟨hheader _ (by simp), place_solid place, friend_words_solid h⟩

/-- The words the server sees. -/
theorem print_words (h : a.Sayable fresh) (n : ℕ) : words (a.spell.length + n) a.print = a.spell ++ words n [] :=
  words_unwords n (spell_solid h)

/-- The server finds the place in its two words. -/
theorem place_read (place : Option Coordinates) : ∃ lat lon, placeWords place = [lat, lon] ∧
    (if checkCoordinatesFormat (lat ++ ascii " " ++ lon) then some (lat ++ ascii " " ++ lon) else none)
      = place.map Subtype.val := by
  cases place with
  | none =>
    have hdash : checkCoordinatesFormat (ascii "-" ++ ascii " " ++ ascii "-") = false := by
      rw [Bool.eq_false_iff, ne_eq, check_pair (solid_of_all rfl)]
      rintro ⟨⟨a, b, ha, -, heq⟩, -⟩
      obtain ⟨x, t, rfl, -⟩ := numeral_head ha
      cases t <;> cases heq
    exact ⟨_, _, rfl, by rw [hdash]; rfl⟩
  | some c =>
    obtain ⟨lat, lon, hlat, hlon, hc, hwords⟩ := place_words c
    refine ⟨lat, lon, hwords, ?_⟩
    rw [if_pos ((check_pair hlat.no_space).mpr ⟨hlat, hlon⟩), Option.map_some, hc]

/-- And the friend in the two behind them, which may be missing. -/
theorem friend_read {friend : Option (ℕ × Bytes)} (h : ∀ f ∈ friend, IsSecret f.2) :
    ∃ n id pass, (friendWords friend).length + n = 2 ∧ friendWords friend ++ words n [] = [id, pass] ∧
      (if checkFriendFormat id pass then some (id, pass) else none) = friend.map fun f => (toDec f.1, f.2) := by
  cases friend with
  | none => exact ⟨2, [], [], rfl, rfl, rfl⟩
  | some f =>
    refine ⟨0, toDec f.1, f.2, rfl, rfl, ?_⟩
    rw [if_pos (friend_iff.mpr ((h f rfl).friend f.1)), Option.map_some]

/-- The command the server makes of an ask. -/
theorem print_asks (h : a.Sayable fresh) : (command a.print).ask fresh (command_valid a.print) = a := by
  cases a with
  | nothing => rfl
  | init secret =>
    cases h
    rfl
  | get v pass =>
    have hcommand : command (Ask.get v pass).print = .get (toDec v) pass := by
      have hwords : words 5 (Ask.get v pass).print = [ascii "/get", toDec v, pass, [], []] :=
        print_words (a := .get v pass) h 2
      rw [command, hwords, commandOf_get, if_pos (friend_iff.mpr (IsSecret.friend h v))]
    rw [command_ask fresh hcommand, Command.ask, decVal_toDec]
  | check v pass =>
    have hcommand : command (Ask.check v pass).print = .check (toDec v) pass := by
      have hwords : words 5 (Ask.check v pass).print = [ascii "/check", toDec v, pass, [], []] :=
        print_words (a := .check v pass) h 2
      rw [command, hwords, commandOf_check, if_pos (friend_iff.mpr (IsSecret.friend h v))]
    rw [command_ask fresh hcommand, Command.ask, decVal_toDec]
  | storeAndGet place friend =>
    have hcommand : command (Ask.storeAndGet place friend).print
        = .storeAndGet (place.map Subtype.val) (friend.map fun f => (toDec f.1, f.2)) := by
      obtain ⟨lat, lon, hplace, hcoordinates⟩ := place_read place
      obtain ⟨n, id, pass, hlength, hfriend, hnamed⟩ := friend_read h
      have hwords : words 5 (Ask.storeAndGet place friend).print = [ascii "/store_and_get", lat, lon, id, pass] := by
        have hfive : (Ask.storeAndGet place friend).spell.length + n = 5 := by
          rw [Ask.spell, List.length_cons, List.length_append, hplace]
          simp only [List.length_cons, List.length_nil]
          omega
        rw [← hfive, print_words h, Ask.spell, hplace, List.cons_append, List.append_assoc, hfriend]
        rfl
      rw [command, hwords, commandOf_store_and_get, hcoordinates, hnamed]
    rw [command_ask fresh hcommand]
    cases place <;> cases friend <;> simp [Command.ask, decVal_toDec]

end

/-! ### Letters -/

/-- A message that a client sends in one piece; `draws` is the luck of the generator with it. -/
structure Letter where
  address : Address
  draws : ℕ → Draw
  ask : Ask Bytes Coordinates
  sayable : ask.Sayable (generatePassword draws 8)
  fits : ask.print.length ≤ BUFFER_SIZE_IN_BYTES

def Letter.visit (l : Letter) : Visit := ⟨l.address, l.draws, .data l.ask.print l.fits⟩

theorem decimals_coordinates : IsCoordinates (ascii "1.5 2.5") := ⟨_, _, decimals.1, decimals.2, rfl⟩

/-- To store a place and to ask for that of the first user. -/
def Ask.meeting : Ask Bytes Coordinates :=
  .storeAndGet (some ⟨ascii "1.5 2.5", decimals_coordinates⟩) (some (1, ascii "00000000"))

theorem meeting_sayable (fresh : Bytes) : Ask.meeting.Sayable fresh := by
  rintro f ⟨⟩
  have hfriend : IsFriend (ascii "1") (ascii "00000000") := friend_iff.mp (by decide)
  exact ⟨hfriend.pass_ne, hfriend.pass⟩

theorem meeting_fits : Ask.meeting.print.length ≤ BUFFER_SIZE_IN_BYTES := by decide +kernel

def Letter.meeting : Letter := ⟨clientB, initA.env.draws, .meeting, meeting_sayable _, meeting_fits⟩

theorem letter_asks (l : Letter) : l.visit.asks = (l.address, l.ask) :=
  congrArg (Prod.mk l.address) (print_asks l.sayable)

/-- Clients that spell what they ask and read what comes back deal with the service: after any letters of any
    clients the table stands for its registry, and every reply reads as its answer to what was asked. -/
theorem letters_answered (H : Host) (ls : List Letter) :
    let asks := ls.map fun l => (l.address, l.ask)
    let reqs := ls.map fun l => l.visit.request
    Represents (tableAfter H reqs) (Machine.final (serve H) Registry.empty asks) ∧
      (historyOf H reqs).map (fun ev => ev.out.sent.map fun d => Answer.read d.data)
        = (Machine.trace (serve H) Registry.empty asks).map fun ev => (ev.out.map some).toList := by
  intro asks reqs
  have hreqs : reqs = (ls.map Letter.visit).map Visit.request := by rw [List.map_map]; rfl
  have hasks : asks = (ls.map Letter.visit).map Visit.asks := by
    rw [List.map_map]
    exact List.map_congr_left fun l _ => (letter_asks l).symm
  rw [hreqs, hasks]
  exact visits_read H _

example : Letter.meeting.visit.request.message = ascii "/store_and_get 1.5 2.5 1 00000000" ∧
    (historyOf Host.small [initA, Letter.meeting.visit.request]).map (fun ev => ev.out.sent) =
      [[⟨ascii "1 00000000", true⟩], [⟨ascii "err 2", true⟩]] := by decide +kernel

end MarkMe
