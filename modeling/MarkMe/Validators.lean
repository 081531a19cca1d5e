import MarkMe.Session

/-! What the two validators accept.

    `checkCoordinatesFormat` accepts exactly two numbers of the form digits.digits around one white
    space character. A single extracted word has no white space in it and is always refused
    (`check_word`), and two words joined with a space are accepted exactly when both are numbers
    (`check_pair`). `checkFriendFormat` accepts a numeral and a nonempty string over [0-9a-z]. -/

namespace MarkMe
open Text

namespace Session

/-- A number of the form digits.digits. -/
def IsDecimal (w : Bytes) : Prop := ∃ a b, isNumeral a = true ∧ isNumeral b = true ∧ w = a ++ [46] ++ b

theorem mem_char {b : Byte} {x : Bytes} : x ∈ (RegularExpression.char b).matches' ↔ x = [b] := by
  rw [RegularExpression.matches'_char]; rfl

theorem mem_oneOf {bs : List Byte} {x : Bytes} : x ∈ (oneOf bs).matches' ↔ ∃ b ∈ bs, x = [b] := by
  rw [oneOf]
  induction bs with
  | nil => simp
  | cons b bs ih =>
    rw [List.map_cons, List.sum_cons, RegularExpression.matches'_add, Language.mem_add, ih, mem_char]
    simp

theorem mem_digit {x : Bytes} : x ∈ digit.matches' ↔ ∃ b, isDigit b = true ∧ x = [b] := by
  have hd : ∀ b : Byte, b ∈ ascii "0123456789" ↔ isDigit b = true :=
    forall_byte (by decide +kernel)
  simp only [digit, mem_oneOf, hd]

theorem mem_space {x : Bytes} : x ∈ space.matches' ↔ ∃ b, isSpace b = true ∧ x = [b] := by
  have hs : ∀ b : Byte, b ∈ ([9, 10, 11, 12, 13, 32] : List Byte) ↔ isSpace b = true :=
    forall_byte (by decide +kernel)
  simp only [space, mem_oneOf, hs]

theorem mem_digits {x : Bytes} : x ∈ digit.star.matches' ↔ ∀ b ∈ x, isDigit b = true := by
  rw [RegularExpression.matches'_star, Language.mem_kstar]
  constructor
  · rintro ⟨L, rfl, hL⟩ b hb
    obtain ⟨y, hy, hby⟩ := List.mem_flatten.mp hb
    obtain ⟨c, hc, rfl⟩ := mem_digit.mp (hL y hy)
    rw [List.mem_singleton] at hby
    rw [hby]; exact hc
  · intro h
    refine ⟨x.map ([·]), by rw [← List.flatMap_def, List.flatMap_singleton'], fun y hy => ?_⟩
    obtain ⟨b, hb, rfl⟩ := List.mem_map.mp hy
    exact mem_digit.mpr ⟨b, h b hb, rfl⟩

theorem mem_plus_digit {x : Bytes} : x ∈ (plus digit).matches' ↔ isNumeral x = true := by
  rw [plus, RegularExpression.matches'_mul, Language.mem_mul, numeral_iff]
  constructor
  · rintro ⟨a, ha, b, hb, rfl⟩
    obtain ⟨c, hc, rfl⟩ := mem_digit.mp ha
    refine ⟨by simp, fun d hd => ?_⟩
    rcases List.mem_append.mp hd with h | h
    · rw [List.mem_singleton] at h; rw [h]; exact hc
    · exact mem_digits.mp hb d h
  · rintro ⟨hne, hx⟩
    obtain ⟨c, x, rfl⟩ := List.exists_cons_of_ne_nil hne
    refine ⟨[c], mem_digit.mpr ⟨c, hx c (by simp), rfl⟩, x, ?_, rfl⟩
    exact mem_digits.mpr fun b hb => hx b (List.mem_cons_of_mem _ hb)

/-- What the coordinates regex matches. -/
theorem check_coordinates_iff (s : Bytes) : checkCoordinatesFormat s = true ↔
    ∃ lat w lon, IsDecimal lat ∧ isSpace w = true ∧ IsDecimal lon ∧ s = lat ++ [w] ++ lon := by
  rw [checkCoordinatesFormat, RegularExpression.rmatch_iff_matches', coordinatesRegex]
  simp only [RegularExpression.matches'_mul, Language.mem_mul]
  constructor
  · rintro ⟨_, ⟨_, ⟨_, ⟨a, ha, d, hd, rfl⟩, b, hb, rfl⟩, w, hw, rfl⟩, _, ⟨_, ⟨a', ha', d', hd', rfl⟩, b', hb', rfl⟩, rfl⟩
    rw [mem_plus_digit] at ha hb ha' hb'
    rw [mem_char] at hd hd'
    obtain ⟨c, hc, rfl⟩ := mem_space.mp hw
    subst hd hd'
    exact ⟨_, c, _, ⟨a, b, ha, hb, rfl⟩, hc, ⟨a', b', ha', hb', rfl⟩, rfl⟩
  · rintro ⟨_, w, _, ⟨a, b, ha, hb, rfl⟩, hw, ⟨a', b', ha', hb', rfl⟩, rfl⟩
    rw [← mem_plus_digit] at ha hb ha' hb'
    exact ⟨_, ⟨_, ⟨_, ⟨a, ha, [46], mem_char.mpr rfl, rfl⟩, b, hb, rfl⟩, [w], mem_space.mpr ⟨w, hw, rfl⟩, rfl⟩,
      _, ⟨_, ⟨a', ha', [46], mem_char.mpr rfl, rfl⟩, b', hb', rfl⟩, rfl⟩

theorem IsDecimal.bytes {w : Bytes} (h : IsDecimal w) : ∀ b ∈ w, isDigit b = true ∨ b = 46 := by
  obtain ⟨a, c, ha, hc, rfl⟩ := h
  rw [numeral_iff] at ha hc
  intro b hb
  simp only [List.mem_append, List.mem_singleton] at hb
  rcases hb with (hb | hb) | hb
  · exact Or.inl (ha.2 b hb)
  · exact Or.inr hb
  · exact Or.inl (hc.2 b hb)

theorem IsDecimal.no_space {w : Bytes} (h : IsDecimal w) : ∀ b ∈ w, isSpace b = false := by
  intro b hb
  rcases h.bytes b hb with hd | rfl
  · exact digit_not_space hd
  · decide

theorem IsDecimal.ne_nil {w : Bytes} (h : IsDecimal w) : w ≠ [] := by
  obtain ⟨a, c, -, -, rfl⟩ := h
  simp

/-- One word is never accepted: the regex asks for white space. -/
theorem check_word {w : Bytes} (h : ∀ b ∈ w, isSpace b = false) : checkCoordinatesFormat w = false := by
  rw [Bool.eq_false_iff]
  intro hc
  obtain ⟨lat, c, lon, -, hs, -, rfl⟩ := (check_coordinates_iff w).mp hc
  have := h c (by simp)
  rw [hs] at this
  exact absurd this (by decide)

/-- Two words around a space are accepted exactly when both are numbers. -/
theorem check_pair {lat lon : Bytes} (hlat : ∀ b ∈ lat, isSpace b = false) :
    checkCoordinatesFormat (lat ++ ascii " " ++ lon) = true ↔ IsDecimal lat ∧ IsDecimal lon := by
  rw [check_coordinates_iff]
  constructor
  · rintro ⟨lat', c, lon', h, hc, h', heq⟩
    rw [List.append_assoc, List.append_assoc] at heq
    -- both sides break at their first white space
    have hl := takeWhile_solid (r := ascii " " ++ lon) hlat (by rintro b ⟨⟩; rfl)
    have hl' := takeWhile_solid (r := [c] ++ lon') h.no_space (by rintro b ⟨⟩; exact hc)
    rw [heq, hl'] at hl
    subst hl
    have hlon : lon = lon' := by
      have := List.append_cancel_left heq
      exact (List.cons.inj this).2
    rw [hlon]
    exact ⟨h, h'⟩
  · rintro ⟨h, h'⟩
    exact ⟨lat, 32, lon, h, rfl, h', rfl⟩

theorem check_friend_iff (id pass : Bytes) : checkFriendFormat id pass = true ↔
    isNumeral id = true ∧ pass ≠ [] ∧ ∀ b ∈ pass, isDigit b = true ∨ isLower b = true := by
  rw [checkFriendFormat, isNumeral]
  cases id <;> cases pass <;> simp

/-- Accepted coordinates: two numbers around one space. -/
def IsCoordinates (s : Bytes) : Prop := ∃ lat lon, IsDecimal lat ∧ IsDecimal lon ∧ s = lat ++ ascii " " ++ lon

theorem IsCoordinates.bytes {s : Bytes} (h : IsCoordinates s) :
    ∀ b ∈ s, isDigit b = true ∨ b = 46 ∨ b = 32 := by
  obtain ⟨lat, lon, hlat, hlon, rfl⟩ := h
  intro b hb
  simp only [List.mem_append] at hb
  rcases hb with (hb | hb) | hb
  · exact (hlat.bytes b hb).imp_right Or.inl
  · exact Or.inr (Or.inr (List.mem_singleton.mp hb))
  · exact (hlon.bytes b hb).imp_right Or.inl

end Session

end MarkMe
