import Mathlib.Algebra.Group.Nat.Defs
import Mathlib.Data.List.Basic
import Mathlib.Data.List.TakeDrop
import Mathlib.Data.List.TakeWhile

/-! Byte strings in the classic locale.

    A string is a list of bytes. A formatted extraction from a stream skips white space, reads a
    `word` up to the next white space and leaves `afterWord`. `cstr` is what survives a `c_str()` that
    is read back as a C string. `toDec` prints a natural number in decimal and `decVal` reads it
    back; `decVal_toDec` is the round trip, so printing is injective.

        bytes ──▶ skip spaces ──▶ word ──▶ rest of the stream
                                  │ cut inside the word: a shorter word, nothing left -/

namespace Text

abbrev Byte := UInt8
abbrev Bytes := List Byte

/-- The bytes of a string literal. -/
def ascii (s : String) : Bytes := s.toUTF8.data.toList

def isSpace (b : Byte) : Bool := b == 32 || (9 ≤ b && b ≤ 13)
def isDigit (b : Byte) : Bool := 48 ≤ b && b ≤ 57
def isLower (b : Byte) : Bool := 97 ≤ b && b ≤ 122

/-- What a C string keeps of a byte string: the bytes before the first NUL. -/
def cstr (s : Bytes) : Bytes := s.takeWhile (· ≠ 0)

/-- A nonempty string of decimal digits. -/
def isNumeral (s : Bytes) : Bool := !s.isEmpty && s.all isDigit

theorem numeral_iff {s : Bytes} : isNumeral s = true ↔ s ≠ [] ∧ ∀ b ∈ s, isDigit b = true := by
  rw [isNumeral, Bool.and_eq_true, List.all_eq_true]
  simp

/-- A numeral begins with a digit. -/
theorem numeral_head {s : Bytes} (h : isNumeral s = true) : ∃ b t, s = b :: t ∧ isDigit b = true := by
  obtain ⟨hne, hdigits⟩ := numeral_iff.mp h
  obtain ⟨b, t, rfl⟩ := List.exists_cons_of_ne_nil hne
  exact ⟨b, t, rfl, hdigits b List.mem_cons_self⟩

/-- Only digits are in a numeral. -/
theorem not_mem_numeral {s : Bytes} {b : Byte} (h : isNumeral s = true) (hb : isDigit b = false) : b ∉ s := by
  intro hmem
  rw [(numeral_iff.mp h).2 b hmem] at hb
  cases hb

/-- A property of bytes is checked on the 256 of them. -/
theorem forall_byte {P : Byte → Prop} (h : ∀ i : Fin 256, P (UInt8.ofFin i)) (b : Byte) : P b := by
  have := h b.toFin
  rwa [UInt8.ofFin_toFin] at this

theorem cstr_eq_self {s : Bytes} (h : (0 : Byte) ∉ s) : cstr s = s := by
  refine List.takeWhile_eq_self_iff.mpr fun b hb => ?_
  simp only [ne_eq, decide_not, Bool.not_eq_eq_eq_not, Bool.not_true, decide_eq_false_iff_not]
  rintro rfl
  exact h hb

/-! ### Extraction of whitespace-separated words -/

/-- The word a formatted extraction reads; empty when the stream has run out. -/
def word (s : Bytes) : Bytes := (s.dropWhile isSpace).takeWhile (!isSpace ·)

/-- What it leaves in the stream. -/
def afterWord (s : Bytes) : Bytes := (s.dropWhile isSpace).dropWhile (!isSpace ·)

theorem word_no_space (s : Bytes) : ∀ b ∈ word s, isSpace b = false := by
  intro b hb
  have h := List.mem_takeWhile_imp hb
  simpa using h

/-- Solidity of a given word is checked byte by byte. -/
theorem solid_of_all {w : Bytes} (h : w.all (!isSpace ·) = true) : ∀ b ∈ w, isSpace b = false := by
  simpa using h

theorem word_skip {ws s : Bytes} (h : ∀ b ∈ ws, isSpace b = true) : word (ws ++ s) = word s := by
  rw [word, List.dropWhile_append_of_pos h, ← word]

theorem afterWord_skip {ws s : Bytes} (h : ∀ b ∈ ws, isSpace b = true) :
    afterWord (ws ++ s) = afterWord s := by
  rw [afterWord, List.dropWhile_append_of_pos h, ← afterWord]

/-- A stream split at its first word: spaces, the word, and a rest that cannot extend the word. -/
structure Split (s ws w r : Bytes) : Prop where
  eq : s = ws ++ (w ++ r)
  spaces : ∀ b ∈ ws, isSpace b = true
  solid : ∀ b ∈ w, isSpace b = false
  stop : ∀ b ∈ r.head?, isSpace b = true

theorem exists_split (s : Bytes) : Split s (s.takeWhile isSpace) (word s) (afterWord s) where
  eq := by rw [word, afterWord, List.takeWhile_append_dropWhile, List.takeWhile_append_dropWhile]
  spaces := fun _ hb => List.mem_takeWhile_imp hb
  solid := word_no_space s
  stop := by
    intro b hb
    have h := List.head?_dropWhile_not (fun b => !isSpace b) (s.dropWhile isSpace)
    rw [afterWord] at hb
    simp only [Option.mem_def] at hb
    rw [hb] at h
    simpa using h

theorem takeWhile_solid {w r : Bytes} (hw : ∀ b ∈ w, isSpace b = false)
    (hr : ∀ b ∈ r.head?, isSpace b = true) : (w ++ r).takeWhile (!isSpace ·) = w := by
  rw [List.takeWhile_append_of_pos (by simpa using hw)]
  cases r with
  | nil => simp
  | cons b r => simp [hr b rfl]

theorem dropWhile_solid {w r : Bytes} (hw : ∀ b ∈ w, isSpace b = false)
    (hr : ∀ b ∈ r.head?, isSpace b = true) : (w ++ r).dropWhile (!isSpace ·) = r := by
  rw [List.dropWhile_append_of_pos (by simpa using hw)]
  cases r with
  | nil => simp
  | cons b r => simp [hr b rfl]

theorem dropWhile_space {w r : Bytes} (hne : w ≠ []) (hw : ∀ b ∈ w, isSpace b = false) :
    (w ++ r).dropWhile isSpace = w ++ r := by
  obtain ⟨b, w, rfl⟩ := List.exists_cons_of_ne_nil hne
  simp [hw b (by simp)]

/-- A nonempty split is the one the extraction finds. -/
theorem word_split {s ws w r : Bytes} (h : Split s ws w r) (hne : w ≠ []) :
    word s = w ∧ afterWord s = r := by
  rw [h.eq, word_skip h.spaces, afterWord_skip h.spaces, word, afterWord,
    dropWhile_space hne h.solid]
  exact ⟨takeWhile_solid h.solid h.stop, dropWhile_solid h.solid h.stop⟩

/-- A message starting with one solid word. -/
theorem word_append {w r : Bytes} (hne : w ≠ []) (hw : ∀ b ∈ w, isSpace b = false)
    (hr : ∀ b ∈ r.head?, isSpace b = true) : word (w ++ r) = w ∧ afterWord (w ++ r) = r := by
  have h : Split (w ++ r) [] w r := ⟨rfl, by simp, hw, hr⟩
  exact word_split h hne

/-- Nothing is extracted from a stream of spaces, and nothing is left. -/
theorem afterWord_of_word_nil {s : Bytes} (h : word s = []) : afterWord s = [] := by
  have hs := exists_split s
  cases hr : afterWord s with
  | nil => rfl
  | cons b r =>
    -- the first byte after the spaces would be in the word
    exfalso
    have hb : isSpace b = true := hs.stop b (by rw [hr]; rfl)
    have hd : s.dropWhile isSpace = b :: r := by
      have := List.takeWhile_append_dropWhile (p := (!isSpace ·)) (l := s.dropWhile isSpace)
      rw [← word, ← afterWord, h, hr] at this
      exact this.symm
    have := List.head?_dropWhile_not isSpace s
    rw [hd] at this
    simp [hb] at this

theorem word_nil : word [] = [] := rfl

theorem afterWord_nil : afterWord [] = [] := rfl

/-! ### A stream cut short -/

/-- More bytes do not change a word that is followed by a space. -/
theorem word_append_stream {p : Bytes} (q : Bytes) (h : afterWord p ≠ []) :
    word (p ++ q) = word p ∧ afterWord (p ++ q) = afterWord p ++ q := by
  have hs := exists_split p
  have hne : word p ≠ [] := fun h0 => h (afterWord_of_word_nil h0)
  refine word_split ⟨?_, hs.spaces, hs.solid, ?_⟩ hne
  · conv_lhs => rw [hs.eq]
    simp only [List.append_assoc]
  · obtain ⟨b, r, hr⟩ := List.exists_cons_of_ne_nil h
    intro c hc
    exact hs.stop c (by rw [hr] at hc ⊢; exact hc)

/-- More bytes extend a word that ends the stream. -/
theorem word_extends {p : Bytes} (q : Bytes) (h : afterWord p = []) : word p <+: word (p ++ q) := by
  have hs := exists_split p
  have hp : p = p.takeWhile isSpace ++ word p := by conv_lhs => rw [hs.eq, h, List.append_nil]
  rcases eq_or_ne (word p) [] with hne | hne
  · rw [hne]
    exact List.nil_prefix
  · have hq : word (p ++ q) = word p ++ q.takeWhile (!isSpace ·) := by
      conv_lhs => rw [hp]
      rw [List.append_assoc, word_skip hs.spaces, word, dropWhile_space hne hs.solid,
        List.takeWhile_append_of_pos (by simpa using hs.solid)]
    exact ⟨_, hq.symm⟩

/-- The words of a received prefix against those of the whole: equal up to one that is cut short,
    and none after it. -/
inductive Cut : List Bytes → List Bytes → Prop
  | nil : Cut [] []
  | same {w : Bytes} {ws vs : List Bytes} : Cut ws vs → Cut (w :: ws) (w :: vs)
  | cut {w w' : Bytes} {ws vs : List Bytes} :
      w' <+: w → (∀ x ∈ ws, x = []) → ws.length = vs.length → Cut (w' :: ws) (w :: vs)

/-- The first `n` words of a stream, empty where the stream has run out. -/
def words : ℕ → Bytes → List Bytes
  | 0, _ => []
  | n + 1, s => word s :: words n (afterWord s)

theorem words_length : ∀ (n : ℕ) (s : Bytes), (words n s).length = n
  | 0, _ => rfl
  | n + 1, s => by rw [words, List.length_cons, words_length n]

theorem words_nil : ∀ (n : ℕ), ∀ w ∈ words n [], w = []
  | 0, _, hw => by simp [words] at hw
  | n + 1, w, hw => by
    rw [words, word_nil, afterWord_nil, List.mem_cons] at hw
    exact hw.elim id (words_nil n w)

theorem cut_words : ∀ (n : ℕ) (p q : Bytes), Cut (words n p) (words n (p ++ q))
  | 0, _, _ => Cut.nil
  | n + 1, p, q => by
    rw [words, words]
    rcases eq_or_ne (afterWord p) [] with h | h
    · rw [h]
      exact Cut.cut (word_extends q h) (words_nil n) (by rw [words_length, words_length])
    · obtain ⟨hw, ha⟩ := word_append_stream q h
      rw [hw, ha]
      exact Cut.same (cut_words n (afterWord p) q)

/-- A solid word and a space in front of a message add one word. -/
theorem words_spaced (n : ℕ) {w : Bytes} (hne : w ≠ []) (hw : ∀ b ∈ w, isSpace b = false) (s : Bytes) :
    words (n + 1) (w ++ ascii " " ++ s) = w :: words n s := by
  obtain ⟨hword, hafter⟩ := word_append hne hw (r := ascii " " ++ s) (by rintro b ⟨⟩; rfl)
  rw [List.append_assoc, words, hword, hafter]
  cases n with
  | zero => rfl
  | succ n =>
    have hspace : ∀ b ∈ ascii " ", isSpace b = true := List.all_eq_true.mp rfl
    rw [words, words, word_skip hspace, afterWord_skip hspace]

/-- A message that is one solid word. -/
theorem words_last (n : ℕ) {w : Bytes} (hne : w ≠ []) (hw : ∀ b ∈ w, isSpace b = false) :
    words (n + 1) w = w :: words n [] := by
  obtain ⟨hword, hafter⟩ := word_append hne hw (r := []) (by simp)
  rw [List.append_nil] at hword hafter
  rw [words, hword, hafter]

/-- A word that can be extracted again. -/
def Solid (w : Bytes) : Prop := w ≠ [] ∧ ∀ b ∈ w, isSpace b = false

/-- Words with a space between them. -/
def unwords : List Bytes → Bytes
  | [] => []
  | [w] => w
  | w :: v :: ws => w ++ ascii " " ++ unwords (v :: ws)

/-- They are extracted again, and behind them nothing. -/
theorem words_unwords (n : ℕ) {ws : List Bytes} (hws : ∀ w ∈ ws, Solid w) :
    words (ws.length + n) (unwords ws) = ws ++ words n [] := by
  induction ws with
  | nil => rw [List.length_nil, Nat.zero_add, unwords, List.nil_append]
  | cons w ws ih =>
    obtain ⟨hne, hsolid⟩ := hws w List.mem_cons_self
    cases ws with
    | nil =>
      rw [unwords, List.length_singleton, Nat.add_comm]
      exact words_last n hne hsolid
    | cons v ws =>
      have hlength : (w :: v :: ws).length + n = (v :: ws).length + n + 1 := by simp only [List.length_cons]; omega
      rw [unwords, hlength, words_spaced _ hne hsolid, ih fun w' hw' => hws w' (List.mem_cons_of_mem _ hw')]
      rfl

/-- The words a stream begins with, spaces in front of each and a space or the end behind it. -/
inductive Begins : List Bytes → Bytes → Prop
  | nil (s : Bytes) : Begins [] s
  | cons {ws : List Bytes} {s sp w r : Bytes} : Split s sp w r → w ≠ [] → Begins ws r → Begins (w :: ws) s

/-- Extraction finds them, and nothing else. -/
theorem begins_iff : ∀ {ws : List Bytes} {s : Bytes}, Begins ws s ↔ words ws.length s = ws ∧ ∀ w ∈ ws, w ≠ []
  | [], s => ⟨fun _ => ⟨rfl, by simp⟩, fun _ => .nil s⟩
  | w :: ws, s => by
    rw [List.length_cons, words, List.cons.injEq, List.forall_mem_cons]
    constructor
    · rintro (_ | ⟨hsplit, hne, hrest⟩)
      obtain ⟨rfl, rfl⟩ := word_split hsplit hne
      obtain ⟨hwords, hnonempty⟩ := begins_iff.mp hrest
      exact ⟨⟨rfl, hwords⟩, hne, hnonempty⟩
    · rintro ⟨⟨rfl, hwords⟩, hne, hnonempty⟩
      exact .cons (exists_split s) hne (begins_iff.mpr ⟨hwords, hnonempty⟩)

/-! ### Decimal numerals -/

/-- The decimal digits of a number. -/
def toDec (n : ℕ) : Bytes := (Nat.toDigits 10 n).map (fun c => UInt8.ofNat c.toNat)

/-- The number a digit string denotes. -/
def decVal (s : Bytes) : ℕ := s.foldl (fun n b => 10 * n + (b.toNat - 48)) 0

private theorem byte_of_digit {c : Char} (hc : c.isDigit = true) :
    (UInt8.ofNat c.toNat).toNat = c.toNat ∧ 48 ≤ c.toNat ∧ c.toNat ≤ 57 := by
  have h : 48 ≤ c.toNat ∧ c.toNat ≤ 57 := by
    simp only [Char.isDigit, Bool.and_eq_true, decide_eq_true_eq] at hc
    exact ⟨hc.1, hc.2⟩
  refine ⟨?_, h⟩
  rw [UInt8.toNat_ofNat']
  omega

theorem toDec_digits (n : ℕ) : ∀ b ∈ toDec n, isDigit b = true := by
  intro b hb
  obtain ⟨c, hc, rfl⟩ := List.mem_map.mp hb
  obtain ⟨hn, hlo, hhi⟩ := byte_of_digit (Nat.isDigit_of_mem_toDigits (by omega) (by omega) hc)
  simp only [isDigit, Bool.and_eq_true, decide_eq_true_eq, UInt8.le_iff_toNat_le, hn]
  exact ⟨hlo, hhi⟩

theorem toDec_ne_nil (n : ℕ) : toDec n ≠ [] := by
  rw [toDec, ne_eq, List.map_eq_nil_iff]
  exact Nat.toDigits_ne_nil

theorem toDec_numeral (n : ℕ) : isNumeral (toDec n) = true :=
  numeral_iff.mpr ⟨toDec_ne_nil n, toDec_digits n⟩

/-- Reading back a printed number. -/
theorem decVal_toDec (n : ℕ) : decVal (toDec n) = n := by
  have h : ∀ (cs : List Char) (k : ℕ), (∀ c ∈ cs, c.isDigit = true) →
      (cs.map (fun c => UInt8.ofNat c.toNat)).foldl (fun n b => 10 * n + (b.toNat - 48)) k
        = Nat.ofDigitChars 10 cs k := by
    intro cs
    induction cs with
    | nil => intro k _; rfl
    | cons c cs ih =>
      intro k hc
      rw [List.map_cons, List.foldl_cons, Nat.ofDigitChars_cons,
        ih _ (fun x hx => hc x (List.mem_cons_of_mem _ hx)), (byte_of_digit (hc c (by simp))).1]
      rfl
  rw [decVal, toDec, h _ _ (fun c hc => Nat.isDigit_of_mem_toDigits (by omega) (by omega) hc)]
  exact Nat.ofDigitChars_ten_toDigits

theorem toDec_inj {m n : ℕ} : toDec m = toDec n ↔ m = n := by
  refine ⟨fun h => ?_, fun h => by rw [h]⟩
  rw [← decVal_toDec m, ← decVal_toDec n, h]

theorem toDec_length_le {n k : ℕ} (hk : 0 < k) (h : n < 10 ^ k) : (toDec n).length ≤ k := by
  rw [toDec, List.length_map]
  exact (Nat.length_toDigits_le_iff (by omega) hk).mpr h

theorem digit_not_space {b : Byte} (h : isDigit b = true) : isSpace b = false := by
  simp only [isDigit, Bool.and_eq_true, decide_eq_true_eq, UInt8.le_iff_toNat_le] at h
  simp only [isSpace, Bool.or_eq_false_iff, beq_eq_false_iff_ne, Bool.and_eq_false_iff,
    decide_eq_false_iff_not, UInt8.le_iff_toNat_le, ne_eq, ← UInt8.toNat_inj]
  have h48 : (48 : Byte).toNat = 48 := rfl
  have h32 : (32 : Byte).toNat = 32 := rfl
  have h13 : (13 : Byte).toNat = 13 := rfl
  omega

theorem lower_not_space {b : Byte} (h : isLower b = true) : isSpace b = false := by
  simp only [isLower, Bool.and_eq_true, decide_eq_true_eq, UInt8.le_iff_toNat_le] at h
  simp only [isSpace, Bool.or_eq_false_iff, beq_eq_false_iff_ne, Bool.and_eq_false_iff,
    decide_eq_false_iff_not, UInt8.le_iff_toNat_le, ne_eq, ← UInt8.toNat_inj]
  have h97 : (97 : Byte).toNat = 97 := rfl
  have h32 : (32 : Byte).toNat = 32 := rfl
  have h13 : (13 : Byte).toNat = 13 := rfl
  omega

theorem numeral_solid {s : Bytes} (h : isNumeral s = true) : s ≠ [] ∧ ∀ b ∈ s, isSpace b = false := by
  obtain ⟨hne, hdigits⟩ := numeral_iff.mp h
  exact ⟨hne, fun b hb => digit_not_space (hdigits b hb)⟩

end Text
