import MarkMe.Lib.Text

/-! Positional format strings.

    A template is a list of pieces: literal text and directives `%1%`, `%2%`, …; formatting puts the
    arguments in the places of the directives and does not look inside them. `fill` is an executable
    formatter, a left fold over the template, and `fill_template` says that it formats every
    template whose directives and arguments match up. -/

namespace Format
open Text

inductive Piece where
  | lit (s : Bytes)
  | arg (k : ℕ)

def percent : Byte := 37

/-- The piece as it stands in the template; argument `k` (from 0) is written `%(k+1)%`. -/
def Piece.text : Piece → Bytes
  | .lit s => s
  | .arg k => percent :: toDec (k + 1) ++ [percent]

def Piece.subst (args : List Bytes) : Piece → Bytes
  | .lit s => s
  | .arg k => args.getD k []

def template (ps : List Piece) : Bytes := ps.flatMap Piece.text

def subst (ps : List Piece) (args : List Bytes) : Bytes := ps.flatMap (Piece.subst args)

/-- Literals hold no `%`; the directives name exactly the arguments given. -/
structure Fits (ps : List Piece) (args : List Bytes) : Prop where
  lits : ∀ s, .lit s ∈ ps → percent ∉ s
  inRange : ∀ k, .arg k ∈ ps → k < args.length
  used : ∀ k < args.length, .arg k ∈ ps

/-- A byte that is in no argument and in no directive stands in the result as often as in the
    template. -/
theorem count_subst {args : List Bytes} {b : Byte} (hp : b ≠ percent) (hd : isDigit b = false)
    (h : ∀ a ∈ args, b ∉ a) (ps : List Piece) : (subst ps args).count b = (template ps).count b := by
  have hpiece : ∀ p : Piece, (p.subst args).count b = p.text.count b := by
    intro p
    cases p with
    | lit s => rfl
    | arg k =>
      have harg : b ∉ args.getD k [] := by
        rw [List.getD_eq_getElem?_getD]
        cases hk : args[k]? with
        | none => simp
        | some a => exact h a (List.mem_of_getElem? hk)
      have hdir : b ∉ percent :: toDec (k + 1) ++ [percent] := by
        have hdec : b ∉ toDec (k + 1) := fun hm => by
          rw [toDec_digits _ _ hm] at hd
          cases hd
        simp [hp, hdec]
      rw [Piece.subst, Piece.text, List.count_eq_zero.mpr harg, List.count_eq_zero.mpr hdir]
  rw [subst, template, List.count_flatMap, List.count_flatMap]
  exact congrArg List.sum (List.map_congr_left fun p _ => hpiece p)

/-- Formatter state: the output so far, and the digits of the directive being read. -/
structure Filler where
  out : Bytes
  directive : Option Bytes

def fillStep (args : List Bytes) (st : Filler) (b : Byte) : Filler :=
  match st.directive with
  | none => if b = percent then ⟨st.out, some []⟩ else ⟨st.out ++ [b], none⟩
  | some d => if b = percent then ⟨st.out ++ args.getD (decVal d - 1) [], none⟩ else ⟨st.out, some (d ++ [b])⟩

def fill (s : Bytes) (args : List Bytes) : Bytes := (s.foldl (fillStep args) ⟨[], none⟩).out

variable (args : List Bytes)

theorem fill_lit : ∀ {s : Bytes} (out : Bytes), percent ∉ s →
    s.foldl (fillStep args) ⟨out, none⟩ = ⟨out ++ s, none⟩
  | [], out, _ => by simp
  | b :: s, out, h => by
    rw [List.mem_cons, not_or] at h
    have hb : fillStep args ⟨out, none⟩ b = ⟨out ++ [b], none⟩ := if_neg (Ne.symm h.1)
    rw [List.foldl_cons, hb, fill_lit (out ++ [b]) h.2, List.append_assoc, List.singleton_append]

theorem fill_digits : ∀ {s : Bytes} (out d : Bytes), percent ∉ s →
    s.foldl (fillStep args) ⟨out, some d⟩ = ⟨out, some (d ++ s)⟩
  | [], out, d, _ => by simp
  | b :: s, out, d, h => by
    rw [List.mem_cons, not_or] at h
    have hb : fillStep args ⟨out, some d⟩ b = ⟨out, some (d ++ [b])⟩ := if_neg (Ne.symm h.1)
    rw [List.foldl_cons, hb, fill_digits out (d ++ [b]) h.2, List.append_assoc, List.singleton_append]

theorem percent_not_mem_toDec (n : ℕ) : percent ∉ toDec n := by
  intro h
  exact absurd (toDec_digits n percent h) (by decide)

theorem fill_piece {p : Piece} (out : Bytes) (h : ∀ s, p = .lit s → percent ∉ s) :
    p.text.foldl (fillStep args) ⟨out, none⟩ = ⟨out ++ p.subst args, none⟩ := by
  cases p with
  | lit s => exact fill_lit args out (h s rfl)
  | arg k =>
    have hopen : fillStep args ⟨out, none⟩ percent = ⟨out, some []⟩ := rfl
    have hclose : ∀ d, fillStep args ⟨out, some d⟩ percent = ⟨out ++ args.getD (decVal d - 1) [], none⟩ :=
      fun _ => rfl
    rw [Piece.text, List.cons_append, List.foldl_cons, hopen, List.foldl_append,
      fill_digits args out [] (percent_not_mem_toDec _), List.foldl_cons, List.foldl_nil,
      List.nil_append, hclose, decVal_toDec]
    rfl

/-- The executable formatter formats every template that fits its arguments. -/
theorem fill_template {ps : List Piece} (h : Fits ps args) :
    fill (template ps) args = subst ps args := by
  have key : ∀ (ps : List Piece) (out : Bytes), (∀ s, .lit s ∈ ps → percent ∉ s) →
      (template ps).foldl (fillStep args) ⟨out, none⟩ = ⟨out ++ subst ps args, none⟩ := by
    intro ps
    induction ps with
    | nil => intro out _; simp [template, subst]
    | cons p ps ih =>
      intro out hl
      have htail := ih (out ++ p.subst args) (fun s hs => hl s (List.mem_cons_of_mem _ hs))
      rw [template] at htail ⊢
      rw [List.flatMap_cons, List.foldl_append,
        fill_piece args out (fun s hs => hl s (by rw [hs]; simp)), htail, subst, subst,
        List.flatMap_cons, List.append_assoc]
  rw [fill, key ps [] h.lits, List.nil_append]

end Format
