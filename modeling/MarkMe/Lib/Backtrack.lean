import Mathlib.Data.List.Basic

/-! Regular expressions with groups, matched by backtracking.

    `run` lists what an expression can match at the front of a string, in the order in which a
    backtracking matcher tries it: a greedy repetition takes all it can and gives back one character
    at a time. The match is the first try that comes to the end of the string, and it yields the texts
    of the groups. Two greedy groups around a separator (`pair_iff`) meet at the last separator that
    leaves something for the second group.

        (p+)e(p+)   on   a e b e c e        groups   a e b   and   c e -/

namespace Backtrack

/-- Classes of characters, alone or repeated, in sequences and groups. -/
inductive Regex (α : Type*) where
  | one (p : α → Bool)
  | plus (p : α → Bool)
  | seq (r t : Regex α)
  | group (r : Regex α)

/-- One way to match the front of a string. -/
structure Try (α : Type*) where
  text : List α
  rest : List α
  groups : List (List α)

variable {α : Type*}

/-- The whole string is matched. -/
def Try.ends (x : Try α) : Bool := x.rest.isEmpty

/-- One match after another. -/
def Try.append (x y : Try α) : Try α := ⟨x.text ++ y.text, y.rest, x.groups ++ y.groups⟩

/-- The nonempty fronts of a string in a class, the longest first, each with what is left. -/
def splits (p : α → Bool) : List α → List (List α × List α)
  | [] => []
  | a :: s => if p a then (splits p s).map (fun m => (a :: m.1, m.2)) ++ [([a], s)] else []

namespace Regex

/-- All tries in the order of backtracking. Groups count by their opening parentheses. -/
def run : Regex α → List α → List (Try α)
  | one _, [] => []
  | one p, a :: s => if p a then [⟨[a], s, []⟩] else []
  | plus p, s => (splits p s).map fun m => ⟨m.1, m.2, []⟩
  | seq r t, s => (r.run s).flatMap fun x => (t.run x.rest).map x.append
  | group r, s => (r.run s).map fun x => { x with groups := x.text :: x.groups }

/-- The groups of the first try that matches the whole string. -/
def fullMatch (r : Regex α) (s : List α) : Option (List (List α)) := ((r.run s).find? Try.ends).map Try.groups

/-- The first try of a sequence is looked for behind every try of its first part. -/
theorem find_seq (r t : Regex α) (s : List α) : ((seq r t).run s).find? Try.ends
    = (r.run s).findSome? fun x => ((t.run x.rest).find? Try.ends).map x.append := by
  rw [run, List.find?_flatMap]
  congr 1
  funext x
  rw [List.find?_map]
  rfl

theorem find_group (r : Regex α) (s : List α) : ((group r).run s).find? Try.ends
    = ((r.run s).find? Try.ends).map fun x => { x with groups := x.text :: x.groups } := by
  rw [run, List.find?_map]
  rfl

/-- A single character in front has no group. -/
theorem fullMatch_one (p : α → Bool) (t : Regex α) (a : α) (s : List α) :
    (seq (one p) t).fullMatch (a :: s) = if p a then t.fullMatch s else none := by
  rw [fullMatch, find_seq, run]
  split
  · simp only [List.findSome?_cons, List.findSome?_nil, fullMatch]
    cases (t.run s).find? Try.ends <;> rfl
  · rfl

theorem fullMatch_one_nil (p : α → Bool) (t : Regex α) : (seq (one p) t).fullMatch [] = none := rfl

end Regex

/-! ### A separator between two greedy groups -/

section
variable {p : α → Bool} {e : α} {s n v : List α}

/-- The longest split is the whole string. -/
theorem splits_full : ∀ (v : List α),
    (splits p v).find? (fun m => m.2.isEmpty) = if v ≠ [] ∧ v.all p then some (v, []) else none
  | [] => rfl
  | a :: v => by
    have ih := splits_full v
    rw [splits]
    cases hp : p a with
    | false => simp [hp]
    | true =>
      have hrest : ((fun m : List α × List α => m.2.isEmpty) ∘ fun m : List α × List α => (a :: m.1, m.2))
          = fun m => m.2.isEmpty := rfl
      rw [if_pos rfl, List.find?_append, List.find?_map, hrest, ih]
      cases v with
      | nil => simp [hp]
      | cons b v => by_cases hall : (b :: v).all p = true <;> simp [hall, hp]

/-- A greedy group that has to come to the end. -/
theorem find_plus (v : List α) : ((Regex.group (.plus p)).run v).find? Try.ends
    = if v ≠ [] ∧ v.all p then some ⟨v, [], [v]⟩ else none := by
  have hfull := splits_full (p := p) v
  have hends : (Try.ends ∘ fun m : List α × List α => (⟨m.1, m.2, []⟩ : Try α)) = fun m => m.2.isEmpty := rfl
  rw [Regex.find_group, Regex.run, List.find?_map, hends, hfull]
  split <;> rfl

/-- The string is a pair, cut at a separator after which none is followed by more. -/
structure Cut (p : α → Bool) (e : α) (s n v : List α) : Prop where
  eq : s = n ++ e :: v
  left : n ≠ []
  right : v ≠ []
  all : ∀ b ∈ s, p b = true
  last : e ∉ v.dropLast

/-- An `e` in front of the last character could have been the separator. -/
theorem mem_dropLast {x : List α} (hv : v ≠ []) : e ∈ (x ++ e :: v).dropLast := by
  rw [List.dropLast_append_of_ne_nil (List.cons_ne_nil _ _), List.dropLast_cons_of_ne_nil hv]
  simp

theorem exists_of_mem_dropLast (h : e ∈ v.dropLast) : ∃ x y, v = x ++ e :: y ∧ y ≠ [] := by
  obtain ⟨x, y, hxy⟩ := List.append_of_mem h
  have hne : v ≠ [] := by
    rintro rfl
    cases h
  refine ⟨x, y ++ [v.getLast hne], ?_, by simp⟩
  rw [← List.cons_append, ← List.append_assoc, ← hxy, List.dropLast_append_getLast]

/-- There is one such cut. -/
theorem Cut.unique {n' v' : List α} (h : Cut p e s n v) (h' : Cut p e s n' v') : n = n' ∧ v = v' := by
  have hlate : ∀ {n v n' v' : List α}, Cut p e s n v → Cut p e s n' v' → ∀ x, n' = n ++ x → x = [] := by
    rintro n v n' v' h h' x rfl
    have heq := h.eq.symm.trans h'.eq
    rw [List.append_assoc, List.append_cancel_left_eq] at heq
    cases x with
    | nil => rfl
    | cons c x =>
      rw [List.cons_append, List.cons.injEq] at heq
      exact absurd (heq.2 ▸ mem_dropLast h'.right) h.last
  have hn : n = n' := by
    rcases List.append_eq_append_iff.mp (h.eq.symm.trans h'.eq) with ⟨x, hx, -⟩ | ⟨x, hx, -⟩
    · rw [hx, hlate h h' x hx, List.append_nil]
    · rw [hx, hlate h' h x hx, List.append_nil]
  subst hn
  have heq := h.eq.symm.trans h'.eq
  rw [List.append_cancel_left_eq, List.cons.injEq] at heq
  exact ⟨rfl, heq.2⟩

/-- A string split at its first separator is split there or later. -/
theorem split_later {n' v' : List α} (h : n' ++ e :: v' = n ++ e :: v) (hn : e ∉ n) :
    n' = n ∧ v' = v ∨ ∃ x, n' = n ++ e :: x ∧ v = x ++ e :: v' := by
  rcases List.append_eq_append_iff.mp h with ⟨x, rfl, hx⟩ | ⟨x, rfl, hx⟩
  · cases x with
    | nil => exact Or.inl ⟨(List.append_nil _).symm, (List.cons.inj hx).2⟩
    | cons c x =>
      obtain ⟨rfl, -⟩ := List.cons.inj hx
      exact absurd (List.mem_append_right _ (List.mem_cons_self)) hn
  · cases x with
    | nil => exact Or.inl ⟨List.append_nil _, (List.cons.inj hx).2.symm⟩
    | cons c x =>
      obtain ⟨rfl, hv⟩ := List.cons.inj hx
      exact Or.inr ⟨x, rfl, hv⟩

variable [DecidableEq α]

/-- `(p+)e(p+)`. -/
def pair (p : α → Bool) (e : α) : Regex α :=
  .seq (.group (.plus p)) (.seq (.one (· == e)) (.group (.plus p)))

/-- What comes after the first group of a pair: the separator and the second group to the end. -/
def second (p : α → Bool) (e : α) : List α → Option (List α)
  | [] => none
  | a :: v => if a = e ∧ v ≠ [] ∧ v.all p then some v else none

/-- The groups of a pair. -/
def cut (p : α → Bool) (e : α) (s : List α) : Option (List α × List α) :=
  (splits p s).findSome? fun m => (second p e m.2).map fun v => (m.1, v)

theorem find_second (s : List α) : ((Regex.seq (.one (· == e)) (.group (.plus p))).run s).find? Try.ends
    = (second p e s).map fun v => ⟨e :: v, [], [v]⟩ := by
  rw [Regex.find_seq]
  cases s with
  | nil => rfl
  | cons a v =>
    rw [Regex.run, second]
    by_cases ha : a = e
    · subst ha
      simp only [beq_self_eq_true, if_true, List.findSome?_cons, List.findSome?_nil, find_plus, true_and]
      by_cases hv : v ≠ [] ∧ v.all p = true
      · rw [if_pos hv, if_pos hv]
        rfl
      · rw [if_neg hv, if_neg hv]
        rfl
    · simp [ha]

theorem pair_fullMatch (s : List α) : (pair p e).fullMatch s = (cut p e s).map fun m => [m.1, m.2] := by
  have hgroup : (Regex.group (.plus p)).run s = (splits p s).map fun m => ⟨m.1, m.2, [m.1]⟩ := by
    rw [Regex.run, Regex.run, List.map_map]
    rfl
  rw [Regex.fullMatch, pair, Regex.find_seq, hgroup, List.findSome?_map, List.map_findSome?, cut,
    List.map_findSome?]
  congr 1
  funext m
  simp only [Function.comp_apply, find_second]
  cases second p e m.2 <;> rfl

theorem second_iff : second p e s = some v ↔ s = e :: v ∧ v ≠ [] ∧ ∀ b ∈ v, p b = true := by
  cases s with
  | nil => simp [second]
  | cons a w =>
    rw [second]
    by_cases hw : a = e ∧ w ≠ [] ∧ w.all p = true
    · obtain ⟨rfl, hne, hall⟩ := hw
      simp only [hne, hall, ne_eq, not_false_eq_true, and_self, if_true, Option.some.injEq, List.cons.injEq, true_and]
      constructor
      · rintro rfl
        exact ⟨rfl, hne, List.all_eq_true.mp hall⟩
      · exact fun h => h.1
    · rw [if_neg hw]
      refine iff_of_false (by simp) ?_
      rintro ⟨heq, hne, hall⟩
      obtain ⟨rfl, rfl⟩ := List.cons.inj heq
      exact hw ⟨rfl, hne, List.all_eq_true.mpr hall⟩

theorem cut_cons (a : α) (s : List α) : cut p e (a :: s)
    = if p a then ((cut p e s).map fun m => (a :: m.1, m.2)).or ((second p e s).map fun v => ([a], v)) else none := by
  rw [cut, splits]
  split
  · rw [List.findSome?_append, List.findSome?_map, cut, List.map_findSome?]
    congr 1
    · congr 1
      funext m
      simp only [Function.comp_apply]
      cases second p e m.2 <;> rfl
    · simp only [List.findSome?_cons, List.findSome?_nil]
      cases second p e s <;> rfl
  · rfl

/-- Wherever a string can be cut, it is. -/
theorem cut_ne_none : ∀ {n : List α}, n ≠ [] → v ≠ [] → (∀ b ∈ n ++ e :: v, p b = true) → cut p e (n ++ e :: v) ≠ none
  | [], hn, _, _ => absurd rfl hn
  | [a], _, hv, hall => by
    have hsecond : second p e (e :: v) = some v := second_iff.mpr ⟨rfl, hv, fun b hb => hall b (by simp [hb])⟩
    rw [List.singleton_append, cut_cons, if_pos (hall a (by simp)), hsecond]
    simp
  | a :: b :: n, _, hv, hall => by
    have ih := cut_ne_none (List.cons_ne_nil b n) hv fun c hc => hall c (List.mem_cons_of_mem _ hc)
    obtain ⟨m, hm⟩ := Option.ne_none_iff_exists'.mp ih
    rw [List.cons_append, cut_cons, if_pos (hall a (by simp)), hm]
    simp

theorem cut_sound (he : p e = true) : ∀ {s n v : List α}, cut p e s = some (n, v) → Cut p e s n v
  | [], n, v, h => by simp [cut, splits] at h
  | a :: s, n, v, h => by
    rw [cut_cons] at h
    split at h
    · rename_i hp
      cases hcut : cut p e s with
      | some m =>
        have ih := cut_sound he (n := m.1) (v := m.2) hcut
        rw [hcut] at h
        simp only [Option.map_some, Option.some_or, Option.some.injEq, Prod.mk.injEq] at h
        obtain ⟨rfl, rfl⟩ := h
        exact ⟨by rw [List.cons_append, ← ih.eq], List.cons_ne_nil _ _, ih.right,
          List.forall_mem_cons.mpr ⟨hp, ih.all⟩, ih.last⟩
      | none =>
        rw [hcut, Option.map_none, Option.none_or, Option.map_eq_some_iff] at h
        obtain ⟨w, hw, heq⟩ := h
        obtain ⟨rfl, rfl⟩ := Prod.mk.inj heq
        obtain ⟨rfl, hne, hall⟩ := second_iff.mp hw
        have hclass : ∀ b ∈ e :: w, p b = true := List.forall_mem_cons.mpr ⟨he, hall⟩
        refine ⟨rfl, List.cons_ne_nil _ _, hne, List.forall_mem_cons.mpr ⟨hp, hclass⟩, fun hlast => ?_⟩
        obtain ⟨x, y, rfl, hy⟩ := exists_of_mem_dropLast hlast
        exact cut_ne_none (List.cons_ne_nil e x) hy hclass hcut
    · cases h

theorem cut_iff (he : p e = true) : cut p e s = some (n, v) ↔ Cut p e s n v := by
  refine ⟨cut_sound he, fun h => ?_⟩
  obtain ⟨m, hm⟩ := Option.ne_none_iff_exists'.mp
    (cut_ne_none h.left h.right fun b hb => h.all b (by rw [h.eq]; exact hb))
  rw [← h.eq] at hm
  obtain ⟨hn, hv⟩ := h.unique (cut_sound he (n := m.1) (v := m.2) hm)
  rw [hm, hn, hv]

/-- Two greedy groups meet at the last separator that leaves something for the second. -/
theorem pair_iff (he : p e = true) : (pair p e).fullMatch s = some [n, v] ↔ Cut p e s n v := by
  rw [pair_fullMatch, ← cut_iff he, Option.map_eq_some_iff]
  constructor
  · rintro ⟨m, hm, heq⟩
    rw [hm]
    simp only [List.cons.injEq, and_true] at heq
    rw [← heq.1, ← heq.2]
  · intro h
    exact ⟨(n, v), h, rfl⟩

/-- A string that can be a pair is one. -/
theorem pair_exists (hn : n ≠ []) (hv : v ≠ []) (hall : ∀ b ∈ n ++ e :: v, p b = true) :
    ∃ n' v', (pair p e).fullMatch (n ++ e :: v) = some [n', v'] := by
  obtain ⟨m, hm⟩ := Option.ne_none_iff_exists'.mp (cut_ne_none hn hv hall)
  exact ⟨m.1, m.2, by rw [pair_fullMatch, hm, Option.map_some]⟩

end

end Backtrack
