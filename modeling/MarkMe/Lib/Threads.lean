import Mathlib.Algebra.BigOperators.Fin
import Mathlib.Algebra.BigOperators.Group.Finset.Piecewise
import Mathlib.Algebra.Order.BigOperators.Group.Finset

/-! Threads side by side, counted by where they stand.

    `n` threads are a function on `Fin n`, and a step moves one of them (`Function.update`) or all
    that stand in one place. `count` says how many stand where `p` holds, and `total` adds up what
    each place is worth. The rules say how these change when threads move, so that counting arguments
    are left to arithmetic. -/

namespace Threads
variable {n : ℕ} {π : Type*} {p q : π → Bool} {ws : Fin n → π}

/-- What the places of all threads are worth together. -/
def total (f : π → ℕ) (ws : Fin n → π) : ℕ := ∑ w, f (ws w)

/-- One thread moves. -/
theorem total_update (f : π → ℕ) (ws : Fin n → π) (w : Fin n) (x : π) :
    total f (Function.update ws w x) + f (ws w) = total f ws + f x := by
  have hpush : ∀ v, f (Function.update ws w x v) = Function.update (fun v => f (ws v)) w (f x) v :=
    fun v => Function.apply_update (fun _ y => f y) ws w x v
  have hsame := Finset.sum_update_of_mem (Finset.mem_univ w) (fun v => f (ws v)) (f (ws w))
  rw [Function.update_eq_self] at hsame
  rw [total, total, Finset.sum_congr rfl fun v _ => hpush v, Finset.sum_update_of_mem (Finset.mem_univ w), hsame]
  omega

/-- All threads move, each gaining `k` at most. -/
theorem total_map_le {f : π → ℕ} {g : π → π} {k : ℕ} (h : ∀ x, f (g x) ≤ f x + k) (ws : Fin n → π) :
    total f (fun w => g (ws w)) ≤ total f ws + n * k := by
  calc ∑ w, f (g (ws w)) ≤ ∑ w, (f (ws w) + k) := Finset.sum_le_sum fun w _ => h (ws w)
    _ = total f ws + n * k := by
      rw [Finset.sum_add_distrib, Finset.sum_const, Finset.card_univ, Fintype.card_fin, smul_eq_mul, total]

/-- How many threads stand where `p` holds. -/
def count (p : π → Bool) (ws : Fin n → π) : ℕ := ∑ w, (p (ws w)).toNat

/-- One thread moves. -/
theorem count_update (p : π → Bool) (ws : Fin n → π) (w : Fin n) (x : π) :
    count p (Function.update ws w x) + (p (ws w)).toNat = count p ws + (p x).toNat :=
  total_update (fun y => (p y).toNat) ws w x

/-- Nobody stands where `p` holds. -/
theorem count_eq_zero : count p ws = 0 ↔ ∀ w, p (ws w) = false := by
  rw [count, Finset.sum_eq_zero_iff]
  refine ⟨fun h w => ?_, fun h w _ => by rw [h w]; rfl⟩
  have hw := h w (Finset.mem_univ w)
  cases hp : p (ws w) with
  | false => rfl
  | true =>
    rw [hp] at hw
    cases hw

end Threads
