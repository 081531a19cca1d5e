import MarkMe.TaskManager

/-! No wake-up is lost.

    A push is answered by one `notify_one`, later and without the mutex, and a worker that comes from
    a task may take what was meant for one that is just waking up. What survives all of this is a
    count: while somebody is blocked, every queued task has a notification still to come, or a worker
    on its way from a wait to another test, or one between its test and its take.

        tasks_  ≤  pushes not yet notified  +  workers awake to test again  +  workers about to take -/

namespace MarkMe
namespace TaskManager
variable {τ : Type*} {n : ℕ} {s : TaskManager τ n}

/-- How many workers are awake after a wait and about to test the predicate again. -/
def retesting (s : TaskManager τ n) : ℕ := Threads.count Position.retests s.threads_

/-- How many workers have passed the test and not yet taken their task: one at most, with the mutex. -/
def claiming (s : TaskManager τ n) : ℕ := Threads.count Position.claims s.threads_

/-- Every queued task is provided for, in case somebody is blocked. -/
def Covered (s : TaskManager τ n) : Prop :=
  (∃ w, s.threads_ w = .blocked) → s.tasks_.length ≤ s.notifiers + s.retesting + s.claiming

theorem retesting_move (s : TaskManager τ n) (w : Fin n) (p : Position τ) :
    (s.move w p).retesting + (s.threads_ w).retests.toNat = s.retesting + p.retests.toNat :=
  Threads.count_update Position.retests s.threads_ w p

theorem claiming_move (s : TaskManager τ n) (w : Fin n) (p : Position τ) :
    (s.move w p).claiming + (s.threads_ w).claims.toNat = s.claiming + p.claims.toNat :=
  Threads.count_update Position.claims s.threads_ w p

/-- Who is blocked after a move was blocked before, unless the move is to block. -/
theorem blocked_move {w : Fin n} {p : Position τ} (hp : p ≠ .blocked)
    (h : ∃ v, (s.move w p).threads_ v = .blocked) : ∃ v, s.threads_ v = .blocked := by
  obtain ⟨v, hv⟩ := h
  rcases eq_or_ne v w with rfl | hne
  · exact absurd (by simpa [TaskManager.move] using hv) hp
  · exact ⟨v, by simpa [TaskManager.move, hne] using hv⟩

/-- A worker moves without touching the queue, and covers as much as before. -/
theorem covered_move (h : s.Covered) {w : Fin n} {p : Position τ} (hp : p ≠ .blocked)
    (hcover : (s.threads_ w).retests.toNat + (s.threads_ w).claims.toNat ≤ p.retests.toNat + p.claims.toNat) :
    (s.move w p).Covered := by
  intro hblocked
  have hcount := h (blocked_move hp hblocked)
  have hretest := retesting_move s w p
  have hclaim := claiming_move s w p
  have htasks : (s.move w p).tasks_.length = s.tasks_.length := rfl
  have hnotifiers : (s.move w p).notifiers = s.notifiers := rfl
  omega

/-- An empty queue needs nobody. -/
theorem covered_nil (h : s.tasks_ = []) : s.Covered := fun _ => by simp [h]

theorem covered_moves {s' : TaskManager τ n} {turn : Turn τ n} {o : Option (Report τ n)}
    (hmove : Moves s turn s' o) (hinv : s.Inv) (halive : s'.destruction = .notBegun) (h : s.Covered) :
    s'.Covered := by
  cases hmove with
  | push _ _ =>
    intro hblocked
    have hcount := h hblocked
    simp only [List.length_append, List.length_singleton, retesting, claiming] at hcount ⊢
    omega
  | @notify w hpos hw =>
    intro _
    have hcount := h ⟨w, hw⟩
    have hretest := retesting_move s w .woken
    have hclaim := claiming_move s w .woken
    simp only [hw, Position.retests, Position.claims, Bool.toNat_true, Bool.toNat_false] at hretest hclaim
    simp only [retesting, claiming, TaskManager.move] at hcount hretest hclaim ⊢
    omega
  | notifyNobody _ hno =>
    rintro ⟨w, hw⟩
    exact absurd hw (hno w)
  | wake hw => exact covered_move h (by simp) (by simp [hw, Position.retests, Position.claims])
  | @lock w p hp _ =>
    have hmoved : (s.move w p).Covered := covered_move h (by rcases hp with ⟨-, rfl⟩ | ⟨-, rfl⟩ <;> simp)
      (by rcases hp with ⟨hw, rfl⟩ | ⟨hw, rfl⟩ <;> simp [hw, Position.retests, Position.claims])
    exact hmoved
  | allow hw _ =>
    exact covered_move h (by simp) (by rcases hw with hw | hw <;> simp [hw, Position.retests, Position.claims])
  | refuse _ ht _ => exact covered_nil ht
  | block hw => exact covered_nil (hinv.refused _ hw)
  | go hw _ => exact covered_move h (by simp) (by simp [hw, Position.retests, Position.claims])
  | leave _ hs => exact absurd halive (hinv.stopped.mp hs)
  | @take w t ts hw ht =>
    intro hblocked
    have hcount := h (blocked_move (by simp) hblocked)
    have hretest := retesting_move s w (.running t)
    have hclaim := claiming_move s w (.running t)
    simp only [hw, Position.retests, Position.claims, Bool.toNat_true, Bool.toNat_false] at hretest hclaim
    simp only [ht, List.length_cons, retesting, claiming, TaskManager.move, unlock] at hcount hretest hclaim ⊢
    omega
  | finish hw => exact covered_move h (by simp) (by simp [hw, Position.retests, Position.claims])
  | stop _ => cases halive
  | notifyAll _ => cases halive
  | join _ _ _ => cases halive

/-- A pool that is not being destroyed never was. -/
theorem alive_moves {s' : TaskManager τ n} {turn : Turn τ n} {o : Option (Report τ n)}
    (hmove : Moves s turn s' o) (halive : s'.destruction = .notBegun) : s.destruction = .notBegun := by
  cases hmove with
  | stop _ => cases halive
  | notifyAll _ => cases halive
  | join _ _ _ => cases halive
  | _ => exact halive

theorem covered_after (turns : List (Turn τ n)) (halive : (after τ n turns).destruction = .notBegun) :
    (after τ n turns).Covered := by
  have hstep : ∀ (s : TaskManager τ n) (turn : Turn τ n), (s.Inv ∧ (s.destruction = .notBegun → s.Covered)) →
      (s.step turn).1.Inv ∧ ((s.step turn).1.destruction = .notBegun → (s.step turn).1.Covered) := by
    intro s turn hs
    refine step_inv (I := fun s => s.Inv ∧ (s.destruction = .notBegun → s.Covered)) (fun hmove h => ?_) turn hs
    exact ⟨inv_moves hmove h.1, fun ha => covered_moves hmove h.1 ha (h.2 (alive_moves hmove ha))⟩
  exact (Machine.inv_final hstep turns ⟨Inv.new n, fun _ => covered_nil rfl⟩).2 halive

/-- Nobody stands between its test and its take. -/
theorem claiming_eq_zero : s.claiming = 0 ↔ ∀ w, (s.threads_ w).claims = false := Threads.count_eq_zero

/-- No wake-up is lost before the pool is destroyed: while some worker is blocked, the queued tasks
    are no more than the notifications still to come and the workers awake and about to test again,
    with the one that has tested and not yet taken counted besides. So all workers are never blocked
    with a task in the queue and no notification to come. -/
theorem wakeups_kept (turns : List (Turn τ n)) (halive : (after τ n turns).destruction = .notBegun) :
    let s := after τ n turns
    ((∃ w, s.threads_ w = .blocked) →
      s.tasks_.length ≤ s.notifiers + s.retesting + s.claiming ∧
      ((∀ w, (s.threads_ w).claims = false) → s.tasks_.length ≤ s.notifiers + s.retesting)) ∧
    ¬ ((∃ w, s.threads_ w = .blocked) ∧ (∀ w, s.threads_ w = .blocked) ∧ s.notifiers = 0 ∧ s.tasks_ ≠ []) := by
  intro s
  have hcovered := covered_after turns halive
  refine ⟨fun hblocked => ⟨hcovered hblocked, fun hnone => ?_⟩, ?_⟩
  · have hcount := hcovered hblocked
    rw [claiming_eq_zero.mpr hnone] at hcount
    exact hcount
  · rintro ⟨hblocked, hall, hnotifiers, htasks⟩
    have hcount := hcovered hblocked
    have hretest : s.retesting = 0 := Threads.count_eq_zero.mpr fun w => by rw [hall w]; rfl
    have hclaim : s.claiming = 0 := claiming_eq_zero.mpr fun w => by rw [hall w]; rfl
    rw [hnotifiers, hretest, hclaim] at hcount
    exact htasks (List.length_eq_zero_iff.mp (Nat.le_zero.mp hcount))

/-- Two workers are blocked when the first task comes, and one of them is woken. -/
theorem wakeups_kept_two :
    let block (w : Fin 2) : List (Turn ℕ 2) := [.work w, .work w, .work w]
    let s := after ℕ 2 (block 0 ++ block 1 ++ [.push 7, .push 8, .notifyOne (some 0)])
    s.tasks_.length ≤ s.notifiers + s.retesting + s.claiming :=
  ((wakeups_kept _ (by decide +kernel)).1 ⟨1, by decide +kernel⟩).1

end TaskManager

end MarkMe
