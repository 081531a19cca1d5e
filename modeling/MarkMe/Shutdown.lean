import MarkMe.TaskManager

/-! Shutting the pool down.

    `~TaskManager` sets `stopped_` and notifies all workers, both without the mutex. A worker that has
    just found the predicate false holds the mutex and is not blocked yet: it is not among those
    notified, and blocks for good a step later. `cannot_hang_iff` says that this is the only way the
    destructor can wait for ever.

        worker       test: false ─────────────────────────▶ block ─ ─ ─ nobody is left to notify it
        destructor          stopped_ = true ─▶ notify_all ─▶ join ─ ─ ─ -/

namespace MarkMe
namespace TaskManager
variable {τ : Type*} {n : ℕ} {s : TaskManager τ n}

/-- The destructor has notified all workers. -/
def NotifiedAll (s : TaskManager τ n) : Prop := ∃ k, s.destruction = .joining k

/-- The destructor is past its `notify_all`, and a worker is blocked with no notification left. -/
def Hung (s : TaskManager τ n) : Prop :=
  s.NotifiedAll ∧ (∃ w, s.threads_ w = .blocked) ∧ s.notifiers = 0

/-- Past the `notify_all`, some order of the turns to come hangs the destructor. -/
def CanHang (s : TaskManager τ n) : Prop :=
  s.NotifiedAll ∧ ∃ turns, Hung (Machine.final step s turns)

/-- `notify_all` comes while a worker stands between a test that failed and the wait it leads to. -/
def Missed (s : TaskManager τ n) (turn : Turn τ n) : Prop :=
  turn = .notifyAll ∧ s.destruction = .flagged ∧ ∃ w, s.threads_ w = .refused

/-- Nobody is blocked or about to block. -/
def Awake (s : TaskManager τ n) : Prop := ∀ w, s.threads_ w ≠ .blocked ∧ s.threads_ w ≠ .refused

theorem awake_move (h : s.Awake) {w : Fin n} {p : Position τ} (hb : p ≠ .blocked) (hr : p ≠ .refused) :
    (s.move w p).Awake := by
  intro v
  rcases eq_or_ne v w with rfl | hv
  · simpa [TaskManager.move] using ⟨hb, hr⟩
  · simpa [TaskManager.move, hv] using h v

/-- After `stopped_` is set nobody goes to wait any more. -/
theorem awake_moves {s' : TaskManager τ n} {turn : Turn τ n} {o : Option (Report τ n)}
    (hmove : Moves s turn s' o) (hstopped : s.stopped_ = true) (h : s.Awake) : s'.Awake := by
  cases hmove with
  | push _ _ => exact h
  | notify _ _ => exact awake_move h (by simp) (by simp)
  | notifyNobody _ _ => exact h
  | wake _ => exact awake_move h (by simp) (by simp)
  | lock hp _ =>
    rcases hp with ⟨-, rfl⟩ | ⟨-, rfl⟩
    · exact awake_move h (by simp) (by simp)
    · exact awake_move h (by simp) (by simp)
  | allow _ _ => exact awake_move h (by simp) (by simp)
  | refuse _ _ hs => exact absurd hstopped (by rw [hs]; exact Bool.false_ne_true)
  | block hw => exact absurd hw (h _).2
  | go _ _ => exact awake_move h (by simp) (by simp)
  | leave _ _ => exact awake_move h (by simp) (by simp)
  | take _ _ => exact awake_move h (by simp) (by simp)
  | finish _ => exact awake_move h (by simp) (by simp)
  | stop _ => exact h
  | notifyAll _ =>
    intro w
    rcases notified_eq (s.threads_ w) with ⟨heq, -⟩ | ⟨heq, -⟩
    · simpa only [heq] using h w
    · simp [heq]
  | join _ _ _ => exact h

/-- Once all are notified, that stays so. -/
theorem notified_moves {s' : TaskManager τ n} {turn : Turn τ n} {o : Option (Report τ n)}
    (hmove : Moves s turn s' o) (h : s.NotifiedAll) : s'.NotifiedAll := by
  cases hmove with
  | stop hd =>
    obtain ⟨k, hk⟩ := h
    cases hd.symm.trans hk
  | notifyAll _ => exact ⟨0, rfl⟩
  | join _ _ _ => exact ⟨_, rfl⟩
  | _ => exact h

theorem notified_stopped (hinv : s.Inv) (h : s.NotifiedAll) : s.stopped_ = true := by
  obtain ⟨k, hk⟩ := h
  exact hinv.stopped.mpr (by rw [hk]; simp)

/-- With everybody awake after `notify_all`, the destructor does not hang. -/
theorem awake_safe (hinv : s.Inv) (hn : s.NotifiedAll) (h : s.Awake) : ¬ s.CanHang := by
  rintro ⟨-, turns, -, ⟨w, hw⟩, -⟩
  have hstep : ∀ (s : TaskManager τ n) (turn : Turn τ n), (s.Inv ∧ s.NotifiedAll ∧ s.Awake) →
      (s.step turn).1.Inv ∧ (s.step turn).1.NotifiedAll ∧ (s.step turn).1.Awake := by
    intro s turn hs
    refine step_inv (I := fun s => s.Inv ∧ s.NotifiedAll ∧ s.Awake) (fun hmove h => ?_) turn hs
    exact ⟨inv_moves hmove h.1, notified_moves hmove h.2.1,
      awake_moves hmove (notified_stopped h.1 h.2.1) h.2.2⟩
  exact ((Machine.inv_final hstep turns ⟨hinv, hn, h⟩).2.2 w).1 hw

/-- Up to `notify_all` anything goes; a `notify_all` that misses nobody leaves everybody awake. -/
theorem awake_step (turn : Turn τ n) (hinv : s.Inv) (h : s.NotifiedAll → s.Awake) (hmissed : ¬ s.Missed turn) :
    (s.step turn).1.NotifiedAll → (s.step turn).1.Awake := by
  rcases step_moves s turn with hmove | heq
  · generalize (s.step turn).1 = s' at hmove ⊢
    generalize (s.step turn).2 = o at hmove
    intro hn
    by_cases hbefore : s.NotifiedAll
    · exact awake_moves hmove (notified_stopped hinv hbefore) (h hbefore)
    · cases hmove with
      | notifyAll hd =>
        intro w
        rcases notified_eq (s.threads_ w) with ⟨heq, hne⟩ | ⟨heq, -⟩
        · simpa only [heq] using ⟨hne, fun hr => hmissed ⟨rfl, hd, w, hr⟩⟩
        · simp [heq]
      | stop _ =>
        obtain ⟨k, hk⟩ := hn
        cases hk
      | join _ hd _ => exact absurd ⟨_, hd⟩ hbefore
      | _ => exact absurd hn hbefore
  · rw [heq]
    exact h

/-- With nobody blocked, the notifications to come all get lost. -/
theorem drain : ∀ (k : ℕ) (s : TaskManager τ n), s.notifiers = k → (∀ w, (s.threads_ w).isBlocked = false) →
    Machine.final step s (List.replicate k (.notifyOne none)) = { s with notifiers := 0 }
  | 0, s, hk, _ => by
    rw [List.replicate_zero, Machine.final, ← hk]
  | k + 1, s, hk, hnone => by
    have hstep : (s.step (.notifyOne none)).1 = { s with notifiers := k } := by
      rw [step, if_pos ⟨by omega, hnone⟩, hk]
      rfl
    rw [List.replicate_succ, Machine.final, hstep, drain k { s with notifiers := k } rfl hnone]

/-- A `notify_all` that misses a worker can be followed by a wait for ever. -/
theorem missed_hangs {turn : Turn τ n} (h : s.Missed turn) : (s.step turn).1.CanHang := by
  obtain ⟨rfl, hd, w, hw⟩ := h
  have hstep : (s.step .notifyAll).1
      = { s with threads_ := fun w => (s.threads_ w).notified, destruction := .joining 0 } := by
    rw [step, if_pos hd]
  rw [hstep]
  refine ⟨⟨0, rfl⟩, List.replicate s.notifiers (.notifyOne none) ++ [.work w], ?_⟩
  have hnone : ∀ v, (s.threads_ v).notified.isBlocked = false := fun v => by
    cases s.threads_ v <;> rfl
  rw [Machine.final_append, drain _ _ rfl hnone]
  have hrefused : (s.threads_ w).notified = .refused := by rw [hw]; rfl
  simp only [Machine.final, step, work, hrefused]
  exact ⟨⟨0, rfl⟩, ⟨w, Function.update_self _ _ _⟩, rfl⟩

/-- One worker finds nothing to do, the destructor notifies, and the worker blocks. -/
theorem hangs_one : Hung (after ℕ 1 [.work 0, .work 0, .stop, .notifyAll, .work 0]) :=
  ⟨⟨0, by decide +kernel⟩, ⟨0, by decide +kernel⟩, by decide +kernel⟩

/-- In every run of every pool whose `notify_all` misses no worker, no state hangs the destructor. And
    no state is reached from which it can hang exactly if no `notify_all` of the run missed a worker. -/
theorem cannot_hang_iff (turns : List (Turn τ n)) :
    ((∀ ev ∈ historyOf τ n turns, ¬ ev.pre.Missed ev.input) → ∀ ev ∈ historyOf τ n turns, ¬ ev.post.Hung) ∧
    ((∀ ev ∈ historyOf τ n turns, ¬ ev.post.CanHang) ↔
      ∀ ev ∈ historyOf τ n turns, ¬ ev.pre.Missed ev.input) := by
  have hsafe : (∀ ev ∈ historyOf τ n turns, ¬ ev.pre.Missed ev.input) →
      ∀ ev ∈ historyOf τ n turns, ¬ ev.post.CanHang := by
    intro h ev hev hhang
    have hall := Machine.inv_all_along (I := fun s : TaskManager τ n => s.Inv ∧ (s.NotifiedAll → s.Awake))
      (G := fun ev => ¬ ev.pre.Missed ev.input)
      (fun s turn hs hG => ⟨inv_step turn hs.1, awake_step turn hs.1 hs.2 hG⟩)
      ⟨Inv.new n, fun hn => by obtain ⟨k, hk⟩ := hn; cases hk⟩ h ev hev
    exact awake_safe hall.1 hhang.1 (hall.2 hhang.1) hhang
  refine ⟨fun h ev hev hhung => hsafe h ev hev ⟨hhung.1, [], hhung⟩, fun h ev hev hmissed => ?_, hsafe⟩
  have hpost := h ev hev
  obtain ⟨before, turn, rest, -, rfl⟩ := Machine.exists_of_mem_trace hev
  exact hpost (missed_hangs hmissed)

end TaskManager

end MarkMe
