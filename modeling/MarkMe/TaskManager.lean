import Mathlib.Logic.Function.Basic
import MarkMe.Lib.Machine
import MarkMe.Lib.Threads

/-! `my::TaskManager`, a pool of workers around one queue.

    Each worker loops: lock the mutex, wait for the predicate, look at `stopped_`, take the front of
    the queue, unlock, run the task. `addTask` and `emplaceTask` push under the mutex and notify one
    worker after they have released it. The destructor sets `stopped_` and notifies all workers
    without the mutex, and joins them one by one. A step of the pool moves one of these; whose turn
    it is, whom `notify_one` wakes and when a waiting worker wakes up by itself is part of the input.

        outside ──lock──▶ entered ──test──▶ admitted ──look──▶ going ──take──▶ running ──▶ outside
                             │                 ▲  └─stopped_──▶ returned
                             ▼                 │
                          refused ──▶ blocked ──▶ woken ──lock──▶ reentered ──test──▶ as entered -/

namespace MarkMe

/-- A task: its number in push order, and the function. -/
structure Task (τ : Type*) where
  number : ℕ
  func : τ
  deriving DecidableEq

/-- Where a worker stands in its loop. -/
inductive Position (τ : Type*) where
  /-- In front of `lock(mtx_)`. -/
  | outside
  /-- In `wait` with the mutex, in front of the first evaluation of the predicate. -/
  | entered
  /-- The predicate was false; the mutex is still held. -/
  | refused
  /-- The mutex is released and the worker waits to be notified. -/
  | blocked
  /-- Notified or awake by itself, in front of the mutex. -/
  | woken
  /-- Awake with the mutex, in front of another evaluation of the predicate. -/
  | reentered
  /-- The predicate was true and `wait` has returned. -/
  | admitted
  /-- `stopped_` was false. -/
  | going
  /-- The task is taken and the mutex released. -/
  | running (t : Task τ)
  | returned
  deriving DecidableEq

namespace Position
variable {τ : Type*}

def isBlocked : Position τ → Bool
  | blocked => true
  | _ => false

/-- The worker holds the mutex. -/
def holds : Position τ → Bool
  | entered | refused | reentered | admitted | going => true
  | _ => false

/-- Awake after a wait and about to test the predicate again. -/
def retests : Position τ → Bool
  | woken | reentered => true
  | _ => false

/-- Between a test that came out true and the take it leads to. -/
def claims : Position τ → Bool
  | admitted | going => true
  | _ => false

/-- After a notification. -/
def notified : Position τ → Position τ
  | blocked => woken
  | p => p

def current : Position τ → Option (Task τ)
  | running t => some t
  | _ => none

end Position

/-- How far `~TaskManager` has come. -/
inductive Destruction where
  | notBegun
  /-- `stopped_` is set. -/
  | flagged
  /-- All workers are notified, and the first `k` of them are joined. -/
  | joining (k : ℕ)
  deriving DecidableEq

/-- The pool with its `n` workers; the waiting set of `cond_var_` is the workers that are blocked. -/
structure TaskManager (τ : Type*) (n : ℕ) where
  threads_ : Fin n → Position τ
  tasks_ : List (Task τ)
  mtx_ : Option (Fin n)
  stopped_ : Bool
  /-- Producers between their push and their `notify_one`. -/
  notifiers : ℕ
  /-- The number of the next task. -/
  pushes : ℕ
  destruction : Destruction

/-- What the scheduler lets happen next. -/
inductive Turn (τ : Type*) (n : ℕ) where
  /-- `addTask` and `emplaceTask`, up to the end of the block that holds the mutex. -/
  | push (func : τ)
  /-- `cond_var_.notify_one()`, with the worker it wakes. -/
  | notifyOne (w : Option (Fin n))
  /-- A worker wakes up without a notification. -/
  | wake (w : Fin n)
  /-- The next step of a worker. -/
  | work (w : Fin n)
  /-- `stopped_ = true`. -/
  | stop
  | notifyAll
  /-- The next `join`. -/
  | join

/-- What becomes of a task. -/
inductive Report (τ : Type*) (n : ℕ) where
  | pushed (t : Task τ)
  | took (w : Fin n) (t : Task τ)
  | finished (w : Fin n) (t : Task τ)

namespace TaskManager
variable {τ : Type*} {n : ℕ}

/-- `TaskManager(count)`. -/
def new (τ : Type*) (count : ℕ) : TaskManager τ count :=
  ⟨fun _ => .outside, [], none, false, 0, 0, .notBegun⟩

def has_tasks_or_stopped_ (s : TaskManager τ n) : Bool := !s.tasks_.isEmpty || s.stopped_

/-- A worker moves. -/
def move (s : TaskManager τ n) (w : Fin n) (p : Position τ) : TaskManager τ n :=
  { s with threads_ := Function.update s.threads_ w p }

/-- A worker takes the mutex, if it is free. -/
def lock (s : TaskManager τ n) (w : Fin n) (p : Position τ) : TaskManager τ n :=
  if s.mtx_.isNone then { s.move w p with mtx_ := some w } else s

/-- A worker gives the mutex back. -/
def unlock (s : TaskManager τ n) (w : Fin n) (p : Position τ) : TaskManager τ n :=
  { s.move w p with mtx_ := none }

/-- The worker loop, one step of it. -/
def work (s : TaskManager τ n) (w : Fin n) : TaskManager τ n × Option (Report τ n) :=
  match s.threads_ w with
  | .outside => (s.lock w .entered, none)
  | .entered | .reentered => (s.move w (if s.has_tasks_or_stopped_ then .admitted else .refused), none)
  | .refused => (s.unlock w .blocked, none)
  | .blocked => (s, none)
  | .woken => (s.lock w .reentered, none)
  | .admitted => (if s.stopped_ then s.unlock w .returned else s.move w .going, none)
  | .going =>
    match s.tasks_ with
    | t :: ts => ({ s.unlock w (.running t) with tasks_ := ts }, some (.took w t))
    -- the front of an empty queue; no run comes here (`Inv.going`)
    | [] => (s, none)
  | .running t => (s.move w .outside, some (.finished w t))
  | .returned => (s, none)

/-- A turn that is not possible changes nothing. -/
def step (s : TaskManager τ n) : Turn τ n → TaskManager τ n × Option (Report τ n)
  | .push func =>
    -- the pool is not used any more once its destructor has begun
    if s.destruction = .notBegun ∧ s.mtx_.isNone then
      ({ s with
          tasks_ := s.tasks_ ++ [⟨s.pushes, func⟩]
          notifiers := s.notifiers + 1
          pushes := s.pushes + 1 },
        some (.pushed ⟨s.pushes, func⟩))
    else (s, none)
  | .notifyOne (some w) =>
    if 0 < s.notifiers ∧ (s.threads_ w).isBlocked then
      ({ s.move w .woken with notifiers := s.notifiers - 1 }, none)
    else (s, none)
  | .notifyOne none =>
    if 0 < s.notifiers ∧ ∀ w, (s.threads_ w).isBlocked = false then
      ({ s with notifiers := s.notifiers - 1 }, none)
    else (s, none)
  | .wake w => (if (s.threads_ w).isBlocked then s.move w .woken else s, none)
  | .work w => s.work w
  | .stop =>
    (if s.destruction = .notBegun then { s with stopped_ := true, destruction := .flagged } else s, none)
  | .notifyAll =>
    (if s.destruction = .flagged then
      { s with
        threads_ := fun w => (s.threads_ w).notified
        destruction := .joining 0 }
    else s, none)
  | .join =>
    match s.destruction with
    | .joining k =>
      if h : k < n then
        match s.threads_ ⟨k, h⟩ with
        | .returned => ({ s with destruction := .joining (k + 1) }, none)
        | _ => (s, none)
      else (s, none)
    | _ => (s, none)

/-! ### What a turn does -/

/-- The turns that change the pool, each with its guard. -/
inductive Moves (s : TaskManager τ n) : Turn τ n → TaskManager τ n → Option (Report τ n) → Prop
  | push {func : τ} : s.destruction = .notBegun → s.mtx_ = none →
      Moves s (.push func)
        { s with
          tasks_ := s.tasks_ ++ [⟨s.pushes, func⟩]
          notifiers := s.notifiers + 1
          pushes := s.pushes + 1 }
        (some (.pushed ⟨s.pushes, func⟩))
  | notify {w : Fin n} : 0 < s.notifiers → s.threads_ w = .blocked →
      Moves s (.notifyOne (some w)) { s.move w .woken with notifiers := s.notifiers - 1 } none
  | notifyNobody : 0 < s.notifiers → (∀ w, s.threads_ w ≠ .blocked) →
      Moves s (.notifyOne none) { s with notifiers := s.notifiers - 1 } none
  | wake {w : Fin n} : s.threads_ w = .blocked → Moves s (.wake w) (s.move w .woken) none
  | lock {w : Fin n} {p : Position τ} : (s.threads_ w = .outside ∧ p = .entered) ∨
      (s.threads_ w = .woken ∧ p = .reentered) → s.mtx_ = none →
      Moves s (.work w) { s.move w p with mtx_ := some w } none
  | allow {w : Fin n} : s.threads_ w = .entered ∨ s.threads_ w = .reentered →
      s.tasks_ ≠ [] ∨ s.stopped_ = true → Moves s (.work w) (s.move w .admitted) none
  | refuse {w : Fin n} : s.threads_ w = .entered ∨ s.threads_ w = .reentered →
      s.tasks_ = [] → s.stopped_ = false → Moves s (.work w) (s.move w .refused) none
  | block {w : Fin n} : s.threads_ w = .refused → Moves s (.work w) (s.unlock w .blocked) none
  | go {w : Fin n} : s.threads_ w = .admitted → s.stopped_ = false → Moves s (.work w) (s.move w .going) none
  | leave {w : Fin n} : s.threads_ w = .admitted → s.stopped_ = true →
      Moves s (.work w) (s.unlock w .returned) none
  | take {w : Fin n} {t : Task τ} {ts : List (Task τ)} : s.threads_ w = .going → s.tasks_ = t :: ts →
      Moves s (.work w) { s.unlock w (.running t) with tasks_ := ts } (some (.took w t))
  | finish {w : Fin n} {t : Task τ} : s.threads_ w = .running t →
      Moves s (.work w) (s.move w .outside) (some (.finished w t))
  | stop : s.destruction = .notBegun →
      Moves s .stop { s with stopped_ := true, destruction := .flagged } none
  | notifyAll : s.destruction = .flagged →
      Moves s .notifyAll
        { s with
          threads_ := fun w => (s.threads_ w).notified
          destruction := .joining 0 }
        none
  | join {k : ℕ} (h : k < n) : s.destruction = .joining k → s.threads_ ⟨k, h⟩ = .returned →
      Moves s .join { s with destruction := .joining (k + 1) } none

variable {s : TaskManager τ n}

theorem blocked_iff {p : Position τ} : p.isBlocked = true ↔ p = .blocked := by
  cases p <;> simp [Position.isBlocked]

theorem notified_eq (p : Position τ) : p.notified = p ∧ p ≠ .blocked ∨ p.notified = .woken ∧ p = .blocked := by
  cases p <;> simp [Position.notified]

theorem predicate_iff : s.has_tasks_or_stopped_ = true ↔ s.tasks_ ≠ [] ∨ s.stopped_ = true := by
  simp [has_tasks_or_stopped_]

theorem work_moves (s : TaskManager τ n) (w : Fin n) :
    Moves s (.work w) (s.work w).1 (s.work w).2 ∨ s.work w = (s, none) := by
  have hlock : ∀ p, (s.threads_ w = .outside ∧ p = .entered) ∨ (s.threads_ w = .woken ∧ p = .reentered) →
      Moves s (.work w) (s.lock w p) none ∨ (s.lock w p, (none : Option (Report τ n))) = (s, none) := by
    intro p hp
    rw [TaskManager.lock]
    cases hm : s.mtx_ with
    | none => exact Or.inl (.lock hp hm)
    | some _ => exact Or.inr rfl
  have htest : s.threads_ w = .entered ∨ s.threads_ w = .reentered →
      Moves s (.work w) (s.move w (if s.has_tasks_or_stopped_ then .admitted else .refused)) none := by
    intro hw
    cases hp : s.has_tasks_or_stopped_ with
    | true => exact .allow hw (predicate_iff.mp hp)
    | false =>
      have hno := mt predicate_iff.mpr (by rw [hp]; exact Bool.false_ne_true)
      exact .refuse hw (by simpa using (not_or.mp hno).1) (by simpa using (not_or.mp hno).2)
  rw [work]
  cases hw : s.threads_ w with
  | outside => exact hlock _ (Or.inl ⟨hw, rfl⟩)
  | entered => exact Or.inl (htest (Or.inl hw))
  | refused => exact Or.inl (.block hw)
  | blocked => exact Or.inr rfl
  | woken => exact hlock _ (Or.inr ⟨hw, rfl⟩)
  | reentered => exact Or.inl (htest (Or.inr hw))
  | admitted =>
    cases hs : s.stopped_ with
    | true => exact Or.inl (.leave hw hs)
    | false => exact Or.inl (.go hw hs)
  | going =>
    cases ht : s.tasks_ with
    | nil => exact Or.inr rfl
    | cons t ts => exact Or.inl (.take hw ht)
  | running t => exact Or.inl (.finish hw)
  | returned => exact Or.inr rfl

/-- A turn is one of these moves or changes nothing. -/
theorem step_moves (s : TaskManager τ n) (turn : Turn τ n) :
    Moves s turn (s.step turn).1 (s.step turn).2 ∨ s.step turn = (s, none) := by
  cases turn with
  | push func =>
    rw [step]
    split
    · rename_i h
      exact Or.inl (.push h.1 (by simpa using h.2))
    · exact Or.inr rfl
  | notifyOne o =>
    cases o with
    | some w =>
      rw [step]
      split
      · rename_i h
        exact Or.inl (.notify h.1 (blocked_iff.mp h.2))
      · exact Or.inr rfl
    | none =>
      rw [step]
      split
      · rename_i h
        refine Or.inl (.notifyNobody h.1 fun w hw => ?_)
        have hno := h.2 w
        rw [hw] at hno
        cases hno
      · exact Or.inr rfl
  | wake w =>
    rw [step]
    split
    · rename_i h
      exact Or.inl (.wake (blocked_iff.mp h))
    · exact Or.inr rfl
  | work w => exact work_moves s w
  | stop =>
    rw [step]
    split
    · rename_i h
      exact Or.inl (.stop h)
    · exact Or.inr rfl
  | notifyAll =>
    rw [step]
    split
    · rename_i h
      exact Or.inl (.notifyAll h)
    · exact Or.inr rfl
  | join =>
    rw [step]
    cases hd : s.destruction with
    | notBegun => exact Or.inr rfl
    | flagged => exact Or.inr rfl
    | joining k =>
      dsimp only
      split
      · rename_i h
        cases hw : s.threads_ ⟨k, h⟩ with
        | returned => exact Or.inl (.join h hd hw)
        | _ => exact Or.inr rfl
      · exact Or.inr rfl

/-- And such a move is what the turn does. -/
theorem moves_step {s' : TaskManager τ n} {turn : Turn τ n} {o : Option (Report τ n)} (hmove : Moves s turn s' o) :
    s.step turn = (s', o) := by
  cases hmove with
  | push hd hm => simp [step, hd, hm]
  | notify hpos hw => simp [step, hpos, hw, Position.isBlocked]
  | notifyNobody hpos hno =>
    have hnone : ∀ w, (s.threads_ w).isBlocked = false := fun w => by
      simpa [← blocked_iff] using hno w
    simp [step, hpos, hnone]
  | wake hw => simp [step, hw, Position.isBlocked]
  | lock hp hm => rcases hp with ⟨hw, rfl⟩ | ⟨hw, rfl⟩ <;> simp [step, work, lock, hw, hm]
  | allow hw hpred =>
    have htrue := predicate_iff.mpr hpred
    rcases hw with hw | hw <;> simp [step, work, hw, htrue]
  | refuse hw ht hs =>
    have hfalse : s.has_tasks_or_stopped_ = false := by simp [has_tasks_or_stopped_, ht, hs]
    rcases hw with hw | hw <;> simp [step, work, hw, hfalse]
  | block hw => simp [step, work, hw]
  | go hw hs => simp [step, work, hw, hs]
  | leave hw hs => simp [step, work, hw, hs]
  | take hw ht => simp [step, work, hw, ht]
  | finish hw => simp [step, work, hw]
  | stop hd => simp [step, hd]
  | notifyAll hd => simp [step, hd]
  | join hk hd hw => simp [step, hd, hk, hw]

/-- A property that every move keeps is kept by every turn. -/
theorem step_inv {I : TaskManager τ n → Prop} (hmoves : ∀ {s' turn o}, Moves s turn s' o → I s → I s')
    (turn : Turn τ n) (hs : I s) : I (s.step turn).1 := by
  rcases step_moves s turn with h | h
  · exact hmoves h hs
  · rw [h]
    exact hs

/-! ### The mutex -/

/-- What holds between two turns. -/
structure Inv (s : TaskManager τ n) : Prop where
  holder : ∀ w, (s.threads_ w).holds = true ↔ s.mtx_ = some w
  /-- Nothing is pushed between a test that fails and the wait it leads to. -/
  refused : ∀ w, s.threads_ w = .refused → s.tasks_ = []
  admitted : ∀ w, s.threads_ w = .admitted → s.tasks_ ≠ [] ∨ s.stopped_ = true
  going : ∀ w, s.threads_ w = .going → s.tasks_ ≠ []
  stopped : s.stopped_ = true ↔ s.destruction ≠ .notBegun

/-- Whoever stands at a place that needs the mutex is its holder. -/
theorem Inv.held (h : s.Inv) {w : Fin n} {p : Position τ} (hw : s.threads_ w = p) (hp : p.holds = true) :
    s.mtx_ = some w :=
  (h.holder w).mp (hw ▸ hp)

theorem Inv.new (count : ℕ) : (TaskManager.new τ count).Inv :=
  ⟨by simp [TaskManager.new, Position.holds], by simp [TaskManager.new], by simp [TaskManager.new],
    by simp [TaskManager.new], by simp [TaskManager.new]⟩

/-- One worker moves, and the mutex may change hands between it and nobody. -/
theorem Inv.move (h : s.Inv) {w : Fin n} {p : Position τ} {m : Option (Fin n)}
    (hself : p.holds = true ↔ m = some w) (hothers : ∀ v, v ≠ w → (s.mtx_ = some v ↔ m = some v))
    (hrefused : p = .refused → s.tasks_ = []) (hadmitted : p = .admitted → s.tasks_ ≠ [] ∨ s.stopped_ = true)
    (hgoing : p = .going → s.tasks_ ≠ []) : Inv { s.move w p with mtx_ := m } := by
  constructor
  · intro v
    rcases eq_or_ne v w with rfl | hv
    · simpa [TaskManager.move] using hself
    · simpa [TaskManager.move, hv] using (h.holder v).trans (hothers v hv)
  · intro v hp
    rcases eq_or_ne v w with rfl | hv
    · exact hrefused (by simpa [TaskManager.move] using hp)
    · exact h.refused v (by simpa [TaskManager.move, hv] using hp)
  · intro v hp
    rcases eq_or_ne v w with rfl | hv
    · exact hadmitted (by simpa [TaskManager.move] using hp)
    · exact h.admitted v (by simpa [TaskManager.move, hv] using hp)
  · intro v hp
    rcases eq_or_ne v w with rfl | hv
    · exact hgoing (by simpa [TaskManager.move] using hp)
    · exact h.going v (by simpa [TaskManager.move, hv] using hp)
  · exact h.stopped

/-- A worker moves and keeps the mutex, or keeps being without it. -/
theorem Inv.stay (h : s.Inv) {w : Fin n} {p : Position τ} (hsame : p.holds = (s.threads_ w).holds)
    (hrefused : p = .refused → s.tasks_ = []) (hadmitted : p = .admitted → s.tasks_ ≠ [] ∨ s.stopped_ = true)
    (hgoing : p = .going → s.tasks_ ≠ []) : (s.move w p).Inv :=
  h.move (m := s.mtx_) (hsame ▸ h.holder w) (fun _ _ => Iff.rfl) hrefused hadmitted hgoing

theorem Inv.lock (h : s.Inv) {w : Fin n} {p : Position τ} (hm : s.mtx_ = none)
    (hp : p = .entered ∨ p = .reentered) : Inv { s.move w p with mtx_ := some w } := by
  refine h.move ?_ (fun v hv => ?_) ?_ ?_ ?_
  · rcases hp with rfl | rfl <;> simp [Position.holds]
  · simp [hm, hv.symm]
  all_goals rcases hp with rfl | rfl <;> simp

theorem Inv.unlock (h : s.Inv) {w : Fin n} {p : Position τ} (hm : s.mtx_ = some w) (hp : p.holds = false) :
    (s.unlock w p).Inv := by
  refine h.move (by simp [hp]) (fun v hv => by simp [hm, hv.symm]) ?_ ?_ ?_
  all_goals
    rintro rfl
    cases hp

/-- With the mutex free, the queue is of nobody's concern. -/
theorem Inv.tasks (h : s.Inv) (hm : s.mtx_ = none) (ts : List (Task τ)) : Inv { s with tasks_ := ts } := by
  have hnone : ∀ {w p}, s.threads_ w = p → p.holds = true → False := fun hw hp => by
    rw [h.held hw hp] at hm
    cases hm
  exact ⟨h.holder, fun w hw => (hnone hw rfl).elim, fun w hw => (hnone hw rfl).elim,
    fun w hw => (hnone hw rfl).elim, h.stopped⟩

/-- All blocked workers are notified. -/
theorem Inv.notified (h : s.Inv) : Inv { s with threads_ := fun w => (s.threads_ w).notified } := by
  have hkept : ∀ {w p}, (s.threads_ w).notified = p → p ≠ .woken → s.threads_ w = p := by
    intro w p hp hne
    rcases notified_eq (s.threads_ w) with ⟨heq, -⟩ | ⟨heq, -⟩
    · exact heq.symm.trans hp
    · exact absurd (hp.symm.trans heq) hne
  refine ⟨fun w => ?_, fun w hw => h.refused w (hkept hw (by simp)), fun w hw => h.admitted w (hkept hw (by simp)),
    fun w hw => h.going w (hkept hw (by simp)), h.stopped⟩
  have hholds : (s.threads_ w).notified.holds = (s.threads_ w).holds := by
    cases s.threads_ w <;> rfl
  exact hholds ▸ h.holder w

theorem inv_moves {s' : TaskManager τ n} {turn : Turn τ n} {o : Option (Report τ n)} (hmove : Moves s turn s' o)
    (h : s.Inv) : s'.Inv := by
  cases hmove with
  | @push func _ hm =>
    have hpush := h.tasks hm (s.tasks_ ++ [⟨s.pushes, func⟩])
    exact ⟨hpush.holder, hpush.refused, hpush.admitted, hpush.going, hpush.stopped⟩
  | notify _ hw =>
    have hwoken := h.stay (w := _) (p := .woken) (by rw [hw]; rfl) (by simp) (by simp) (by simp)
    exact ⟨hwoken.holder, hwoken.refused, hwoken.admitted, hwoken.going, hwoken.stopped⟩
  | notifyNobody _ _ => exact ⟨h.holder, h.refused, h.admitted, h.going, h.stopped⟩
  | wake hw => exact h.stay (by rw [hw]; rfl) (by simp) (by simp) (by simp)
  | lock hp hm => exact h.lock hm (hp.imp And.right And.right)
  | allow hw hpred => exact h.stay (by rcases hw with hw | hw <;> rw [hw] <;> rfl) (by simp) (fun _ => hpred) (by simp)
  | refuse hw ht _ => exact h.stay (by rcases hw with hw | hw <;> rw [hw] <;> rfl) (fun _ => ht) (by simp) (by simp)
  | block hw => exact h.unlock (h.held hw rfl) rfl
  | go hw hs =>
    have htasks := (h.admitted _ hw).resolve_right (by rw [hs]; exact Bool.false_ne_true)
    exact h.stay (by rw [hw]; rfl) (by simp) (by simp) (fun _ => htasks)
  | leave hw _ => exact h.unlock (h.held hw rfl) rfl
  | take hw _ => exact (h.unlock (h.held hw rfl) rfl).tasks rfl _
  | finish hw => exact h.stay (by rw [hw]; rfl) (by simp) (by simp) (by simp)
  | stop _ => exact ⟨h.holder, h.refused, fun _ _ => Or.inr rfl, h.going, by simp⟩
  | notifyAll hd =>
    have hwoken := h.notified
    exact ⟨hwoken.holder, hwoken.refused, hwoken.admitted, hwoken.going, by simpa [hd] using h.stopped⟩
  | join _ hd _ => exact ⟨h.holder, h.refused, h.admitted, h.going, by simpa [hd] using h.stopped⟩

theorem inv_step (turn : Turn τ n) (h : s.Inv) : (s.step turn).1.Inv := step_inv inv_moves turn h

/-! ### Runs -/

/-- The pool after some turns from its constructor on, and what has become of the tasks. -/
abbrev after (τ : Type*) (count : ℕ) (turns : List (Turn τ count)) : TaskManager τ count :=
  Machine.final step (new τ count) turns

abbrev historyOf (τ : Type*) (count : ℕ) (turns : List (Turn τ count)) :
    List (Machine.Event (TaskManager τ count) (Turn τ count) (Option (Report τ count))) :=
  Machine.trace step (new τ count) turns

/-- In every state of a run one worker at most is past its lock, the one that holds the mutex. -/
theorem inv_after (count : ℕ) (turns : List (Turn τ count)) : (after τ count turns).Inv :=
  Machine.inv_final (I := Inv) (fun _ turn h => inv_step turn h) turns (Inv.new count)

end TaskManager

end MarkMe
