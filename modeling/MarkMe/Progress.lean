import MarkMe.Shutdown
import MarkMe.TaskOrder
import MarkMe.Wakeups

/-! The pool gets its work done.

    Which worker runs, and when, is nobody's promise. What a run can still do is measured: the steps
    every worker has left until it blocks or returns, the steps that each queued task and each
    notification to come will cost, and what is left of the destructor. A step that the pool makes by
    itself uses some of this up. Only a push and a spurious wake-up bring more, so a pool that is
    left alone comes to rest, and it rests with nothing left to do.

        blocked 0 ◀─ refused 1 ◀─ entered 2 ◀─ outside 3 ◀─ running 4
                                  reentered 2 ◀─ woken 3
        returned 0, going 0 ◀─ admitted 1 -/

namespace MarkMe

/-- The steps until a worker blocks, returns or takes a task. -/
def Position.remaining {τ : Type*} : Position τ → ℕ
  | running _ => 4
  | outside | woken => 3
  | entered | reentered => 2
  | refused | admitted => 1
  | blocked | going | returned => 0

/-- The steps of `~TaskManager` that are left, with those of the workers that its `notify_all` wakes. -/
def Destruction.remaining (n : ℕ) : Destruction → ℕ
  | notBegun | flagged => 4 * n + 1
  | joining k => n - k

namespace Turn
variable {τ : Type*} {n : ℕ}

/-- A step that the pool makes by itself, once `addTask` and `~TaskManager` are called. -/
def own : Turn τ n → Bool
  | push _ | wake _ | stop => false
  | notifyOne _ | work _ | notifyAll | join => true

abbrev Own (turn : Turn τ n) : Prop := turn.own = true

def isWake : Turn τ n → Bool
  | wake _ => true
  | _ => false

end Turn

namespace TaskManager
variable {τ : Type*} {n : ℕ} {s s' : TaskManager τ n}

/-- What the pool can still do by itself. -/
def remaining (s : TaskManager τ n) : ℕ :=
  5 * s.tasks_.length + 4 * s.notifiers + Threads.total Position.remaining s.threads_ + s.destruction.remaining n

theorem total_move (s : TaskManager τ n) (w : Fin n) (p : Position τ) :
    Threads.total Position.remaining (s.move w p).threads_ + (s.threads_ w).remaining
      = Threads.total Position.remaining s.threads_ + p.remaining :=
  Threads.total_update Position.remaining s.threads_ w p

theorem remaining_move (s : TaskManager τ n) (w : Fin n) (p : Position τ) :
    (s.move w p).remaining + (s.threads_ w).remaining = s.remaining + p.remaining := by
  have htotal := total_move s w p
  simp only [remaining] at htotal ⊢
  simp only [TaskManager.move] at htotal ⊢
  omega

theorem notified_remaining (p : Position τ) : p.notified.remaining ≤ p.remaining + 3 := by
  cases p <;> simp [Position.notified, Position.remaining]

/-- What a turn brings. -/
def gain (turn : Turn τ n) (o : Option (Report τ n)) : ℕ :=
  9 * (o.bind Report.push).toList.length + 3 * turn.isWake.toNat

/-- A move of the pool itself uses something up, and no move brings more than its gain. -/
theorem moves_remaining {turn : Turn τ n} {o : Option (Report τ n)} (hmove : Moves s turn s' o) :
    turn.own.toNat + s'.remaining ≤ s.remaining + gain turn o := by
  have hstep : ∀ {w p}, p.remaining < (s.threads_ w).remaining → 1 + (s.move w p).remaining ≤ s.remaining := by
    intro w p hlt
    have hmoved := remaining_move s w p
    omega
  cases hmove with
  | push _ _ =>
    simp only [remaining, gain, Turn.own, Turn.isWake, Report.push, List.length_append, List.length_singleton,
      Option.bind_some, Option.toList_some, Bool.toNat_false]
    omega
  | @notify w hpos hw =>
    have htotal := total_move s w .woken
    simp only [hw, Position.remaining, TaskManager.move] at htotal
    simp only [remaining, TaskManager.move, Turn.own, Bool.toNat_true]
    omega
  | notifyNobody hpos _ =>
    simp only [remaining, Turn.own, Bool.toNat_true]
    omega
  | @wake w hw =>
    have hmoved := remaining_move s w .woken
    simp only [hw, Position.remaining] at hmoved
    simp only [gain, Turn.own, Turn.isWake, Bool.toNat_true, Bool.toNat_false]
    omega
  | @lock w p hp _ =>
    refine hstep (w := w) (p := p) ?_
    rcases hp with ⟨hw, rfl⟩ | ⟨hw, rfl⟩ <;> simp [hw, Position.remaining]
  | allow hw _ => exact hstep (by rcases hw with hw | hw <;> simp [hw, Position.remaining])
  | refuse hw _ _ => exact hstep (by rcases hw with hw | hw <;> simp [hw, Position.remaining])
  | block hw => exact hstep (by simp [hw, Position.remaining])
  | go hw _ => exact hstep (by simp [hw, Position.remaining])
  | leave hw _ => exact hstep (by simp [hw, Position.remaining])
  | @take w t ts hw ht =>
    have htotal := total_move s w (.running t)
    simp only [hw, Position.remaining, TaskManager.move] at htotal
    simp only [remaining, unlock, TaskManager.move, Turn.own, ht, List.length_cons, Bool.toNat_true]
    omega
  | finish hw => exact hstep (by simp [hw, Position.remaining])
  | stop hd => simp [remaining, Turn.own, hd, Destruction.remaining]
  | notifyAll hd =>
    have hwoken := Threads.total_map_le notified_remaining s.threads_
    simp only [remaining, Turn.own, hd, Destruction.remaining, Bool.toNat_true]
    omega
  | join hk hd _ =>
    simp only [remaining, Turn.own, hd, Destruction.remaining, Bool.toNat_true]
    omega

theorem own_gain {turn : Turn τ n} {o : Option (Report τ n)} (hmove : Moves s turn s' o) (hown : turn.Own) :
    gain turn o = 0 := by
  cases hmove <;> first | rfl | cases hown

/-- A turn of the pool itself changes nothing or uses something up. -/
theorem own_spends (s : TaskManager τ n) (turn : Turn τ n) (hown : turn.Own) :
    (s.step turn).1 = s ∨ (s.step turn).1.remaining < s.remaining := by
  rcases step_moves s turn with hmove | heq
  · have hspent := moves_remaining hmove
    rw [hown, own_gain hmove hown, Bool.toNat_true] at hspent
    exact Or.inr (by omega)
  · exact Or.inl (by rw [heq])

/-! ### How much a run can do -/

open Classical in
/-- The turns of one kind that were not in vain. -/
noncomputable def changes (p : Turn τ n → Bool) (h : History τ n) : ℕ :=
  h.countP fun ev => p ev.input && ev.post ≠ ev.pre

open Classical in
theorem changes_concat (p : Turn τ n → Bool) (h : History τ n) (s : TaskManager τ n) (turn : Turn τ n) :
    changes p (h ++ [Machine.event step s turn])
      = changes p h + (p turn && decide ((s.step turn).1 ≠ s)).toNat := by
  have hcount : ∀ b : Bool, (if b = true then 1 else 0) = b.toNat := by decide
  rw [changes, List.countP_append, List.countP_singleton, hcount]
  rfl

/-- What has been done and what is left are no more than what was there and what has been brought. -/
def Paid (h : History τ n) (s : TaskManager τ n) : Prop :=
  changes Turn.own h + s.remaining ≤ 7 * n + 1 + 9 * (pushed h).length + 3 * changes Turn.isWake h

theorem Paid.step (h : History τ n) (s : TaskManager τ n) (turn : Turn τ n) (ih : Paid h s) :
    Paid (h ++ [Machine.event step s turn]) (s.step turn).1 := by
  rw [Paid] at ih ⊢
  rw [changes_concat, changes_concat, pushed_concat, List.length_append]
  rcases step_moves s turn with hmove | heq
  · have hspent := moves_remaining hmove
    by_cases hsame : (s.step turn).1 = s
    · rw [hsame]
      simp only [ne_eq, not_true_eq_false, decide_false, Bool.and_false, Bool.toNat_false]
      omega
    · simp only [gain, ne_eq, hsame, not_false_eq_true, decide_true, Bool.and_true, Machine.event] at hspent ⊢
      omega
  · rw [heq]
    simp only [ne_eq, not_true_eq_false, decide_false, Bool.and_false, Bool.toNat_false]
    omega

/-- A pool does not spin: in every run, the steps it makes by itself are no more than 9 for every task, 3 for
    every spurious wake-up and, destructor included, 7 for every worker and 1. -/
theorem work_bounded (turns : List (Turn τ n)) :
    changes Turn.own (historyOf τ n turns)
      ≤ 7 * n + 1 + 9 * (pushed (historyOf τ n turns)).length + 3 * changes Turn.isWake (historyOf τ n turns) := by
  have hnew : (TaskManager.new τ n).remaining = 7 * n + 1 := by
    have htotal : Threads.total (π := Position τ) Position.remaining (fun _ : Fin n => .outside) = n * 3 := by
      rw [Threads.total, Finset.sum_const, Finset.card_univ, Fintype.card_fin, smul_eq_mul]
      rfl
    simp only [remaining, TaskManager.new, Destruction.remaining, htotal, List.length_nil]
    omega
  have hstart : Paid [] (TaskManager.new τ n) := by
    simp [Paid, hnew, changes, pushed]
  have hend := Machine.history (J := Paid) hstart Paid.step turns
  exact Nat.le_trans (Nat.le_add_right _ _) hend

/-! ### At rest -/

/-- Whoever holds the mutex can go on. -/
theorem Inv.holder_moves (h : s.Inv) {w : Fin n} (hw : s.mtx_ = some w) : ∃ s' o, Moves s (.work w) s' o := by
  have hholds := (h.holder w).mpr hw
  have htest : s.threads_ w = .entered ∨ s.threads_ w = .reentered → ∃ s' o, Moves s (.work w) s' o := by
    intro hpos
    by_cases hpred : s.tasks_ ≠ [] ∨ s.stopped_ = true
    · exact ⟨_, _, .allow hpos hpred⟩
    · obtain ⟨ht, hs⟩ := not_or.mp hpred
      exact ⟨_, _, .refuse hpos (by simpa using ht) (by simpa using hs)⟩
  cases hpos : s.threads_ w with
  | entered => exact htest (Or.inl hpos)
  | reentered => exact htest (Or.inr hpos)
  | refused => exact ⟨_, _, .block hpos⟩
  | admitted =>
    cases hs : s.stopped_ with
    | true => exact ⟨_, _, .leave hpos hs⟩
    | false => exact ⟨_, _, .go hpos hs⟩
  | going =>
    obtain ⟨t, ts, ht⟩ := List.exists_cons_of_ne_nil (h.going w hpos)
    exact ⟨_, _, .take hpos ht⟩
  | _ =>
    rw [hpos] at hholds
    cases hholds

/-- The pool can do nothing by itself. -/
abbrev AtRest (s : TaskManager τ n) : Prop := Machine.Settled step Turn.Own s

/-- At rest no move is possible. -/
theorem AtRest.stuck (hrest : s.AtRest) {turn : Turn τ n} {o : Option (Report τ n)} (hmove : Moves s turn s' o)
    (hown : turn.Own) : False := by
  have hsame := hrest turn hown
  have hspent := moves_remaining hmove
  rw [moves_step hmove] at hsame
  rw [hown, own_gain hmove hown, ← hsame, Bool.toNat_true] at hspent
  exact absurd hspent (by simp)

theorem AtRest.threads (hrest : s.AtRest) (hinv : s.Inv) (w : Fin n) :
    s.threads_ w = .blocked ∨ s.threads_ w = .returned := by
  have hfree : s.mtx_ = none := by
    cases hm : s.mtx_ with
    | none => rfl
    | some v =>
      obtain ⟨s', o, hmove⟩ := hinv.holder_moves hm
      exact (hrest.stuck hmove rfl).elim
  have hheld : (s.threads_ w).holds = true → False := fun hholds => by
    rw [(hinv.holder w).mp hholds] at hfree
    cases hfree
  cases hpos : s.threads_ w with
  | blocked => exact Or.inl rfl
  | returned => exact Or.inr rfl
  | outside => exact (hrest.stuck (.lock (Or.inl ⟨hpos, rfl⟩) hfree) rfl).elim
  | woken => exact (hrest.stuck (.lock (Or.inr ⟨hpos, rfl⟩) hfree) rfl).elim
  | running t => exact (hrest.stuck (.finish hpos) rfl).elim
  | _ => exact (hheld (by rw [hpos]; rfl)).elim

theorem AtRest.notifiers (hrest : s.AtRest) : s.notifiers = 0 := by
  by_contra hpos
  by_cases hblocked : ∃ w, s.threads_ w = .blocked
  · obtain ⟨w, hw⟩ := hblocked
    exact hrest.stuck (.notify (by omega) hw) rfl
  · exact hrest.stuck (.notifyNobody (by omega) (not_exists.mp hblocked)) rfl

/-- Destruction begins with `stop`. -/
theorem begun_moves {turn : Turn τ n} {o : Option (Report τ n)} (hmove : Moves s turn s' o) (hstop : turn ≠ .stop)
    (halive : s.destruction = .notBegun) : s'.destruction = .notBegun := by
  cases hmove with
  | stop _ => exact absurd rfl hstop
  | notifyAll hd => cases halive.symm.trans hd
  | join _ hd _ => cases halive.symm.trans hd
  | _ => exact halive

/-- Only a stopped pool lets a worker go. -/
def Quits (s : TaskManager τ n) : Prop := (∃ w, s.threads_ w = .returned) → s.stopped_ = true

theorem quits_moves {turn : Turn τ n} {o : Option (Report τ n)} (hmove : Moves s turn s' o) (h : s.Quits) :
    s'.Quits := by
  have hkept : ∀ {w p}, p ≠ .returned → (∃ v, (s.move w p).threads_ v = .returned) → s.stopped_ = true := by
    rintro w p hp ⟨v, hv⟩
    rcases eq_or_ne v w with rfl | hne
    · exact absurd (by simpa [TaskManager.move] using hv) hp
    · exact h ⟨v, by simpa [TaskManager.move, hne] using hv⟩
  cases hmove with
  | push _ _ => exact h
  | notify _ _ => exact hkept (by simp)
  | notifyNobody _ _ => exact h
  | wake _ => exact hkept (by simp)
  | lock hp _ => rcases hp with ⟨-, rfl⟩ | ⟨-, rfl⟩ <;> exact hkept (by simp)
  | allow _ _ => exact hkept (by simp)
  | refuse _ _ _ => exact hkept (by simp)
  | block _ => exact hkept (by simp)
  | go _ _ => exact hkept (by simp)
  | leave _ hs => exact fun _ => hs
  | take _ _ => exact hkept (by simp)
  | finish _ => exact hkept (by simp)
  | stop _ => exact fun _ => rfl
  | notifyAll _ =>
    rintro ⟨w, hw⟩
    rcases notified_eq (s.threads_ w) with ⟨heq, -⟩ | ⟨heq, -⟩
    · exact h ⟨w, heq ▸ hw⟩
    · exact absurd (heq.symm.trans hw) (by simp)
  | join _ _ _ => exact h

theorem quits_after (turns : List (Turn τ n)) {w : Fin n} (hw : (after τ n turns).threads_ w = .returned) :
    (after τ n turns).stopped_ = true := by
  refine Machine.inv_final (I := Quits) (fun _ turn h => step_inv quits_moves turn h) turns ?_ ⟨w, hw⟩
  rintro ⟨v, hv⟩
  cases hv

theorem count_share [DecidableEq τ] (w : Fin n) (t : Task τ) (l : List (Fin n × Task τ)) :
    (share w l).count t = l.count (w, t) := by
  induction l with
  | nil => rfl
  | cons x l ih =>
    obtain ⟨v, r⟩ := x
    rw [← List.singleton_append, share_append, List.count_append, List.count_append, ih]
    rcases eq_or_ne v w with rfl | hv
    · rw [share_self, List.count_singleton, List.count_singleton]
      simp
    · rw [share_other hv.symm]
      simp [hv]

/-- What is the same for every worker is the same together. -/
theorem perm_of_shares {l l' : List (Fin n × Task τ)} (h : ∀ w, share w l = share w l') : l.Perm l' := by
  classical
  rw [List.perm_iff_count]
  rintro ⟨w, t⟩
  rw [← count_share, ← count_share, h w]

/-- Nobody has anything left to do: every task that was pushed has run to its end, once. -/
structure Done (h : History τ n) (s : TaskManager τ n) : Prop where
  threads : ∀ w, s.threads_ w = .blocked
  tasks : s.tasks_ = []
  notifiers : s.notifiers = 0
  finished : ((finished h).map Prod.snd).Perm (pushed h)

/-- Without a `stop` the pool is not destroyed. -/
theorem alive_along {u : ℕ → Turn τ n} (halive : ∀ j, u j ≠ .stop) :
    ∀ j, (after τ n ((List.range j).map u)).destruction = .notBegun
  | 0 => rfl
  | j + 1 => by
    have ih := alive_along halive j
    rw [show after τ n ((List.range (j + 1)).map u) = _ from Machine.along_succ _ u j]
    rcases step_moves (Machine.along step (TaskManager.new τ n) u j) (u j) with hmove | heq
    · exact begun_moves hmove (halive j) ih
    · rw [heq]
      exact ih

/-- A pool that is at rest and not being destroyed is done. -/
theorem AtRest.done {turns : List (Turn τ n)} (hrest : (after τ n turns).AtRest) (hn : 0 < n)
    (halive : (after τ n turns).destruction = .notBegun) : Done (historyOf τ n turns) (after τ n turns) := by
  have hinv := inv_after (τ := τ) n turns
  have hblocked : ∀ w, (after τ n turns).threads_ w = .blocked := fun w =>
    (hrest.threads hinv w).resolve_right fun hret => hinv.stopped.mp (quits_after turns hret) halive
  have htasks : (after τ n turns).tasks_ = [] := by
    have hcount := covered_after turns halive ⟨⟨0, hn⟩, hblocked _⟩
    have hretest : (after τ n turns).retesting = 0 := Threads.count_eq_zero.mpr fun w => by rw [hblocked w]; rfl
    have hclaim : (after τ n turns).claiming = 0 := claiming_eq_zero.mpr fun w => by rw [hblocked w]; rfl
    rw [hrest.notifiers, hretest, hclaim] at hcount
    exact List.length_eq_zero_iff.mp (Nat.le_zero.mp hcount)
  have hacc := accounts_after n turns
  refine ⟨hblocked, htasks, hrest.notifiers, ?_⟩
  rw [hacc.order, htasks, List.append_nil]
  refine List.Perm.map _ (perm_of_shares fun w => ?_)
  rw [hacc.shares w, hblocked w]
  exact (List.append_nil _).symm

/-- A pool that makes progress and is left alone comes to rest. -/
theorem rests {u : ℕ → Turn τ n} (hprogress : Machine.Progress step Turn.Own (TaskManager.new τ n) u) {k : ℕ}
    (hquiet : ∀ j, k ≤ j → (u j).Own) :
    ∃ k', k ≤ k' ∧ ∀ j, k' ≤ j → (after τ n ((List.range j).map u)).AtRest := by
  obtain ⟨k', hk', hsettled⟩ := Machine.settles (m := remaining) own_spends hprogress hquiet
  refine ⟨k', hk', fun j hj => ?_⟩
  have hstay := Machine.settled_stays hsettled (fun i hi => hquiet i (by omega)) j hj
  rw [AtRest, show after τ n ((List.range j).map u) = _ from hstay]
  exact hsettled

/-- A pool that has workers and is not destroyed runs every task. Whatever the order of its steps, and
    as long as only some step or other that is possible is made, once nothing comes from outside any more
    it gets to where all workers wait and all tasks have run to their end. -/
theorem tasks_finish (hn : 0 < n) {u : ℕ → Turn τ n} (halive : ∀ j, u j ≠ .stop)
    (hprogress : Machine.Progress step Turn.Own (TaskManager.new τ n) u) {k : ℕ} (hquiet : ∀ j, k ≤ j → (u j).Own) :
    ∃ k', k ≤ k' ∧ ∀ j, k' ≤ j → Done (historyOf τ n ((List.range j).map u)) (after τ n ((List.range j).map u)) := by
  obtain ⟨k', hk', hrest⟩ := rests hprogress hquiet
  exact ⟨k', hk', fun j hj => (hrest j hj).done hn (alive_along halive j)⟩

theorem atRest_of (hthreads : ∀ w, s.threads_ w = .blocked ∨ s.threads_ w = .returned) (hnotifiers : s.notifiers = 0)
    (hflagged : s.destruction ≠ .flagged)
    (hjoining : ∀ k, s.destruction = .joining k → ∀ h : k < n, s.threads_ ⟨k, h⟩ ≠ .returned) : s.AtRest := by
  intro turn hown
  have hidle : ∀ {w p}, s.threads_ w = p → p ≠ .blocked → p ≠ .returned → False := by
    intro w p hw hb hr
    rcases hthreads w with heq | heq
    · exact hb (hw.symm.trans heq)
    · exact hr (hw.symm.trans heq)
  rcases step_moves s turn with hmove | heq
  · generalize (s.step turn).1 = s' at hmove
    generalize (s.step turn).2 = o at hmove
    exfalso
    cases hmove with
    | push _ _ => cases hown
    | notify hpos _ => omega
    | notifyNobody hpos _ => omega
    | wake _ => cases hown
    | lock hp _ => rcases hp with ⟨hw, -⟩ | ⟨hw, -⟩ <;> exact hidle hw (by simp) (by simp)
    | allow hw _ => rcases hw with hw | hw <;> exact hidle hw (by simp) (by simp)
    | refuse hw _ _ => rcases hw with hw | hw <;> exact hidle hw (by simp) (by simp)
    | block hw => exact hidle hw (by simp) (by simp)
    | go hw _ => exact hidle hw (by simp) (by simp)
    | leave hw _ => exact hidle hw (by simp) (by simp)
    | take hw _ => exact hidle hw (by simp) (by simp)
    | finish hw => exact hidle hw (by simp) (by simp)
    | stop _ => cases hown
    | notifyAll hd => exact hflagged hd
    | join h hd hw => exact hjoining _ hd h hw
  · rw [heq]

/-- The worker of a pool that has one. -/
def sole : Fin 1 := ⟨0, Nat.one_pos⟩

/-- A script, and after it the worker is given the turn again and again. -/
def scripted (script : List (Turn Unit 1)) (j : ℕ) : Turn Unit 1 := (script[j]?).getD (.work sole)

theorem scripted_of {P : Turn Unit 1 → Prop} (hwork : P (.work sole)) {script : List (Turn Unit 1)} {k : ℕ}
    (hscript : ∀ turn ∈ script.drop k, P turn) (j : ℕ) (hj : k ≤ j) : P (scripted script j) := by
  rw [scripted]
  cases hturn : script[j]? with
  | none => exact hwork
  | some turn =>
    refine hscript turn (List.mem_of_getElem? (i := j - k) ?_)
    rw [List.getElem?_drop, Nat.add_sub_cancel' hj, hturn]

/-- One worker, one task, and the worker waits again. -/
def errand : List (Turn Unit 1) :=
  [.push (), .notifyOne none, .work sole, .work sole, .work sole, .work sole, .work sole, .work sole, .work sole, .work sole]

theorem tasks_finish_errand : ∃ k, ∀ j, k ≤ j →
    Done (historyOf Unit 1 ((List.range j).map (scripted errand)))
      (after Unit 1 ((List.range j).map (scripted errand))) := by
  have hquiet : ∀ j, 9 ≤ j → (scripted errand j).Own := scripted_of (P := Turn.Own) rfl (by decide)
  have halive : ∀ j, scripted errand j ≠ .stop :=
    fun j => scripted_of (P := (· ≠ .stop)) (by simp) (by simp [errand]) j (Nat.zero_le j)
  have hrest : (after Unit 1 errand).AtRest :=
    atRest_of (by decide) (by decide) (by decide) (fun k hk => by cases hk)
  have hprogress : Machine.Progress step Turn.Own (TaskManager.new Unit 1) (scripted errand) := by
    refine Machine.progress_of_settled (k := 9) hquiet (fun heq => ?_) hrest
    exact absurd (congrArg (fun s => s.threads_ sole) heq) (by decide)
  obtain ⟨k, -, hdone⟩ := tasks_finish Nat.one_pos halive hprogress hquiet
  exact ⟨k, hdone⟩

/-! ### The destructor -/

/-- No more workers are joined than there are. -/
def Within (s : TaskManager τ n) : Prop := ∀ k, s.destruction = .joining k → k ≤ n

theorem within_moves {turn : Turn τ n} {o : Option (Report τ n)} (hmove : Moves s turn s' o) (h : s.Within) :
    s'.Within := by
  cases hmove with
  | stop _ =>
    intro k hk
    cases hk
  | notifyAll _ =>
    intro k hk
    cases hk
    exact Nat.zero_le n
  | join hk _ _ =>
    intro k hj
    cases hj
    exact hk
  | _ => exact h

theorem within_after (turns : List (Turn τ n)) : (after τ n turns).Within := by
  refine Machine.inv_final (I := Within) (fun _ turn h => step_inv within_moves turn h) turns ?_
  intro k hk
  cases hk

/-- At rest, the destructor has returned or waits for a worker that nobody will notify. -/
theorem AtRest.destructor {turns : List (Turn τ n)} (hrest : (after τ n turns).AtRest)
    (hbegun : (after τ n turns).destruction ≠ .notBegun) :
    (after τ n turns).Destroyed ↔ ¬ (after τ n turns).Hung := by
  constructor
  · rintro hd ⟨-, ⟨w, hw⟩, -⟩
    cases hw.symm.trans (hd.returned w)
  · intro hnot
    cases hd : (after τ n turns).destruction with
    | notBegun => exact absurd hd hbegun
    | flagged => exact (hrest.stuck (.notifyAll hd) rfl).elim
    | joining k =>
      have hle := within_after turns k hd
      rcases Nat.lt_or_eq_of_le hle with hlt | heq
      · rcases hrest.threads (inv_after n turns) ⟨k, hlt⟩ with hw | hw
        · exact absurd ⟨⟨k, hd⟩, ⟨_, hw⟩, hrest.notifiers⟩ hnot
        · exact (hrest.stuck (.join hlt hd hw) rfl).elim
      · exact hd.trans (congrArg _ heq)

/-- With no `notify_all` that misses a worker, nobody is blocked past it. -/
theorem awake_after (turns : List (Turn τ n)) (h : ∀ ev ∈ historyOf τ n turns, ¬ ev.pre.Missed ev.input) :
    ¬ (after τ n turns).Hung := by
  have hall := Machine.inv_of_guard (I := fun s : TaskManager τ n => s.Inv ∧ (s.NotifiedAll → s.Awake))
    (G := fun ev => ¬ ev.pre.Missed ev.input)
    (fun s turn hs hG => ⟨inv_step turn hs.1, awake_step turn hs.1 hs.2 hG⟩)
    ⟨Inv.new n, fun hn => by obtain ⟨k, hk⟩ := hn; cases hk⟩ h
  rintro ⟨hnotified, ⟨w, hw⟩, -⟩
  exact (hall.2 hnotified w).1 hw

theorem begun_along {u : ℕ → Turn τ n} {i : ℕ} (hstop : u i = .stop) :
    ∀ j, i + 1 ≤ j → (after τ n ((List.range j).map u)).destruction ≠ .notBegun := by
  intro j hj
  induction j, hj using Nat.le_induction with
  | base =>
    rw [show after τ n ((List.range (i + 1)).map u) = _ from Machine.along_succ _ u i, hstop]
    rw [step]
    split
    · simp
    · assumption
  | succ j hj ih =>
    rw [show after τ n ((List.range (j + 1)).map u) = _ from Machine.along_succ _ u j]
    rcases step_moves (Machine.along step (TaskManager.new τ n) u j) (u j) with hmove | heq
    · exact mt (alive_moves hmove) ih
    · rw [heq]
      exact ih

/-- A destructor that has begun returns, in every run that makes progress and is left alone, unless it hangs;
    and it returns in every run in which `notify_all` misses no worker. -/
theorem destructor_returns {u : ℕ → Turn τ n} {i : ℕ} (hstop : u i = .stop)
    (hprogress : Machine.Progress step Turn.Own (TaskManager.new τ n) u) {k : ℕ} (hquiet : ∀ j, k ≤ j → (u j).Own) :
    ∃ k', k ≤ k' ∧ ∀ j, k' ≤ j →
      ((after τ n ((List.range j).map u)).Destroyed ↔ ¬ (after τ n ((List.range j).map u)).Hung) ∧
      ((∀ ev ∈ historyOf τ n ((List.range j).map u), ¬ ev.pre.Missed ev.input) →
        (after τ n ((List.range j).map u)).Destroyed) := by
  obtain ⟨k', hk', hrest⟩ := rests hprogress hquiet
  have hik : i < k := by
    by_contra hle
    have hown := hquiet i (by omega)
    rw [hstop] at hown
    cases hown
  refine ⟨k', hk', fun j hj => ?_⟩
  have hiff := (hrest j hj).destructor (begun_along hstop j (by omega))
  exact ⟨hiff, fun hnone => hiff.mpr (awake_after _ hnone)⟩

/-- The worker has just blocked when the destructor comes. -/
def farewell : List (Turn Unit 1) :=
  [.work sole, .work sole, .work sole, .stop, .notifyAll, .work sole, .work sole, .work sole, .join]

theorem destructor_returns_farewell : ∃ k, ∀ j, k ≤ j →
    ((after Unit 1 ((List.range j).map (scripted farewell))).Destroyed ↔
      ¬ (after Unit 1 ((List.range j).map (scripted farewell))).Hung) := by
  have hquiet : ∀ j, 8 ≤ j → (scripted farewell j).Own := scripted_of (P := Turn.Own) rfl (by decide)
  have hrest : (after Unit 1 farewell).AtRest := by
    refine atRest_of (by decide) (by decide) (by decide) (fun k hk h => ?_)
    cases hk
    omega
  have hprogress : Machine.Progress step Turn.Own (TaskManager.new Unit 1) (scripted farewell) := by
    refine Machine.progress_of_settled (k := 8) hquiet (fun heq => ?_) hrest
    exact absurd (congrArg (fun s => s.destruction) heq) (by decide)
  obtain ⟨k, -, hends⟩ := destructor_returns (i := 3) rfl hprogress hquiet
  exact ⟨k, fun j hj => (hends j hj).1⟩

end TaskManager

end MarkMe
