import MarkMe.TaskManager

/-! Tasks run in order, once, and to their end.

    What becomes of the tasks is read off the reports of a run. At any time the tasks pushed are the
    tasks taken followed by the queue, and what a worker has taken it has finished, but for the one it
    is running. After `stopped_` only a worker that has looked at it already can take one more, and
    when the destructor has returned nobody is left to take any.

        pushed   t₀ t₁ t₂ t₃ t₄ t₅
        taken    t₀ t₁ t₂           tasks_  t₃ t₄ t₅ -/

namespace MarkMe

def Report.push {τ : Type*} {n : ℕ} : Report τ n → Option (Task τ)
  | .pushed t => some t
  | _ => none

def Report.take {τ : Type*} {n : ℕ} : Report τ n → Option (Fin n × Task τ)
  | .took w t => some (w, t)
  | _ => none

def Report.finish {τ : Type*} {n : ℕ} : Report τ n → Option (Fin n × Task τ)
  | .finished w t => some (w, t)
  | _ => none

/-- Past its look at `stopped_`: such a worker takes a task even when `stopped_` is set since. -/
def Position.isGoing {τ : Type*} : Position τ → Bool
  | .going => true
  | _ => false

namespace TaskManager
variable {τ : Type*} {n : ℕ} {s s' : TaskManager τ n}

/-- What has happened to a pool. -/
abbrev History (τ : Type*) (n : ℕ) :=
  List (Machine.Event (TaskManager τ n) (Turn τ n) (Option (Report τ n)))

/-- The tasks in push order. -/
def pushed (h : History τ n) : List (Task τ) := h.filterMap fun ev => ev.out.bind Report.push

/-- The tasks in the order they were taken, each with its worker. -/
def taken (h : History τ n) : List (Fin n × Task τ) := h.filterMap fun ev => ev.out.bind Report.take

/-- The tasks that ran to their end, each with its worker. -/
def finished (h : History τ n) : List (Fin n × Task τ) := h.filterMap fun ev => ev.out.bind Report.finish

/-- The part of one worker. -/
def share (w : Fin n) (l : List (Fin n × Task τ)) : List (Task τ) := (l.filter fun x => x.1 = w).map Prod.snd

/-- What a turn does to the tasks, by its report. -/
inductive Reports (s s' : TaskManager τ n) : Option (Report τ n) → Prop
  | nothing : s'.tasks_ = s.tasks_ → s'.pushes = s.pushes →
      (∀ w, (s'.threads_ w).current = (s.threads_ w).current) → Reports s s' none
  | pushed {t : Task τ} : t.number = s.pushes → s'.tasks_ = s.tasks_ ++ [t] → s'.pushes = s.pushes + 1 →
      (∀ w, (s'.threads_ w).current = (s.threads_ w).current) → Reports s s' (some (.pushed t))
  | took {w : Fin n} {t : Task τ} : s.tasks_ = t :: s'.tasks_ → s'.pushes = s.pushes →
      (s.threads_ w).current = none → (s'.threads_ w).current = some t →
      (∀ v, v ≠ w → (s'.threads_ v).current = (s.threads_ v).current) → Reports s s' (some (.took w t))
  | finished {w : Fin n} {t : Task τ} : s'.tasks_ = s.tasks_ → s'.pushes = s.pushes →
      (s.threads_ w).current = some t → (s'.threads_ w).current = none →
      (∀ v, v ≠ w → (s'.threads_ v).current = (s.threads_ v).current) → Reports s s' (some (.finished w t))

/-- A worker that moves between two places without a task. -/
theorem current_move {w : Fin n} {p : Position τ} (hold : (s.threads_ w).current = none) (hnew : p.current = none)
    (v : Fin n) : ((s.move w p).threads_ v).current = (s.threads_ v).current := by
  rcases eq_or_ne v w with rfl | hv
  · rw [hold]
    simp [TaskManager.move, hnew]
  · simp [TaskManager.move, hv]

theorem current_other {w v : Fin n} (p : Position τ) (hv : v ≠ w) :
    ((s.move w p).threads_ v).current = (s.threads_ v).current := by
  simp [TaskManager.move, hv]

theorem current_notified (p : Position τ) : p.notified.current = p.current := by
  cases p <;> rfl

theorem moves_reports {turn : Turn τ n} {o : Option (Report τ n)} (hmove : Moves s turn s' o) : Reports s s' o := by
  cases hmove with
  | push _ _ => exact .pushed rfl rfl rfl fun _ => rfl
  | notify _ hw => exact .nothing rfl rfl (current_move (by rw [hw]; rfl) rfl)
  | notifyNobody _ _ => exact .nothing rfl rfl fun _ => rfl
  | wake hw => exact .nothing rfl rfl (current_move (by rw [hw]; rfl) rfl)
  | lock hp _ =>
    rcases hp with ⟨hw, rfl⟩ | ⟨hw, rfl⟩
    · exact .nothing rfl rfl (current_move (by rw [hw]; rfl) rfl)
    · exact .nothing rfl rfl (current_move (by rw [hw]; rfl) rfl)
  | allow hw _ => exact .nothing rfl rfl (current_move (by rcases hw with hw | hw <;> rw [hw] <;> rfl) rfl)
  | refuse hw _ _ => exact .nothing rfl rfl (current_move (by rcases hw with hw | hw <;> rw [hw] <;> rfl) rfl)
  | block hw => exact .nothing rfl rfl (current_move (by rw [hw]; rfl) rfl)
  | go hw _ => exact .nothing rfl rfl (current_move (by rw [hw]; rfl) rfl)
  | leave hw _ => exact .nothing rfl rfl (current_move (by rw [hw]; rfl) rfl)
  | @take w t ts hw ht =>
    refine .took ht rfl (by rw [hw]; rfl) ?_ fun v hv => current_other (.running t) hv
    simp [unlock, TaskManager.move, Position.current]
  | @finish w t hw =>
    refine .finished rfl rfl (by rw [hw]; rfl) ?_ fun v hv => current_other .outside hv
    simp [TaskManager.move, Position.current]
  | stop _ => exact .nothing rfl rfl fun _ => rfl
  | notifyAll _ => exact .nothing rfl rfl fun _ => current_notified _
  | join _ _ _ => exact .nothing rfl rfl fun _ => rfl

theorem step_reports (s : TaskManager τ n) (turn : Turn τ n) : Reports s (s.step turn).1 (s.step turn).2 := by
  rcases step_moves s turn with h | h
  · exact moves_reports h
  · rw [h]
    exact .nothing rfl rfl fun _ => rfl

/-! ### The tasks of a run -/

/-- A turn's report joins a history. -/
theorem pushed_concat (h : History τ n) (ev : Machine.Event (TaskManager τ n) (Turn τ n) (Option (Report τ n))) :
    pushed (h ++ [ev]) = pushed h ++ (ev.out.bind Report.push).toList := by
  cases hev : ev.out.bind Report.push <;> simp [pushed, List.filterMap_append, hev]

theorem taken_concat (h : History τ n) (ev : Machine.Event (TaskManager τ n) (Turn τ n) (Option (Report τ n))) :
    taken (h ++ [ev]) = taken h ++ (ev.out.bind Report.take).toList := by
  cases hev : ev.out.bind Report.take <;> simp [taken, List.filterMap_append, hev]

theorem finished_concat (h : History τ n) (ev : Machine.Event (TaskManager τ n) (Turn τ n) (Option (Report τ n))) :
    finished (h ++ [ev]) = finished h ++ (ev.out.bind Report.finish).toList := by
  cases hev : ev.out.bind Report.finish <;> simp [finished, List.filterMap_append, hev]

theorem share_append (w : Fin n) (l l' : List (Fin n × Task τ)) : share w (l ++ l') = share w l ++ share w l' := by
  rw [share, List.filter_append, List.map_append, share, share]

@[simp] theorem share_self (w : Fin n) (t : Task τ) : share w [(w, t)] = [t] := by
  simp [share]

theorem share_other {w v : Fin n} (hv : v ≠ w) (t : Task τ) : share v [(w, t)] = [] := by
  simp [share, hv.symm]

/-- Where every task pushed so far is. -/
structure Accounts (h : History τ n) (s : TaskManager τ n) : Prop where
  order : pushed h = (taken h).map Prod.snd ++ s.tasks_
  numbers : (pushed h).map Task.number = List.range s.pushes
  shares : ∀ w, share w (taken h) = share w (finished h) ++ (s.threads_ w).current.toList

theorem Accounts.new (count : ℕ) : Accounts [] (TaskManager.new τ count) :=
  ⟨rfl, rfl, fun _ => rfl⟩

theorem Accounts.step (h : History τ n) (s : TaskManager τ n) (turn : Turn τ n) (ih : Accounts h s) :
    Accounts (h ++ [Machine.event step s turn]) (s.step turn).1 := by
  have hreports := step_reports s turn
  generalize hs' : (s.step turn).1 = s' at hreports ⊢
  generalize ho : (s.step turn).2 = o at hreports
  have hout : (Machine.event TaskManager.step s turn).out = o := ho
  constructor
  · rw [pushed_concat, taken_concat, hout, ih.order]
    cases hreports with
    | nothing ht _ _ => simp [ht]
    | pushed _ ht _ _ => simp [ht, Report.push, Report.take]
    | took ht _ _ _ _ => simp [ht, Report.push, Report.take]
    | finished ht _ _ _ _ => simp [ht, Report.push, Report.take]
  · rw [pushed_concat, hout, List.map_append, ih.numbers]
    cases hreports with
    | nothing _ hn _ => simp [hn]
    | pushed ht _ hn _ => simp [ht, hn, Report.push, List.range_succ]
    | took _ hn _ _ _ => simp [hn, Report.push]
    | finished _ hn _ _ _ => simp [hn, Report.push]
  · intro w
    rw [taken_concat, finished_concat, hout, share_append, share_append, ih.shares w]
    cases hreports with
    | nothing _ _ hc => simp [hc w, share]
    | pushed _ _ _ hc => simp [hc w, Report.take, Report.finish, share]
    | @took v t _ _ hold hnew hc =>
      rcases eq_or_ne w v with rfl | hw
      · simp [hold, hnew, Report.take, Report.finish, share]
      · simp [hc w hw, Report.take, Report.finish, share, hw.symm]
    | @finished v t _ _ hold hnew hc =>
      rcases eq_or_ne w v with rfl | hw
      · simp [hold, hnew, Report.take, Report.finish, share]
      · simp [hc w hw, Report.take, Report.finish, share, hw.symm]

theorem accounts_after (count : ℕ) (turns : List (Turn τ count)) :
    Accounts (historyOf τ count turns) (after τ count turns) :=
  Machine.history (J := Accounts) (Accounts.new count) Accounts.step turns

/-- The tasks taken and the tasks in the queue all have their own numbers. -/
theorem Accounts.distinct {h : History τ n} (hacc : Accounts h s) :
    (((taken h).map Prod.snd).map Task.number ++ s.tasks_.map Task.number).Nodup := by
  rw [← List.map_append, ← hacc.order, hacc.numbers]
  exact List.nodup_range

theorem Accounts.nodup {h : History τ n} (hacc : Accounts h s) : ((taken h).map fun x => x.2.number).Nodup := by
  have htaken := (List.nodup_append.mp hacc.distinct).1
  rwa [List.map_map] at htaken

/-- Two takes of one task are the same take. -/
theorem Accounts.once {h : History τ n} (hacc : Accounts h s) {x y : Fin n × Task τ} (hx : x ∈ taken h)
    (hy : y ∈ taken h) (heq : x.2.number = y.2.number) : x = y :=
  List.inj_on_of_nodup_map hacc.nodup hx hy heq

/-! ### After `stopped_` -/

theorem stopped_moves {turn : Turn τ n} {o : Option (Report τ n)} (hmove : Moves s turn s' o)
    (hs : s.stopped_ = true) : s'.stopped_ = true := by
  cases hmove <;> first | exact hs | rfl

theorem isGoing_move {v : Fin n} {p : Position τ} (hp : p.isGoing = false) (w : Fin n) :
    ((s.move v p).threads_ w).isGoing.toNat ≤ (s.threads_ w).isGoing.toNat := by
  rcases eq_or_ne w v with rfl | hw
  · simp [TaskManager.move, hp]
  · simp [TaskManager.move, hw]

theorem isGoing_notified (p : Position τ) : p.notified.isGoing = p.isGoing := by
  cases p <;> rfl

/-- The tasks a report says that a worker took. -/
def takes (w : Fin n) (o : Option (Report τ n)) : List (Task τ) := share w (o.bind Report.take).toList

/-- With `stopped_` set nobody comes to `going`, and a worker that takes a task leaves it. -/
theorem stopped_spends {turn : Turn τ n} {o : Option (Report τ n)} (hmove : Moves s turn s' o)
    (hs : s.stopped_ = true) (w : Fin n) :
    (takes w o).length + (s'.threads_ w).isGoing.toNat ≤ (s.threads_ w).isGoing.toNat := by
  have hnone : (takes w (none : Option (Report τ n))).length = 0 := rfl
  cases hmove with
  | push _ _ => simp [takes, share, Report.take]
  | notify _ _ => simpa [hnone] using isGoing_move rfl w
  | notifyNobody _ _ => simp [hnone]
  | wake _ => simpa [hnone] using isGoing_move rfl w
  | lock hp _ => rcases hp with ⟨-, rfl⟩ | ⟨-, rfl⟩ <;> simpa [hnone] using isGoing_move rfl w
  | allow _ _ => simpa [hnone] using isGoing_move rfl w
  | refuse _ _ _ => simpa [hnone] using isGoing_move rfl w
  | block _ => simpa [hnone, unlock] using isGoing_move rfl w
  | go _ hno =>
    rw [hs] at hno
    cases hno
  | leave _ _ => simpa [hnone, unlock] using isGoing_move rfl w
  | @take v t ts hv _ =>
    rcases eq_or_ne w v with rfl | hw
    · simp [takes, Report.take, unlock, TaskManager.move, Position.isGoing, hv]
    · simp [takes, Report.take, unlock, TaskManager.move, share_other hw, hw]
  | finish _ => simpa [takes, share, Report.take] using isGoing_move rfl w
  | stop _ => simp [hnone]
  | notifyAll _ => simp [hnone, isGoing_notified]
  | join _ _ _ => simp [hnone]

/-- What worker `w` has taken since `stopped_` was set, and may still take. -/
structure Budget (w : Fin n) (h : History τ n) (s : TaskManager τ n) : Prop where
  stopped : s.stopped_ = true
  spent : (share w (taken h)).length + (s.threads_ w).isGoing.toNat ≤ 1

theorem Budget.step (w : Fin n) (h : History τ n) (s : TaskManager τ n) (turn : Turn τ n) (ih : Budget w h s) :
    Budget w (h ++ [Machine.event step s turn]) (s.step turn).1 := by
  rcases step_moves s turn with hmove | heq
  · refine ⟨stopped_moves hmove ih.stopped, ?_⟩
    have hspends := stopped_spends hmove ih.stopped w
    have hspent := ih.spent
    rw [taken_concat, share_append, List.length_append]
    simp only [takes] at hspends
    simp only [Machine.event]
    omega
  · rw [heq]
    refine ⟨ih.stopped, ?_⟩
    rw [taken_concat, share_append, List.length_append]
    simpa [Machine.event, heq, share] using ih.spent

/-- Each worker takes at most one more task. -/
theorem one_more (hs : s.stopped_ = true) (later : List (Turn τ n)) (w : Fin n) :
    (share w (taken (Machine.trace step s later))).length ≤ 1 := by
  have hstart : Budget w [] s := ⟨hs, by simpa [taken, share] using Bool.toNat_le _⟩
  have hend := (Machine.history (J := Budget w) hstart (Budget.step w) later).spent
  omega

/-! ### After the destructor -/

/-- `~TaskManager` has returned. -/
def Destroyed (s : TaskManager τ n) : Prop := s.destruction = .joining n

instance (s : TaskManager τ n) : Decidable (Destroyed s) := inferInstanceAs (Decidable (_ = _))

/-- Who is joined has returned. -/
def Joined (s : TaskManager τ n) : Prop := ∀ k, s.destruction = .joining k → ∀ w : Fin n, w < k → s.threads_ w = .returned

theorem Joined.move (h : s.Joined) {w : Fin n} (p : Position τ) (hw : s.threads_ w ≠ .returned) :
    (s.move w p).Joined := by
  intro k hk v hv
  have hret := h k hk v hv
  have hne : v ≠ w := by
    rintro rfl
    exact hw hret
  simpa [TaskManager.move, hne] using hret

theorem joined_moves {turn : Turn τ n} {o : Option (Report τ n)} (hmove : Moves s turn s' o) (h : s.Joined) :
    s'.Joined := by
  cases hmove with
  | push _ _ => exact h
  | notify _ hw => exact h.move .woken (by simp [hw])
  | notifyNobody _ _ => exact h
  | wake hw => exact h.move .woken (by simp [hw])
  | lock hp _ => rcases hp with ⟨hw, rfl⟩ | ⟨hw, rfl⟩ <;> exact h.move _ (by simp [hw])
  | allow hw _ => exact h.move _ (by rcases hw with hw | hw <;> simp [hw])
  | refuse hw _ _ => exact h.move _ (by rcases hw with hw | hw <;> simp [hw])
  | block hw => exact h.move .blocked (by simp [hw])
  | go hw _ => exact h.move .going (by simp [hw])
  | leave hw _ => exact h.move .returned (by simp [hw])
  | take hw _ => exact h.move (.running _) (by simp [hw])
  | finish hw => exact h.move .outside (by simp [hw])
  | stop _ =>
    intro k hk
    cases hk
  | notifyAll _ =>
    intro k hk v hv
    cases hk
    omega
  | @join k hk hd hw =>
    intro j hj v hv
    cases hj
    rcases Nat.lt_succ_iff_lt_or_eq.mp hv with hlt | heq
    · exact h k hd v hlt
    · have hvk : v = ⟨k, hk⟩ := Fin.ext heq
      exact hvk ▸ hw

theorem joined_after (count : ℕ) (turns : List (Turn τ count)) : (after τ count turns).Joined := by
  refine Machine.inv_final (I := Joined) (fun _ turn h => step_inv joined_moves turn h) turns ?_
  intro k hk
  cases hk

theorem Destroyed.returned {count : ℕ} {turns : List (Turn τ count)} (h : (after τ count turns).Destroyed)
    (w : Fin count) : (after τ count turns).threads_ w = .returned :=
  joined_after count turns count h w w.isLt

/-- With nobody left no turn takes a task, and nobody comes back. -/
theorem returned_moves {turn : Turn τ n} {o : Option (Report τ n)} (hmove : Moves s turn s' o)
    (h : ∀ w, s.threads_ w = .returned) : o.bind Report.take = none ∧ ∀ w, s'.threads_ w = .returned := by
  have hstay : ∀ {w p}, s.threads_ w = p → p ≠ .returned → False := fun {w} _ hw hp => hp (hw.symm.trans (h w))
  cases hmove with
  | push _ _ => exact ⟨rfl, h⟩
  | notify _ hw => exact (hstay hw (by simp)).elim
  | notifyNobody _ _ => exact ⟨rfl, h⟩
  | wake hw => exact (hstay hw (by simp)).elim
  | lock hp _ => rcases hp with ⟨hw, -⟩ | ⟨hw, -⟩ <;> exact (hstay hw (by simp)).elim
  | allow hw _ => rcases hw with hw | hw <;> exact (hstay hw (by simp)).elim
  | refuse hw _ _ => rcases hw with hw | hw <;> exact (hstay hw (by simp)).elim
  | block hw => exact (hstay hw (by simp)).elim
  | go hw _ => exact (hstay hw (by simp)).elim
  | leave hw _ => exact (hstay hw (by simp)).elim
  | take hw _ => exact (hstay hw (by simp)).elim
  | finish hw => exact (hstay hw (by simp)).elim
  | stop _ => exact ⟨rfl, h⟩
  | notifyAll _ => exact ⟨rfl, fun w => by simp [h w, Position.notified]⟩
  | join _ _ _ => exact ⟨rfl, h⟩

/-- Nobody takes a task any more. -/
theorem none_taken (hs : ∀ w, s.threads_ w = .returned) (later : List (Turn τ n)) :
    taken (Machine.trace step s later) = [] := by
  refine (Machine.history (J := fun h s' => taken h = [] ∧ ∀ w, s'.threads_ w = .returned) ⟨rfl, hs⟩ ?_ later).1
  rintro h s turn ⟨hnone, hret⟩
  rw [taken_concat, hnone, List.nil_append]
  rcases step_moves s turn with hmove | heq
  · obtain ⟨htake, hret'⟩ := returned_moves hmove hret
    exact ⟨by simp [Machine.event, htake], hret'⟩
  · exact ⟨by simp [Machine.event, heq], by simpa [heq] using hret⟩

theorem mem_share {w : Fin n} {t : Task τ} {l : List (Fin n × Task τ)} : t ∈ share w l ↔ (w, t) ∈ l := by
  simp [share]

/-- With every worker idle the tasks that never ran to their end are those in the queue. -/
theorem Accounts.dropped {h : History τ n} (hacc : Accounts h s)
    (hidle : ∀ w, share w (finished h) = share w (taken h)) {t : Task τ} (ht : t ∈ pushed h) :
    t ∈ s.tasks_ ↔ ∀ w, (w, t) ∉ finished h := by
  have hmem : ∀ w, (w, t) ∈ finished h ↔ (w, t) ∈ taken h := fun w => by
    rw [← mem_share, hidle w, mem_share]
  constructor
  · intro hqueue w hfin
    have htaken : t.number ∈ ((taken h).map Prod.snd).map Task.number :=
      List.mem_map_of_mem (List.mem_map_of_mem ((hmem w).mp hfin))
    exact (List.nodup_append.mp hacc.distinct).2.2 _ htaken _ (List.mem_map_of_mem hqueue) rfl
  · intro hnever
    rw [hacc.order, List.mem_append] at ht
    refine ht.resolve_left fun htaken => ?_
    obtain ⟨⟨w, t'⟩, hx, rfl⟩ := List.mem_map.mp htaken
    exact hnever w ((hmem w).mpr hx)

/-- Tasks are taken in push order, each by one worker; after `stopped_` a worker takes at most one more; when
    the destructor has returned, all that were taken have run to their end, none is started any more, and the
    tasks that are dropped are the end of the push order. -/
theorem tasks_in_order (count : ℕ) (turns : List (Turn τ count)) :
    pushed (historyOf τ count turns)
        = (taken (historyOf τ count turns)).map Prod.snd ++ (after τ count turns).tasks_ ∧
      ((taken (historyOf τ count turns)).map fun x => x.2.number).Nodup ∧
      (∀ t ∈ (taken (historyOf τ count turns)).map Prod.snd, ∃! w, (w, t) ∈ taken (historyOf τ count turns)) ∧
      ((after τ count turns).stopped_ = true → ∀ later w,
        (share w (taken (Machine.trace step (after τ count turns) later))).length ≤ 1) ∧
      ((after τ count turns).Destroyed →
        (∀ w, share w (finished (historyOf τ count turns)) = share w (taken (historyOf τ count turns))) ∧
        (∀ later, taken (Machine.trace step (after τ count turns) later) = []) ∧
        (after τ count turns).tasks_ <:+ pushed (historyOf τ count turns) ∧
        ∀ t ∈ pushed (historyOf τ count turns),
          (t ∈ (after τ count turns).tasks_ ↔ ∀ w, (w, t) ∉ finished (historyOf τ count turns))) := by
  have hacc := accounts_after count turns
  refine ⟨hacc.order, hacc.nodup, ?_, one_more, fun hd => ?_⟩
  · intro t ht
    obtain ⟨⟨w, t'⟩, hx, rfl⟩ := List.mem_map.mp ht
    refine ⟨w, hx, fun v hv => ?_⟩
    exact congrArg Prod.fst (hacc.once hv hx rfl)
  · have hidle : ∀ w, share w (finished (historyOf τ count turns)) = share w (taken (historyOf τ count turns)) := by
      intro w
      rw [hacc.shares w, hd.returned w]
      exact (List.append_nil _).symm
    exact ⟨hidle, none_taken hd.returned, ⟨_, hacc.order.symm⟩, fun t ht => hacc.dropped hidle ht⟩

/-- `stopped_` falls between a worker's look at it and its take: the first task still runs, the second is
    dropped. -/
def shutdown : List (Turn Unit 1) :=
  [.push (), .push (), .work 0, .work 0, .work 0, .stop, .work 0, .notifyAll, .work 0, .work 0, .work 0,
    .work 0, .join]

theorem tasks_in_order_shutdown :
    (after Unit 1 shutdown).Destroyed ∧ (after Unit 1 shutdown).tasks_ = [⟨1, ()⟩] ∧
      share 0 (finished (historyOf Unit 1 shutdown)) = share 0 (taken (historyOf Unit 1 shutdown)) ∧
      (after Unit 1 shutdown).tasks_ <:+ pushed (historyOf Unit 1 shutdown) := by
  have hd : (after Unit 1 shutdown).Destroyed := by decide
  have hend := (tasks_in_order 1 shutdown).2.2.2.2 hd
  exact ⟨hd, by decide, hend.1 0, hend.2.2.1⟩

end TaskManager

end MarkMe
