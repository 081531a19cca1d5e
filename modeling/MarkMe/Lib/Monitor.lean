import Mathlib.Logic.Function.Basic
import MarkMe.Lib.Machine

/-! Objects whose methods run under one mutex.

    A method is called, waits for the mutex, makes its accesses to what is shared one at a time, and
    gives the mutex back when it returns. Other threads come in between as they like. Seen from
    outside it is an object whose methods run in one go: `atomic` is that object, and `linear` says
    that every run is one of its runs, of the calls in the order in which they returned.

        thread 1   call ─ ─ lock ─ access ───── access ─ unlock
        thread 2          call ─ ─ ─ ─ ─ ─ ─ ─ ─ ─ ─ ─ ─ ─ ─ ─ lock ─ access ─ unlock
        atomic                                   run 1                         run 2 -/

namespace Monitor
variable {θ κ σ ρ : Type*}

/-- What a method does while it has the mutex; an access sees what is shared and decides what comes
    next. -/
inductive Body (σ ρ : Type*) where
  | done (r : ρ)
  | access (f : σ → σ) (next : σ → Body σ ρ)

/-- The method in one go. -/
def Body.run : Body σ ρ → σ → σ × ρ
  | done r, s => (s, r)
  | access f next, s => (next s).run (f s)

/-- The accesses of a method take it from one place to another. -/
inductive Body.Steps (b : Body σ ρ) (s : σ) : Body σ ρ → σ → Prop
  | refl : Steps b s b s
  | access {f : σ → σ} {next : σ → Body σ ρ} {s' : σ} : Steps b s (.access f next) s' → Steps b s (next s') (f s')

section
variable {b b' : Body σ ρ} {s s' : σ}

/-- On its way a method still ends where it would have. -/
theorem Body.Steps.run_eq (h : b.Steps s b' s') : b'.run s' = b.run s := by
  induction h with
  | refl => rfl
  | access _ ih => exact ih

/-- A method that is on its way has made its first access. -/
theorem Body.Steps.head (h : b.Steps s b' s') :
    (b' = b ∧ s' = s) ∨ ∃ f next, b = .access f next ∧ (next s).Steps (f s) b' s' := by
  induction h with
  | refl => exact Or.inl ⟨rfl, rfl⟩
  | @access f next s' _ ih =>
    rcases ih with ⟨heq, rfl⟩ | ⟨f', next', heq, hsteps⟩
    · exact Or.inr ⟨f, next, heq.symm, .refl⟩
    · exact Or.inr ⟨f', next', heq, hsteps.access⟩

theorem Body.Steps.of_done {r : ρ} (h : (Body.done r).Steps s b' s') : s' = s := by
  rcases h.head with ⟨-, rfl⟩ | ⟨f, next, heq, -⟩
  · rfl
  · cases heq

theorem Body.Steps.of_access {f : σ → σ} {next : σ → Body σ ρ} (h : (Body.access f next).Steps s b' s') :
    s' = s ∨ (next s).Steps (f s) b' s' := by
  rcases h.head with ⟨-, rfl⟩ | ⟨f', next', heq, hsteps⟩
  · exact Or.inl rfl
  · cases heq
    exact Or.inr hsteps

end

/-- Where a thread is. -/
inductive Place (κ σ ρ : Type*) where
  | outside
  /-- In front of the mutex. -/
  | waiting (c : κ)
  /-- With the mutex, and `b` left to do. -/
  | inside (c : κ) (b : Body σ ρ)

structure State (θ κ σ ρ : Type*) where
  shared : σ
  holder : Option θ
  place : θ → Place κ σ ρ

/-- Who goes on next, or who makes a call. -/
inductive Turn (θ κ : Type*) where
  | call (t : θ) (c : κ)
  | go (t : θ)

/-- Nobody is inside yet. -/
def start (θ κ ρ : Type*) (s : σ) : State θ κ σ ρ := ⟨s, none, fun _ => .outside⟩

variable (body : κ → Body σ ρ)

/-- The object whose methods run in one go. -/
def atomic (s : σ) (c : κ) : σ × ρ := (body c).run s

/-- The monitor `m` is where the object in state `s` is, but for what the holder of the mutex has done
    so far. -/
structure Stands (m : State θ κ σ ρ) (s : σ) : Prop where
  holder : ∀ t c b, m.place t = .inside c b → m.holder = some t
  held : ∀ t, m.holder = some t → ∃ c b, m.place t = .inside c b
  free : m.holder = none → m.shared = s
  busy : ∀ t c b, m.place t = .inside c b → (body c).Steps s b m.shared

theorem stands_start (s : σ) : Stands body (start θ κ ρ s) s := ⟨nofun, nofun, fun _ => rfl, nofun⟩

/-- Only the holder is inside. -/
theorem Stands.alone {body : κ → Body σ ρ} {m : State θ κ σ ρ} {s : σ} (h : Stands body m s) {t v : θ}
    (ht : m.holder = some t) (hne : v ≠ t) (c : κ) (b : Body σ ρ) : m.place v ≠ .inside c b :=
  fun hv => hne (Option.some.inj ((h.holder v c b hv).symm.trans ht))

variable [DecidableEq θ]

/-- A step shows the call that returns, by whom, and its result. -/
def step (m : State θ κ σ ρ) : Turn θ κ → State θ κ σ ρ × Option (θ × κ × ρ)
  | .call t c =>
    match m.place t with
    | .outside => ({ m with place := Function.update m.place t (.waiting c) }, none)
    | _ => (m, none)
  | .go t =>
    match m.place t with
    | .outside => (m, none)
    | .waiting c =>
      if m.holder.isNone then
        ({ m with holder := some t, place := Function.update m.place t (.inside c (body c)) }, none)
      else (m, none)
    | .inside c (.access f next) =>
      ({ m with shared := f m.shared, place := Function.update m.place t (.inside c (next m.shared)) }, none)
    | .inside c (.done r) =>
      ({ m with holder := none, place := Function.update m.place t .outside }, some (t, c, r))

/-- A return shown to the outside. -/
def shows (ev : Machine.Event (State θ κ σ ρ) (Turn θ κ) (Option (θ × κ × ρ))) : Option (κ × ρ) :=
  ev.out.map fun x => x.2

section
variable {body} {m : State θ κ σ ρ} {s : σ} {t : θ} {p : Place κ σ ρ}

/-- Who is inside after one thread has moved. -/
theorem inside_move {v : θ} {c : κ} {b : Body σ ρ} (hv : Function.update m.place t p v = .inside c b) :
    (v = t ∧ p = .inside c b) ∨ (v ≠ t ∧ m.place v = .inside c b) := by
  rcases eq_or_ne v t with rfl | hne
  · rw [Function.update_self] at hv
    exact Or.inl ⟨rfl, hv⟩
  · rw [Function.update_of_ne hne] at hv
    exact Or.inr ⟨hne, hv⟩

/-- A thread moves outside. -/
theorem Stands.move (h : Stands body m s) (ht : ∀ c b, m.place t ≠ .inside c b) (hp : ∀ c b, p ≠ .inside c b) :
    Stands body { m with place := Function.update m.place t p } s := by
  have hsame : ∀ v c b, Function.update m.place t p v = .inside c b → m.place v = .inside c b := by
    intro v c b hv
    rcases inside_move hv with ⟨-, heq⟩ | ⟨-, hplace⟩
    · exact absurd heq (hp c b)
    · exact hplace
  refine ⟨fun v c b hv => h.holder v c b (hsame v c b hv), fun v hv => ?_, h.free,
    fun v c b hv => h.busy v c b (hsame v c b hv)⟩
  obtain ⟨c, b, hplace⟩ := h.held v hv
  have hne : v ≠ t := fun heq => ht c b (heq ▸ hplace)
  exact ⟨c, b, (Function.update_of_ne hne _ _).trans hplace⟩

/-- With the mutex, a thread is on its way through its method, with `b` left to do. -/
theorem stands_inside {c : κ} {b : Body σ ρ} {shared : σ} (hothers : ∀ v, v ≠ t → ∀ c b, m.place v ≠ .inside c b)
    (hsteps : (body c).Steps s b shared) :
    Stands body ⟨shared, some t, Function.update m.place t (.inside c b)⟩ s := by
  refine ⟨fun v c' b' hv => ?_, fun v hv => ⟨c, b, ?_⟩, nofun, fun v c' b' hv => ?_⟩
  · rcases inside_move hv with ⟨rfl, -⟩ | ⟨hne, hplace⟩
    · rfl
    · exact absurd hplace (hothers v hne c' b')
  · cases hv
    exact Function.update_self _ _ _
  · rcases inside_move hv with ⟨-, heq⟩ | ⟨hne, hplace⟩
    · cases heq
      exact hsteps
    · exact absurd hplace (hothers v hne c' b')

/-- The holder returns, and the object takes its call in one go. -/
theorem Stands.leave (h : Stands body m s) {c : κ} {r : ρ} (ht : m.place t = .inside c (.done r)) :
    Stands body { m with holder := none, place := Function.update m.place t .outside } (atomic body s c).1 ∧
      (atomic body s c).2 = r := by
  have hrun : (m.shared, r) = (body c).run s := (h.busy t c _ ht).run_eq
  have hnobody : ∀ v c b, Function.update m.place t .outside v ≠ .inside c b := by
    intro v c b hv
    rcases inside_move hv with ⟨-, heq⟩ | ⟨hne, hplace⟩
    · cases heq
    · exact h.alone (h.holder t _ _ ht) hne c b hplace
  exact ⟨⟨fun v c b hv => absurd hv (hnobody v c b), nofun, fun _ => congrArg Prod.fst hrun,
    fun v c b hv => absurd hv (hnobody v c b)⟩, (congrArg Prod.snd hrun).symm⟩

/-- A step shows a call that returns as the object answers it, or the object is where it was. -/
theorem step_stands (h : Stands body m s) (turn : Turn θ κ) :
    ((step body m turn).2 = none ∧ Stands body (step body m turn).1 s) ∨
      ∃ t c r, (step body m turn).2 = some (t, c, r) ∧ Stands body (step body m turn).1 (atomic body s c).1 ∧
        (atomic body s c).2 = r := by
  cases turn with
  | call t c =>
    rw [step]
    cases hp : m.place t with
    | outside => exact Or.inl ⟨rfl, h.move (by simp [hp]) (by simp)⟩
    | _ => exact Or.inl ⟨rfl, h⟩
  | go t =>
    rw [step]
    cases hp : m.place t with
    | outside => exact Or.inl ⟨rfl, h⟩
    | waiting c =>
      cases hm : m.holder with
      | none =>
        have hothers : ∀ v, v ≠ t → ∀ c b, m.place v ≠ .inside c b := fun v _ c b hv => by
          cases (h.holder v c b hv).symm.trans hm
        exact Or.inl ⟨rfl, stands_inside hothers (h.free hm ▸ .refl)⟩
      | some v => exact Or.inl ⟨rfl, h⟩
    | inside c b =>
      cases b with
      | done r => exact Or.inr ⟨t, c, r, rfl, h.leave hp⟩
      | access f next =>
        have hholder := h.holder t c _ hp
        have hnext : Stands body ⟨f m.shared, some t, Function.update m.place t (.inside c (next m.shared))⟩ s :=
          stands_inside (fun v hne => h.alone hholder hne) (h.busy t c _ hp).access
        rw [← hholder] at hnext
        exact Or.inl ⟨rfl, hnext⟩

end

/-- Every run of the monitor is a run of the object, of the calls in the order in which they returned. -/
theorem linear (s : σ) (turns : List (Turn θ κ)) :
    let shown := (Machine.trace (step body) (start θ κ ρ s) turns).filterMap shows
    Stands body (Machine.final (step body) (start θ κ ρ s) turns) (Machine.final (atomic body) s (shown.map Prod.fst)) ∧
      (Machine.trace (atomic body) s (shown.map Prod.fst)).map (fun ev => (ev.input, ev.out)) = shown := by
  refine Machine.simulation (Stands body) (fun m s turn x h hx => ?_) (fun m s turn h hx => ?_) turns
    (stands_start body s)
  · rcases step_stands h turn with ⟨hnone, -⟩ | ⟨t, c, r, hsome, hstands, hout⟩
    · simp [shows, Machine.event, hnone] at hx
    · simp only [shows, Machine.event, hsome, Option.map_some, Option.some.injEq] at hx
      subst hx
      exact ⟨hstands, hout⟩
  · rcases step_stands h turn with ⟨-, hstands⟩ | ⟨t, c, r, hsome, -, -⟩
    · exact hstands
    · simp [shows, Machine.event, hsome] at hx

end Monitor
