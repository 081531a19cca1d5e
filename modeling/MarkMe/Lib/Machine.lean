import Mathlib.Data.List.Induction
import Mathlib.Data.Nat.Init

/-! Runs of a machine that handles one input at a time.

    A machine is a step function `σ → ι → σ × ο`. `trace` keeps, for every input handled, the state
    it met, the state it left and what it sent out; `final` is the state at the end. The rules below
    package the inductions over runs once: an invariant of all steps, an invariant of the steps that
    pass a guard, a law that ties the state to the whole history, the unwinding rule for two runs that
    must look the same, refinement and simulation of another machine, and a measure that makes a run
    settle.

        s₀ ──i₁/o₁──▶ s₁ ──i₂/o₂──▶ s₂ ──▶ ⋯        trace = [⟨s₀,i₁,s₁,o₁⟩, ⟨s₁,i₂,s₂,o₂⟩, …] -/

namespace Machine
variable {σ ι ο : Type*}

/-- One handled input. -/
structure Event (σ ι ο : Type*) where
  pre : σ
  input : ι
  post : σ
  out : ο

variable (step : σ → ι → σ × ο)

/-- The event of handling `i` in state `s`. -/
def event (s : σ) (i : ι) : Event σ ι ο := ⟨s, i, (step s i).1, (step s i).2⟩

def final : σ → List ι → σ
  | s, [] => s
  | s, i :: is => final (step s i).1 is

def trace : σ → List ι → List (Event σ ι ο)
  | _, [] => []
  | s, i :: is => event step s i :: trace (step s i).1 is

theorem final_append : ∀ (s : σ) (is js : List ι),
    final step s (is ++ js) = final step (final step s is) js
  | _, [], _ => rfl
  | s, i :: is, js => final_append (step s i).1 is js

theorem trace_append : ∀ (s : σ) (is js : List ι),
    trace step s (is ++ js) = trace step s is ++ trace step (final step s is) js
  | _, [], _ => rfl
  | s, i :: is, js => by
    rw [List.cons_append, trace, trace, final, trace_append (step s i).1 is js, List.cons_append]

theorem final_concat (s : σ) (is : List ι) (i : ι) :
    final step s (is ++ [i]) = (step (final step s is) i).1 := final_append step s is [i]

theorem trace_concat (s : σ) (is : List ι) (i : ι) :
    trace step s (is ++ [i]) = trace step s is ++ [event step (final step s is) i] :=
  trace_append step s is [i]

variable {step}

/-- Every event of a run is a step from a state the run has reached. -/
theorem exists_of_mem_trace : ∀ {s : σ} {is : List ι} {ev : Event σ ι ο}, ev ∈ trace step s is →
    ∃ js i ks, is = js ++ i :: ks ∧ ev = event step (final step s js) i
  | _, [], _, h => by simp [trace] at h
  | s, i :: is, ev, h => by
    rw [trace, List.mem_cons] at h
    rcases h with rfl | h
    · exact ⟨[], i, is, rfl, rfl⟩
    · obtain ⟨js, j, ks, rfl, rfl⟩ := exists_of_mem_trace h
      exact ⟨i :: js, j, ks, rfl, rfl⟩

/-- An invariant of the steps that pass the guard `G` holds at the end of a run of such steps. -/
theorem inv_of_guard {I : σ → Prop} {G : Event σ ι ο → Prop}
    (hstep : ∀ s i, I s → G (event step s i) → I (step s i).1) :
    ∀ {s : σ} {is : List ι}, I s → (∀ ev ∈ trace step s is, G ev) → I (final step s is)
  | _, [], hs, _ => hs
  | s, i :: is, hs, hG => by
    rw [trace] at hG
    rw [final]
    exact inv_of_guard hstep (hstep s i hs (hG _ (by simp)))
      (fun ev hev => hG ev (List.mem_cons_of_mem _ hev))

/-- And it holds all along such a run. -/
theorem inv_all_along {I : σ → Prop} {G : Event σ ι ο → Prop}
    (hstep : ∀ s i, I s → G (event step s i) → I (step s i).1) :
    ∀ {s : σ} {is : List ι}, I s → (∀ ev ∈ trace step s is, G ev) → ∀ ev ∈ trace step s is, I ev.post
  | _, [], _, _ => by simp [trace]
  | s, i :: is, hs, hG => by
    rw [trace, List.forall_mem_cons] at hG ⊢
    have hpost := hstep s i hs hG.1
    exact ⟨hpost, inv_all_along hstep hpost hG.2⟩

/-- An invariant of every step holds at the end of every run. -/
theorem inv_final {I : σ → Prop} (hstep : ∀ s i, I s → I (step s i).1) {s : σ} (is : List ι)
    (hs : I s) : I (final step s is) :=
  inv_of_guard (G := fun _ => True) (fun s i hs _ => hstep s i hs) hs (fun _ _ => trivial)

/-- What the states that keep an invariant show exactly after a step that passes the guard, they show
    all along exactly the runs whose steps pass the guard. -/
theorem shown_iff_guard {I P : σ → Prop} {G : Event σ ι ο → Prop}
    (hkeep : ∀ s i, I s → G (event step s i) → I (step s i).1)
    (hshow : ∀ s i, I s → (P (step s i).1 ↔ G (event step s i))) :
    ∀ {s : σ} {is : List ι}, I s → ((∀ ev ∈ trace step s is, P ev.post) ↔ ∀ ev ∈ trace step s is, G ev)
  | _, [], _ => by simp [trace]
  | s, i :: is, hs => by
    rw [trace, List.forall_mem_cons, List.forall_mem_cons]
    constructor
    · rintro ⟨hpost, htail⟩
      have hG := (hshow s i hs).mp hpost
      exact ⟨hG, (shown_iff_guard hkeep hshow (hkeep s i hs hG)).mp htail⟩
    · rintro ⟨hG, htail⟩
      exact ⟨(hshow s i hs).mpr hG, (shown_iff_guard hkeep hshow (hkeep s i hs hG)).mpr htail⟩

/-- A property that a step keeps exactly if it passes the guard holds all along exactly the runs
    whose steps pass the guard. -/
theorem inv_iff_guard {I : σ → Prop} {G : Event σ ι ο → Prop}
    (hstep : ∀ s i, I s → (I (step s i).1 ↔ G (event step s i))) {s : σ} {is : List ι} (hs : I s) :
    (∀ ev ∈ trace step s is, I ev.post) ↔ ∀ ev ∈ trace step s is, G ev :=
  shown_iff_guard (fun s i hs => (hstep s i hs).mpr) hstep hs

/-- A law between the history so far and the state reached, kept by every step, holds of every
    run. -/
theorem history {J : List (Event σ ι ο) → σ → Prop} {s₀ : σ} (h₀ : J [] s₀)
    (hstep : ∀ h s i, J h s → J (h ++ [event step s i]) (step s i).1) (is : List ι) :
    J (trace step s₀ is) (final step s₀ is) := by
  induction is using List.reverseRecOn with
  | nil => exact h₀
  | append_singleton is i ih =>
    rw [trace_concat, final_concat]
    exact hstep _ _ _ ih

/-- What the last event that writes has put there. -/
def written {β : Type*} (W : Event σ ι ο → Prop) [DecidablePred W] (val : Event σ ι ο → Option β)
    (h : List (Event σ ι ο)) : Option β := (h.filter (fun ev => W ev)).getLast?.bind val

section
variable {β : Type*} {W : Event σ ι ο → Prop} [DecidablePred W] {val : Event σ ι ο → Option β}
  {h : List (Event σ ι ο)} {ev : Event σ ι ο}

theorem written_write (hev : W ev) : written W val (h ++ [ev]) = val ev := by
  have hsingle : [ev].filter (fun ev => W ev) = [ev] := by simp [hev]
  rw [written, List.filter_append, hsingle, List.getLast?_concat, Option.bind_some]

theorem written_quiet (hev : ¬ W ev) : written W val (h ++ [ev]) = written W val h := by
  have hnone : [ev].filter (fun ev => W ev) = [] := by simp [hev]
  rw [written, List.filter_append, hnone, List.append_nil, written]

/-- A register holds what was written last. -/
theorem register {I : σ → Prop} (read : σ → Option β) {s₀ : σ} (hkeep : ∀ s i, I s → I (step s i).1)
    (hwrite : ∀ s i, I s → W (event step s i) → read (step s i).1 = val (event step s i))
    (hquiet : ∀ s i, I s → ¬ W (event step s i) → read (step s i).1 = read s) (h₀ : I s₀)
    (hnone : read s₀ = none) (is : List ι) :
    read (final step s₀ is) = written W val (trace step s₀ is) := by
  refine (history (J := fun h s => I s ∧ read s = written W val h) ⟨h₀, hnone⟩ (fun h s i hJ => ?_) is).2
  obtain ⟨hI, hread⟩ := hJ
  refine ⟨hkeep s i hI, ?_⟩
  by_cases hW : W (event step s i)
  · rw [written_write hW, hwrite s i hI hW]
  · rw [written_quiet hW, hquiet s i hI hW, hread]

end

/-- Unwinding: if related states answer every input that passes the guard with the same
    observation and stay related, two whole runs are observed to be the same. -/
theorem unwinding {R : σ → σ → Prop} {G : σ → ι → Prop} {ω : Type*} (obs : ο → ω)
    (hstep : ∀ s t i, R s t → G s i →
      R (step s i).1 (step t i).1 ∧ obs (step s i).2 = obs (step t i).2) :
    ∀ {s t : σ} {is : List ι}, R s t → (∀ ev ∈ trace step s is, G ev.pre ev.input) →
      (trace step s is).map (fun ev => obs ev.out) = (trace step t is).map (fun ev => obs ev.out)
  | _, _, [], _, _ => rfl
  | s, t, i :: is, hR, hG => by
    rw [trace] at hG
    obtain ⟨hR', hobs⟩ := hstep s t i hR (hG (event step s i) (by simp))
    rw [trace, trace, List.map_cons, List.map_cons,
      unwinding obs hstep hR' (fun ev hev => hG ev (List.mem_cons_of_mem _ hev))]
    exact congrArg (· :: _) hobs

/-- Purging: if the inputs of a kind change nothing where the run passes, the run without them ends in the same
    state, and everything else happens in it as before. -/
theorem purge {I : σ → Prop} {G : ι → Prop} (K : ι → Bool) (hkeep : ∀ s i, I s → G i → I (step s i).1)
    (hstill : ∀ s i, I s → G i → K i = true → (step s i).1 = s) :
    ∀ {s : σ} {is : List ι}, I s → (∀ i ∈ is, G i) →
      final step s (is.filter fun i => !K i) = final step s is ∧
        trace step s (is.filter fun i => !K i) = (trace step s is).filter fun ev => !K ev.input
  | _, [], _, _ => ⟨rfl, rfl⟩
  | s, i :: is, hs, hG => by
    rw [List.forall_mem_cons] at hG
    obtain ⟨hfinal, htrace⟩ := purge K hkeep hstill (hkeep s i hs hG.1) hG.2
    rw [List.filter_cons, trace, List.filter_cons, final]
    cases hK : K i with
    | true =>
      rw [hstill s i hs hG.1 hK] at hfinal htrace ⊢
      simpa [event, hK] using ⟨hfinal, htrace⟩
    | false =>
      simp only [event, hK, Bool.not_false, if_true, final, trace]
      exact ⟨hfinal, congrArg (_ :: ·) htrace⟩

/-! ### Inputs that can pass each other -/

variable (step) in
/-- In state `s` either input can come first: the state after both is the same, and so is what each sends
    out. -/
structure Commute (s : σ) (i j : ι) : Prop where
  state : (step (step s i).1 j).1 = (step (step s j).1 i).1
  first : (step (step s j).1 i).2 = (step s i).2
  second : (step (step s i).1 j).2 = (step s j).2

variable (step) in
/-- Runs from `s` that come from each other by letting neighbours pass where `I` allows it. -/
inductive Shuffle (I : σ → ι → ι → Prop) (s : σ) (is : List ι) : List ι → Prop
  | refl : Shuffle I s is is
  | swap {before after : List ι} {i j : ι} : Shuffle I s is (before ++ i :: j :: after) →
      I (final step s before) i j → Shuffle I s is (before ++ j :: i :: after)

/-- What has happened, apart from when. -/
theorem shuffle_agrees {I : σ → ι → ι → Prop} (hcommute : ∀ s i j, I s i j → Commute step s i j) {s : σ}
    {is js : List ι} (h : Shuffle step I s is js) : final step s js = final step s is ∧
      ((trace step s js).map fun ev => (ev.input, ev.out)).Perm ((trace step s is).map fun ev => (ev.input, ev.out)) := by
  induction h with
  | refl => exact ⟨rfl, .refl _⟩
  | @swap before after i j _ hI ih =>
    obtain ⟨hstate, hfirst, hsecond⟩ := hcommute _ i j hI
    rw [final_append, final, final, ← hstate, trace_append, trace, trace, List.map_append, List.map_cons, List.map_cons]
    rw [final_append, final, final, trace_append, trace, trace, List.map_append, List.map_cons, List.map_cons] at ih
    refine ⟨ih.1, List.Perm.trans ?_ ih.2⟩
    refine List.Perm.append_left _ ?_
    simp only [event, hfirst, hsecond, ← hstate]
    exact List.Perm.swap _ _ _

/-! ### Runs without an end -/

variable (step) in
/-- The state after the first `k` inputs. -/
def along (s : σ) (u : ℕ → ι) (k : ℕ) : σ := final step s ((List.range k).map u)

variable (step) in
/-- No input of kind `K` changes the state. -/
def Settled (K : ι → Prop) (s : σ) : Prop := ∀ i, K i → (step s i).1 = s

variable (step) in
/-- While an input of kind `K` can change the state, one does so sooner or later. Nothing is said of
    which one and when. -/
def Progress (K : ι → Prop) (s : σ) (u : ℕ → ι) : Prop :=
  ∀ k, ¬ Settled step K (along step s u k) →
    ∃ j, k ≤ j ∧ K (u j) ∧ (step (along step s u j) (u j)).1 ≠ along step s u j

theorem along_succ (s : σ) (u : ℕ → ι) (k : ℕ) :
    along step s u (k + 1) = (step (along step s u k) (u k)).1 := by
  rw [along, List.range_succ, List.map_append]
  exact final_concat step s _ (u k)

/-- Once settled, a run that has only inputs of that kind left stays where it is. -/
theorem settled_stays {K : ι → Prop} {s : σ} {u : ℕ → ι} {k : ℕ} (hset : Settled step K (along step s u k))
    (hK : ∀ j, k ≤ j → K (u j)) : ∀ j, k ≤ j → along step s u j = along step s u k := by
  intro j hj
  induction j, hj using Nat.le_induction with
  | base => rfl
  | succ j hj ih => rw [along_succ, ih, hset _ (hK j hj)]

/-- A measure that such inputs use up. -/
theorem measure_le {K : ι → Prop} {m : σ → ℕ} (hstep : ∀ s i, K i → (step s i).1 = s ∨ m (step s i).1 < m s)
    {s : σ} {u : ℕ → ι} {k : ℕ} (hK : ∀ j, k ≤ j → K (u j)) :
    ∀ j, k ≤ j → m (along step s u j) ≤ m (along step s u k) := by
  intro j hj
  induction j, hj using Nat.le_induction with
  | base => exact Nat.le_refl _
  | succ j hj ih =>
    rw [along_succ]
    rcases hstep (along step s u j) _ (hK j hj) with heq | hlt
    · rwa [heq]
    · exact Nat.le_trans (Nat.le_of_lt hlt) ih

/-- If inputs of one kind use up a measure whenever they change the state, a run that makes progress and
    has only such inputs left settles. -/
theorem settles {K : ι → Prop} {m : σ → ℕ} (hstep : ∀ s i, K i → (step s i).1 = s ∨ m (step s i).1 < m s)
    {s : σ} {u : ℕ → ι} (hprogress : Progress step K s u) {k : ℕ} (hK : ∀ j, k ≤ j → K (u j)) :
    ∃ k', k ≤ k' ∧ Settled step K (along step s u k') := by
  induction hm : m (along step s u k) using Nat.strongRecOn generalizing k with
  | ind c ih =>
    by_cases hset : Settled step K (along step s u k)
    · exact ⟨k, Nat.le_refl k, hset⟩
    · obtain ⟨j, hj, hKj, hne⟩ := hprogress k hset
      have hspent : m (along step s u (j + 1)) < m (along step s u j) := by
        rw [along_succ]
        exact (hstep _ _ hKj).resolve_left hne
      have hafter : ∀ i, j + 1 ≤ i → K (u i) := fun i hi => hK i (by omega)
      obtain ⟨k', hk', hsettled⟩ := ih _ (hm ▸ Nat.lt_of_lt_of_le hspent (measure_le hstep hK j hj)) hafter rfl
      exact ⟨k', by omega, hsettled⟩

/-- A run makes progress if it ends in a settled state with such an input. -/
theorem progress_of_settled {K : ι → Prop} {s : σ} {u : ℕ → ι} {k : ℕ} (hK : ∀ j, k ≤ j → K (u j))
    (hne : (step (along step s u k) (u k)).1 ≠ along step s u k)
    (hset : Settled step K (along step s u (k + 1))) : Progress step K s u := by
  intro j hj
  by_cases hle : j ≤ k
  · exact ⟨k, hle, hK k (Nat.le_refl k), hne⟩
  · have hstay := settled_stays hset (fun i hi => hK i (by omega)) j (by omega)
    rw [hstay] at hj
    exact absurd hset hj

/-- Refinement: if related states handle what an input stands for on either side alike, two runs of what
    the same inputs stand for end in related states and are observed to send out the same. -/
theorem refinement {α κ ω ι' ω' : Type*} {astep : α → κ → α × ω} {f : ι' → ι} {g : ι' → κ} (R : σ → α → Prop)
    (obs : ο → ω') (aobs : ω → ω')
    (hstep : ∀ s a i, R s a →
      R (step s (f i)).1 (astep a (g i)).1 ∧ obs (step s (f i)).2 = aobs (astep a (g i)).2) :
    ∀ {s : σ} {a : α} (is : List ι'), R s a →
      R (final step s (is.map f)) (final astep a (is.map g)) ∧
        (trace step s (is.map f)).map (fun ev => obs ev.out)
          = (trace astep a (is.map g)).map (fun ev => aobs ev.out)
  | _, _, [], hR => ⟨hR, rfl⟩
  | s, a, i :: is, hR => by
    obtain ⟨hR', hobs⟩ := hstep s a i hR
    obtain ⟨hfinal, htrace⟩ := refinement R obs aobs hstep is hR'
    simp only [List.map_cons, final, trace]
    exact ⟨hfinal, List.cons_eq_cons.mpr ⟨hobs, htrace⟩⟩

/-- Forward simulation: a step shows an input, which takes the abstract machine to a state related to the
    new one and makes it send out the same, or it shows nothing, and the abstract machine stays where it is.
    Then a run is the abstract run of the inputs it shows. -/
theorem simulation {α κ ω : Type*} {astep : α → κ → α × ω} {shows : Event σ ι ο → Option (κ × ω)}
    (R : σ → α → Prop)
    (hshown : ∀ s a i x, R s a → shows (event step s i) = some x →
      R (step s i).1 (astep a x.1).1 ∧ (astep a x.1).2 = x.2)
    (hsilent : ∀ s a i, R s a → shows (event step s i) = none → R (step s i).1 a) :
    ∀ {s : σ} {a : α} (is : List ι), R s a →
      R (final step s is) (final astep a (((trace step s is).filterMap shows).map Prod.fst)) ∧
        (trace astep a (((trace step s is).filterMap shows).map Prod.fst)).map (fun ev => (ev.input, ev.out))
          = (trace step s is).filterMap shows
  | _, _, [], hR => ⟨hR, rfl⟩
  | s, a, i :: is, hR => by
    rw [final, trace, List.filterMap_cons]
    cases hshow : shows (event step s i) with
    | none => exact simulation R hshown hsilent is (hsilent s a i hR hshow)
    | some x =>
      obtain ⟨hR', hout⟩ := hshown s a i x hR hshow
      obtain ⟨hfinal, htrace⟩ := simulation R hshown hsilent is hR'
      refine ⟨hfinal, ?_⟩
      rw [List.map_cons, trace, List.map_cons, htrace]
      simp only [event, hout]

end Machine
