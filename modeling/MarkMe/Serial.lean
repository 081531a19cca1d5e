import MarkMe.Sessions

/-! The event loop handles requests one at a time.

    Whatever the order of completions, however many servers there are and however often a handler
    throws, the table and the replies are those of a run of requests: the ones whose reads were
    handled, in the order they were. So what holds of every run of requests holds of the program. The
    ledger says which these are: no session is handled twice or without having been accepted, and one
    that was accepted is handled, still waits for its read, or went down with the loop.

        loop       accept₀ accept₁ read₁ accept₀ read₀ read₂
        requests                   r₁            r₀    r₂ -/

namespace MarkMe
open Text Session

namespace Loop

/-- What has happened in the loop. -/
abbrev History := List (Machine.Event Loop Completion (Option Outcome))

/-- The request an event handles, and what it comes to. -/
def handles (ev : Machine.Event Loop Completion (Option Outcome)) : Option (Request × Outcome) :=
  match ev.input, ev.out with
  | .read _ r, some o => some (r, o)
  | _, _ => none

/-- The session whose request an event handles. -/
def handled (ev : Machine.Event Loop Completion (Option Outcome)) : Option ℕ :=
  match ev.input, ev.out with
  | .read sid _, some _ => some sid
  | _, _ => none

/-- The session an event opens. -/
def opened (ev : Machine.Event Loop Completion (Option Outcome)) : Option ℕ :=
  match ev.input with
  | .accept server false => ev.pre.accepts.lookup server
  | _ => none

section
variable {H : Host} {l : Loop}

/-! ### One completion -/

/-- What a completion does. -/
inductive Does (H : Host) (l : Loop) : Completion → Loop → Option Outcome → Prop
  /-- Nobody waits for it. -/
  | nothing {c : Completion} : (∀ server, c = .accept server false → l.accepts.lookup server = none) → Does H l c l none
  | accept {server sid : ℕ} {error : Bool} : l.accepts.lookup server = some sid →
      Does H l (.accept server error)
        (handleAccept H server sid error { l with accepts := l.accepts.erase (server, sid) }) none
  | answer {sid : ℕ} {r : Request} {st : St} : l.slots sid = some (Slot.reading H) →
      completeRead H (Slot.reading H).session l.users r = .ok st → ¬ r.Throws →
      Does H l (.read sid r)
        { l with
          users := (handleRequest H l.users r).1
          slots := Function.update l.slots sid (some ⟨st.toSession, 1, 0, 1⟩) }
        (some (handleRequest H l.users r).2)
  | down {sid : ℕ} {r : Request} : l.slots sid = some (Slot.reading H) → r.Throws →
      Does H l (.read sid r) (launch H l.servers (handleRequest H l.users r).1 l.next)
        (some (handleRequest H l.users r).2)

theorem step_does (h : l.Inv H) (c : Completion) : Does H l c (step H l c).1 (step H l c).2 := by
  cases c with
  | accept server error =>
    rw [step]
    cases hl : l.accepts.lookup server with
    | none => exact .nothing fun _ hc => by cases hc; exact hl
    | some sid => exact .accept hl
  | read sid r =>
    rw [step]
    cases hs : l.slots sid with
    | none => exact .nothing fun _ hc => by cases hc
    | some slot =>
      dsimp only
      split
      · rename_i hr
        obtain rfl := slot_reading h hs hr
        rw [handleRead]
        have hsession : (Slot.reading H).session = (Session.new H.dbFilename).start := rfl
        cases hcomplete : completeRead H (Slot.reading H).session l.users r with
        | ok st =>
          have hquiet : ¬ r.Throws := fun ht => by
            obtain ⟨err, hthrew⟩ := (throws_iff H l.users r).mpr ht
            cases hcomplete.symm.trans hthrew
          have hdone : handleRequest H l.users r = conclude l.users (.ok st) := by
            rw [handleRequest, ← hsession, hcomplete]
          have hanswer := Does.answer hs hcomplete hquiet
          rw [hdone] at hanswer
          exact hanswer
        | error err =>
          have hthrew : handleRequest H l.users r = conclude l.users (.error err) := by
            rw [handleRequest, ← hsession, hcomplete]
          have hdown := Does.down (H := H) hs ((throws_iff H l.users r).mp ⟨err, hcomplete⟩)
          rw [hthrew] at hdown
          exact hdown
      · exact .nothing fun _ hc => by cases hc

theorem accept_users (server sid : ℕ) (error : Bool) (l : Loop) :
    (handleAccept H server sid error l).users = l.users := by
  rw [handleAccept, startAccept]
  cases error with
  | true => rfl
  | false =>
    simp only [Bool.false_eq_true, if_false, start]
    cases l.slots sid <;> rfl

/-- An event that handles a request is a step of the machine of requests. -/
theorem step_shown (h : l.Inv H) {c : Completion} {x : Request × Outcome}
    (hx : handles (Machine.event (step H) l c) = some x) :
    handleRequest H l.users x.1 = ((step H l c).1.users, x.2) := by
  have hdoes := step_does h c
  rw [handles] at hx
  simp only [Machine.event] at hx
  generalize (step H l c).1 = l' at hdoes ⊢
  generalize (step H l c).2 = o at hdoes hx
  cases hdoes with
  | nothing _ => cases c <;> cases hx
  | accept _ => cases hx
  | answer _ _ _ => cases hx; rfl
  | down _ _ => cases hx; exact Prod.ext (launch_users _ _ _).symm rfl

/-- Every other event leaves the table alone. -/
theorem step_silent (h : l.Inv H) {c : Completion} (hx : handles (Machine.event (step H) l c) = none) :
    (step H l c).1.users = l.users := by
  have hdoes := step_does h c
  rw [handles] at hx
  simp only [Machine.event] at hx
  generalize (step H l c).1 = l' at hdoes ⊢
  generalize (step H l c).2 = o at hdoes hx
  cases hdoes with
  | nothing _ => rfl
  | accept _ => exact accept_users _ _ _ _
  | answer _ _ _ => cases hx
  | down _ _ => cases hx

end

end Loop

/-- The requests a run of the loop handles, with what they came to. -/
def requestsOf (h : Loop.History) : List (Request × Outcome) := h.filterMap Loop.handles

/-- From any state the loop gets to, its run is that of the requests it handles. -/
theorem Loop.simulates {H : Host} {l : Loop} (h : l.Inv H) (cs : List Completion) :
    let shown := requestsOf (Machine.trace (Loop.step H) l cs)
    (loopAfter H l cs).users = Machine.final (handleRequest H) l.users (shown.map Prod.fst) ∧
      (Machine.trace (handleRequest H) l.users (shown.map Prod.fst)).map (fun ev => (ev.input, ev.out)) = shown := by
  have hshown : ∀ (l : Loop) (u : Users) (c : Completion) (x : Request × Outcome), l.Inv H ∧ l.users = u →
      handles (Machine.event (step H) l c) = some x →
      ((step H l c).1.Inv H ∧ (step H l c).1.users = (handleRequest H u x.1).1) ∧ (handleRequest H u x.1).2 = x.2 := by
    rintro l _ c x ⟨hl, rfl⟩ hx
    rw [step_shown hl hx]
    exact ⟨⟨inv_step hl c, rfl⟩, rfl⟩
  have hsilent : ∀ (l : Loop) (u : Users) (c : Completion), l.Inv H ∧ l.users = u →
      handles (Machine.event (step H) l c) = none → (step H l c).1.Inv H ∧ (step H l c).1.users = u := by
    rintro l _ c ⟨hl, rfl⟩ hx
    exact ⟨inv_step hl c, step_silent hl hx⟩
  obtain ⟨⟨-, hfinal⟩, htrace⟩ := Machine.simulation (fun (l : Loop) u => l.Inv H ∧ l.users = u) hshown hsilent cs ⟨h, rfl⟩
  exact ⟨hfinal, htrace⟩

/-- The event loop is a run of requests: after any completions in any order the table is that of the
    requests handled, one after the other, and each was answered as in that run. -/
theorem loop_serial (H : Host) (servers : ℕ) (u : Users) (cs : List Completion) :
    let shown := requestsOf (Machine.trace (Loop.step H) (Loop.launch H servers u 0) cs)
    (loopAfter H (Loop.launch H servers u 0) cs).users = Machine.final (handleRequest H) u (shown.map Prod.fst) ∧
      (Machine.trace (handleRequest H) u (shown.map Prod.fst)).map (fun ev => (ev.input, ev.out)) = shown := by
  have hsim := Loop.simulates (Loop.inv_launch (H := H) servers u 0) cs
  rwa [Loop.launch_users] at hsim

/-! ### The sessions of a run -/

namespace Loop

/-- The sessions opened so far, and those whose request was handled. -/
def openedIn (h : History) : List ℕ := h.filterMap opened

def handledIn (h : History) : List ℕ := h.filterMap handled

/-- A handler threw after `sid` had been opened. -/
def WentDown (h : History) (sid : ℕ) : Prop :=
  ∃ before ev after, h = before ++ ev :: after ∧ sid ∈ openedIn before ∧ TakesDown ev.pre ev.input

theorem openedIn_concat (h : History) (ev : Machine.Event Loop Completion (Option Outcome)) :
    openedIn (h ++ [ev]) = openedIn h ++ (opened ev).toList := by
  cases hev : opened ev <;> simp [openedIn, List.filterMap_append, hev]

theorem handledIn_concat (h : History) (ev : Machine.Event Loop Completion (Option Outcome)) :
    handledIn (h ++ [ev]) = handledIn h ++ (handled ev).toList := by
  cases hev : handled ev <;> simp [handledIn, List.filterMap_append, hev]

theorem WentDown.concat {h : History} {sid : ℕ} (hd : WentDown h sid)
    (ev : Machine.Event Loop Completion (Option Outcome)) : WentDown (h ++ [ev]) sid := by
  obtain ⟨before, ev', after, rfl, hopened, hdown⟩ := hd
  exact ⟨before, ev', after ++ [ev], by simp, hopened, hdown⟩

/-- What has become of the sessions opened so far. -/
structure Ledger (H : Host) (h : History) (l : Loop) : Prop where
  inv : l.Inv H
  opened : (openedIn h).Nodup
  handled : (handledIn h).Nodup
  accepted : ∀ sid ∈ handledIn h, sid ∈ openedIn h
  begun : ∀ sid ∈ openedIn h, sid < l.next ∧ l.slots sid ≠ some (Slot.waiting H)
  reading : ∀ sid, l.slots sid = some (Slot.reading H) → sid ∈ openedIn h ∧ sid ∉ handledIn h
  accounted : ∀ sid ∈ openedIn h,
    sid ∈ handledIn h ∨ l.slots sid = some (Slot.reading H) ∨ l.slots sid = none ∧ WentDown h sid

section
variable {H : Host} {l : Loop}

theorem launch_waiting (servers : ℕ) (u : Users) (next : ℕ) {sid : ℕ} {slot : Slot}
    (hs : (launch H servers u next).slots sid = some slot) : slot = Slot.waiting H := by
  have key : ∀ (is : List ℕ) (l : Loop), (∀ sid slot, l.slots sid = some slot → slot = Slot.waiting H) →
      ∀ sid slot, (is.foldl (startAccept H) l).slots sid = some slot → slot = Slot.waiting H := by
    intro is
    induction is with
    | nil => exact fun _ hl => hl
    | cons i is ih =>
      refine fun l hl => ih _ fun sid slot hs => ?_
      rcases eq_or_ne sid l.next with rfl | hne
      · simp only [startAccept, Function.update_self] at hs
        exact (Option.some.inj hs).symm
      · simp only [startAccept, Function.update_of_ne hne] at hs
        exact hl sid slot hs
  exact key _ _ (by simp) sid slot hs

theorem Ledger.launch (servers : ℕ) (u : Users) : Ledger H [] (launch H servers u 0) := by
  refine ⟨inv_launch servers u 0, List.nodup_nil, List.nodup_nil, by simp [handledIn], by simp [openedIn],
    fun sid hs => ?_, by simp [openedIn]⟩
  cases launch_waiting servers u 0 hs

/-- The sessions after an accept has been handled. -/
theorem accept_slots (h : l.Inv H) {server sid : ℕ} (hl : l.accepts.lookup server = some sid) (error : Bool)
    (sid' : ℕ) :
    (handleAccept H server sid error { l with accepts := l.accepts.erase (server, sid) }).slots sid'
      = if sid' = l.next then some (Slot.waiting H)
        else if sid' = sid ∧ error = false then some (Slot.reading H) else l.slots sid' := by
  have hslot : l.slots sid = some (Slot.waiting H) := h.waits _ (mem_of_lookup hl)
  rw [handleAccept, startAccept]
  cases error with
  | true =>
    simp only [if_true, reduceCtorEq, and_false, if_false]
    rcases eq_or_ne sid' l.next with rfl | hne
    · rw [if_pos rfl, Function.update_self]
      rfl
    · rw [if_neg hne, Function.update_of_ne hne]
  | false =>
    simp only [Bool.false_eq_true, if_false, start, hslot, and_true]
    rcases eq_or_ne sid' l.next with rfl | hne
    · rw [if_pos rfl, Function.update_self]
      rfl
    · rw [if_neg hne, Function.update_of_ne hne]
      rcases eq_or_ne sid' sid with rfl | hne'
      · rw [if_pos rfl, Function.update_self]
        rfl
      · rw [if_neg hne', Function.update_of_ne hne']

section
variable {h : History} {l' : Loop} {ev : Machine.Event Loop Completion (Option Outcome)}

/-- Nothing happens to the sessions opened so far. -/
theorem Ledger.quiet (ih : Ledger H h l) (hinv : l'.Inv H) (hopened : Loop.opened ev = none)
    (hhandled : Loop.handled ev = none) (hnext : l.next ≤ l'.next)
    (hsame : ∀ sid < l.next, l'.slots sid = l.slots sid)
    (hreading : ∀ sid, l'.slots sid = some (Slot.reading H) → l.slots sid = some (Slot.reading H)) :
    Ledger H (h ++ [ev]) l' := by
  have hopens : openedIn (h ++ [ev]) = openedIn h := by simp [openedIn_concat, hopened]
  have hhandles : handledIn (h ++ [ev]) = handledIn h := by simp [handledIn_concat, hhandled]
  refine ⟨hinv, hopens ▸ ih.opened, hhandles ▸ ih.handled, ?_, ?_, ?_, ?_⟩ <;> rw [hopens]
  · rw [hhandles]
    exact ih.accepted
  · intro sid hsid
    obtain ⟨hlt, hbegun⟩ := ih.begun sid hsid
    exact ⟨hlt.trans_le hnext, hsame sid hlt ▸ hbegun⟩
  · rw [hhandles]
    exact fun sid hs => ih.reading sid (hreading sid hs)
  · rw [hhandles]
    intro sid hsid
    rw [hsame sid (ih.begun sid hsid).1]
    exact (ih.accounted sid hsid).imp_right (Or.imp_right fun hd => ⟨hd.1, hd.2.concat ev⟩)

/-- A session is opened. -/
theorem Ledger.open_ (ih : Ledger H h l) (hinv : l'.Inv H) {sid : ℕ} (hopened : Loop.opened ev = some sid)
    (hhandled : Loop.handled ev = none) (hwait : l.slots sid = some (Slot.waiting H))
    (hnext : l'.next = l.next + 1)
    (hslots : ∀ sid', l'.slots sid' = if sid' = l.next then some (Slot.waiting H)
      else if sid' = sid then some (Slot.reading H) else l.slots sid') : Ledger H (h ++ [ev]) l' := by
  have hopens : openedIn (h ++ [ev]) = openedIn h ++ [sid] := by simp [openedIn_concat, hopened]
  have hhandles : handledIn (h ++ [ev]) = handledIn h := by simp [handledIn_concat, hhandled]
  have hfresh : sid ∉ openedIn h := fun hmem => (ih.begun sid hmem).2 hwait
  have hlt : sid < l.next := ih.inv.used sid _ hwait
  have hself : l'.slots sid = some (Slot.reading H) := by
    rw [hslots, if_neg (Nat.ne_of_lt hlt), if_pos rfl]
  have hother : ∀ sid' ∈ openedIn h, l'.slots sid' = l.slots sid' := fun sid' hmem => by
    rw [hslots, if_neg (Nat.ne_of_lt (ih.begun sid' hmem).1), if_neg fun heq : sid' = sid => hfresh (heq ▸ hmem)]
  refine ⟨hinv, ?_, hhandles ▸ ih.handled, ?_, ?_, ?_, ?_⟩ <;> rw [hopens]
  · exact List.nodup_append.mpr ⟨ih.opened, List.nodup_singleton _, fun x hx y hy hxy =>
      hfresh (List.mem_singleton.mp hy ▸ hxy ▸ hx)⟩
  · rw [hhandles]
    exact fun sid' hmem => List.mem_append_left _ (ih.accepted sid' hmem)
  · intro sid' hmem
    rw [hnext]
    rcases List.mem_append.mp hmem with hmem | hmem
    · obtain ⟨hlt', hbegun⟩ := ih.begun sid' hmem
      exact ⟨hlt'.trans (Nat.lt_succ_self _), hother sid' hmem ▸ hbegun⟩
    · rw [List.mem_singleton.mp hmem, hself]
      exact ⟨hlt.trans (Nat.lt_succ_self _), by simp [Slot.reading, Slot.waiting]⟩
  · rw [hhandles]
    intro sid' hs
    rw [hslots] at hs
    split at hs
    · simp [Slot.reading, Slot.waiting] at hs
    · split at hs
      · rename_i heq
        rw [heq]
        exact ⟨List.mem_append_right _ (List.mem_singleton_self _), fun hmem => hfresh (ih.accepted sid hmem)⟩
      · obtain ⟨hmem, hno⟩ := ih.reading sid' hs
        exact ⟨List.mem_append_left _ hmem, hno⟩
  · rw [hhandles]
    intro sid' hmem
    rcases List.mem_append.mp hmem with hmem | hmem
    · rw [hother sid' hmem]
      exact (ih.accounted sid' hmem).imp_right (Or.imp_right fun hd => ⟨hd.1, hd.2.concat ev⟩)
    · rw [List.mem_singleton.mp hmem]
      exact Or.inr (Or.inl hself)

/-- A request is handled, and perhaps the loop goes down over it. -/
theorem Ledger.handle (ih : Ledger H h l) (hinv : l'.Inv H) {sid : ℕ} (hopened : Loop.opened ev = none)
    (hhandled : Loop.handled ev = some sid) (hread : l.slots sid = some (Slot.reading H)) (hnext : l.next ≤ l'.next)
    (hself : l'.slots sid ≠ some (Slot.waiting H) ∧ l'.slots sid ≠ some (Slot.reading H))
    (hother : ∀ sid' < l.next, sid' ≠ sid → l'.slots sid' = l.slots sid' ∨
      l'.slots sid' = none ∧ TakesDown ev.pre ev.input)
    (hreading : ∀ sid', l'.slots sid' = some (Slot.reading H) → l.slots sid' = some (Slot.reading H)) :
    Ledger H (h ++ [ev]) l' := by
  have hopens : openedIn (h ++ [ev]) = openedIn h := by simp [openedIn_concat, hopened]
  have hhandles : handledIn (h ++ [ev]) = handledIn h ++ [sid] := by simp [handledIn_concat, hhandled]
  obtain ⟨hmem, hfresh⟩ := ih.reading sid hread
  refine ⟨hinv, hopens ▸ ih.opened, ?_, ?_, ?_, ?_, ?_⟩
  · rw [hhandles]
    exact List.nodup_append.mpr ⟨ih.handled, List.nodup_singleton _, fun x hx y hy hxy =>
      hfresh (List.mem_singleton.mp hy ▸ hxy ▸ hx)⟩
  · rw [hopens, hhandles]
    intro sid' hmem'
    rcases List.mem_append.mp hmem' with hmem' | hmem'
    · exact ih.accepted sid' hmem'
    · exact List.mem_singleton.mp hmem' ▸ hmem
  · rw [hopens]
    intro sid' hmem'
    obtain ⟨hlt, hbegun⟩ := ih.begun sid' hmem'
    refine ⟨hlt.trans_le hnext, ?_⟩
    rcases eq_or_ne sid' sid with rfl | hne
    · exact hself.1
    · rcases hother sid' hlt hne with hsame | ⟨hnone, -⟩
      · exact hsame ▸ hbegun
      · rw [hnone]
        exact Option.some_ne_none _ |>.symm
  · rw [hopens, hhandles]
    intro sid' hs
    obtain ⟨hmem', hno⟩ := ih.reading sid' (hreading sid' hs)
    refine ⟨hmem', fun hmem'' => ?_⟩
    rcases List.mem_append.mp hmem'' with hmem'' | hmem''
    · exact hno hmem''
    · exact hself.2 (List.mem_singleton.mp hmem'' ▸ hs)
  · rw [hopens, hhandles]
    intro sid' hmem'
    rcases eq_or_ne sid' sid with rfl | hne
    · exact Or.inl (List.mem_append_right _ (List.mem_singleton_self _))
    · rcases ih.accounted sid' hmem' with hdone | hrest
      · exact Or.inl (List.mem_append_left _ hdone)
      · right
        rcases hother sid' (ih.begun sid' hmem').1 hne with hsame | ⟨hnone, hdown⟩
        · rw [hsame]
          exact hrest.imp_right fun hd => ⟨hd.1, hd.2.concat ev⟩
        · exact Or.inr ⟨hnone, h, ev, [], rfl, hmem', hdown⟩

end

theorem Ledger.step (h : History) (l : Loop) (c : Completion) (ih : Ledger H h l) :
    Ledger H (h ++ [Machine.event (Loop.step H) l c]) (Loop.step H l c).1 := by
  have hinv := inv_step ih.inv c
  have hdoes := step_does ih.inv c
  have hout : (Machine.event (Loop.step H) l c).out = (Loop.step H l c).2 := rfl
  generalize hev : Machine.event (Loop.step H) l c = ev at hout ⊢
  have hpre : ev.pre = l := by rw [← hev]; rfl
  have hinput : ev.input = c := by rw [← hev]; rfl
  generalize (Loop.step H l c).1 = l' at hdoes hinv ⊢
  generalize (Loop.step H l c).2 = o at hdoes hout
  cases hdoes with
  | nothing hnone =>
    refine ih.quiet hinv ?_ ?_ le_rfl (fun _ _ => rfl) (fun _ hs => hs)
    · rw [Loop.opened, hinput, hpre]
      split
      · exact hnone _ rfl
      · rfl
    · rw [Loop.handled, hout]
      split
      · rename_i heq
        cases heq
      · rfl
  | @accept server sid error hl =>
    have hslots := accept_slots ih.inv hl error
    have hhandled : Loop.handled ev = none := by rw [Loop.handled, hinput]
    have hwait : l.slots sid = some (Slot.waiting H) := ih.inv.waits _ (mem_of_lookup hl)
    have hlt : sid < l.next := ih.inv.used sid _ hwait
    have hnext : (handleAccept H server sid error { l with accepts := l.accepts.erase (server, sid) }).next
        = l.next + 1 := by
      rw [handleAccept, startAccept]
      cases error with
      | true => rfl
      | false => simp [Loop.start, hwait]
    cases error with
    | true =>
      simp only [reduceCtorEq, and_false, if_false] at hslots
      refine ih.quiet hinv (by rw [Loop.opened, hinput]) hhandled (by omega) (fun sid' hlt' => ?_)
        (fun sid' hs => ?_)
      · rw [hslots, if_neg (Nat.ne_of_lt hlt')]
      · rw [hslots] at hs
        split at hs
        · simp [Slot.reading, Slot.waiting] at hs
        · exact hs
    | false =>
      simp only [and_true] at hslots
      refine ih.open_ hinv ?_ hhandled hwait hnext hslots
      rw [Loop.opened, hinput, hpre]
      exact hl
  | @answer sid r st hs _ _ =>
    refine ih.handle hinv (by rw [Loop.opened, hinput]) (by rw [Loop.handled, hinput, hout]) hs le_rfl ?_
      (fun sid' _ hne => Or.inl (Function.update_of_ne hne _ _)) (fun sid' hs' => ?_)
    · simp [Slot.reading, Slot.waiting]
    · rcases eq_or_ne sid' sid with rfl | hne
      · exact hs
      · simpa [Function.update_of_ne hne] using hs'
  | @down sid r hs hthrows =>
    have hgone : ∀ sid' < l.next, (Loop.launch H l.servers (handleRequest H l.users r).1 l.next).slots sid' = none :=
      fun sid' hlt => (launch_slots hlt _ _).2
    have hdown : TakesDown ev.pre ev.input := by
      rw [hpre, hinput]
      exact ⟨sid, r, _, rfl, hs, Nat.one_pos, hthrows⟩
    have hlt : l.next ≤ (Loop.launch H l.servers (handleRequest H l.users r).1 l.next).next := by
      rcases Nat.eq_zero_or_pos l.next with hzero | hpos
      · omega
      · have := (launch_slots (H := H) (Nat.sub_lt hpos Nat.one_pos) l.servers (handleRequest H l.users r).1).1
        omega
    refine ih.handle hinv (by rw [Loop.opened, hinput]) (by rw [Loop.handled, hinput, hout]) hs hlt ?_
      (fun sid' hlt' _ => Or.inr ⟨hgone sid' hlt', hdown⟩) (fun sid' hs' => ?_)
    · rw [hgone sid (ih.inv.used sid _ hs)]
      simp
    · have hwaiting := launch_waiting _ _ _ hs'
      simp [Slot.reading, Slot.waiting] at hwaiting

end

end Loop

/-- In every run of the loop no session is opened twice, none is handled twice or without having been
    opened, and an opened one is handled, still waits for its read, or was lost to a handler that threw:
    exactly one of the three. -/
theorem sessions_accounted (H : Host) (servers : ℕ) (u : Users) (cs : List Completion) :
    let h := Machine.trace (Loop.step H) (Loop.launch H servers u 0) cs
    let l := loopAfter H (Loop.launch H servers u 0) cs
    (Loop.openedIn h).Nodup ∧ (Loop.handledIn h).Nodup ∧ (∀ sid ∈ Loop.handledIn h, sid ∈ Loop.openedIn h) ∧
      ∀ sid ∈ Loop.openedIn h,
        (sid ∈ Loop.handledIn h ∧ l.slots sid ≠ some (Slot.reading H)) ∨
        (sid ∉ Loop.handledIn h ∧ l.slots sid = some (Slot.reading H)) ∨
        (sid ∉ Loop.handledIn h ∧ l.slots sid = none ∧ Loop.WentDown h sid) := by
  intro h l
  have hledger : Loop.Ledger H h l :=
    Machine.history (J := Loop.Ledger H) (Loop.Ledger.launch servers u) Loop.Ledger.step cs
  refine ⟨hledger.opened, hledger.handled, hledger.accepted, fun sid hsid => ?_⟩
  by_cases hdone : sid ∈ Loop.handledIn h
  · exact Or.inl ⟨hdone, fun hs => (hledger.reading sid hs).2 hdone⟩
  · rcases (hledger.accounted sid hsid).resolve_left hdone with hs | ⟨hs, hdown⟩
    · exact Or.inr (Or.inl ⟨hdone, hs⟩)
    · exact Or.inr (Or.inr ⟨hdone, hs, hdown⟩)

end MarkMe
