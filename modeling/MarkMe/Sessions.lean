import MarkMe.EventLoop

/-! One new session for every connection.

    Each server waits with one session at any time, and an accept replaces it by a new one whether it
    went well or not. `Loop.Inv` says that a session is in front of its accept, in front of its read,
    or done; here the servers are counted as well, and a session once started stays started.

        accepts   (0, s₃) (1, s₁) (2, s₄)      one pair for each server
                     │ accept
                     ▼
                  (1, s₁) (2, s₄) (0, s₅)      and s₃ is started, if a client is there -/

namespace MarkMe
open Text Session

section
variable {H : Host} {n : ℕ} {l : Loop}

/-- Every one of the `n` servers has one accept outstanding. -/
structure Loop.Serving (n : ℕ) (l : Loop) : Prop where
  servers : l.servers = n
  each : (l.accepts.map Prod.fst).Perm (List.range n)

namespace Loop

theorem launch_accepts (servers : ℕ) (u : Users) (next : ℕ) :
    (launch H servers u next).servers = servers ∧
      (launch H servers u next).accepts.map Prod.fst = List.range servers := by
  have key : ∀ (is : List ℕ) (l : Loop), (is.foldl (startAccept H) l).servers = l.servers ∧
      (is.foldl (startAccept H) l).accepts.map Prod.fst = l.accepts.map Prod.fst ++ is := by
    intro is
    induction is with
    | nil => intro l; simp
    | cons i is ih =>
      intro l
      obtain ⟨hservers, haccepts⟩ := ih (startAccept H l i)
      rw [List.foldl_cons, hservers, haccepts]
      simp [startAccept]
  exact key _ _

theorem serving_launch (servers : ℕ) (u : Users) (next : ℕ) : (launch H servers u next).Serving servers := by
  obtain ⟨hservers, haccepts⟩ := launch_accepts (H := H) servers u next
  exact ⟨hservers, by rw [haccepts]⟩

theorem start_accepts (sid : ℕ) (l : Loop) : (l.start sid).servers = l.servers ∧ (l.start sid).accepts = l.accepts := by
  rw [start]
  split <;> exact ⟨rfl, rfl⟩

/-- The accept that completed is issued anew. -/
theorem serving_accept (h : l.Serving n) {server sid : ℕ} (hmem : (server, sid) ∈ l.accepts) (error : Bool) :
    (handleAccept H server sid error { l with accepts := l.accepts.erase (server, sid) }).Serving n := by
  have hback : ((l.accepts.erase (server, sid)).map Prod.fst ++ [server]).Perm (List.range n) := by
    refine List.Perm.trans ?_ h.each
    exact (List.perm_append_singleton _ _).trans ((List.perm_cons_erase hmem).map Prod.fst).symm
  obtain ⟨hservers, haccepts⟩ := start_accepts sid { l with accepts := l.accepts.erase (server, sid) }
  rw [handleAccept, startAccept]
  cases error with
  | true => exact ⟨h.servers, by simpa using hback⟩
  | false => exact ⟨hservers.trans h.servers, by simpa [haccepts] using hback⟩

theorem serving_read (h : l.Serving n) (sid : ℕ) (slot : Slot) (r : Request) :
    (handleRead H sid slot r l).1.Serving n := by
  rw [handleRead]
  cases completeRead H slot.session l.users r with
  | ok st => exact ⟨h.servers, h.each⟩
  | error err =>
    have hlaunch := serving_launch (H := H) l.servers (conclude l.users (.error err)).1 l.next
    rw [h.servers] at hlaunch
    simpa [h.servers] using hlaunch

theorem serving_step (h : l.Serving n) (c : Completion) : (step H l c).1.Serving n := by
  cases c with
  | accept server error =>
    rw [step]
    cases hl : l.accepts.lookup server with
    | none => exact h
    | some sid => exact serving_accept h (mem_of_lookup hl) error
  | read sid r =>
    rw [step]
    cases l.slots sid with
    | none => exact h
    | some slot =>
      dsimp only
      split
      · exact serving_read h sid slot r
      · exact h

/-- Which accept a server waits with. -/
theorem Serving.waits_with (h : l.Serving n) {i : ℕ} (hi : i < n) :
    ∃ sid, l.accepts.filter (fun p => p.1 == i) = [(i, sid)] := by
  have hcount : (l.accepts.map Prod.fst).count i = 1 := by
    rw [h.each.count_eq]
    exact List.count_eq_one_of_mem List.nodup_range (List.mem_range.mpr hi)
  rw [List.count_eq_length_filter, List.filter_map, List.length_map] at hcount
  obtain ⟨p, hp⟩ := List.length_eq_one_iff.mp hcount
  have hmem : p ∈ l.accepts.filter ((· == i) ∘ Prod.fst) := by rw [hp]; exact List.mem_singleton_self p
  have hserver : p.1 = i := by simpa using (List.mem_filter.mp hmem).2
  exact ⟨p.2, by rw [← hserver] at hp ⊢; exact hp⟩

/-! ### Started sessions -/

/-- Session `sid` has been started. -/
def Started (sid : ℕ) (l : Loop) : Prop := ∃ slot, l.slots sid = some slot ∧ slot.starts = 1

theorem started_not_waited (h : l.Inv H) {sid : ℕ} (hs : l.Started sid) : ∀ p ∈ l.accepts, p.2 ≠ sid := by
  rintro p hp rfl
  obtain ⟨slot, hslot, hone⟩ := hs
  rw [h.waits p hp] at hslot
  cases hslot
  cases hone

/-- A handler that does not throw leaves every started session started. -/
theorem started_step (h : l.Inv H) {sid : ℕ} (hs : l.Started sid) {c : Completion} (hup : ¬ TakesDown l c) :
    (step H l c).1.Started sid := by
  obtain ⟨slot, hslot, hone⟩ := hs
  cases c with
  | accept server error =>
    rw [step]
    cases hl : l.accepts.lookup server with
    | none => exact ⟨slot, hslot, hone⟩
    | some sid' =>
      have hne : sid ≠ sid' := (started_not_waited h ⟨slot, hslot, hone⟩ _ (mem_of_lookup hl)).symm
      obtain ⟨-, hsame⟩ := handle_accept_slots (H := H)
        (l := { l with accepts := l.accepts.erase (server, sid') }) (h.used _ _ hslot)
        (fun heq => absurd heq hne) server error
      exact ⟨slot, hsame.trans hslot, hone⟩
  | read sid' r =>
    rw [step]
    cases hs' : l.slots sid' with
    | none => exact ⟨slot, hslot, hone⟩
    | some slot' =>
      dsimp only
      split
      · rename_i hr
        have hquiet : ¬ r.Throws := fun ht => hup ⟨sid', r, slot', rfl, hs', hr, ht⟩
        obtain rfl := slot_reading h hs' hr
        rw [handleRead]
        cases hcomplete : completeRead H (Slot.reading H).session l.users r with
        | error err => exact absurd ((throws_iff H l.users r).mp ⟨err, hcomplete⟩) hquiet
        | ok st =>
          rcases eq_or_ne sid sid' with rfl | hne
          · exact ⟨_, Function.update_self _ _ _, rfl⟩
          · exact ⟨slot, (Function.update_of_ne hne _ _).trans hslot, hone⟩
      · exact ⟨slot, hslot, hone⟩

theorem inv_run (h : l.Inv H) (cs : List Completion) : (loopAfter H l cs).Inv H :=
  Machine.inv_final (I := Loop.Inv H) (fun _ c h => inv_step h c) cs h

theorem started_run (h : l.Inv H) {sid : ℕ} (hs : l.Started sid) {cs : List Completion}
    (hup : ∀ ev ∈ Machine.trace (step H) l cs, ¬ TakesDown ev.pre ev.input) : (loopAfter H l cs).Started sid :=
  (Machine.inv_of_guard (I := fun l : Loop => l.Inv H ∧ l.Started sid)
    (G := fun ev => ¬ TakesDown ev.pre ev.input)
    (fun _ c hl hc => ⟨inv_step hl.1 c, started_step hl.1 hl.2 hc⟩) ⟨h, hs⟩ hup).2

/-- The stages of a session, counted. -/
theorem stage_bounds (h : l.Inv H) {sid : ℕ} {slot : Slot} (hs : l.slots sid = some slot) :
    slot.starts ≤ 1 ∧ slot.reads ≤ 1 ∧ slot.handled ≤ 1 := by
  rcases h.stage sid slot hs with rfl | rfl | ⟨hstarts, hreads, hhandled⟩
  · exact ⟨Nat.zero_le 1, Nat.zero_le 1, Nat.zero_le 1⟩
  · exact ⟨Nat.le_refl 1, Nat.le_refl 1, Nat.zero_le 1⟩
  · omega

end Loop

/-- While no handler throws, each server waits with one session that has not been started; every session
    is started, waits for a read and is handled once at most, and its request meets an empty result
    vector, error code 0 and a closed connection; and the session of every accepted connection has been
    started. -/
theorem one_session (H : Host) (servers : ℕ) (u : Users) (cs : List Completion)
    (hup : ∀ ev ∈ Machine.trace (Loop.step H) (Loop.launch H servers u 0) cs, ¬ TakesDown ev.pre ev.input) :
    (∀ i < servers, ∃ sid slot,
        (loopAfter H (Loop.launch H servers u 0) cs).accepts.filter (fun p => p.1 == i) = [(i, sid)] ∧
        (loopAfter H (Loop.launch H servers u 0) cs).slots sid = some slot ∧ slot.starts = 0) ∧
      (∀ sid slot, (loopAfter H (Loop.launch H servers u 0) cs).slots sid = some slot →
        (slot.starts ≤ 1 ∧ slot.reads ≤ 1 ∧ slot.handled ≤ 1) ∧
        (0 < slot.reads → slot.session.database_.queryResults_ = [] ∧
          slot.session.database_.lastErrorCode_ = 0 ∧ slot.session.dbConnection_.connected_ = false)) ∧
      ∀ ev ∈ Machine.trace (Loop.step H) (Loop.launch H servers u 0) cs, ∀ server sid,
        ev.input = .accept server false → ev.pre.accepts.lookup server = some sid →
          (loopAfter H (Loop.launch H servers u 0) cs).Started sid := by
  have hlaunch := Loop.inv_launch (H := H) servers u 0
  have hinv := Loop.inv_run hlaunch cs
  have hserving : (loopAfter H (Loop.launch H servers u 0) cs).Serving servers :=
    Machine.inv_final (I := Loop.Serving servers) (fun _ c h => Loop.serving_step h c) cs
      (Loop.serving_launch servers u 0)
  refine ⟨fun i hi => ?_, fun sid slot hs => ⟨Loop.stage_bounds hinv hs, fun hr => ?_⟩, ?_⟩
  · obtain ⟨sid, hsid⟩ := hserving.waits_with hi
    have hmem : (i, sid) ∈ (loopAfter H (Loop.launch H servers u 0) cs).accepts :=
      (List.mem_filter.mp (hsid ▸ List.mem_singleton_self (i, sid))).1
    exact ⟨sid, _, hsid, hinv.waits _ hmem, rfl⟩
  · obtain rfl := Loop.slot_reading hinv hs hr
    exact ⟨rfl, rfl, rfl⟩
  · intro ev hev server sid hinput hlookup
    obtain ⟨before, c, rest, rfl, rfl⟩ := Machine.exists_of_mem_trace hev
    cases hinput
    rw [Machine.trace_append, Machine.trace] at hup
    rw [loopAfter, Machine.final_append, Machine.final]
    have hbefore := Loop.inv_run hlaunch before
    refine Loop.started_run (Loop.inv_step hbefore _) ⟨_, Loop.accept_opens hbefore hlookup, rfl⟩ fun ev hev => ?_
    exact hup ev (List.mem_append_right _ (List.mem_cons_of_mem _ hev))

/-- Two servers: a client of the first is accepted and served, and an accept of the second fails. -/
theorem one_session_two :
    (loopAfter Host.small (Loop.launch Host.small 2 Users.empty 0)
      [.accept 0 false, .accept 1 true, .read 0 initA]).Started 0 := by
  refine (one_session Host.small 2 Users.empty _ ?_).2.2 _ (List.mem_cons_self) 0 0 rfl (by decide)
  intro ev hev
  rintro ⟨sid, r, slot, hread, -, -, ⟨err, hremote⟩, -⟩
  have hinput : ev.input = .read sid r := hread
  simp only [Machine.trace, Machine.event, List.mem_cons, List.not_mem_nil, or_false] at hev
  rcases hev with rfl | rfl | rfl
  · cases hinput
  · cases hinput
  · cases hinput
    cases hremote

end

end MarkMe
