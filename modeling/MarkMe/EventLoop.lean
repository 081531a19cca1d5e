import Mathlib.Logic.Function.Basic
import MarkMe.Messages

/-! The event loop.

    All `Server`s and all sessions share one `io_service`. Each server waits for one connection with
    a session made beforehand; an accepted session starts its read, and its read completes once. A
    handler that throws takes the loop down: `main` catches the exception and calls `start` again,
    with a new `io_service` and new servers, and every handler that was still pending is gone with the
    old one.

        startAccept ──accept──▶ start ──read──▶ receiveDataHandle
             ▲                                     │ throws
             └───────────── main: start ◀──────────┘ -/

namespace MarkMe
open Text Session

/-- A session object and the handlers bound to it: how often `start` was called, how many reads are
    outstanding, and how often `receiveDataHandle` ran. -/
structure Slot where
  session : Session
  starts : ℕ
  reads : ℕ
  handled : ℕ

/-- The running program: the database file, the number of servers, the outstanding `async_accept`s
    as pairs of a server and the session it waits with, the sessions, and the next unused session. -/
structure Loop where
  users : Users
  servers : ℕ
  accepts : List (ℕ × ℕ)
  slots : ℕ → Option Slot
  next : ℕ

/-- A completion handler becomes ready. -/
inductive Completion where
  | accept (server : ℕ) (error : Bool)
  | read (session : ℕ) (r : Request)

namespace Loop
variable (H : Host)

/-- `Server::startAccept`. -/
def startAccept (l : Loop) (server : ℕ) : Loop :=
  { l with
    accepts := l.accepts ++ [(server, l.next)]
    slots := Function.update l.slots l.next (some ⟨Session.new H.dbFilename, 0, 0, 0⟩)
    next := l.next + 1 }

/-- `session->start()`. -/
def start (sid : ℕ) (l : Loop) : Loop :=
  match l.slots sid with
  | some s =>
    { l with
      slots := Function.update l.slots sid
        (some ⟨s.session.start, s.starts + 1, s.reads + 1, s.handled⟩) }
  | none => l

/-- `Server::handleAccept`. -/
def handleAccept (server sid : ℕ) (error : Bool) (l : Loop) : Loop :=
  startAccept H (if error then l else l.start sid) server

/-- `start` of `main`: a new `io_service` with its servers. -/
def launch (servers : ℕ) (u : Users) (next : ℕ) : Loop :=
  (List.range servers).foldl (startAccept H) ⟨u, servers, [], fun _ => none, next⟩

/-- The read of a session completes. -/
def handleRead (sid : ℕ) (slot : Slot) (r : Request) (l : Loop) : Loop × Option Outcome :=
  let result := completeRead H slot.session l.users r
  let (u, o) := conclude l.users result
  match result with
  | .ok s =>
    ({ l with
        users := u
        slots := Function.update l.slots sid
          (some ⟨s.toSession, slot.starts, slot.reads - 1, slot.handled + 1⟩) },
      some o)
  | .error _ => (launch H l.servers u l.next, some o)

/-- The loop runs one completion handler, and says what a request came to. A completion nobody waits
    for does not happen. -/
def step (l : Loop) : Completion → Loop × Option Outcome
  | .accept server error =>
    match l.accepts.lookup server with
    | some sid => (handleAccept H server sid error { l with accepts := l.accepts.erase (server, sid) }, none)
    | none => (l, none)
  | .read sid r =>
    match l.slots sid with
    | some slot => if 0 < slot.reads then handleRead H sid slot r l else (l, none)
    | none => (l, none)

end Loop

/-- The request throws: its client is gone when a handler asks for the remote endpoint. -/
def Request.Throws (r : Request) : Prop :=
  (∃ err, r.env.remote = .error err) ∧ (r.command = .init ∨ ∃ s, r.command.coordinates = some s)

/-- The completion handler about to run throws. -/
def TakesDown (l : Loop) (c : Completion) : Prop :=
  ∃ sid r slot, c = .read sid r ∧ l.slots sid = some slot ∧ 0 < slot.reads ∧ r.Throws

/-! ### The sessions of a loop -/

section
variable {H : Host}

/-- A session in front of its accept, and one in front of its read. -/
def Slot.waiting (H : Host) : Slot := ⟨Session.new H.dbFilename, 0, 0, 0⟩

def Slot.reading (H : Host) : Slot := ⟨(Session.new H.dbFilename).start, 1, 1, 0⟩

/-- What holds of the loop between two handlers. -/
structure Loop.Inv (H : Host) (l : Loop) : Prop where
  used : ∀ sid slot, l.slots sid = some slot → sid < l.next
  stage : ∀ sid slot, l.slots sid = some slot →
    slot = Slot.waiting H ∨ slot = Slot.reading H ∨ slot.starts = 1 ∧ slot.reads = 0 ∧ slot.handled = 1
  waits : ∀ p ∈ l.accepts, l.slots p.2 = some (Slot.waiting H)
  distinct : (l.accepts.map Prod.snd).Nodup

namespace Loop

theorem inv_start_accept {l : Loop} (h : l.Inv H) (server : ℕ) : (startAccept H l server).Inv H := by
  have hnext : ∀ p ∈ l.accepts, p.2 ≠ l.next := fun p hp => Nat.ne_of_lt (h.used _ _ (h.waits p hp))
  constructor
  · intro sid slot hs
    rw [startAccept] at hs ⊢
    rcases eq_or_ne sid l.next with rfl | hne
    · exact Nat.lt_succ_self _
    · simp only [Function.update_of_ne hne] at hs
      exact (h.used sid slot hs).trans (Nat.lt_succ_self _)
  · intro sid slot hs
    rw [startAccept] at hs
    rcases eq_or_ne sid l.next with rfl | hne
    · simp only [Function.update_self] at hs
      exact Or.inl (Option.some.inj hs).symm
    · simp only [Function.update_of_ne hne] at hs
      exact h.stage sid slot hs
  · intro p hp
    rw [startAccept] at hp ⊢
    rcases List.mem_append.mp hp with hp | hp
    · simp only [Function.update_of_ne (hnext p hp)]
      exact h.waits p hp
    · rw [List.mem_singleton.mp hp]
      simp only [Function.update_self]
      rfl
  · rw [startAccept, List.map_append, List.nodup_append]
    refine ⟨h.distinct, by simp, fun x hx y hy hxy => ?_⟩
    obtain ⟨p, hp, rfl⟩ := List.mem_map.mp hx
    simp only [List.map_cons, List.map_nil, List.mem_singleton] at hy
    exact hnext p hp (hxy.trans hy)

theorem inv_fold : ∀ (is : List ℕ) {l : Loop}, l.Inv H → (is.foldl (startAccept H) l).Inv H
  | [], _, h => h
  | i :: is, _, h => inv_fold is (inv_start_accept h i)

theorem inv_launch (servers : ℕ) (u : Users) (next : ℕ) : (launch H servers u next).Inv H :=
  inv_fold _ ⟨by simp, by simp, by simp, by simp⟩

/-- One session that no accept waits with moves on. -/
theorem inv_update {l : Loop} (h : l.Inv H) (u : Users) {sid : ℕ} {slot : Slot} (hlt : sid < l.next)
    (hstage : slot = Slot.reading H ∨ slot.starts = 1 ∧ slot.reads = 0 ∧ slot.handled = 1)
    (hfree : ∀ p ∈ l.accepts, p.2 ≠ sid) :
    Loop.Inv H { l with users := u, slots := Function.update l.slots sid (some slot) } := by
  refine ⟨?_, ?_, ?_, h.distinct⟩
  · intro sid' slot' hs
    rcases eq_or_ne sid' sid with rfl | hne
    · exact hlt
    · simp only [Function.update_of_ne hne] at hs
      exact h.used sid' slot' hs
  · intro sid' slot' hs
    rcases eq_or_ne sid' sid with rfl | hne
    · simp only [Function.update_self] at hs
      exact Or.inr (Option.some.inj hs ▸ hstage)
    · simp only [Function.update_of_ne hne] at hs
      exact h.stage sid' slot' hs
  · intro p hp
    simp only [Function.update_of_ne (hfree p hp)]
    exact h.waits p hp

/-- No accept waits with a session that is reading. -/
theorem not_waited {l : Loop} (h : l.Inv H) {sid : ℕ} (hs : l.slots sid = some (Slot.reading H)) :
    ∀ p ∈ l.accepts, p.2 ≠ sid := by
  intro p hp heq
  have hwaits := h.waits p hp
  rw [heq, hs] at hwaits
  simp [Slot.waiting, Slot.reading] at hwaits

/-- The session of an accept that completes is no longer waited with. -/
theorem accepts_erase {l : Loop} (h : l.Inv H) {server sid : ℕ} (hmem : (server, sid) ∈ l.accepts) :
    (∀ p ∈ l.accepts.erase (server, sid), p ∈ l.accepts ∧ p.2 ≠ sid) ∧
      ((l.accepts.erase (server, sid)).map Prod.snd).Nodup := by
  refine ⟨fun p hp => ?_, h.distinct.sublist (List.erase_sublist.map _)⟩
  obtain ⟨hne, hp⟩ := ((List.Nodup.of_map _ h.distinct).mem_erase_iff).mp hp
  exact ⟨hp, fun heq => hne (List.inj_on_of_nodup_map h.distinct hp hmem heq)⟩

theorem inv_accept {l : Loop} (h : l.Inv H) {server sid : ℕ} (hmem : (server, sid) ∈ l.accepts) (error : Bool) :
    (handleAccept H server sid error { l with accepts := l.accepts.erase (server, sid) }).Inv H := by
  obtain ⟨hold, hnodup⟩ := accepts_erase h hmem
  have hl : Loop.Inv H { l with accepts := l.accepts.erase (server, sid) } :=
    ⟨h.used, h.stage, fun p hp => h.waits p (hold p hp).1, hnodup⟩
  refine inv_start_accept ?_ server
  cases error with
  | true => exact hl
  | false =>
    have hslot : l.slots sid = some (Slot.waiting H) := h.waits _ hmem
    simp only [Bool.false_eq_true, if_false, start, hslot]
    exact inv_update hl l.users (h.used sid _ hslot) (Or.inl rfl) fun p hp => (hold p hp).2

/-- A session whose read completes was waiting for it. -/
theorem slot_reading {l : Loop} (h : l.Inv H) {sid : ℕ} {slot : Slot} (hs : l.slots sid = some slot)
    (hr : 0 < slot.reads) : slot = Slot.reading H := by
  rcases h.stage sid slot hs with rfl | rfl | ⟨-, h0, -⟩
  · exact absurd hr (by simp [Slot.waiting])
  · rfl
  · omega

theorem inv_read {l : Loop} (h : l.Inv H) {sid : ℕ} (hs : l.slots sid = some (Slot.reading H)) (r : Request) :
    (handleRead H sid (Slot.reading H) r l).1.Inv H := by
  rw [handleRead]
  cases completeRead H (Slot.reading H).session l.users r with
  | error err => exact inv_launch _ _ _
  | ok st =>
    exact inv_update h _ (h.used sid _ hs) (Or.inr ⟨rfl, rfl, rfl⟩) (not_waited h hs)

theorem mem_of_lookup {l : List (ℕ × ℕ)} {i s : ℕ} (h : l.lookup i = some s) : (i, s) ∈ l := by
  obtain ⟨l₁, l₂, rfl, -⟩ := List.lookup_eq_some_iff.mp h
  simp

/-- The only pair of a server is the one found. -/
theorem lookup_of_filter {l : List (ℕ × ℕ)} {i s : ℕ} (h : l.filter (fun a => a.1 == i) = [(i, s)]) :
    l.lookup i = some s := by
  have hmem : (i, s) ∈ l := (List.mem_filter.mp (h ▸ List.mem_singleton_self (i, s))).1
  cases hfound : l.lookup i with
  | none =>
    have hother := List.lookup_eq_none_iff.mp hfound _ hmem
    simp at hother
  | some s' =>
    have hmem' : (i, s') ∈ l.filter (fun a => a.1 == i) := List.mem_filter.mpr ⟨mem_of_lookup hfound, beq_self_eq_true i⟩
    rw [h, List.mem_singleton] at hmem'
    cases hmem'
    rfl

theorem inv_step {l : Loop} (h : l.Inv H) (c : Completion) : (step H l c).1.Inv H := by
  cases c with
  | accept server error =>
    rw [step]
    cases hl : l.accepts.lookup server with
    | none => exact h
    | some sid => exact inv_accept h (mem_of_lookup hl) error
  | read sid r =>
    rw [step]
    cases hs : l.slots sid with
    | none => exact h
    | some slot =>
      dsimp only
      split
      · rename_i hr
        have hslot := slot_reading h hs hr
        subst hslot
        exact inv_read h hs r
      · exact h

end Loop

/-! ### Who is served -/

/-- A request on a new session throws exactly when its client is gone and it asks for the address. -/
theorem throws_iff (H : Host) (u : Users) (r : Request) :
    (∃ err, completeRead H (Session.new H.dbFilename).start u r = .error err) ↔ r.Throws := by
  have hspec : (∃ err, completeRead H (Session.new H.dbFilename).start u r = .error err) ↔
      ∃ err, Spec.request H u r = .error err := by
    rw [← read_refines]
    cases completeRead H (Session.new H.dbFilename).start u r <;> simp [Except.map]
  rw [hspec, Spec.request, Request.Throws]
  cases r.command with
  | nothing => simp [Spec.handle, Command.coordinates]
  | get id pass => simp [Spec.handle, Command.coordinates]
  | check id pass => simp [Spec.handle, Command.coordinates]
  | init =>
    rw [Spec.handle]
    cases r.env.remote <;> simp [Except.map]
  | storeAndGet coordinates friend =>
    cases coordinates with
    | none => simp [Spec.handle, Spec.storeHalf, Except.map, Command.coordinates]
    | some s =>
      rw [Spec.handle, Spec.storeHalf]
      cases r.env.remote <;> simp [Except.map, Command.coordinates]

namespace Loop

theorem start_accept_slots {l : Loop} {sid : ℕ} (hlt : sid < l.next) (server : ℕ) :
    sid < (startAccept H l server).next ∧ (startAccept H l server).slots sid = l.slots sid :=
  ⟨hlt.trans (Nat.lt_succ_self _), Function.update_of_ne (Nat.ne_of_lt hlt) _ _⟩

theorem launch_slots {sid next : ℕ} (hlt : sid < next) (servers : ℕ) (u : Users) :
    sid < (launch H servers u next).next ∧ (launch H servers u next).slots sid = none := by
  have key : ∀ (is : List ℕ) (l : Loop), sid < l.next →
      sid < (is.foldl (startAccept H) l).next ∧ (is.foldl (startAccept H) l).slots sid = l.slots sid := by
    intro is
    induction is with
    | nil => intro l hl; exact ⟨hl, rfl⟩
    | cons i is ih =>
      intro l hl
      obtain ⟨hlt', hsame⟩ := start_accept_slots (H := H) hl i
      rw [List.foldl_cons, ← hsame]
      exact ih _ hlt'
  exact key _ ⟨u, servers, [], fun _ => none, next⟩ hlt

theorem launch_users (servers : ℕ) (u : Users) (next : ℕ) : (launch H servers u next).users = u := by
  have key : ∀ (is : List ℕ) (l : Loop), (is.foldl (startAccept H) l).users = l.users := by
    intro is
    induction is with
    | nil => intro l; rfl
    | cons i is ih => intro l; exact ih _
  exact key _ _

theorem start_slots {l : Loop} {sid sid' : ℕ} (h : sid = sid' → l.slots sid = none) :
    (l.start sid').next = l.next ∧ (l.start sid').slots sid = l.slots sid := by
  rw [start]
  cases hs : l.slots sid' with
  | none => exact ⟨rfl, rfl⟩
  | some slot =>
    have hne : sid ≠ sid' := fun heq => by
      rw [← heq, h heq] at hs
      cases hs
    exact ⟨rfl, Function.update_of_ne hne _ _⟩

/-- Handling an accept touches the accepted session and the next new one only. -/
theorem handle_accept_slots {l : Loop} {sid sid' : ℕ} (hlt : sid < l.next) (h : sid = sid' → l.slots sid = none)
    (server : ℕ) (error : Bool) :
    sid < (handleAccept H server sid' error l).next ∧
      (handleAccept H server sid' error l).slots sid = l.slots sid := by
  rw [handleAccept]
  cases error with
  | true => exact start_accept_slots hlt server
  | false =>
    obtain ⟨hnext, hsame⟩ := start_slots h
    simp only [Bool.false_eq_true, if_false]
    rw [← hsame]
    exact start_accept_slots (hnext.symm ▸ hlt) server

/-- A session keeps waiting for its read while the others come and go. -/
theorem reading_step {l : Loop} (h : l.Inv H) {sid : ℕ} (hs : l.slots sid = some (Slot.reading H))
    {c : Completion} (hc : ∀ r, c ≠ .read sid r) (hup : ¬ TakesDown l c) :
    (step H l c).1.slots sid = some (Slot.reading H) := by
  cases c with
  | accept server error =>
    rw [step]
    cases hl : l.accepts.lookup server with
    | none => exact hs
    | some sid' =>
      have hne : sid ≠ sid' := (not_waited h hs _ (mem_of_lookup hl)).symm
      exact (handle_accept_slots (l := { l with accepts := l.accepts.erase (server, sid') })
        (h.used _ _ hs) (fun heq => absurd heq hne) server error).2.trans hs
  | read sid' r =>
    have hne : sid ≠ sid' := fun heq => hc r (by rw [heq])
    rw [step]
    cases hs' : l.slots sid' with
    | none => exact hs
    | some slot =>
      dsimp only
      split
      · rename_i hr
        have hslot := slot_reading h hs' hr
        have hquiet : ¬ r.Throws := fun ht => hup ⟨sid', r, slot, rfl, hs', hr, ht⟩
        subst hslot
        rw [handleRead]
        cases hcomplete : completeRead H (Slot.reading H).session l.users r with
        | error err => exact absurd ((throws_iff H l.users r).mp ⟨err, hcomplete⟩) hquiet
        | ok st => exact (Function.update_of_ne hne _ _).trans hs
      · exact hs

/-- A session that is gone stays gone. -/
theorem gone_step {l : Loop} {sid : ℕ} (h : sid < l.next ∧ l.slots sid = none) (c : Completion) :
    sid < (step H l c).1.next ∧ (step H l c).1.slots sid = none := by
  obtain ⟨hlt, hs⟩ := h
  cases c with
  | accept server error =>
    rw [step]
    cases l.accepts.lookup server with
    | none => exact ⟨hlt, hs⟩
    | some sid' =>
      have hkeep : sid = sid' → l.slots sid = none := fun _ => hs
      obtain ⟨hlt', hsame⟩ := handle_accept_slots (H := H)
        (l := { l with accepts := l.accepts.erase (server, sid') }) hlt hkeep server error
      exact ⟨hlt', hsame.trans hs⟩
  | read sid' r =>
    rw [step]
    cases hs' : l.slots sid' with
    | none => exact ⟨hlt, hs⟩
    | some slot =>
      dsimp only
      split
      · have hne : sid ≠ sid' := fun heq => by
          rw [← heq, hs] at hs'
          cases hs'
        rw [handleRead]
        cases completeRead H slot.session l.users r with
        | error err => exact launch_slots hlt _ _
        | ok st => exact ⟨hlt, (Function.update_of_ne hne _ _).trans hs⟩
      · exact ⟨hlt, hs⟩

/-- A handler that throws takes all sessions with it. -/
theorem down_step {l : Loop} (h : l.Inv H) {c : Completion} (hdown : TakesDown l c) {sid : ℕ}
    (hlt : sid < l.next) :
    sid < (step H l c).1.next ∧ (step H l c).1.slots sid = none := by
  obtain ⟨sid', r, slot, rfl, hs, hr, hthrows⟩ := hdown
  have hslot := slot_reading h hs hr
  subst hslot
  obtain ⟨err, hcomplete⟩ := (throws_iff H l.users r).mpr hthrows
  have hread : completeRead H (Slot.reading H).session l.users r = .error err := hcomplete
  simp only [step, hs, if_pos hr, handleRead, hread]
  exact launch_slots hlt _ _

/-- A session waiting for its read is served when it completes, as on its own. -/
theorem read_served {l : Loop} {sid : ℕ} (hs : l.slots sid = some (Slot.reading H)) (r : Request) :
    (step H l (.read sid r)).2 = some (handleRequest H l.users r).2 ∧
      (step H l (.read sid r)).1.users = (handleRequest H l.users r).1 := by
  have hr : 0 < (Slot.reading H).reads := Nat.one_pos
  simp only [step, hs, if_pos hr, handleRead, handleRequest]
  have hsession : (Slot.reading H).session = (Session.new H.dbFilename).start := rfl
  rw [hsession]
  cases completeRead H (Session.new H.dbFilename).start l.users r with
  | ok st => exact ⟨rfl, rfl⟩
  | error err => exact ⟨rfl, launch_users _ _ _⟩

end Loop

/-- The loop after a run of completions. -/
abbrev loopAfter (H : Host) (l : Loop) (cs : List Completion) : Loop := Machine.final (Loop.step H) l cs

/-- The data of session `sid` is handled when it arrives at `l`, with the reply and the effect its
    request has on the table as it stands. -/
def Served (H : Host) (l : Loop) (sid : ℕ) (r : Request) : Prop :=
  (Loop.step H l (.read sid r)).2 = some (handleRequest H l.users r).2 ∧
    (Loop.step H l (.read sid r)).1.users = (handleRequest H l.users r).1

namespace Loop

theorem gone_unserved {l : Loop} {sid : ℕ} (hs : l.slots sid = none) (r : Request) : ¬ Served H l sid r := by
  rintro ⟨hout, -⟩
  simp [step, hs] at hout

/-- A completed accept opens its session. -/
theorem accept_opens {l : Loop} (h : l.Inv H) {server sid : ℕ} (hl : l.accepts.lookup server = some sid) :
    (step H l (.accept server false)).1.slots sid = some (Slot.reading H) := by
  have hslot : l.slots sid = some (Slot.waiting H) := h.waits _ (mem_of_lookup hl)
  have hne : sid ≠ l.next := Nat.ne_of_lt (h.used _ _ hslot)
  simp only [step, hl, handleAccept, Bool.false_eq_true, if_false, start, hslot, startAccept]
  rw [Function.update_of_ne hne, Function.update_self]
  rfl

/-- From an open session on: it is served exactly if no handler throws before its data arrives. -/
theorem served_run {sid : ℕ} (r : Request) : ∀ {cs : List Completion} {l : Loop}, l.Inv H →
    l.slots sid = some (Slot.reading H) → (∀ r', .read sid r' ∉ cs) →
    (Served H (loopAfter H l cs) sid r ↔ ∀ ev ∈ Machine.trace (step H) l cs, ¬ TakesDown ev.pre ev.input)
  | [], l, _, hs, _ => by
    refine iff_of_true (read_served hs r) ?_
    simp [Machine.trace]
  | c :: cs, l, h, hs, hcs => by
    rw [Machine.trace, List.forall_mem_cons]
    by_cases hdown : TakesDown l c
    · have hgone : sid < (loopAfter H (step H l c).1 cs).next ∧ (loopAfter H (step H l c).1 cs).slots sid = none :=
        Machine.inv_final (I := fun l : Loop => sid < l.next ∧ l.slots sid = none)
          (fun _ c h => gone_step h c) cs (down_step h hdown (h.used _ _ hs))
      exact iff_of_false (gone_unserved hgone.2 r) fun hall => hall.1 hdown
    · have hrest := served_run r (inv_step h c)
        (reading_step h hs (fun r' hc => hcs r' (by simp [hc])) hdown)
        (fun r' hmem => hcs r' (List.mem_cons_of_mem _ hmem))
      exact hrest.trans ⟨fun hall => ⟨hdown, hall⟩, fun hall => hall.2⟩

end Loop

/-- Two clients connect, the first is gone when its `/init` is handled, and the second sends a
    `/check` that nobody handles. -/
theorem served_lost :
    let gone : Request := { initA with
      env := { Env.calm clientA fun _ => .digit 0 with remote := .error .notConnected } }
    let check := Request.calm clientB (ascii "/check 1 a") (by decide)
    let l := loopAfter Host.small (Loop.launch Host.small 1 Users.empty 0) [.accept 0 false]
    l.accepts.lookup 0 = some 1 ∧
      ¬ Served Host.small (loopAfter Host.small l [.accept 0 false, .read 0 gone]) 1 check := by
  refine ⟨by decide +kernel, fun h => ?_⟩
  have hnone := congrArg Option.isNone h.1
  revert hnone
  decide +kernel

/-- Fault isolation: in every run of the loop, a session opened by an accept is served when its data
    arrives exactly if no handler that ran in between threw. -/
theorem served_iff (H : Host) (servers : ℕ) (u : Users) (before after : List Completion) (server : ℕ) {sid : ℕ}
    (r : Request) (hopen : (loopAfter H (Loop.launch H servers u 0) before).accepts.lookup server = some sid)
    (hafter : ∀ r', .read sid r' ∉ after) :
    Served H (loopAfter H (Loop.launch H servers u 0) (before ++ .accept server false :: after)) sid r ↔
      ∀ ev ∈ Machine.trace (Loop.step H)
        (loopAfter H (Loop.launch H servers u 0) (before ++ [.accept server false])) after,
        ¬ TakesDown ev.pre ev.input := by
  have hinv : (loopAfter H (Loop.launch H servers u 0) before).Inv H :=
    Machine.inv_final (I := Loop.Inv H) (fun _ c h => Loop.inv_step h c) before (Loop.inv_launch servers u 0)
  have hrun := Loop.served_run r (Loop.inv_step hinv (.accept server false)) (Loop.accept_opens hinv hopen) hafter
  rw [loopAfter, loopAfter, Machine.final_append, Machine.final_concat]
  exact hrun

/-- Two clients connect, the first is gone when its `/check` is answered, an accept fails, and the
    second is served. -/
theorem served_beside_failure :
    let gone : Request := { Request.calm clientA (ascii "/check 1 a") (by decide) with
      env := { Env.calm clientA fun _ => .digit 0 with remote := .error .notConnected, writes := fun _ => false } }
    Served Host.small
      (loopAfter Host.small (Loop.launch Host.small 1 Users.empty 0)
        ([.accept 0 false] ++ .accept 0 false :: [.read 0 gone, .accept 0 true]))
      1 (Request.calm clientB (ascii "/check 1 a") (by decide)) := by
  intro gone
  have hcommand : gone.command = .check (ascii "1") (ascii "a") := by rfl
  refine (served_iff Host.small 1 Users.empty [.accept 0 false] [.read 0 gone, .accept 0 true] 0 _
    (by decide +kernel) (by simp)).mpr fun ev hev => ?_
  rw [Machine.trace, Machine.trace, Machine.trace, List.mem_cons, List.mem_singleton] at hev
  rintro ⟨sid, r, slot, hread, -, -, -, hthrows⟩
  obtain rfl | rfl := hev
  · cases hread
    obtain hinit | ⟨s, hs⟩ := hthrows
    · cases hcommand.symm.trans hinit
    · rw [hcommand] at hs
      cases hs
  · cases hread

end

end MarkMe
