import MarkMe.Faults

/-! Clients that try again.

    A request that fails half-way has brought the registry to a stage of its command. To ask once more
    goes on from there, and where it ends does not depend on how far the first attempt came: who is
    enrolled is enrolled, the last secret counts and so does the last place. So a client may repeat
    a message until it gets through, and the service has seen it once.

        g ──try──▶ stage ──try──▶ stage ──message──▶ g'
        g ──────────────message────────────────────▶ g' -/

namespace MarkMe
open Text Session

/-- Attempts of one client at one message, and then the visit with which it gets through. -/
structure Trial where
  visit : Visit
  tries : List Env
  own : ∀ e ∈ tries, ∀ a, e.remote = .ok a → a = visit.address

namespace Trial

def attempts (t : Trial) : List Request := t.tries.map fun e => ⟨e, t.visit.read⟩

def requests (t : Trial) : List Request := t.attempts ++ [t.visit.request]

/-- First the client is gone, then the INSERT fails, then the reply is lost. -/
def unlucky : List Env :=
  [{ initA.env with remote := .error .notConnected },
    { initA.env with stmts := fun n => if n = 1 then some busyError else none },
    { initA.env with writes := fun _ => false }]

theorem unlucky_own : ∀ e ∈ unlucky, ∀ a, e.remote = .ok a → a = clientA := by
  simp only [unlucky, List.forall_mem_cons]
  refine ⟨fun a h => ?_, fun a h => ?_, fun a h => ?_, by simp⟩
  · cases h
  · cases h
    rfl
  · cases h
    rfl

/-- An `/init` that gets through at the fourth attempt. -/
def retried : Trial := ⟨⟨clientA, fun _ => .letter 0, initA.read⟩, unlucky, unlucky_own⟩

end Trial

namespace Service
variable {κ σ δ π : Type*} [DecidableEq κ] (hash : σ → δ)

/-- The last secret counts. -/
theorem renew_renew (k : κ) (s s' : σ) (g : State κ δ π) : renew hash k s' (renew hash k s g) = renew hash k s' g := by
  rw [renew, renew, Registry.amend_amend, renew]

theorem number_renew (k : κ) (s : σ) (g : State κ δ π) : (renew hash k s g).number k = g.number k :=
  Registry.number_amend g k _ k

theorem settle_settle (k : κ) (p p' : π) (g : State κ δ π) : settle k p' (settle k p g) = settle k p' g := by
  rw [settle, settle, Registry.amend_amend, settle]

end Service

section
variable {H : Host} {u : Users} {g g' : Clients} {a : Address}

/-- An `/init` from a registry in which the client is enrolled already. -/
theorem init_enrolled (hroom : (g.enroll a).members.length ≤ maxRowid) (pass : Bytes) :
    Service.init H.hash maxRowid a pass (g.enroll a) = Service.init H.hash maxRowid a pass g := by
  by_cases hmem : a ∈ g.members
  · rw [Registry.enroll_mem hmem]
  · have hlt : g.members.length < maxRowid := by
      rw [Registry.members_enroll hmem, List.length_append] at hroom
      exact hroom
    rw [Service.init, Registry.number_enroll hmem, Service.init, Registry.number_eq_none.mpr hmem]
    exact (if_pos hlt).symm

/-- A command asked again from one of its stages. -/
theorem stage_absorbed {fresh fresh' : Bytes} {c : Command} {h : c.Valid} (hstage : Stage H g a (c.ask fresh h) g')
    (hroom : g'.members.length ≤ maxRowid) :
    serve H g' (a, c.ask fresh' h) = serve H g (a, c.ask fresh' h) := by
  cases c with
  | init =>
    cases hstage with
    | enrolled => exact init_enrolled hroom _
    | renewed =>
      have hroom' : (g.enroll a).members.length ≤ maxRowid := by rwa [Service.renew, Registry.members_amend] at hroom
      refine Eq.trans ?_ (init_enrolled hroom' fresh')
      obtain ⟨v, hv⟩ : ∃ v, (g.enroll a).number a = some v := by
        by_cases hmem : a ∈ g.members
        · rw [Registry.enroll_mem hmem]
          exact Registry.exists_number hmem
        · exact ⟨_, Registry.number_enroll hmem⟩
      rw [Command.ask, serve, Service.step, Service.init, Service.number_renew, Service.init, hv]
      simp only [Service.renew_renew]
  | storeAndGet coordinates friend =>
    cases coordinates with
    | none => cases hstage
    | some s =>
      cases hstage
      simp only [Command.ask, serve, Service.step, Option.elim, Service.settle_settle]
  | _ => cases hstage

theorem Represents.room (h : Represents u g) : g.members.length ≤ maxRowid := h.seq ▸ u.seq_le

/-- Attempts that are not blind leave a registry from which the message is answered as it would have been. -/
theorem attempts_absorbed (v : Visit) : ∀ {es : List Env} {u : Users} {g : Clients}, Represents u g →
    (∀ e ∈ es, ∀ a, e.remote = .ok a → a = v.address) →
    (∀ ev ∈ Machine.trace (handleRequest H) u (es.map fun e => ⟨e, v.read⟩), ¬ Blind ev.pre ev.input) →
    ∃ g', Represents (Machine.final (handleRequest H) u (es.map fun e => ⟨e, v.read⟩)) g' ∧
      serve H g' v.asks = serve H g v.asks
  | [], _, g, h, _, _ => ⟨g, h, rfl⟩
  | e :: es, u, g, h, hown, hblind => by
    rw [List.forall_mem_cons] at hown
    rw [List.map_cons, Machine.trace, List.forall_mem_cons] at hblind
    obtain ⟨g₁, h₁, hserves⟩ := request_serves (H := H) h hblind.1
    obtain ⟨g', h', heq⟩ := attempts_absorbed v h₁ hown.2 hblind.2
    refine ⟨g', h', heq.trans ?_⟩
    rcases hserves.stage with rfl | ⟨a, ha, hstage⟩
    · rfl
    · obtain rfl := hown.1 a ha
      exact stage_absorbed hstage h₁.room

end

/-- What a trial comes to: the table after it, and what the last request did. -/
def handleTrial (H : Host) (u : Users) (t : Trial) : Users × Outcome :=
  handleRequest H (Machine.final (handleRequest H) u t.attempts) t.visit.request

/-- Trials in a row are their requests in a row. -/
theorem trials_final (H : Host) : ∀ (ts : List Trial) (u : Users),
    Machine.final (handleTrial H) u ts = Machine.final (handleRequest H) u (ts.flatMap Trial.requests)
  | [], _ => rfl
  | t :: ts, u => by
    rw [Machine.final, trials_final H ts, List.flatMap_cons, Trial.requests, Machine.final_append, Machine.final_concat]
    rfl

theorem trial_absorbed {H : Host} : ∀ {ts : List Trial} {u : Users} {g : Clients}, Represents u g →
    (∀ ev ∈ Machine.trace (handleRequest H) u (ts.flatMap Trial.requests), ¬ Blind ev.pre ev.input) →
    Represents (Machine.final (handleTrial H) u ts) (Machine.final (serve H) g (ts.map fun t => t.visit.asks)) ∧
      (Machine.trace (handleTrial H) u ts).map (fun ev => ev.out.sent)
        = (Machine.trace (serve H) g (ts.map fun t => t.visit.asks)).map (fun ev => deliver ev.out)
  | [], _, _, h, _ => ⟨h, rfl⟩
  | t :: ts, u, g, h, hblind => by
    rw [List.flatMap_cons, Machine.trace_append, Trial.requests, Machine.trace_append] at hblind
    simp only [List.mem_append, or_imp, forall_and] at hblind
    obtain ⟨g₁, h₁, heq⟩ := attempts_absorbed t.visit h t.own hblind.1.1
    obtain ⟨h₂, hsent⟩ := visit_represents (H := H) t.visit h₁
    rw [heq] at h₂ hsent
    rw [Machine.final_append] at hblind
    obtain ⟨hfinal, htrace⟩ := trial_absorbed h₂ hblind.2
    refine ⟨hfinal, ?_⟩
    rw [Machine.trace, List.map_cons, List.map_cons, Machine.trace, List.map_cons]
    exact List.cons_eq_cons.mpr ⟨hsent, htrace⟩

/-- Addresses are never given up. -/
theorem addresses_grow (H : Host) (u : Users) (r : Request) : u.addresses <+: (handleRequest H u r).1.addresses := by
  rcases request_addresses H u r with ⟨heq, -⟩ | ⟨ip, -, -, -, heq⟩
  · rw [heq]
  · rw [heq]
    exact List.prefix_append _ _

/-- So a blind `/init` shows at the end of the run. -/
theorem never_blind {H : Host} {reqs : List Request} (h : (tableAfter H reqs).addresses.Nodup) :
    ∀ ev ∈ historyOf H reqs, ¬ Blind ev.pre ev.input := by
  intro ev hev
  obtain ⟨before, r, after, rfl, rfl⟩ := Machine.exists_of_mem_trace hev
  have hlater : (handleRequest H (tableAfter H before) r).1.addresses
      <+: (Machine.final (handleRequest H) (handleRequest H (tableAfter H before) r).1 after).addresses :=
    Machine.inv_final (I := fun u => (handleRequest H (tableAfter H before) r).1.addresses <+: u.addresses)
      (fun u r hu => hu.trans (addresses_grow H u r)) after (List.prefix_refl _)
  rw [tableAfter, Machine.final_append, Machine.final] at h
  have hpost := h.sublist hlater.sublist
  exact (request_distinct H (hpost.sublist (addresses_grow H _ r).sublist) r).mp hpost

/-- At-least-once delivery counts once: after any trials of any clients, each with any attempts before the message
    gets through and any failures in them, table and replies are those of the service to which every message was
    sent once, exactly if no attempt is a blind `/init`. -/
theorem retries_absorbed_iff (H : Host) (ts : List Trial) :
    (Represents (tableAfter H (ts.flatMap Trial.requests))
        (Machine.final (serve H) Registry.empty (ts.map fun t => t.visit.asks)) ∧
      (Machine.trace (handleTrial H) Users.empty ts).map (fun ev => ev.out.sent)
        = (Machine.trace (serve H) Registry.empty (ts.map fun t => t.visit.asks)).map (fun ev => deliver ev.out)) ↔
    ∀ ev ∈ historyOf H (ts.flatMap Trial.requests), ¬ Blind ev.pre ev.input := by
  refine ⟨fun h => never_blind h.1.nodup, fun hblind => ?_⟩
  rw [tableAfter, ← trials_final]
  exact trial_absorbed represents_empty hblind

example : (historyOf Host.small Trial.retried.requests).map (fun ev => ev.out.sent) =
    [[], [], [⟨ascii "1 00000000", false⟩], [⟨ascii "1 aaaaaaaa", true⟩]] := by decide +kernel

end MarkMe
