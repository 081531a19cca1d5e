import MarkMe.Service

/-! Clients that do not get in each other's way.

    What a client does concerns its own account, and what it is told concerns the account it asks
    about. So two neighbouring requests of different clients can pass each other unless one asks about
    the number of the other, or both are new. Runs that come from each other in this way end with the
    same table, and every client has been told the same.

        A: /store_and_get 1.0 2.0 3 abc    B: /check 7 xyz       the same table,
        B: /check 7 xyz    A: /store_and_get 1.0 2.0 3 abc       the same replies -/

namespace MarkMe
open Text Session

/-- The number a client asks about. -/
def Ask.about {σ π : Type*} : Ask σ π → Option ℕ
  | .nothing => none
  | .init _ => none
  | .get v _ => some v
  | .check v _ => some v
  | .storeAndGet _ friend => friend.map Prod.fst

def Ask.Enrols {σ π : Type*} (a : Ask σ π) : Prop := ∃ secret, a = .init secret

namespace Service
variable {κ σ δ π : Type*} [DecidableEq κ] {hash : σ → δ} {capacity : ℕ} {g g' : State κ δ π} {k j : κ}

theorem near_renew (h : Registry.Near k g g') (secret : σ) : Registry.Near k g (renew hash k secret g') := h.amend _

theorem near_settle (h : Registry.Near k g g') (p : π) : Registry.Near k g (settle k p g') := h.amend _

theorem init_new {secret : σ} (hk : k ∉ g.members) (hroom : g.members.length < capacity) :
    init hash capacity k secret g = (renew hash k secret (g.enroll k), some (.welcome (g.members.length + 1) secret)) := by
  rw [init, Registry.number_eq_none.mpr hk]
  exact if_pos hroom

theorem init_full {secret : σ} (hk : k ∉ g.members) (hfull : ¬ g.members.length < capacity) :
    init hash capacity k secret g = (g, none) := by
  rw [init, Registry.number_eq_none.mpr hk]
  exact if_neg hfull

theorem init_member {secret : σ} {v : ℕ} (hv : g.number k = some v) :
    init hash capacity k secret g = (renew hash k secret g, some (.welcome v secret)) := by
  rw [init, hv]

theorem renew_amend (hne : j ≠ k) (g : State κ δ π) (f : Account δ π → Account δ π) (secret : σ) :
    renew hash j secret (g.amend k f) = (renew hash j secret g).amend k f :=
  Registry.amend_comm hne g f _

/-- An `/init` passes an amendment of another account. -/
theorem init_amend (hne : j ≠ k) (g : State κ δ π) (f : Account δ π → Account δ π) (secret : σ) :
    (init hash capacity j secret (g.amend k f)).1 = (init hash capacity j secret g).1.amend k f := by
  by_cases hj : j ∈ g.members
  · obtain ⟨v, hv⟩ := Registry.exists_number hj
    rw [init_member hv, init_member ((Registry.number_amend g k f j).trans hv)]
    exact renew_amend hne g f secret
  · have hj' : j ∉ (g.amend k f).members := by rwa [Registry.members_amend]
    by_cases hroom : g.members.length < capacity
    · rw [init_new hj hroom, init_new hj' (by rwa [Registry.members_amend]), Registry.enroll_amend hne.symm]
      exact renew_amend hne _ f secret
    · rw [init_full hj hroom, init_full hj' (by rwa [Registry.members_amend])]

variable [DecidableEq δ]

/-- Two clients that do not get in each other's way in `g`. -/
structure Apart (hash : σ → δ) (capacity : ℕ) (g : State κ δ π) (x y : κ × Ask σ π) : Prop where
  clients : x.1 ≠ y.1
  left : ∀ v ∈ x.2.about, (step hash capacity g y).1.member v ≠ some y.1
  right : ∀ v ∈ y.2.about, (step hash capacity g x).1.member v ≠ some x.1
  known : x.2.Enrols → y.2.Enrols → x.1 ∈ g.members ∨ y.1 ∈ g.members

theorem Apart.symm {x y : κ × Ask σ π} (h : Apart hash capacity g x y) : Apart hash capacity g y x :=
  ⟨h.clients.symm, h.right, h.left, fun hy hx => (h.known hx hy).symm⟩

/-- A step concerns the account of its client. -/
theorem step_near (hash : σ → δ) (capacity : ℕ) (g : State κ δ π) (k : κ) (a : Ask σ π) :
    Registry.Near k g (step hash capacity g (k, a)).1 := by
  have hself := Registry.near_refl k g
  cases a with
  | init secret =>
    rw [step]
    by_cases hk : k ∈ g.members
    · obtain ⟨v, hv⟩ := Registry.exists_number hk
      rw [init_member hv]
      exact near_renew hself secret
    · by_cases hroom : g.members.length < capacity
      · rw [init_new hk hroom]
        exact near_renew (Registry.near_enroll k g) secret
      · rw [init_full hk hroom]
        exact hself
  | storeAndGet place friend =>
    cases place with
    | none => exact hself
    | some p => exact near_settle hself p
  | _ => exact hself

/-- And it enrols its client or nobody. -/
theorem step_members (hash : σ → δ) (capacity : ℕ) (g : State κ δ π) (k : κ) (a : Ask σ π)
    (h : a.Enrols → k ∈ g.members) : (step hash capacity g (k, a)).1.members = g.members := by
  cases a with
  | init secret =>
    obtain ⟨v, hv⟩ := Registry.exists_number (h ⟨secret, rfl⟩)
    rw [step, init_member hv, renew, Registry.members_amend]
  | storeAndGet place friend =>
    cases place with
    | none => rfl
    | some p => rw [step, Option.elim, settle, Registry.members_amend]
  | _ => rfl

omit [DecidableEq κ] in
theorem opens_near (h : Registry.Near j g g') {v : ℕ} (hv : g'.member v ≠ some j) (secret : σ) :
    opens hash g' v secret = opens hash g v secret := by
  rw [opens, opens, h.member_eq hv]
  cases hm : g.member v with
  | none => rfl
  | some i =>
    have hi : i ≠ j := fun heq => hv (by rw [h.member_eq hv, hm, heq])
    rw [Option.any_some, Option.any_some, h.record i hi]

omit [DecidableEq κ] in
theorem reveal_near (h : Registry.Near j g g') {v : ℕ} (hv : g'.member v ≠ some j) (secret : σ) :
    reveal hash g' v secret = reveal hash g v secret := by
  rw [reveal, reveal, opens_near h hv, h.member_eq hv]
  cases hm : g.member v with
  | none => rfl
  | some i =>
    have hi : i ≠ j := fun heq => hv (by rw [h.member_eq hv, hm, heq])
    rw [Option.bind_some, Option.bind_some, h.record i hi]

/-- A client is told the same before and after what concerns another one. -/
theorem step_answer (h : Registry.Near j g g') (hne : k ≠ j) {a : Ask σ π} (habout : ∀ v ∈ a.about, g'.member v ≠ some j)
    (hnew : a.Enrols → k ∈ g.members ∨ g'.members = g.members) :
    (step hash capacity g' (k, a)).2 = (step hash capacity g (k, a)).2 := by
  cases a with
  | nothing => rfl
  | init secret =>
    rw [step, step]
    by_cases hk : k ∈ g.members
    · obtain ⟨v, hv⟩ := Registry.exists_number hk
      rw [init_member hv, init_member ((h.number_eq hne).trans hv)]
    · have hk' : k ∉ g'.members := mt (h.mem_iff hne).mpr hk
      have hsame : g'.members = g.members := (hnew ⟨secret, rfl⟩).resolve_left hk
      by_cases hroom : g.members.length < capacity
      · rw [init_new hk hroom, init_new hk' (by rwa [hsame]), hsame]
      · rw [init_full hk hroom, init_full hk' (by rwa [hsame])]
  | get v secret =>
    exact congrArg some (reveal_near h (habout v rfl) secret)
  | check v secret =>
    rw [step, step, opens_near h (habout v rfl) secret]
  | storeAndGet place friend =>
    cases friend with
    | none => rfl
    | some f =>
      have hv : g'.member f.1 ≠ some j := habout f.1 rfl
      cases place with
      | none => exact congrArg some (reveal_near h hv f.2)
      | some p =>
        have hsettled : Registry.Near j (settle k p g) (settle k p g') := h.amend_other hne _
        refine congrArg some (reveal_near hsettled ?_ f.2)
        rwa [settle, Registry.member_amend]

/-! ### Passing each other -/

/-- What a command does to the registry: nothing, an amendment of its client's account, or an `/init`. -/
theorem step_kinds (hash : σ → δ) (capacity : ℕ) (k : κ) (a : Ask σ π) :
    (∀ g : State κ δ π, (step hash capacity g (k, a)).1 = g) ∨
      (∃ f, ∀ g : State κ δ π, (step hash capacity g (k, a)).1 = g.amend k f) ∨
      ∃ secret, a = .init secret := by
  cases a with
  | init secret => exact Or.inr (Or.inr ⟨secret, rfl⟩)
  | storeAndGet place friend =>
    cases place with
    | none => exact Or.inl fun _ => rfl
    | some p => exact Or.inr (Or.inl ⟨fun r => { r with place := some p }, fun _ => rfl⟩)
  | _ => exact Or.inl fun _ => rfl

/-- Commands of different clients, not both new, can come in either order. -/
theorem step_comm {a b : Ask σ π} (hne : k ≠ j) (hknown : a.Enrols → b.Enrols → k ∈ g.members ∨ j ∈ g.members) :
    (step hash capacity (step hash capacity g (k, a)).1 (j, b)).1
      = (step hash capacity (step hash capacity g (j, b)).1 (k, a)).1 := by
  rcases step_kinds (δ := δ) hash capacity k a with hstill | ⟨f, hf⟩ | ⟨secret, rfl⟩
  · rw [hstill, hstill]
  · rcases step_kinds (δ := δ) hash capacity j b with hstill | ⟨f', hf'⟩ | ⟨secret, rfl⟩
    · rw [hstill, hstill]
    · rw [hf, hf', hf, hf']
      exact Registry.amend_comm hne.symm g f f'
    · rw [hf, hf]
      exact init_amend hne.symm g f secret
  · rcases step_kinds (δ := δ) hash capacity j b with hstill | ⟨f, hf⟩ | ⟨secret', rfl⟩
    · rw [hstill, hstill]
    · rw [hf, hf]
      exact (init_amend hne g f secret).symm
    · -- of two clients one is known, and its `/init` is an amendment
      have hrenews : ∀ {i : κ} {g : State κ δ π} (s : σ), i ∈ g.members →
          (init hash capacity i s g).1 = renew hash i s g := by
        intro i g s hi
        obtain ⟨v, hv⟩ := Registry.exists_number hi
        rw [init_member hv]
      rcases hknown ⟨secret, rfl⟩ ⟨secret', rfl⟩ with hk | hj
      · have hk' := ((step_near hash capacity g j (.init secret')).mem_iff hne).mp hk
        simp only [step] at hk' ⊢
        rw [hrenews secret hk, hrenews secret hk']
        exact init_amend hne.symm g _ secret'
      · have hj' := ((step_near hash capacity g k (.init secret)).mem_iff hne.symm).mp hj
        simp only [step] at hj' ⊢
        rw [hrenews secret' hj, hrenews secret' hj']
        exact (init_amend hne g _ secret).symm

/-- Clients that do not get in each other's way pass each other. -/
theorem apart_commute {x y : κ × Ask σ π} (h : Apart hash capacity g x y) :
    Machine.Commute (step hash capacity) g x y := by
  have hanswer : ∀ {x y : κ × Ask σ π}, Apart hash capacity g x y →
      (step hash capacity (step hash capacity g y).1 x).2 = (step hash capacity g x).2 := by
    intro x y h
    refine step_answer (step_near hash capacity g y.1 y.2) h.clients h.left fun hx => ?_
    by_cases hy : y.2.Enrols
    · rcases h.known hx hy with hmem | hmem
      · exact Or.inl hmem
      · exact Or.inr (step_members hash capacity g y.1 y.2 fun _ => hmem)
    · exact Or.inr (step_members hash capacity g y.1 y.2 fun hyes => absurd hyes hy)
  exact ⟨step_comm h.clients h.known, hanswer h, hanswer h.symm⟩

end Service

/-- A table stands for one registry only, and a registry for one table. -/
theorem Represents.unique {u u' : Users} {g : Clients} (h : Represents u g) (h' : Represents u' g) : u = u' := by
  have hmem : ∀ r : User, r ∈ u.rows ↔ r ∈ u'.rows := by
    have hfind : ∀ v, u.find v = u'.find v := fun v => (h.find v).trans (h'.find v).symm
    intro r
    constructor
    · intro hr
      have hr' := Users.find_some.mpr ⟨hr, rfl⟩
      rw [hfind] at hr'
      exact (Users.find_some.mp hr').1
    · intro hr
      have hr' := Users.find_some.mpr ⟨hr, rfl⟩
      rw [← hfind] at hr'
      exact (Users.find_some.mp hr').1
  have hnodup : ∀ u : Users, u.rows.Nodup := fun u => List.Nodup.of_map _ u.ids_nodup
  have hperm := (List.perm_ext_iff_of_nodup (hnodup u) (hnodup u')).mpr hmem
  refine Users.ext (hperm.eq_of_pairwise (fun r r' _ _ hlt hgt => ?_) u.sorted u'.sorted) (h.seq.trans h'.seq.symm)
  omega

/-- What the visits of a run were sent. -/
theorem visits_sent (H : Host) (vs : List Visit) : ∀ {u : Users} {g : Clients}, Represents u g →
    Represents (Machine.final (handleRequest H) u (vs.map Visit.request))
        (Machine.final (fun g v => serve H g v.asks) g vs) ∧
      (Machine.trace (handleRequest H) u (vs.map Visit.request)).map (fun ev => (ev.input, ev.out.sent))
        = ((Machine.trace (fun g v => serve H g v.asks) g vs).map fun ev => (ev.input, ev.out)).map
          fun x => (x.1.request, deliver x.2) := by
  induction vs with
  | nil => exact fun h => ⟨h, rfl⟩
  | cons v vs ih =>
    intro u g h
    obtain ⟨hstep, hsent⟩ := visit_represents (H := H) v h
    obtain ⟨hfinal, htrace⟩ := ih hstep
    refine ⟨hfinal, ?_⟩
    simp only [List.map_cons, Machine.trace]
    exact List.cons_eq_cons.mpr ⟨Prod.ext rfl hsent, htrace⟩

/-- The order of requests matters only between clients that get in each other's way: without failures, if two runs
    come from each other by letting neighbours pass that are apart, they end with the same table, and the same
    requests have been sent the same replies. -/
theorem shuffles_agree (H : Host) {vs ws : List Visit}
    (h : Machine.Shuffle (fun g (v : Visit) => serve H g v.asks)
      (fun g v w => Service.Apart H.hash maxRowid g v.asks w.asks) Registry.empty vs ws) :
    tableAfter H (ws.map Visit.request) = tableAfter H (vs.map Visit.request) ∧
      ((historyOf H (ws.map Visit.request)).map fun ev => (ev.input, ev.out.sent)).Perm
        ((historyOf H (vs.map Visit.request)).map fun ev => (ev.input, ev.out.sent)) := by
  have hcommute : ∀ g (v w : Visit), Service.Apart H.hash maxRowid g v.asks w.asks →
      Machine.Commute (fun g (v : Visit) => serve H g v.asks) g v w := by
    intro g v w hapart
    obtain ⟨hstates, hfirst, hsecond⟩ := Service.apart_commute hapart
    exact ⟨hstates, hfirst, hsecond⟩
  obtain ⟨hstate, hperm⟩ := Machine.shuffle_agrees hcommute h
  obtain ⟨hvs, hsent⟩ := visits_sent H vs represents_empty
  obtain ⟨hws, hsent'⟩ := visits_sent H ws represents_empty
  rw [hstate] at hws
  rw [historyOf, historyOf, hsent, hsent']
  exact ⟨hws.unique hvs, hperm.map _⟩

/-- A new client, and a check of somebody else. -/
theorem shuffles_agree_two :
    let a : Visit := ⟨clientA, fun _ => .digit 0, .data (ascii "/init") (by decide)⟩
    let b : Visit := ⟨clientB, fun _ => .digit 0, .data (ascii "/check 7 abc") (by decide)⟩
    tableAfter .small [b.request, a.request] = tableAfter .small [a.request, b.request] := by
  intro a b
  have hasks : a.asks.2 = .init (ascii "00000000") ∧ b.asks.2 = .check 7 (ascii "abc") := ⟨rfl, rfl⟩
  have hapart : Service.Apart Host.small.hash maxRowid Registry.empty a.asks b.asks := by
    refine ⟨by decide, fun v hv => ?_, fun v hv => ?_, fun _ hb => ?_⟩
    · rw [hasks.1] at hv
      cases hv
    · rw [hasks.2] at hv
      cases hv
      decide
    · rw [hasks.2] at hb
      obtain ⟨secret, hb⟩ := hb
      cases hb
  have hshuffle : Machine.Shuffle (fun g (v : Visit) => serve .small g v.asks)
      (fun g v w => Service.Apart Host.small.hash maxRowid g v.asks w.asks) Registry.empty [a, b] [b, a] :=
    @Machine.Shuffle.swap _ _ _ _ _ _ _ [] [] a b .refl hapart
  exact (shuffles_agree .small hshuffle).1

end MarkMe
