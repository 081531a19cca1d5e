import MarkMe.Answers
import MarkMe.Framing
import MarkMe.Service

/-! The service when anything may fail.

    An open, a statement or a write that fails cuts a request short. The table then stands for the
    registry at one of the stages of the command, and what is sent is what the service answers there,
    except that a database that cannot be opened turns any question down. Only an `/init` that inserts
    a row without having seen the one there is makes a table that stands for no registry.

        /init             g ──▶ enrolled ──▶ renewed      answered at the last stage
        /store_and_get    g ──▶ settled                   answered at the stage it came to -/

namespace MarkMe
open Text Session

/-- How far a command may come with the registry. -/
inductive Stage (H : Host) (g : Clients) (a : Address) : Ask Bytes Coordinates → Clients → Prop
  | enrolled {pass : Bytes} : Stage H g a (.init pass) (g.enroll a)
  | renewed {pass : Bytes} : Stage H g a (.init pass) (Service.renew H.hash a pass (g.enroll a))
  | settled {c : Coordinates} {friend : Option (ℕ × Bytes)} :
      Stage H g a (.storeAndGet (some c) friend) (Service.settle a c g)

/-- What may be sent when the registry is `g`. A question is turned down without a look at the registry
    only if the database could not be opened for it. -/
inductive Tells (H : Host) (e : Env) (g : Clients) : Ask Bytes Coordinates → Bytes → Prop
  | welcome {v : ℕ} {pass : Bytes} : Service.opens H.hash g v pass = true →
      Tells H e g (.init pass) (Answer.welcome v pass).print
  | verdict {v : ℕ} {pass : Bytes} :
      Tells H e g (.check v pass) (if Service.opens H.hash g v pass then Answer.ok else .wrong).print
  | turnedAway {v : ℕ} {pass : Bytes} : e.opens 0 ≠ .ok → Tells H e g (.check v pass) Answer.wrong.print
  | seen {v : ℕ} {pass : Bytes} : Tells H e g (.get v pass) (Service.reveal H.hash g v pass).print
  | unseen {v : ℕ} {pass : Bytes} : e.opens 0 ≠ .ok → Tells H e g (.get v pass) Answer.denied.print
  | seenToo {c : Option Coordinates} {v : ℕ} {pass : Bytes} :
      Tells H e g (.storeAndGet c (some (v, pass))) (Service.reveal H.hash g v pass).print
  | unseenToo {c : Option Coordinates} {v : ℕ} {pass : Bytes} : e.opens (if c.isSome then 1 else 0) ≠ .ok →
      Tells H e g (.storeAndGet c (some (v, pass))) Answer.denied.print

/-- A request takes the registry from `g` to `g'` and sends `sent`. -/
structure Serves (H : Host) (r : Request) (sent : List Sent) (g g' : Clients) : Prop where
  stage : g' = g ∨ ∃ a, r.env.remote = .ok a ∧ Stage H g a r.ask g'
  tells : ∀ s ∈ sent, Tells H r.env g' r.ask s.data

theorem opens_renew (H : Host) {g : Clients} {a : Address} {v : ℕ} (hv : g.member v = some a) (pass : Bytes) :
    Service.opens H.hash (Service.renew H.hash a pass g) v pass = true := by
  rw [Service.opens, Service.renew, Registry.member_amend, hv, Option.any_some,
    Registry.record_amend (Registry.member_mem hv)]
  exact beq_self_eq_true _

namespace Spec
variable {H : Host} {e : Env} {a : State} {u : Users} {g : Clients} {ip : Address}

theorem commit_stage (h : Represents a.users g) {v : ℕ} (hv : g.member v = some ip) :
    (Represents (commitPassword H e v a).users g ∧ (commitPassword H e v a).sent = a.sent) ∨
      Represents (commitPassword H e v a).users (Service.renew H.hash ip (password e) g) ∧
        ∃ ok, (commitPassword H e v a).sent = a.sent ++ [⟨(Answer.welcome v (password e)).print, ok⟩] := by
  rw [commitPassword]
  rcases run_cases (e := e) (.updatePassword (hashText H (password e)) (toDec v)) a with ⟨u, hu, -, heq⟩ | heq
  · rw [heq]
    cases hu
    rw [decVal_toDec]
    exact Or.inr ⟨h.renew H hv _, _, rfl⟩
  · rw [heq]
    exact Or.inl ⟨h, rfl⟩

/-- What a commit to the registry `g₁` comes to, once `ip` is its member. -/
theorem commit_keeps {g₁ : Clients} (h : Represents a.users g₁) (hsent : a.sent = [])
    (hg₁ : g₁ = g ∨ g₁ = g.enroll ip) {v : ℕ} (hv : g₁.number ip = some v) :
    ∃ g', Represents (commitPassword H e v a).users g' ∧ (g' = g ∨ Stage H g ip (.init (password e)) g') ∧
      ∀ s ∈ (commitPassword H e v a).sent, Tells H e g' (.init (password e)) s.data := by
  have hmember := Registry.number_eq_some.mp hv
  have henroll : g₁ = g.enroll ip := by
    rcases hg₁ with rfl | rfl
    · exact (Registry.enroll_mem (Registry.member_mem hmember)).symm
    · rfl
  rcases commit_stage (H := H) (e := e) h hmember with ⟨hrep, hnone⟩ | ⟨hrep, ok, hone⟩
  · refine ⟨g₁, hrep, Or.inr (henroll ▸ .enrolled), fun s hs => ?_⟩
    rw [hnone, hsent] at hs
    cases hs
  · refine ⟨_, hrep, Or.inr (henroll ▸ .renewed), fun s hs => ?_⟩
    rw [hone, hsent, List.nil_append, List.mem_singleton] at hs
    rw [hs]
    exact .welcome (opens_renew H hmember _)

/-- After a lookup without a result, and with or without the insertion, the table stands for a registry. -/
theorem insert_keeps (h : Represents u g) (hnew : Inserts e ip.to_string u → ip ∉ g.members)
    (hopen : (start u).connects e = true) (hlook : (start u).opened.lookup e ip.to_string = none) :
    ∃ g₁, (g₁ = g ∨ g₁ = g.enroll ip) ∧
      Represents (((start u).opened.run e (.selectIdByIp ip.to_string)).run e (.insertIp ip.to_string)).users g₁ := by
  rcases run_cases (e := e) (.insertIp ip.to_string) ((start u).opened.run e (.selectIdByIp ip.to_string)) with
    ⟨u', hu', hstmt, heq⟩ | heq
  · obtain ⟨done, hlog⟩ := run_log (e := e) (.selectIdByIp ip.to_string) (start u).opened
    rw [hlog] at hstmt
    rw [lookup_users] at hu'
    have hroom : u.seq < maxRowid := by
      by_contra hfull
      have hfull : ¬ (start u).opened.users.seq < maxRowid := hfull
      rw [Query.effect, Users.addIp, dif_neg hfull] at hu'
      cases hu'
    have hfresh := hnew ⟨(start_connects u).mp hopen, (start_lookup _ u).mp hlook, hstmt, hroom⟩
    obtain ⟨u'', hadd, hrep⟩ := h.enroll hfresh (h.seq ▸ hroom)
    cases hadd.symm.trans hu'
    rw [heq]
    exact ⟨_, Or.inr rfl, hrep⟩
  · rw [heq]
    exact ⟨g, Or.inl rfl, by rw [lookup_users]; exact h⟩

/-- An `/init` that inserts only clients without a row. -/
theorem init_stage (h : Represents u g) (hnew : Inserts e ip.to_string u → ip ∉ g.members) :
    ∃ g', Represents (initUser H e ip.to_string (start u)).users g' ∧
      (g' = g ∨ Stage H g ip (.init (password e)) g') ∧
      ∀ s ∈ (initUser H e ip.to_string (start u)).sent, Tells H e g' (.init (password e)) s.data := by
  rw [initUser]
  split
  · rename_i hopen
    dsimp only
    cases hlook : (start u).opened.lookup e ip.to_string with
    | some v =>
      have hrep : Represents ((start u).opened.run e (.selectIdByIp ip.to_string)).users g := by
        rw [lookup_users]
        exact h
      exact commit_keeps hrep (run_sent _ _) (Or.inl rfl) ((h.lastAt ip).symm.trans (lookup_lastAt hlook))
    | none =>
      obtain ⟨g₁, hg₁, hrep⟩ := insert_keeps h hnew hopen hlook
      have hsent : (((start u).opened.run e (.selectIdByIp ip.to_string)).run e (.insertIp ip.to_string)).sent = [] := by
        rw [run_sent, run_sent]
        rfl
      generalize ((start u).opened.run e (.selectIdByIp ip.to_string)).run e (.insertIp ip.to_string) = b at hrep hsent ⊢
      cases hlook' : b.lookup e ip.to_string with
      | some v =>
        refine commit_keeps ?_ ((run_sent _ _).trans hsent) hg₁ ((hrep.lastAt ip).symm.trans (lookup_lastAt hlook'))
        rw [lookup_users]
        exact hrep
      | none =>
        dsimp only
        rw [lookup_users, run_sent, hsent]
        refine ⟨g₁, hrep, ?_, by simp⟩
        rcases hg₁ with rfl | rfl
        · exact Or.inl rfl
        · exact Or.inr .enrolled
  · exact ⟨g, h, Or.inl rfl, by simp [start, State.opened]⟩

/-- What a coordinates query sends is true, or a denial without a database. -/
theorem get_tells (h : Represents a.users g) (id pass : Bytes) : ∀ s ∈ (getFriendCoordinates H e id pass a).sent,
    s ∈ a.sent ∨ s.data = (Service.reveal H.hash g (decVal id) pass).print ∨
      e.opens a.opens ≠ .ok ∧ s.data = Answer.denied.print := by
  intro s hs
  rcases get_answers id pass a s hs with hs | ⟨hcred, hdata⟩ | ⟨hopen | hcred, hdata⟩
  · exact Or.inl hs
  · refine Or.inr (Or.inl ?_)
    rw [hdata, ← get_represents h id pass, getReply, if_pos hcred]
    rfl
  · exact Or.inr (Or.inr ⟨hopen, hdata⟩)
  · refine Or.inr (Or.inl ?_)
    rw [hdata, ← get_represents h id pass, getReply, if_neg (Bool.not_eq_true _ ▸ hcred)]

theorem check_tells (h : Represents a.users g) (id pass : Bytes) :
    ∀ s ∈ (checkFriendIdAndPassword H e id pass a).sent, s ∈ a.sent ∨
      s.data = (if Service.opens H.hash g (decVal id) pass then Answer.ok else .wrong).print ∨
      e.opens a.opens ≠ .ok ∧ s.data = Answer.wrong.print := by
  intro s hs
  rcases check_answers id pass a s hs with hs | ⟨hcred, hdata⟩ | ⟨hopen | hcred, hdata⟩
  · exact Or.inl hs
  · refine Or.inr (Or.inl ?_)
    rw [hdata, ← h.credential H, if_pos hcred]
    rfl
  · exact Or.inr (Or.inr ⟨hopen, hdata⟩)
  · refine Or.inr (Or.inl ?_)
    rw [hdata, ← h.credential H, if_neg (Bool.not_eq_true _ ▸ hcred)]
    rfl

theorem check_users (id pass : Bytes) (a : State) : (checkFriendIdAndPassword H e id pass a).users = a.users := by
  rw [checkFriendIdAndPassword, authenticate_verdict]
  cases a.scene.verdict H e id pass <;> exact asked_users a

/-- The store half settles the client or leaves things as they are. -/
theorem store_stage (e : Env) (ip : Address) (h : Represents u g) (c : Coordinates) :
    ∃ g', Represents (storeCoordinates e c.1 ip.to_string (start u)).users g' ∧
      (g' = g ∨ g' = Service.settle ip c g) ∧ (storeCoordinates e c.1 ip.to_string (start u)).sent = [] := by
  rw [storeCoordinates]
  split
  · rcases run_cases (e := e) (.updateCoordinates c.1 ip.to_string) (start u).opened with ⟨u', hu', -, heq⟩ | heq
    · rw [heq]
      cases hu'
      exact ⟨_, h.settle ip c, Or.inr rfl, rfl⟩
    · rw [heq]
      exact ⟨g, h, Or.inl rfl, rfl⟩
  · exact ⟨g, h, Or.inl rfl, rfl⟩

/-- The same for the part in front of the answer, in a request that does not throw. -/
theorem storeHalf_stage (h : Represents u g) {coordinates : Option Bytes} {friend : Option (Bytes × Bytes)}
    (hc : (Command.storeAndGet coordinates friend).Valid) {b : State}
    (hb : storeHalf e coordinates (start u) = .ok b) :
    ∃ g', Represents b.users g' ∧
      (g' = g ∨ ∃ a, e.remote = .ok a ∧ Stage H g a ((Command.storeAndGet coordinates friend).ask (password e) hc) g') ∧
      b.sent = [] := by
  cases coordinates with
  | none =>
    cases hb
    exact ⟨g, h, Or.inl rfl, rfl⟩
  | some c =>
    rw [storeHalf] at hb
    cases hip : e.remote with
    | error err =>
      rw [hip] at hb
      cases hb
    | ok ip =>
      rw [hip] at hb
      cases hb
      obtain ⟨g', hrep, hg', hnone⟩ := store_stage e ip h ⟨c, hc.coordinates c rfl⟩
      refine ⟨g', hrep, hg'.imp_right fun heq => ⟨ip, rfl, ?_⟩, hnone⟩
      rw [heq]
      exact .settled

/-- A command that does not insert a client twice takes the registry through its stages. -/
theorem handle_stage (h : Represents u g) {c : Command} (hc : c.Valid)
    (hnew : c = .init → ∀ ip : Address, e.remote = .ok ip → Inserts e ip.to_string u → ip ∉ g.members) {b : State}
    (hb : handle H e c (start u) = .ok b) :
    ∃ g', Represents b.users g' ∧
      (g' = g ∨ ∃ a, e.remote = .ok a ∧ Stage H g a (c.ask (password e) hc) g') ∧
      ∀ s ∈ b.sent, Tells H e g' (c.ask (password e) hc) s.data := by
  cases c with
  | nothing =>
    cases hb
    exact ⟨g, h, Or.inl rfl, by simp [start]⟩
  | init =>
    rw [handle] at hb
    cases hip : e.remote with
    | error err =>
      rw [hip] at hb
      cases hb
    | ok ip =>
      rw [hip] at hb
      cases hb
      obtain ⟨g', hrep, hstage, htells⟩ := init_stage (H := H) h (hnew rfl ip hip)
      exact ⟨g', hrep, hstage.imp_right fun hs => ⟨ip, rfl, hs⟩, htells⟩
  | get id pass =>
    cases hb
    refine ⟨g, by rw [get_users]; exact h, Or.inl rfl, fun s hs => ?_⟩
    rcases get_tells (a := start u) h id pass s hs with hs | hs | ⟨hopen, hs⟩
    · cases hs
    · rw [hs]
      exact .seen
    · rw [hs]
      exact .unseen hopen
  | check id pass =>
    cases hb
    refine ⟨g, by rw [check_users]; exact h, Or.inl rfl, fun s hs => ?_⟩
    rcases check_tells (a := start u) h id pass s hs with hs | hs | ⟨hopen, hs⟩
    · cases hs
    · rw [hs]
      exact .verdict
    · rw [hs]
      exact .turnedAway hopen
  | storeAndGet coordinates friend =>
    rw [handle] at hb
    cases hhalf : storeHalf e coordinates (start u) with
    | error err =>
      rw [hhalf] at hb
      cases hb
    | ok b' =>
    obtain ⟨g', hrep, hstage, hnone⟩ := storeHalf_stage (H := H) h hc hhalf
    rw [hhalf] at hb
    cases hb
    cases friend with
    | none =>
      refine ⟨g', hrep, hstage, ?_⟩
      simp [getHalf, hnone]
    | some f =>
      refine ⟨g', by rw [getHalf, get_users]; exact hrep, hstage, fun s hs => ?_⟩
      have htells := get_tells (H := H) (e := e) hrep f.1 f.2 s hs
      rw [hnone] at htells
      rcases htells with hs | hs | ⟨hopen, hs⟩
      · cases hs
      · rw [hs]
        cases coordinates <;> exact .seenToo
      · rw [hs]
        rw [storeHalf_opens (some f) hhalf] at hopen
        cases coordinates <;> exact .unseenToo hopen

end Spec

section
variable {H : Host} {u : Users} {g : Clients}

/-- A registry has every address once. -/
theorem Represents.nodup (h : Represents u g) : u.addresses.Nodup := by
  rw [Users.addresses, List.nodup_iff_pairwise_ne, List.pairwise_filterMap]
  refine u.sorted.imp_of_mem fun {r r'} hr hr' hlt b hb b' hb' heq => ?_
  have hmember : ∀ {r : User}, r ∈ u.rows → ∃ a, g.member r.id = some a ∧ r.ip = some a.to_string := by
    intro r hr
    have hrow := h.find r.id
    rw [Users.find_some.mpr ⟨hr, rfl⟩, eq_comm, Option.map_eq_some_iff] at hrow
    obtain ⟨a, ha, hrow⟩ := hrow
    exact ⟨a, ha, by rw [← hrow]; rfl⟩
  obtain ⟨a, ha, hip⟩ := hmember hr
  obtain ⟨a', ha', hip'⟩ := hmember hr'
  cases hb.symm.trans hip
  cases hb'.symm.trans hip'
  obtain rfl : a = a' := Address.ext heq
  exact absurd (Registry.member_inj ha ha') (Nat.ne_of_lt hlt)

theorem mem_addresses (h : Represents u g) {a : Address} (ha : a ∈ g.members) : a.to_string ∈ u.addresses := by
  by_contra hno
  have hlast := lastAt_none_iff.mpr hno
  rw [h.lastAt, Registry.number_eq_none] at hlast
  exact hlast ha

/-- A request that is not blind serves the registry. -/
theorem request_serves (h : Represents u g) {r : Request} (hblind : ¬ Blind u r) :
    ∃ g', Represents (handleRequest H u r).1 g' ∧ Serves H r (handleRequest H u r).2.sent g g' := by
  have hnew : r.command = .init → ∀ ip : Address, r.env.remote = .ok ip → Inserts r.env ip.to_string u →
      ip ∉ g.members := by
    rintro hinit ip hip ⟨hopen, hlost, hstmt, hroom⟩ hmem
    have haddr := mem_addresses h hmem
    exact hblind ⟨header_init.mp hinit, ip, hip, hopen, hlost.resolve_right fun hno => hno haddr, hstmt, hroom, haddr⟩
  cases hreq : Spec.request H u r with
  | ok b =>
    obtain ⟨husers, -, hsent⟩ := request_done hreq
    obtain ⟨g', hrep, hstage, htells⟩ := Spec.handle_stage h (command_valid r.message) hnew hreq
    rw [husers, hsent]
    exact ⟨g', hrep, hstage, htells⟩
  | error err =>
    obtain ⟨husers, -, hsent⟩ := request_threw hreq
    rw [husers, hsent]
    exact ⟨g, h, Or.inl rfl, by simp⟩

end

/-- Whatever fails, the table stands for a registry all along a run, every request takes the registry through a
    stage of its command and tells the truth about it or turns the question down, exactly if no `/init` of the run
    is blind. -/
theorem service_kept_iff (H : Host) (reqs : List Request) :
    (∀ ev ∈ historyOf H reqs, ∃ g g', Represents ev.pre g ∧ Represents ev.post g' ∧
      Serves H ev.input ev.out.sent g g') ↔ ∀ ev ∈ historyOf H reqs, ¬ Blind ev.pre ev.input := by
  constructor
  · intro h ev hev hblind
    obtain ⟨g, g', hpre, hpost, -⟩ := h ev hev
    obtain ⟨before, r, after, -, rfl⟩ := Machine.exists_of_mem_trace hev
    exact (request_distinct H hpre.nodup r).mp hpost.nodup hblind
  · intro h
    have hkeep : ∀ (u : Users) (r : Request), (∃ g, Represents u g) →
        ¬ Blind (Machine.event (handleRequest H) u r).pre (Machine.event (handleRequest H) u r).input →
        ∃ g, Represents (handleRequest H u r).1 g := by
      rintro u r ⟨g, hg⟩ hblind
      obtain ⟨g', hg', -⟩ := request_serves (H := H) hg hblind
      exact ⟨g', hg'⟩
    intro ev hev
    obtain ⟨before, r, after, hreqs, rfl⟩ := Machine.exists_of_mem_trace hev
    obtain ⟨g, hg⟩ : ∃ g, Represents (tableAfter H before) g :=
      Machine.inv_of_guard hkeep ⟨_, represents_empty⟩ fun ev hev => h ev (by
        rw [hreqs, historyOf, Machine.trace_append]
        exact List.mem_append_left _ hev)
    obtain ⟨g', hg', hserves⟩ := request_serves (H := H) hg (h _ hev)
    exact ⟨g, g', hg, hg', hserves⟩

end MarkMe
