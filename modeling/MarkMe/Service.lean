import MarkMe.Lib.Registry
import MarkMe.Program
import MarkMe.Storage

/-! The service behind the table.

    What the server is for can be said without SQL: clients are enrolled once and keep their number,
    the latest secret of a number opens the place its client has last stored, and nothing else does.
    `Service.step` says it over any keys, secrets, digests and places. A table stands for such a
    registry if the row of every number is that of the member, and requests without failures keep it
    so and answer as the service does.

        registry ──Service.step──▶ registry'    reply
           │ Represents               │           │ print
         table ────request──────────▶ table'    bytes sent -/

namespace MarkMe
open Text Session

/-! ### The service -/

/-- What is kept of a client: the digest of its latest secret, and where it was last. -/
structure Account (δ π : Type*) where
  digest : Option δ
  place : Option π

instance {δ π : Type*} : Inhabited (Account δ π) := ⟨⟨none, none⟩⟩

/-- What a client wants; the secret of an `init` is the one it is to be given. -/
inductive Ask (σ π : Type*) where
  | nothing
  | init (secret : σ)
  | get (v : ℕ) (secret : σ)
  | check (v : ℕ) (secret : σ)
  | storeAndGet (place : Option π) (friend : Option (ℕ × σ))

inductive Answer (σ π : Type*) where
  | welcome (v : ℕ) (secret : σ)
  | ok
  | wrong
  /-- `err 1`. -/
  | denied
  /-- `err 2`. -/
  | nowhere
  | place (p : π)

namespace Service
variable {κ σ δ π : Type*} [DecidableEq κ] [DecidableEq δ] (hash : σ → δ) (capacity : ℕ)

/-- The clients, numbered as they came. -/
abbrev State (κ δ π : Type*) := Registry κ (Account δ π)

/-- The secret opens the account of a number. -/
def opens (g : State κ δ π) (v : ℕ) (secret : σ) : Bool :=
  (g.member v).any fun k => (g.record k).digest == some (hash secret)

def reveal (g : State κ δ π) (v : ℕ) (secret : σ) : Answer σ π :=
  if opens hash g v secret then
    match (g.member v).bind fun k => (g.record k).place with
    | some p => .place p
    | none => .nowhere
  else .denied

def renew (k : κ) (secret : σ) (g : State κ δ π) : State κ δ π :=
  g.amend k fun r => { r with digest := some (hash secret) }

def settle (k : κ) (p : π) (g : State κ δ π) : State κ δ π := g.amend k fun r => { r with place := some p }

/-- A client is enrolled unless it is a member or the registry is full. -/
def init (k : κ) (secret : σ) (g : State κ δ π) : State κ δ π × Option (Answer σ π) :=
  match g.number k with
  | some v => (renew hash k secret g, some (.welcome v secret))
  | none =>
    if g.members.length < capacity then
      (renew hash k secret (g.enroll k), some (.welcome (g.members.length + 1) secret))
    else (g, none)

def step (g : State κ δ π) : κ × Ask σ π → State κ δ π × Option (Answer σ π)
  | (_, .nothing) => (g, none)
  | (k, .init secret) => init hash capacity k secret g
  | (_, .get v secret) => (g, some (reveal hash g v secret))
  | (_, .check v secret) => (g, some (if opens hash g v secret then .ok else .wrong))
  | (k, .storeAndGet place friend) =>
    let g' := place.elim g fun p => settle k p g
    (g', friend.map fun f => reveal hash g' f.1 f.2)

end Service

/-! ### Tables that stand for a registry -/

abbrev Coordinates := {s : Bytes // IsCoordinates s}

/-- The registry of this server. -/
abbrev Clients := Service.State Address UInt64 Coordinates

/-- The row of a member. -/
def Clients.row (g : Clients) (v : ℕ) (a : Address) : User :=
  ⟨v, some a.to_string, (g.record a).digest.map fun d => toDec d.toNat, (g.record a).place.map Subtype.val⟩

/-- The row of every number is that of the member. -/
structure Represents (u : Users) (g : Clients) : Prop where
  find : ∀ v, u.find v = (g.member v).map (g.row v)
  seq : u.seq = g.members.length

section
variable {u u' : Users} {g : Clients} {a : Address}

theorem represents_empty : Represents Users.empty Registry.empty :=
  ⟨fun v => by cases v <;> rfl, rfl⟩

theorem Represents.lastAt (h : Represents u g) (a : Address) : u.lastAt a.to_string = g.number a := by
  cases hlast : u.lastAt a.to_string with
  | some v =>
    obtain ⟨r, hr, hid, hip⟩ := Users.lastAt_some hlast
    have hrow := h.find v
    rw [Users.find_some.mpr ⟨hr, hid⟩, eq_comm, Option.map_eq_some_iff] at hrow
    obtain ⟨b, hb, rfl⟩ := hrow
    obtain rfl : b = a := Address.ext (Option.some.inj hip)
    exact (Registry.number_eq_some.mpr hb).symm
  | none =>
    rw [eq_comm, Registry.number_eq_none]
    intro hmem
    obtain ⟨v, hv⟩ := Registry.exists_number hmem
    have hrow := h.find v
    rw [Registry.number_eq_some.mp hv, Option.map_some] at hrow
    exact Users.lastAt_none.mp hlast _ (Users.find_some.mp hrow).1 rfl

theorem Represents.addIp_none (h : Represents u g) (hfull : ¬ g.members.length < maxRowid) :
    u.addIp a.to_string = none := by
  rw [Users.addIp, dif_neg (by rwa [h.seq])]

theorem Represents.enroll (h : Represents u g) (hnew : a ∉ g.members) (hroom : g.members.length < maxRowid) :
    ∃ u', u.addIp a.to_string = some u' ∧ Represents u' (g.enroll a) := by
  have hadd : u.addIp a.to_string = some (u.insertRow .ip a.to_string (by rwa [h.seq])) := by
    rw [Users.addIp, dif_pos]
  refine ⟨_, hadd, fun v => ?_, ?_⟩
  · have hrow : ∀ b, Clients.row (g.enroll a) v b = g.row v b := fun b => by
      rw [Clients.row, Registry.record_enroll, Clients.row]
    rw [Users.find_addIp hadd, Registry.member_enroll hnew, h.seq]
    split
    · rw [Option.map_some, hrow, Clients.row, g.outside a hnew]
      rfl
    · rw [h.find v]
      exact congrArg (Option.map · _) (funext fun b => (hrow b).symm)
  · rw [Registry.members_enroll hnew, List.length_append]
    exact congrArg (· + 1) h.seq

theorem Represents.renew (h : Represents u g) (H : Host) {v : ℕ} (hv : g.member v = some a) (pass : Bytes) :
    Represents (u.setPassword v (hashText H pass)) (Service.renew H.hash a pass g) := by
  refine ⟨fun w => ?_, h.seq.trans (by rw [Service.renew, Registry.members_amend])⟩
  rw [Users.setPassword, Users.find_setWhere, h.find w, Service.renew, Registry.member_amend]
  cases hw : g.member w with
  | none => rfl
  | some b =>
    rw [Option.map_some, Option.map_some, Option.map_some]
    by_cases heq : b = a
    · obtain rfl : w = v := Registry.member_inj (heq ▸ hw) hv
      subst heq
      simp [Clients.row, Registry.record_amend (Registry.member_mem hw), User.set, hashText]
    · have hne : w ≠ v := fun hwv => heq (Option.some.inj ((hwv ▸ hw).symm.trans hv))
      simp [Clients.row, Registry.record_amend_of_ne heq, hne]

theorem Represents.settle (h : Represents u g) (a : Address) (c : Coordinates) :
    Represents (u.setCoordinates a.to_string c.1) (Service.settle a c g) := by
  refine ⟨fun w => ?_, h.seq.trans (by rw [Service.settle, Registry.members_amend])⟩
  rw [Users.setCoordinates, Users.find_setWhere, h.find w, Service.settle, Registry.member_amend]
  cases hw : g.member w with
  | none => rfl
  | some b =>
    rw [Option.map_some, Option.map_some, Option.map_some]
    by_cases heq : b = a
    · subst heq
      simp [Clients.row, Registry.record_amend (Registry.member_mem hw), User.set]
    · have hne : b.to_string ≠ a.to_string := fun hip => heq (Address.ext hip)
      simp [Clients.row, Registry.record_amend_of_ne heq, hne]

/-- The credential query asks whether the secret opens the account. -/
theorem Represents.credential (h : Represents u g) (H : Host) (id pass : Bytes) :
    Spec.credential H u id pass = Service.opens H.hash g (decVal id) pass := by
  rw [Spec.credential, h.find, Service.opens]
  cases g.member (decVal id) with
  | none => rfl
  | some a =>
    simp only [Option.map_some, Option.any_some, Clients.row]
    cases (g.record a).digest with
    | none => rfl
    | some d =>
      rw [Option.map_some, hashText, Bool.eq_iff_iff, beq_iff_eq, beq_iff_eq, Option.some.injEq, Option.some.injEq,
        toDec_inj, UInt64.toNat_inj]

end

/-! ### Requests without failures -/

/-- A request with which nothing goes wrong. -/
structure Visit where
  address : Address
  draws : ℕ → Draw
  read : Read

def Visit.request (v : Visit) : Request := ⟨Env.calm v.address v.draws, v.read⟩

theorem Visit.calm (v : Visit) : v.request.env.Calm := Env.calm_calm _ _

/-- What a command asks of the service. -/
def Command.ask (fresh : Bytes) : (c : Command) → c.Valid → Ask Bytes Coordinates
  | .nothing, _ => .nothing
  | .init, _ => .init fresh
  | .get id pass, _ => .get (decVal id) pass
  | .check id pass, _ => .check (decVal id) pass
  | .storeAndGet none friend, _ => .storeAndGet none (friend.map fun f => (decVal f.1, f.2))
  | .storeAndGet (some s) friend, h =>
    .storeAndGet (some ⟨s, h.coordinates s rfl⟩) (friend.map fun f => (decVal f.1, f.2))

/-- What a request asks; an `/init` is to be given the password generated for it. -/
def Request.ask (r : Request) : Ask Bytes Coordinates := r.command.ask (Spec.password r.env) (command_valid r.message)

/-- Who asks what. -/
def Visit.asks (v : Visit) : Address × Ask Bytes Coordinates := (v.address, v.request.ask)

/-- A reply on the wire. -/
def Answer.print : Answer Bytes Coordinates → Bytes
  | .welcome v pass => toDec v ++ ascii " " ++ pass
  | .ok => ascii "ok"
  | .wrong => ascii "wrong"
  | .denied => ascii "err 1"
  | .nowhere => ascii "err 2"
  | .place c => c.1

/-- The service of this server: AUTOINCREMENT sets the limit. -/
abbrev serve (H : Host) : Clients → Address × Ask Bytes Coordinates → Clients × Option (Answer Bytes Coordinates) :=
  Service.step H.hash maxRowid

/-- What a failure-free request sends for a reply. -/
def deliver (reply : Option (Answer Bytes Coordinates)) : List Sent := (reply.map fun d => ⟨d.print, true⟩).toList

namespace Spec
variable {H : Host} {e : Env} {a : State} {u : Users} {g : Clients} {ip : Address}

theorem init_represents (he : e.Calm) (h : Represents a.users g) (ip : Address) :
    Represents (initUser H e ip.to_string a).users (Service.init H.hash maxRowid ip (password e) g).1 ∧
      (initUser H e ip.to_string a).sent
        = a.sent ++ deliver (Service.init H.hash maxRowid ip (password e) g).2 := by
  rw [Service.init]
  cases hnumber : g.number ip with
  | some v =>
    obtain ⟨husers, hsent⟩ := init_known (H := H) he ((h.lastAt ip).trans hnumber)
    rw [husers, hsent]
    exact ⟨h.renew H (Registry.number_eq_some.mp hnumber) _, rfl⟩
  | none =>
    have hnew := Registry.number_eq_none.mp hnumber
    have hlast := (h.lastAt ip).trans hnumber
    dsimp only
    split
    · rename_i hroom
      obtain ⟨u', hadd, h'⟩ := h.enroll hnew hroom
      have hmember := Registry.number_enroll hnew
      obtain ⟨husers, hsent⟩ := init_new (H := H) he hlast hadd ((h'.lastAt ip).trans hmember)
      rw [husers, hsent]
      exact ⟨h'.renew H (Registry.number_eq_some.mp hmember) _, rfl⟩
    · rename_i hfull
      obtain ⟨husers, hsent⟩ := init_refused (H := H) he hlast (h.addIp_none hfull)
      rw [husers, hsent]
      exact ⟨h, (List.append_nil _).symm⟩

theorem get_represents (h : Represents a.users g) (id pass : Bytes) :
    getReply H a.users id pass = (Service.reveal H.hash g (decVal id) pass).print := by
  rw [getReply, Service.reveal, h.credential H, h.find]
  split
  · cases hmember : g.member (decVal id) with
    | none => rfl
    | some b =>
      simp only [Option.map_some, Option.bind_some, Clients.row]
      cases (g.record b).place with
      | none => rfl
      | some c => exact reply_coordinates c.2
  · rfl

/-- A command without failures does what it asks of the service. -/
theorem handle_represents (he : e.Calm) (hip : e.remote = .ok ip) (c : Command) (hc : c.Valid) (h : Represents u g) :
    ∃ b, handle H e c (start u) = .ok b ∧
      Represents b.users (serve H g (ip, c.ask (password e) hc)).1 ∧
      b.sent = deliver (serve H g (ip, c.ask (password e) hc)).2 := by
  have hget : ∀ {a : State} {g : Clients} (id pass : Bytes), Represents a.users g → a.sent = [] →
      Represents (getFriendCoordinates H e id pass a).users g ∧ (getFriendCoordinates H e id pass a).sent
        = deliver (some (Service.reveal H.hash g (decVal id) pass)) := by
    intro a g id pass h hnone
    obtain ⟨husers, hsent⟩ := get_calm (H := H) he id pass a
    rw [husers, hsent, hnone, get_represents h]
    exact ⟨h, rfl⟩
  cases c with
  | nothing => exact ⟨_, rfl, h, rfl⟩
  | init =>
    refine ⟨_, by rw [handle, hip]; rfl, ?_⟩
    exact init_represents (a := start u) he h ip
  | get id pass => exact ⟨_, rfl, hget id pass h rfl⟩
  | check id pass =>
    have husers : (checkFriendIdAndPassword H e id pass (start u)).users = u := by
      obtain ⟨b, husers, -, -, heq⟩ := authenticate_calm (H := H) he id pass (State.send e (ascii "wrong"))
        (State.send e (ascii "ok")) (start u)
      rw [checkFriendIdAndPassword, heq]
      split <;> exact husers
    have hcred : credential H (start u).users id pass = Service.opens H.hash g (decVal id) pass :=
      h.credential H id pass
    refine ⟨_, rfl, ?_, ?_⟩
    · rw [husers]
      exact h
    · rw [check_calm he, hcred]
      simp only [Command.ask, serve, Service.step]
      split <;> rfl
  | storeAndGet coordinates friend =>
    have hstore : ∃ b, storeHalf e coordinates (start u) = .ok b ∧ b.sent = [] ∧
        Represents b.users (serve H g (ip, (Command.storeAndGet coordinates friend).ask (password e) hc)).1 := by
      cases coordinates with
      | none => exact ⟨_, rfl, rfl, h⟩
      | some s =>
        obtain ⟨husers, hsent⟩ := store_calm he s ip.to_string (start u)
        refine ⟨_, by rw [storeHalf, hip]; rfl, hsent, ?_⟩
        rw [husers]
        exact h.settle ip ⟨s, hc.coordinates s rfl⟩
    obtain ⟨b, hb, hnone, h'⟩ := hstore
    refine ⟨getHalf H e friend b, by rw [handle, hb]; rfl, ?_⟩
    cases friend with
    | none => cases coordinates <;> exact ⟨h', hnone⟩
    | some f => cases coordinates <;> exact hget f.1 f.2 h' hnone

end Spec

/-- A request without failures does what it asks of the service. -/
theorem visit_represents {H : Host} {u : Users} {g : Clients} (v : Visit) (h : Represents u g) :
    Represents (handleRequest H u v.request).1 (serve H g v.asks).1 ∧
      (handleRequest H u v.request).2.sent = deliver (serve H g v.asks).2 := by
  obtain ⟨b, hb, husers, hsent⟩ := Spec.handle_represents (H := H) v.calm rfl v.request.command (command_valid _) h
  obtain ⟨hdone, -, hdone'⟩ := request_done (r := v.request) hb
  rw [hdone, hdone']
  exact ⟨husers, hsent⟩

/-- Without failures the server is the service: after any requests of any clients the table is that of the
    registry the service keeps, and every request was answered as the service answers. -/
theorem service_refined (H : Host) (vs : List Visit) :
    Represents (tableAfter H (vs.map Visit.request)) (Machine.final (serve H) Registry.empty (vs.map Visit.asks)) ∧
      (historyOf H (vs.map Visit.request)).map (fun ev => ev.out.sent)
        = (Machine.trace (serve H) Registry.empty (vs.map Visit.asks)).map (fun ev => deliver ev.out) :=
  Machine.refinement Represents Outcome.sent deliver (fun _ _ v h => visit_represents v h) vs represents_empty

/-! ### The program -/

/-- What happens to a program none of whose requests meets a failure. -/
inductive Occurrence where
  | start (bound : ℕ → Bool)
  | accept (server : ℕ) (error : Bool)
  | read (sid : ℕ) (v : Visit)
  | idle

namespace Occurrence

def happening : Occurrence → Happening
  | start bound => .start bound
  | accept server error => .completion (.accept server error)
  | read sid v => .completion (.read sid v.request)
  | idle => .idle

def visit : Occurrence → Option Visit
  | read _ v => some v
  | _ => none

end Occurrence

/-- What the program handles is the visit it received, as it meets the file. -/
theorem handles_visit {H : Host} {R : Ready} {p : Program} {x : Occurrence} {y : Request × Outcome}
    (hy : Program.handles R (Machine.event (Program.step H R) p x.happening) = some y) :
    ∃ v, x.visit = some v ∧ y.1 = R.faced v.request := by
  cases x with
  | read sid v =>
    refine ⟨v, rfl, ?_⟩
    rw [Program.handles] at hy
    split at hy
    · rename_i hinput _
      cases hinput
      cases hy
      rfl
    · cases hy
  | _ => cases hy

theorem handles_visits {H : Host} {R : Ready} {u : Users} (hdatabase : R.database = some u) :
    ∀ (p : Program) (xs : List Occurrence), ∃ vs : List Visit, vs.Sublist (xs.filterMap Occurrence.visit) ∧
      ((Machine.trace (Program.step H R) p (xs.map Occurrence.happening)).filterMap (Program.handles R)).map Prod.fst
        = vs.map Visit.request
  | _, [] => ⟨[], List.Sublist.refl _, rfl⟩
  | p, x :: xs => by
    obtain ⟨vs, hvs, hrest⟩ := handles_visits (H := H) hdatabase (Program.step H R p x.happening).1 xs
    rw [List.map_cons, Machine.trace, List.filterMap_cons, List.filterMap_cons]
    cases hshow : Program.handles R (Machine.event (Program.step H R) p x.happening) with
    | none =>
      refine ⟨vs, ?_, hrest⟩
      cases x.visit with
      | none => exact hvs
      | some v => exact hvs.cons v
    | some y =>
      obtain ⟨v, hv, hy⟩ := handles_visit hshow
      rw [Ready.faced, hdatabase, Option.isNone_some, if_neg Bool.false_ne_true] at hy
      refine ⟨v :: vs, ?_, ?_⟩
      · rw [hv]
        exact hvs.cons_cons v
      · rw [List.map_cons, List.map_cons, hy]
        exact congrArg (v.request :: ·) hrest

/-- A client comes: the servers are up, the `i`-th accepts it and its message arrives. -/
def Occurrence.client (i sid : ℕ) (v : Visit) : List Occurrence := [.start fun _ => true, .accept i false, .read sid v]

/-- At any time a client that comes is served. -/
theorem client_served {H : Host} {R : Ready} {p : Program} (hp : p.Good H R) {u : Users} (hdatabase : R.database = some u)
    {i : ℕ} (hi : i < R.servers) : ∃ sid, ∀ v : Visit,
      ((Machine.trace (Program.step H R) p ((Occurrence.client i sid v).map Occurrence.happening)).filterMap
        (Program.handles R)).map Prod.fst = [v.request] := by
  have hstarted := Program.good_step hp (.start fun _ => true)
  obtain ⟨l, hl⟩ := Program.start_serves p
  obtain ⟨sid, l', hl', hs⟩ := Program.accept_waits hstarted hl hi
  refine ⟨sid, fun v => ?_⟩
  have haccepted := Program.good_step hstarted (.completion (.accept i false))
  obtain ⟨o, ho⟩ := (Program.handles_read haccepted sid v.request).mpr ⟨l', hl', hs⟩
  have hfaced : R.faced v.request = v.request := by
    rw [Ready.faced, hdatabase]
    rfl
  have hquiet : ∀ (q : Program) (x : Happening), (∀ sid r, x ≠ .completion (.read sid r)) →
      Program.handles R (Machine.event (Program.step H R) q x) = none := by
    intro q x hx
    rw [Program.handles]
    split
    · rename_i hinput _
      exact absurd hinput (hx _ _)
    · rfl
  simp only [Occurrence.client, List.map_cons, List.map_nil, Occurrence.happening, Machine.trace, List.filterMap_cons,
    List.filterMap_nil]
  rw [hquiet p _ (by simp), hquiet _ _ (by simp), Program.handles_completed rfl, Machine.event, ho, hfaced]
  rfl

/-- So one more client is served whenever a process is stopped. -/
theorem client_comes {H : Host} {R : Ready} (s : Setup) {u : Users} (hdatabase : R.database = some u) {xs : List Occurrence}
    {vs : List Visit}
    (hvs : ((Machine.trace (Program.step H R) (Program.first R s) (xs.map Occurrence.happening)).filterMap
      (Program.handles R)).map Prod.fst = vs.map Visit.request) {i : ℕ} (hi : i < R.servers) :
    ∃ sid, ∀ v, ((Machine.trace (Program.step H R) (Program.first R s)
      ((xs ++ Occurrence.client i sid v).map Occurrence.happening)).filterMap (Program.handles R)).map Prod.fst
        = (vs ++ [v]).map Visit.request := by
  have hgood := Machine.inv_final (I := Program.Good H R) (fun _ x hp => Program.good_step hp x)
    (xs.map Occurrence.happening) (Program.good_first s)
  obtain ⟨sid, hsid⟩ := client_served (H := H) hgood hdatabase hi
  refine ⟨sid, fun v => ?_⟩
  rw [List.map_append, Machine.trace_append, List.filterMap_append, List.map_append, hvs, hsid, List.map_append]
  rfl

/-- Which reads of a run are handled. -/
theorem handles_waiting {H : Host} {R : Ready} (s : Setup) (hs : List Happening) :
    ∀ ev ∈ Machine.trace (Program.step H R) (Program.first R s) hs, ∀ sid r, ev.input = .completion (.read sid r) →
      ((∃ y, Program.handles R ev = some y) ↔
        ∃ l, ev.pre.phase = .serving l ∧ l.slots sid = some (Slot.reading (R.host H))) := by
  rintro ev hev sid r hread
  obtain ⟨before, x, after, -, rfl⟩ := Machine.exists_of_mem_trace hev
  have hx : x = .completion (.read sid r) := hread
  have hgood := Machine.inv_final (I := Program.Good H R) (fun _ x hp => Program.good_step hp x) before
    (Program.good_first s)
  rw [Program.handles_completed hread]
  refine Iff.trans ?_ (Program.handles_read hgood sid r)
  rw [← hx]
  simp [Option.map_eq_some_iff, Machine.event]

/-- What a program with a table does to it, and sends: what the service does with some of the visits received. -/
theorem serves_visits {H : Host} {R : Ready} {u : Users} {g : Clients} (hdatabase : R.database = some u)
    (h : Represents u g) (s : Setup) (xs : List Occurrence) :
    let run := Machine.trace (Program.step H R) (Program.first R s) (xs.map Occurrence.happening)
    ∃ vs : List Visit, vs.Sublist (xs.filterMap Occurrence.visit) ∧
      Represents (Machine.final (Program.step H R) (Program.first R s) (xs.map Occurrence.happening)).users
        (Machine.final (serve H) g (vs.map Visit.asks)) ∧
      (run.filterMap (Program.handles R)).map Prod.fst = vs.map Visit.request ∧
      (run.filterMap (Program.handles R)).map (fun x => x.2.sent)
        = (Machine.trace (serve H) g (vs.map Visit.asks)).map (fun ev => deliver ev.out) := by
  obtain ⟨vs, hvs, hrequests⟩ := handles_visits (H := H) hdatabase (Program.first R s) xs
  obtain ⟨husers, htrace⟩ := Program.simulates (H := H) (Program.good_first (R := R) s) (xs.map Occurrence.happening)
  have hfirst : (Program.first R s).users = u := by
    rw [Program.first, Program.users, hdatabase]
    rfl
  rw [hrequests, hfirst] at husers htrace
  obtain ⟨hfinal, hsent⟩ := Machine.refinement Represents Outcome.sent deliver
    (fun _ _ v h => visit_represents (H := R.host H) v h) vs h
  refine ⟨vs, hvs, ?_, hrequests, ?_⟩
  · rw [husers]
    exact hfinal
  · have hreplies : serve (R.host H) = serve H := rfl
    rw [← hreplies, ← hsent, ← htrace, List.map_map]
    rfl

/-- From its command line on and without failures, the program serves the clients of its file: whatever the order
    of accepts and reads, however many servers there are and however often they fail to start, the table is that
    of the service after some of the visits received, in their order, and every reply is the service's. A visit is
    served exactly if its session waits for it when it arrives, and at any time one more client can be. -/
theorem program_refines_service (H : Host) {args : List CString} {s : Setup}
    (hargs : setup_args args Settings.initial.silent = (s, true)) (hfile : s.db_filename ≠ memoryName)
    {db : Database} {g : Clients} (hdb : Represents (db.getD .empty) g) :
    ∃ R : Ready, prepare args .ok none db = (s, .ok R) ∧ ∀ xs : List Occurrence,
      let run := Machine.trace (Program.step H R) (Program.first R s) (xs.map Occurrence.happening)
      ∃ vs : List Visit, vs.Sublist (xs.filterMap Occurrence.visit) ∧
        Represents (Machine.final (Program.step H R) (Program.first R s) (xs.map Occurrence.happening)).users
          (Machine.final (serve H) g (vs.map Visit.asks)) ∧
        (run.filterMap (Program.handles R)).map Prod.fst = vs.map Visit.request ∧
        (run.filterMap (Program.handles R)).map (fun x => x.2.sent)
          = (Machine.trace (serve H) g (vs.map Visit.asks)).map (fun ev => deliver ev.out) ∧
        (∀ ev ∈ run, ∀ sid r, ev.input = .completion (.read sid r) →
          ((∃ y, Program.handles R ev = some y) ↔
            ∃ l, ev.pre.phase = .serving l ∧ l.slots sid = some (Slot.reading (R.host H)))) ∧
        ∀ i < R.servers, ∃ sid, ∀ v,
          ((Machine.trace (Program.step H R) (Program.first R s)
              ((xs ++ Occurrence.client i sid v).map Occurrence.happening)).filterMap (Program.handles R)).map Prod.fst
            = (vs ++ [v]).map Visit.request := by
  obtain ⟨R, hready, -, hdatabase⟩ := prepare_opened hargs none db
  rw [if_neg hfile] at hdatabase
  refine ⟨R, hready, fun xs => ?_⟩
  obtain ⟨vs, hvs, husers, hrequests, hsent⟩ := serves_visits (H := H) hdatabase hdb s xs
  exact ⟨vs, hvs, husers, hrequests, hsent, handles_waiting _ _, fun i hi => client_comes s hdatabase hrequests hi⟩

/-- Without arguments and before there is a file. -/
theorem program_refines_service_new :
    setup_args [] Settings.initial.silent = (Settings.initial.silent, true) ∧
      Represents (Option.getD (none : Database) .empty) Registry.empty ∧
      ∃ R : Ready, prepare [] .ok none none = (Settings.initial.silent, .ok R) ∧ ∀ xs : List Occurrence,
        ∃ vs : List Visit, vs.Sublist (xs.filterMap Occurrence.visit) ∧
          Represents (Machine.final (Program.step .small R) (Program.first R Settings.initial.silent)
            (xs.map Occurrence.happening)).users (Machine.final (serve .small) Registry.empty (vs.map Visit.asks)) := by
  refine ⟨rfl, represents_empty, ?_⟩
  have hargs : setup_args [] Settings.initial.silent = (Settings.initial.silent, true) := rfl
  have hfile : Settings.initial.silent.db_filename ≠ memoryName := by decide
  have hdb : Represents (Option.getD (none : Database) .empty) Registry.empty := represents_empty
  obtain ⟨R, hready, hruns⟩ := program_refines_service .small hargs hfile hdb
  refine ⟨R, hready, fun xs => ?_⟩
  obtain ⟨vs, hvs, husers, -⟩ := hruns xs
  exact ⟨vs, hvs, husers⟩

end MarkMe
