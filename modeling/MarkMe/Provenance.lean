import MarkMe.Bystanders
import MarkMe.Faults
import MarkMe.Storage

/-! Where replies come from.

    Whatever fails, and also where one address has got several rows, everything the server sends is
    accounted for by the run so far: a place is the one stored last by the client whose row it is, and
    goes to nobody but who presents the password committed last for that row; a refusal has its reason.

        /init A      /store_and_get 1.0 2.0 from A     /get 1 pass
        1 pass ────────────────┬──────────────────────────▲
                               └── 1.0 2.0 ───────────────┘ -/

namespace MarkMe
open Text Session

/-- A coordinates update of the client that the row `v` belongs to, which went through. -/
def Places (v : ℕ) (ev : Machine.Event Users Request Outcome) : Prop :=
  (∃ ip ∈ ev.input.client, ev.pre.ownerOf v = some ip.to_string) ∧ ∃ x ∈ ev.out.execs, x.Updated

instance : DecidablePred ExecCall.Updated := fun x =>
  inferInstanceAs (Decidable (x.rc = 0 ∧ ascii "UPDATE users SET coordinates" <+: x.sql))

instance (v : ℕ) : DecidablePred (Places v) := fun ev =>
  inferInstanceAs (Decidable ((∃ ip ∈ ev.input.client, ev.pre.ownerOf v = some ip.to_string) ∧
    ∃ x ∈ ev.out.execs, x.Updated))

/-- The place stored last for the row `v`. -/
def placed (v : ℕ) (h : History) : Option Bytes :=
  Machine.written (Places v) (fun ev => ev.input.command.coordinates) h

/-- The password committed last for the id, or one that has its hash. -/
def Unlocks (H : Host) (h : History) (id pass : Bytes) : Prop :=
  ∃ pw, latest H (decVal id) h = some pw ∧ H.hash pass = H.hash pw

/-- What a request may send after the history `h`. -/
inductive Justified (H : Host) (h : History) (ev : Machine.Event Users Request Outcome) : Bytes → Prop
  | welcome {ip : Address} {v : ℕ} : ev.input.client = some ip → ev.post.ownerOf v = some ip.to_string →
      Commits H v ev → Justified H h ev (toDec v ++ ascii " " ++ generatePassword ev.input.env.draws 8)
  | ok {id pass : Bytes} : ev.input.command = .check id pass → Unlocks H h id pass → Justified H h ev (ascii "ok")
  | wrong {id pass : Bytes} : ev.input.command = .check id pass →
      ev.input.env.opens 0 ≠ .ok ∨ ¬ Unlocks H h id pass → Justified H h ev (ascii "wrong")
  | place {id pass s : Bytes} : ev.input.command.friend = some (id, pass) → Unlocks H h id pass →
      placed (decVal id) (h ++ [ev]) = some s → Justified H h ev s
  | nowhere {id pass : Bytes} : ev.input.command.friend = some (id, pass) → Unlocks H h id pass →
      placed (decVal id) (h ++ [ev]) = none → Justified H h ev (ascii "err 2")
  | denied {id pass : Bytes} : ev.input.command.friend = some (id, pass) →
      ev.input.env.opens ev.input.command.asking ≠ .ok ∨ ¬ Unlocks H h id pass → Justified H h ev (ascii "err 1")

/-! ### The rows and their clients -/

/-- Every row is that of a client. -/
def Owned (u : Users) : Prop := ∀ v, u.find v = none ∨ ∃ ip : Address, u.ownerOf v = some ip.to_string

section
variable {H : Host} {u : Users} {r : Request} {v : ℕ}

/-- An insertion is part of an `/init` and is for the client. -/
theorem may_insert {e : Env} {c : Command} {a : Spec.State} {ip : Bytes} (h : Spec.May H e c a (.run (.insertIp ip))) :
    c.coordinates = none ∧ ∃ ip' : Address, ip = ip'.to_string := by
  cases h with
  | insert hip => exact ⟨rfl, _, rfl⟩

/-- A new row is one of an `/init`, without a place. -/
theorem request_new (hv : u.find v = none) :
    (handleRequest H u r).1.find v = none ∨ ∃ ip : Address, (handleRequest H u r).1.ownerOf v = some ip.to_string ∧
      (handleRequest H u r).1.coordinatesOf v = none := by
  obtain ⟨a, hacts, husers, -, -⟩ := request_acts H u r
  rw [husers]
  refine (Spec.acts_inv (I := fun a => a.users.find v = none ∨ ∃ ip : Address, r.command.coordinates = none ∧
    a.users.ownerOf v = some ip.to_string ∧ a.users.coordinatesOf v = none) (fun a x hx ha => ?_) hacts
    (Or.inl hv)).imp_right fun ⟨ip, _, howner, hplace⟩ => ⟨ip, howner, hplace⟩
  cases x with
  | open_ => exact ha
  | send data => exact ha
  | run q =>
    rw [Spec.Action.take]
    rcases Spec.run_cases (e := r.env) q a with ⟨u', hu', -, heq⟩ | heq
    · rw [heq]
      rcases ha with hnone | ⟨ip, hread, howner, hplace⟩
      · refine (effect_new hu' hnone).imp_right ?_
        rintro ⟨_, rfl, hnew⟩
        obtain ⟨hread, ip, rfl⟩ := may_insert hx
        exact ⟨ip, hread, Users.ownerOf_some.mpr ⟨_, hnew, rfl⟩, by rw [Users.coordinatesOf, hnew]; rfl⟩
      · refine Or.inr ⟨ip, hread, effect_ownerOf hu' howner, ?_⟩
        refine (effect_coordinatesOf hu' howner fun s hq => ?_).trans hplace
        rw [hq] at hx
        rw [(Spec.may_store hx).1] at hread
        cases hread
    · rw [heq]
      exact ha

theorem owned_step (hu : Owned u) : Owned (handleRequest H u r).1 := by
  intro v
  rcases hu v with hnone | ⟨ip, howner⟩
  · exact (request_new hnone).imp_right fun ⟨ip, howner, _⟩ => ⟨ip, howner⟩
  · exact Or.inr ⟨ip, request_ownerOf howner r⟩

/-! ### What the rows hold -/

theorem places_write (hev : Places v (Machine.event (handleRequest H) u r)) :
    (handleRequest H u r).1.coordinatesOf v = r.command.coordinates := by
  obtain ⟨⟨ip, hip, howner⟩, hupdated⟩ := hev
  obtain ⟨s, hs, hplace⟩ := (request_coordinates howner).1 (client_iff.mp hip) hupdated
  exact hplace.trans hs.symm

theorem places_quiet (hu : Owned u) (hev : ¬ Places v (Machine.event (handleRequest H) u r)) :
    (handleRequest H u r).1.coordinatesOf v = u.coordinatesOf v := by
  rcases hu v with hnone | ⟨ip, howner⟩
  · have hbefore : u.coordinatesOf v = none := by rw [Users.coordinatesOf, hnone]; rfl
    rw [hbefore]
    rcases request_new (H := H) (r := r) hnone with hstill | ⟨_, -, hplace⟩
    · rw [Users.coordinatesOf, hstill]
      rfl
    · exact hplace
  · exact (request_coordinates howner).2 fun hip x hx hupdated =>
      hev ⟨⟨ip, client_iff.mpr hip, howner⟩, x, hx, hupdated⟩

end

/-- The places in the table are those stored last. -/
theorem coordinatesOf_placed (H : Host) (reqs : List Request) (v : ℕ) :
    (tableAfter H reqs).coordinatesOf v = placed v (historyOf H reqs) :=
  Machine.register (I := Owned) (fun u => u.coordinatesOf v) (fun _ _ hu => owned_step hu) (fun _ _ _ hev => places_write hev)
    (fun _ _ hu hev => places_quiet hu hev) (fun _ => Or.inl rfl) rfl reqs

example : placed 1 (historyOf Host.small [initA, Request.calm clientA (ascii "/store_and_get 1.5 2.5") (by decide)])
    = some (ascii "1.5 2.5") := by decide +kernel

/-! ### The replies -/

theorem unlocks_iff (H : Host) (reqs : List Request) (id pass : Bytes) :
    Spec.credential H (tableAfter H reqs) id pass = true ↔ Unlocks H (historyOf H reqs) id pass := by
  rw [credential_iff, passwordOf_latest, Option.map_eq_some_iff]
  refine exists_congr fun pw => and_congr_right fun _ => ?_
  rw [hashText, hashText, toDec_inj, UInt64.toNat_inj, eq_comm]

theorem placed_coordinates {v : ℕ} {h : History} {s : Bytes} (hs : placed v h = some s) : IsCoordinates s := by
  obtain ⟨ev, -, hev⟩ := Option.bind_eq_some_iff.mp hs
  exact (command_valid ev.input.message).coordinates s hev

section
variable {H : Host} {h : History} {ev : Machine.Event Users Request Outcome} {a : Spec.State} {id pass : Bytes}

theorem storeHalf_sent {e : Env} {coordinates : Option Bytes} {u : Users} {b : Spec.State}
    (hb : Spec.storeHalf e coordinates (Spec.start u) = .ok b) : b.sent = [] := by
  cases coordinates with
  | none =>
    cases hb
    rfl
  | some c =>
    rw [Spec.storeHalf] at hb
    cases hip : e.remote with
    | error err =>
      rw [hip] at hb
      cases hb
    | ok ip =>
      rw [hip] at hb
      cases hb
      exact Spec.store_sent _ _ _

/-- A question that meets the table of the history is answered by the history. -/
theorem get_justified (hfriend : ev.input.command.friend = some (id, pass))
    (hcred : Spec.credential H a.users id pass = true ↔ Unlocks H h id pass)
    (hplace : a.users.coordinatesOf (decVal id) = placed (decVal id) (h ++ [ev])) (hnone : a.sent = [])
    (hopens : a.opens = ev.input.command.asking) :
    ∀ s ∈ (Spec.getFriendCoordinates H ev.input.env id pass a).sent, Justified H h ev s.data := by
  intro s hs
  rcases Spec.get_answers id pass a s hs with hs | ⟨hgranted, hdata⟩ | ⟨hdenied, hdata⟩
  · rw [hnone] at hs
    cases hs
  · rw [hdata]
    cases hstored : placed (decVal id) (h ++ [ev]) with
    | none =>
      rw [hplace, hstored]
      exact .nowhere hfriend (hcred.mp hgranted) hstored
    | some c =>
      rw [hplace, hstored, reply_coordinates (placed_coordinates hstored)]
      exact .place hfriend (hcred.mp hgranted) hstored
  · rw [hdata]
    refine .denied hfriend (hdenied.imp (fun hopen => hopens ▸ hopen) fun hno hunlocks => ?_)
    rw [hcred.mpr hunlocks] at hno
    cases hno

theorem check_justified (hcommand : ev.input.command = .check id pass)
    (hcred : Spec.credential H a.users id pass = true ↔ Unlocks H h id pass) (hnone : a.sent = [])
    (hopens : a.opens = 0) :
    ∀ s ∈ (Spec.checkFriendIdAndPassword H ev.input.env id pass a).sent, Justified H h ev s.data := by
  intro s hs
  rcases Spec.check_answers id pass a s hs with hs | ⟨hgranted, hdata⟩ | ⟨hdenied, hdata⟩
  · rw [hnone] at hs
    cases hs
  · rw [hdata]
    exact .ok hcommand (hcred.mp hgranted)
  · rw [hdata]
    refine .wrong hcommand (hdenied.imp (fun hopen => hopens ▸ hopen) fun hno hunlocks => ?_)
    rw [hcred.mpr hunlocks] at hno
    cases hno

/-- So is every command that hands out no credentials. -/
theorem handle_justified {u : Users} {b : Spec.State} (hinit : ev.input.command ≠ .init)
    (hb : Spec.handle H ev.input.env ev.input.command (Spec.start u) = .ok b)
    (hcred : ∀ id pass, Spec.credential H b.users id pass = true ↔ Unlocks H h id pass)
    (hplace : ∀ v, b.users.coordinatesOf v = placed v (h ++ [ev])) : ∀ s ∈ b.sent, Justified H h ev s.data := by
  cases hc : ev.input.command with
  | init => exact absurd hc hinit
  | nothing =>
    rw [hc] at hb
    cases hb
    simp [Spec.start]
  | get id pass =>
    rw [hc] at hb
    cases hb
    rw [Spec.get_users] at hcred hplace
    exact get_justified (by rw [hc]; rfl) (hcred id pass) (hplace _) rfl (by rw [hc]; rfl)
  | check id pass =>
    rw [hc] at hb
    cases hb
    rw [Spec.check_users] at hcred
    exact check_justified hc (hcred id pass) rfl rfl
  | storeAndGet coordinates friend =>
    rw [hc, Spec.handle] at hb
    cases hhalf : Spec.storeHalf ev.input.env coordinates (Spec.start u) with
    | error err =>
      rw [hhalf] at hb
      cases hb
    | ok a =>
      rw [hhalf] at hb
      cases hb
      have hnone : a.sent = [] := storeHalf_sent hhalf
      cases friend with
      | none =>
        rw [Spec.getHalf, hnone]
        simp
      | some f =>
        rw [Spec.getHalf] at hcred hplace ⊢
        rw [Spec.get_users] at hcred hplace
        exact get_justified (by rw [hc]; rfl) (hcred _ _) (hplace _) hnone (by rw [hc]; exact Spec.storeHalf_opens _ hhalf)

end

/-- Everything sent in any run, whatever fails in it, is accounted for by the run until then. -/
theorem replies_justified (H : Host) (reqs : List Request) (r : Request) :
    ∀ s ∈ (handleRequest H (tableAfter H reqs) r).2.sent,
      Justified H (historyOf H reqs) (Machine.event (handleRequest H) (tableAfter H reqs) r) s.data := by
  by_cases hinit : r.command = .init
  · intro s hs
    obtain ⟨ip, v, hip, howner, hdata, hcommits⟩ := request_welcome (header_init.mp hinit) s hs
    rw [hdata]
    exact .welcome (client_iff.mpr hip) howner hcommits
  cases hreq : Spec.request H (tableAfter H reqs) r with
  | error err =>
    obtain ⟨-, -, hsent⟩ := request_threw hreq
    rw [hsent]
    simp
  | ok b =>
    obtain ⟨husers, -, hsent⟩ := request_done hreq
    rw [hsent]
    refine handle_justified hinit hreq (fun id pass => ?_) fun v => ?_
    · -- no password changes, so the credentials are those of the history
      have hquiet : ¬ Commits H (decVal id) (Machine.event (handleRequest H) (tableAfter H reqs) r) :=
        fun hcommits => hinit (header_init.mpr hcommits.1)
      rw [← unlocks_iff, credential_iff, credential_iff, ← husers, (request_password (decVal id)).2 hquiet]
    · have hlast := coordinatesOf_placed H (reqs ++ [r]) v
      rw [tableAfter, Machine.final_concat, historyOf, Machine.trace_concat] at hlast
      rw [← husers]
      exact hlast

/-- A friend is sent a place. -/
theorem replies_justified_friend :
    let reqs := [initA, Request.calm clientA (ascii "/store_and_get 1.5 2.5") (by decide)]
    let get := Request.calm clientB (ascii "/get 1 00000000") (by decide)
    Justified Host.small (historyOf Host.small reqs)
      (Machine.event (handleRequest Host.small) (tableAfter Host.small reqs) get) (ascii "1.5 2.5") := by
  intro reqs get
  exact replies_justified Host.small reqs get ⟨ascii "1.5 2.5", true⟩ (by decide +kernel)

end MarkMe
