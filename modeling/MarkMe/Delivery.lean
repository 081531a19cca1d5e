import MarkMe.Answers

/-! An `/init` and the reply that does not arrive.

    The password of a row is updated before the reply is written, and nothing looks at how the write
    turned out. `target` is the row an `/init` comes to update, from the outcomes of its statements
    alone; `request_target` is what the request does to the stored hashes and what it sends. So the
    old credentials survive a failed `/init` exactly if there was no update, or an update to the same
    hash.

        SELECT ──found v─────────────────────────▶ UPDATE v ──▶ write
           └─none─▶ INSERT ──▶ SELECT ──found v──▶ UPDATE v ──▶ write -/

namespace MarkMe
open Text Session

namespace Spec

/-- A lookup by address that is the `n`-th statement of the request. -/
def found (e : Env) (ip : Bytes) (n : ℕ) (u : Users) : Option ℕ := if (e.stmts n).isSome then none else u.lastAt ip

/-- The table after the INSERT of an `/init`, its second statement. -/
def inserted (e : Env) (ip : Bytes) (u : Users) : Users :=
  if (e.stmts 1).isSome then u else (u.addIp ip).getD u

/-- The row whose password an `/init` updates on an open connection. -/
def target (e : Env) (ip : Bytes) (u : Users) : Option ℕ :=
  match found e ip 0 u with
  | some v => if (e.stmts 1).isSome then none else some v
  | none => if (e.stmts 3).isSome then none else found e ip 2 (inserted e ip u)

end Spec

/-- The row whose password an `/init` updates. -/
def Request.target (r : Request) (u : Users) : Option ℕ :=
  match r.env.remote, r.env.opens 0 with
  | .ok ip, .ok => Spec.target r.env ip.to_string u
  | _, _ => none

namespace Spec
variable {H : Host} {e : Env} {ip : Bytes} {a b : State} {u : Users}

/-- What an `/init` has done to the hashes, and sent, when it comes to update `o`. -/
structure Rehashed (H : Host) (e : Env) (u : Users) (o : Option ℕ) (a : State) : Prop where
  sent : a.sent = (o.map fun v => ⟨toDec v ++ ascii " " ++ password e, e.writes 0⟩).toList
  updated : ∀ v, o = some v → a.users.passwordOf v = some (hashText H (password e))
  kept : ∀ v, o ≠ some v → a.users.passwordOf v = u.passwordOf v

/-- Still to update: nothing is sent and the hashes are the old ones. -/
structure Pending (u : Users) (n : ℕ) (a : State) : Prop where
  sent : a.sent = []
  calls : a.calls.length = n
  passwords : ∀ v, a.users.passwordOf v = u.passwordOf v

theorem Pending.run {n : ℕ} (h : Pending u n a) {q : Query}
    (hq : ∀ v pass id, q = .updatePassword pass id → decVal id ≠ v) : Pending u (n + 1) (a.run e q) := by
  obtain ⟨done, hlog⟩ := run_log (e := e) q a
  refine ⟨(run_sent q a).trans h.sent, ?_, fun v => (run_passwordOf (hq v) a).trans (h.passwords v)⟩
  rw [hlog, List.length_append, h.calls]
  rfl

theorem Pending.nothing {n : ℕ} (h : Pending u n a) : Rehashed H e u none a :=
  ⟨h.sent, by simp, fun v _ => h.passwords v⟩

/-- The update and the reply. -/
theorem Pending.commit {n v : ℕ} (h : Pending u n a) (hv : a.users.lastAt ip = some v) :
    Rehashed H e u (if (e.stmts n).isSome then none else some v) (commitPassword H e v a) := by
  have hrun := run_eq (e := e) (q := .updatePassword (hashText H (password e)) (toDec v)) (a := a) rfl
  rw [h.calls] at hrun
  rw [commitPassword]
  cases hs : (e.stmts n).isSome with
  | true =>
    rw [hs, if_pos rfl] at hrun
    rw [hrun]
    exact ⟨h.sent, by simp, fun w _ => h.passwords w⟩
  | false =>
    rw [hs, if_neg Bool.false_ne_true] at hrun
    rw [hrun]
    obtain ⟨row, hrow, hid, -⟩ := Users.lastAt_some hv
    have hfind : a.users.find v = some row := Users.find_some.mpr ⟨hrow, hid⟩
    refine ⟨?_, fun w hw => ?_, fun w hw => ?_⟩
    · simp [State.send, h.sent]
    · obtain rfl : v = w := by simpa using hw
      simpa [decVal_toDec, State.send] using passwordOf_set hfind (hashText H (password e))
    · have hne : v ≠ w := by simpa using hw
      have hset : (Query.updatePassword (hashText H (password e)) (toDec v)).effect a.users
          = some (a.users.setPassword (decVal (toDec v)) (hashText H (password e))) := rfl
      refine (effect_passwordOf hset ?_).trans (h.passwords w)
      rintro pass id ⟨⟩
      rwa [decVal_toDec]

theorem lookup_found {n : ℕ} (h : Pending u n a) : a.lookup e ip = found e ip n a.users := by
  rw [State.lookup, run_failed rfl, h.calls, found]

theorem insert_users (h : a.calls.length = 1) : (a.run e (.insertIp ip)).users = inserted e ip a.users := by
  rw [inserted]
  cases hs : e.stmts 1 with
  | some err => simp [State.run, h, hs]
  | none => cases hadd : a.users.addIp ip <;> simp [State.run, h, hs, Query.effect, hadd]

theorem found_lastAt {n v : ℕ} (h : found e ip n u = some v) : u.lastAt ip = some v := by
  rw [found] at h
  split at h
  · cases h
  · exact h

/-- An `/init` on an open connection updates its target. -/
theorem init_target (hconn : (start u).connects e = true) :
    Rehashed H e u (target e ip u) (initUser H e ip (start u)) := by
  have hstart : Pending u 0 (start u).opened := ⟨rfl, rfl, fun _ => rfl⟩
  have hselect : Pending u 1 ((start u).opened.run e (.selectIdByIp ip)) := hstart.run (by simp)
  have husers : ((start u).opened.run e (.selectIdByIp ip)).users = u := lookup_users ip _
  rw [initUser, if_pos hconn, target]
  dsimp only
  rw [lookup_found hstart]
  have hstartUsers : (start u).opened.users = u := rfl
  rw [hstartUsers]
  cases hfound : found e ip 0 u with
  | some v => exact hselect.commit (by rw [husers]; exact found_lastAt hfound)
  | none =>
    have hinsert : Pending u 2 (((start u).opened.run e (.selectIdByIp ip)).run e (.insertIp ip)) :=
      hselect.run (by simp)
    have hagain : Pending u 3 ((((start u).opened.run e (.selectIdByIp ip)).run e (.insertIp ip)).run e
        (.selectIdByIp ip)) := hinsert.run (by simp)
    have htable : (((start u).opened.run e (.selectIdByIp ip)).run e (.insertIp ip)).users
        = inserted e ip u := by
      rw [insert_users hselect.calls, husers]
    dsimp only
    rw [lookup_found hinsert, htable]
    cases hfound' : found e ip 2 (inserted e ip u) with
    | some v =>
      have hlast := found_lastAt hfound'
      rw [← htable, ← lookup_users (e := e) ip] at hlast
      exact hagain.commit hlast
    | none => simpa using hagain.nothing

/-- The target is a row of the client. -/
theorem target_le {v : ℕ} (h : target e ip u = some v) : v ≤ maxRowid := by
  have hfound : ∀ {n : ℕ} {w : Users}, found e ip n w = some v → v ≤ maxRowid := fun hf =>
    Users.owner_le (Users.lastAt_owner (found_lastAt hf))
  rw [target] at h
  split at h
  · rename_i w hw
    split at h
    · cases h
    · exact hfound (hw.trans h)
  · split at h
    · cases h
    · exact hfound h

end Spec

section
variable {H : Host} {u : Users} {r : Request}

/-- An `/init` updates its target and sends the new credentials; one without a target does neither. -/
theorem request_target (hinit : r.header = ascii "/init") :
    (handleRequest H u r).2.sent
      = ((r.target u).map fun v =>
          ⟨toDec v ++ ascii " " ++ generatePassword r.env.draws 8, r.env.writes 0⟩).toList ∧
    ∀ v, (handleRequest H u r).1.passwordOf v
      = if r.target u = some v then some (hashText H (generatePassword r.env.draws 8)) else u.passwordOf v := by
  have hreq : Spec.request H u r
      = r.env.remote.map fun ip => Spec.initUser H r.env ip.to_string (Spec.start u) := by
    rw [Spec.request, header_init.mpr hinit, Spec.handle]
  rw [Request.target]
  cases hip : r.env.remote with
  | error err =>
    rw [hip] at hreq
    obtain ⟨husers, -, hsent⟩ := request_threw hreq
    exact ⟨hsent, fun v => by rw [husers]; rfl⟩
  | ok ip =>
    rw [hip] at hreq
    obtain ⟨husers, -, hsent⟩ := request_done hreq
    have hdone : ∀ {o : Option ℕ}, Spec.Rehashed H r.env u o (Spec.initUser H r.env ip.to_string (Spec.start u)) →
        (handleRequest H u r).2.sent
          = (o.map fun v => ⟨toDec v ++ ascii " " ++ generatePassword r.env.draws 8, r.env.writes 0⟩).toList ∧
        ∀ v, (handleRequest H u r).1.passwordOf v
          = if o = some v then some (hashText H (generatePassword r.env.draws 8)) else u.passwordOf v := by
      intro o h
      refine ⟨hsent.trans h.sent, fun v => ?_⟩
      rw [husers]
      split
      · exact h.updated v ‹_›
      · exact h.kept v ‹_›
    cases hopen : r.env.opens 0 with
    | ok =>
      have hconn : (Spec.start u).connects r.env = true := by
        rw [Spec.State.connects, show r.env.opens (Spec.start u).opens = .ok from hopen]
      exact hdone (Spec.init_target hconn)
    | fail code null =>
      refine hdone ?_
      have hconn : (Spec.start u).connects r.env = false := by
        rw [Spec.State.connects, show r.env.opens (Spec.start u).opens = .fail code null from hopen]
      rw [Spec.initUser, hconn, if_neg Bool.false_ne_true]
      exact Spec.Pending.nothing (n := 0) ⟨rfl, rfl, fun _ => rfl⟩

theorem request_target_le {v : ℕ} (h : r.target u = some v) : v ≤ maxRowid := by
  rw [Request.target] at h
  split at h
  · exact Spec.target_le h
  · cases h

/-- A failure-free `/check` accepts the id and the password. -/
def Accepts (H : Host) (u : Users) (id pass : Bytes) : Prop :=
  checkFriendFormat id pass = true ∧ ∃ r : Request, r.env.Calm ∧
    r.says (ascii "/check " ++ id ++ ascii " " ++ pass) ∧ (handleRequest H u r).2.sent = [⟨ascii "ok", true⟩]

/-- What it takes to be accepted: the message fits, and the row holds the hash. -/
theorem accepts_iff {id pass : Bytes} : Accepts H u id pass ↔ checkFriendFormat id pass = true ∧
    (ascii "/check " ++ id ++ ascii " " ++ pass).length ≤ BUFFER_SIZE_IN_BYTES ∧
      u.passwordOf (decVal id) = some (hashText H pass) := by
  rw [Accepts, ← credential_iff]
  refine and_congr_right fun hf => ?_
  have hok : ∀ {r : Request}, r.env.Calm → r.says (ascii "/check " ++ id ++ ascii " " ++ pass) →
      ((handleRequest H u r).2.sent = [⟨ascii "ok", true⟩] ↔ Spec.credential H u id pass = true) := by
    intro r he hr
    rw [check_request he hf hr]
    have hne : ascii "wrong" ≠ ascii "ok" := by decide
    split <;> simp [*]
  constructor
  · rintro ⟨r, he, ⟨hfits, hread⟩, hsent⟩
    exact ⟨hfits, (hok he ⟨hfits, hread⟩).mp hsent⟩
  · rintro ⟨hfits, hcred⟩
    have hcalm : (Request.calm clientA _ hfits).env.Calm := Env.calm_calm _ _
    exact ⟨Request.calm clientA _ hfits, hcalm, ⟨hfits, rfl⟩, (hok hcalm ⟨hfits, rfl⟩).mpr hcred⟩

/-- The client was sent its id and the generated password. -/
def Delivered (r : Request) (o : Outcome) : Prop :=
  ∃ id, ⟨id ++ ascii " " ++ generatePassword r.env.draws 8, true⟩ ∈ o.sent

/-- An `/init` that delivers nothing accepts the same credentials as before. -/
def Preserved (H : Host) (u : Users) (r : Request) : Prop :=
  ¬ Delivered r (handleRequest H u r).2 → ∀ id pass, Accepts H (handleRequest H u r).1 id pass ↔ Accepts H u id pass

/-- Undelivered credentials leave the old ones alone exactly if the write goes through, or there was no
    update, or the hash is the old one. -/
theorem preserved_iff (H : Host) (u : Users) (r : Request) (hinit : r.header = ascii "/init") :
    Preserved H u r ↔ ∀ v, r.target u = some v →
      r.env.writes 0 = true ∨ u.passwordOf v = some (hashText H (generatePassword r.env.draws 8)) := by
  obtain ⟨hsent, hpass⟩ := request_target (H := H) (u := u) hinit
  constructor
  · intro hpreserved v hv
    rcases Bool.eq_false_or_eq_true (r.env.writes 0) with hwrite | hwrite
    · exact Or.inl hwrite
    right
    have hundelivered : ¬ Delivered r (handleRequest H u r).2 := by
      rintro ⟨id, hmem⟩
      simp [hsent, hv, hwrite] at hmem
    -- the new credentials are a pair that tells the two tables apart
    have hfits : (ascii "/check " ++ toDec v ++ ascii " " ++ generatePassword r.env.draws 8).length
        ≤ BUFFER_SIZE_IN_BYTES := by
      simpa only [List.append_assoc] using (welcome_words (request_target_le hv) r.env.draws).2.2
    have hnew : Accepts H (handleRequest H u r).1 (toDec v) (generatePassword r.env.draws 8) := by
      refine accepts_iff.mpr ⟨welcome_format v _, hfits, ?_⟩
      rw [hpass, decVal_toDec, if_pos hv]
    have hold := (accepts_iff.mp ((hpreserved hundelivered _ _).mp hnew)).2.2
    rwa [decVal_toDec] at hold
  · intro hcond hundelivered id pass
    have hsame : (handleRequest H u r).1.passwordOf (decVal id) = u.passwordOf (decVal id) := by
      rw [hpass]
      split
      · rename_i hv
        rcases hcond _ hv with hwrite | hold
        · refine (hundelivered ⟨toDec (decVal id), ?_⟩).elim
          simp [hsent, hv, hwrite]
        · exact hold.symm
      · rfl
    rw [accepts_iff, accepts_iff, hsame]

end

/-- An `/init` whose reply does not go through. -/
def Request.unsent (ip : Address) (draws : ℕ → Draw) : Request :=
  ⟨⟨.ok ip, fun _ => .ok, fun _ => none, fun _ => false, draws⟩, initA.read⟩

/-- The first user keeps its password when neither the update nor the reply goes through. -/
theorem preserved_refused :
    let r := Request.unsent clientA fun _ => .letter 0
    Preserved Host.small (tableAfter Host.small [initA])
      { r with env := { r.env with stmts := fun n => if n = 1 then some busyError else none } } := by
  intro r
  refine (preserved_iff Host.small _ _ (by decide +kernel)).mpr fun v hv => ?_
  have hnone : Request.target { r with env := { r.env with stmts := fun n => if n = 1 then some busyError else none } }
      (tableAfter Host.small [initA]) = none := by decide +kernel
  rw [hnone] at hv
  cases hv

/-- The first user loses its password to a reply that never arrives. -/
theorem preserved_lost :
    ¬ Preserved Host.small (tableAfter Host.small [initA]) (Request.unsent clientA fun _ => .letter 0) := by
  intro h
  have hsent : (handleRequest Host.small (tableAfter Host.small [initA])
      (Request.unsent clientA fun _ => .letter 0)).2.sent = [⟨ascii "1 aaaaaaaa", false⟩] := by
    decide +kernel
  have hundelivered : ¬ Delivered (Request.unsent clientA fun _ => .letter 0)
      (handleRequest Host.small (tableAfter Host.small [initA]) (Request.unsent clientA fun _ => .letter 0)).2 := by
    rintro ⟨id, hmem⟩
    simp [hsent] at hmem
  have hold : Accepts Host.small (tableAfter Host.small [initA]) (ascii "1") (ascii "00000000") :=
    accepts_iff.mpr ⟨by decide, by decide, by decide +kernel⟩
  have hnew := (accepts_iff.mp ((h hundelivered _ _).mpr hold)).2.2
  exact absurd hnew (by decide +kernel)

end MarkMe
