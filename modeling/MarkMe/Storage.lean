import MarkMe.Identity

/-! What is stored is what is read.

    The coordinates of a row are those of the last coordinates update of its address that went
    through. Nothing else writes them: not an `/init` of the same address, which writes into the same
    row, and not a store of any other address. A `/get` with the valid password brings the stored
    text back as it was sent, because it holds no NUL and is not the word NULL. -/

namespace MarkMe
open Text Session

/-- A coordinates update that went through. -/
def ExecCall.Updated (x : ExecCall) : Prop := x.rc = 0 ∧ ascii "UPDATE users SET coordinates" <+: x.sql

/-- A text begins like its template. -/
theorem text_head (q : Query) : q.text.take 28 = q.template.take 28 := by
  cases q <;> rfl

theorem update_text_iff {q : Query} :
    ascii "UPDATE users SET coordinates" <+: q.text ↔ ∃ s ip, q = .updateCoordinates s ip := by
  have hlen : (ascii "UPDATE users SET coordinates").length = 28 := rfl
  rw [List.prefix_iff_eq_take, hlen, text_head]
  constructor
  · intro h
    cases q with
    | updateCoordinates s ip => exact ⟨s, ip, rfl⟩
    | _ => exact absurd h (by rw [Query.template]; decide)
  · rintro ⟨s, ip, rfl⟩
    rfl

namespace Spec
variable {H : Host} {e : Env} {c : Command} {a b : State}

/-- The log holds a coordinates update that went through. -/
def Updated (calls : List (Statement × Bool)) : Prop :=
  ∃ p ∈ calls, p.2 = true ∧ ascii "UPDATE users SET coordinates" <+: p.1.sql

theorem updated_failed {calls : List (Statement × Bool)} (t : Statement) :
    Updated (calls ++ [(t, false)]) ↔ Updated calls := by
  simp [Updated, or_and_right, exists_or]

theorem updated_other {calls : List (Statement × Bool)} {q : Query} (hq : ∀ s ip, q ≠ .updateCoordinates s ip) :
    Updated (calls ++ [(q.statement, true)]) ↔ Updated calls := by
  have hno : ¬ ascii "UPDATE users SET coordinates" <+: q.text := fun h => by
    obtain ⟨s, ip, heq⟩ := update_text_iff.mp h
    exact hq s ip heq
  simp [Updated, or_and_right, exists_or, Query.statement, hno]

theorem updated_store (calls : List (Statement × Bool)) (s ip : Bytes) :
    Updated (calls ++ [((Query.updateCoordinates s ip).statement, true)]) :=
  ⟨_, List.mem_append_right _ (List.mem_singleton_self _), rfl, update_text_iff.mpr ⟨s, ip, rfl⟩⟩

/-- The log of a request tells what it did to the coordinates of a row of `ip`. -/
structure Kept (e : Env) (c : Command) (v : ℕ) (ip : Address) (u : Users) (a : State) : Prop where
  owner : a.users.ownerOf v = some ip.to_string
  stored : e.remote = .ok ip → Updated a.calls →
    ∃ s, c.coordinates = some s ∧ a.users.coordinatesOf v = some s
  quiet : (e.remote = .ok ip → ¬ Updated a.calls) → a.users.coordinatesOf v = u.coordinatesOf v

theorem may_store {s ip : Bytes} (h : May H e c a (.run (.updateCoordinates s ip))) :
    c.coordinates = some s ∧ ∃ ip', e.remote = .ok ip' ∧ ip = ip'.to_string := by
  cases h with
  | store hip hs => exact ⟨hs, _, hip, rfl⟩

theorem kept_step {v : ℕ} {ip : Address} {u : Users} {x : Action} (hx : May H e c a x)
    (ha : Kept e c v ip u a) : Kept e c v ip u (x.take e a) := by
  cases x with
  | open_ => exact ⟨ha.owner, ha.stored, ha.quiet⟩
  | send d => exact ⟨ha.owner, ha.stored, ha.quiet⟩
  | run q =>
    have howner := run_ownerOf (e := e) (q := q) ha.owner
    rw [Action.take]
    rcases run_cases (e := e) q a with ⟨w, hw, -, heq⟩ | heq <;> rw [heq] at howner ⊢
    · by_cases hstore : ∃ s ip', q = .updateCoordinates s ip'
      · obtain ⟨s, _, rfl⟩ := hstore
        obtain ⟨hs, ip', hip', rfl⟩ := may_store hx
        rcases eq_or_ne ip' ip with rfl | hsame
        · -- the client's own row gets the one text this command can store
          cases hw
          exact ⟨howner, fun _ _ => ⟨s, hs, coordinatesOf_set ha.owner s⟩,
            fun hno => absurd (updated_store _ _ _) (hno hip')⟩
        · have hne : e.remote ≠ .ok ip := fun h => hsame (Except.ok.inj (hip'.symm.trans h))
          refine ⟨howner, fun h => absurd h hne, fun _ => ?_⟩
          refine (effect_coordinatesOf hw ha.owner fun s' h => ?_).trans (ha.quiet fun h => absurd h hne)
          exact hsame (Address.ext (Query.updateCoordinates.inj h).2)
      · have hother : ∀ s ip', q ≠ .updateCoordinates s ip' := fun s ip' h => hstore ⟨s, ip', h⟩
        have hkeep := effect_coordinatesOf hw ha.owner fun s => hother s _
        refine ⟨howner, fun hip hup => ?_, fun hno => ?_⟩
        · obtain ⟨s, hs, hcoord⟩ := ha.stored hip ((updated_other hother).mp hup)
          exact ⟨s, hs, hkeep.trans hcoord⟩
        · exact hkeep.trans (ha.quiet fun hip hup => hno hip ((updated_other hother).mpr hup))
    · exact ⟨howner, fun hip hup => ha.stored hip ((updated_failed _).mp hup),
        fun hno => ha.quiet fun hip hup => hno hip ((updated_failed _).mpr hup)⟩

theorem kept_acts {v : ℕ} {ip : Address} {u : Users} (hu : u.ownerOf v = some ip.to_string)
    (h : Acts H e c (start u) b) : Kept e c v ip u b :=
  acts_inv (fun _ _ hx ha => kept_step hx ha) h
    ⟨hu, fun _ h => absurd h (by simp [Updated, start]), fun _ => rfl⟩

end Spec

section
variable {H : Host} {u : Users} {r : Request} {v : ℕ} {ip : Address}

theorem updated_iff {a : Spec.State} (hcalls : (handleRequest H u r).2.execs.map ExecCall.view = a.calls) :
    (∃ x ∈ (handleRequest H u r).2.execs, x.Updated) ↔ Spec.Updated a.calls := by
  rw [Spec.Updated, ← hcalls]
  simp [ExecCall.Updated, ExecCall.view]

/-- One request and the coordinates of a row of `ip`. -/
theorem request_coordinates (hv : u.ownerOf v = some ip.to_string) :
    (r.env.remote = .ok ip → (∃ x ∈ (handleRequest H u r).2.execs, x.Updated) →
      ∃ s, r.command.coordinates = some s ∧ (handleRequest H u r).1.coordinatesOf v = some s) ∧
    ((r.env.remote = .ok ip → ∀ x ∈ (handleRequest H u r).2.execs, ¬ x.Updated) →
      (handleRequest H u r).1.coordinatesOf v = u.coordinatesOf v) := by
  obtain ⟨a, hacts, husers, hcalls, -⟩ := request_acts H u r
  have hkept := Spec.kept_acts hv hacts
  rw [updated_iff hcalls, husers]
  refine ⟨hkept.stored, fun hno => hkept.quiet fun hip hup => ?_⟩
  obtain ⟨x, hx, hupx⟩ := (updated_iff hcalls).mpr hup
  exact hno hip x hx hupx

/-- Stored coordinates stay as long as no update from the address goes through. -/
theorem run_coordinates {s : Bytes} {reqs : List Request} (hv : u.ownerOf v = some ip.to_string)
    (hs : u.coordinatesOf v = some s)
    (hquiet : ∀ ev ∈ Machine.trace (handleRequest H) u reqs, ev.input.env.remote = .ok ip →
      ∀ x ∈ ev.out.execs, ¬ x.Updated) :
    (Machine.final (handleRequest H) u reqs).coordinatesOf v = some s :=
  (Machine.inv_of_guard (I := fun u : Users => u.ownerOf v = some ip.to_string ∧ u.coordinatesOf v = some s)
    (G := fun ev => ev.input.env.remote = .ok ip → ∀ x ∈ ev.out.execs, ¬ x.Updated)
    (fun _ r hu hG => ⟨request_ownerOf hu.1 r, ((request_coordinates hu.1).2 hG).trans hu.2⟩) ⟨hv, hs⟩ hquiet).2

/-- The reply for accepted coordinates is the coordinates. -/
theorem reply_coordinates {s : Bytes} (hs : IsCoordinates s) : Spec.coordinatesReply (some s) = s := by
  have hsafe := coordinates_safe hs
  have hnull : (s == ascii "NULL") = false := by
    rw [beq_eq_false_iff_ne]
    rintro rfl
    rcases hs.bytes 78 (by decide) with h | h | h <;> exact absurd h (by decide)
  rw [Spec.coordinatesReply, cstr_eq_self hsafe.no_nul, hnull, if_neg (by decide)]

end

/-- Reads return the last write: after a `/store_and_get` from `ip` whose update goes through, and as
    long as no other coordinates update from `ip` does, a failure-free `/get` for a row of `ip` with
    its valid password is answered with the coordinates as sent. -/
theorem reads_last_write (H : Host) {u : Users} {ip : Address} (id pass lat lon rest : Bytes)
    {r r' : Request} {reqs : List Request} (howner : u.ownerOf (decVal id) = some ip.to_string)
    (hlat : IsDecimal lat) (hlon : IsDecimal lon) (hrest : ∀ b ∈ rest.head?, isSpace b = true)
    (hip : r.env.remote = .ok ip)
    (hr : r.says (ascii "/store_and_get " ++ lat ++ ascii " " ++ lon ++ rest))
    (hstored : ∃ x ∈ (handleRequest H u r).2.execs, x.Updated)
    (hquiet : ∀ ev ∈ Machine.trace (handleRequest H) (handleRequest H u r).1 reqs,
      ev.input.env.remote = .ok ip → ∀ x ∈ ev.out.execs, ¬ x.Updated)
    (he : r'.env.Calm) (hf : checkFriendFormat id pass = true)
    (hr' : r'.says (ascii "/get " ++ id ++ ascii " " ++ pass))
    (hpass : (Machine.final (handleRequest H) (handleRequest H u r).1 reqs).passwordOf (decVal id)
      = some (hashText H pass)) :
    (handleRequest H (Machine.final (handleRequest H) (handleRequest H u r).1 reqs) r').2.sent
      = [⟨lat ++ ascii " " ++ lon, true⟩] := by
  obtain ⟨s, hs, hcoord⟩ := (request_coordinates howner).1 hip hstored
  have hsame : lat ++ ascii " " ++ lon = s := by
    rw [says_command hr, command_store_and_get hlat hlon hrest] at hs
    exact Option.some.inj hs
  subst hsame
  have hlast := run_coordinates (request_ownerOf howner r) hcoord hquiet
  rw [(get_request he hf hr' _).2, Spec.getReply, if_pos (credential_iff.mpr hpass)]
  rw [Users.coordinatesOf] at hlast
  rw [hlast, reply_coordinates ⟨lat, lon, hlat, hlon, rfl⟩]

/-- A position to work cases out with. -/
theorem decimals : IsDecimal (ascii "1.5") ∧ IsDecimal (ascii "2.5") :=
  ⟨⟨ascii "1", ascii "5", rfl, rfl, rfl⟩, ⟨ascii "2", ascii "5", rfl, rfl, rfl⟩⟩

/-- A friend reads a position, with another client's `/init` in between. -/
theorem reads_last_write_friend :
    let u := tableAfter Host.small [initA]
    let store := Request.calm clientA (ascii "/store_and_get 1.5 2.5") (by decide)
    let other := Request.calm clientB (ascii "/init") (by decide)
    let get := Request.calm clientB (ascii "/get 1 00000000") (by decide)
    (handleRequest Host.small (Machine.final (handleRequest Host.small) (handleRequest Host.small u store).1 [other])
      get).2.sent = [⟨ascii "1.5" ++ ascii " " ++ ascii "2.5", true⟩] := by
  intro u store other get
  have howner : u.ownerOf (decVal (ascii "1")) = some clientA.to_string := by decide +kernel
  refine reads_last_write Host.small (ascii "1") (ascii "00000000") (ascii "1.5") (ascii "2.5") [] howner
    decimals.1 decimals.2 (by simp) rfl ⟨_, rfl⟩ ?_ (fun ev hev hip => ?_) (Env.calm_calm _ _) (by decide)
    ⟨_, rfl⟩ ?_
  · refine ⟨⟨(Query.updateCoordinates (ascii "1.5 2.5") (ascii "10.0.0.1")).statement, some 0, 0⟩, ?_, rfl, ?_⟩
    · decide +kernel
    · decide
  · rw [Machine.trace, Machine.trace, List.mem_singleton] at hev
    subst hev
    cases hip
  · decide +kernel

/-! ### The combined command and the two plain ones -/

/-- An update of rows that hold the text already changes nothing, and any other does. -/
theorem setCoordinates_eq_self {u : Users} {ip s : Bytes} :
    u.setCoordinates ip s = u ↔ ∀ row ∈ u.rows, row.ip = some ip → row.coordinates = some s := by
  have hrow : ∀ row : User, (if row.ip == some ip then row.set .coordinates s else row) = id row ↔
      (row.ip = some ip → row.coordinates = some s) := by
    intro row
    by_cases h : row.ip = some ip
    · cases row
      simp_all [User.set, eq_comm]
    · simp [h]
  have hrows : u.setCoordinates ip s = u ↔
      u.rows.map (fun row => if row.ip == some ip then row.set .coordinates s else row) = u.rows.map id := by
    rw [Users.ext_iff, List.map_id]
    exact and_iff_left rfl
  rw [hrows, List.map_inj_left]
  exact forall₂_congr fun row _ => hrow row

/-- The combined command agrees with the two plain ones. -/
def CombinedAgrees (H : Host) (u : Users) (both store get : Request) : Prop :=
  let two := handleRequest H (handleRequest H u store).1 get
  (handleRequest H u both).1 = two.1 ∧
    (handleRequest H u both).2.sent = (handleRequest H u store).2.sent ++ two.2.sent

/-- A client without a stored position: `/store_and_get` stores one, `/store` does not. -/
theorem combined_disagrees : ¬ CombinedAgrees Host.small
    (tableAfter Host.small [initA])
    (Request.calm clientA (ascii "/store_and_get 1.5 2.5 1 00000000") (by decide))
    (Request.calm clientA (ascii "/store 1.5 2.5") (by decide))
    (Request.calm clientA (ascii "/get 1 00000000") (by decide)) := by
  rintro ⟨husers, -⟩
  revert husers
  decide +kernel

/-- `/store_and_get` agrees with `/store` and `/get` exactly when every row of the client holds the
    coordinates already: the plain `/store` never stores. -/
theorem combined_agrees_iff (H : Host) (u : Users) {ip : Address} (lat lon id pass : Bytes)
    {both store get : Request} (he : both.env.Calm) (he' : get.env.Calm) (hip : both.env.remote = .ok ip)
    (hlat : IsDecimal lat) (hlon : IsDecimal lon) (hf : checkFriendFormat id pass = true)
    (hboth : both.says
      (ascii "/store_and_get " ++ lat ++ ascii " " ++ lon ++ (ascii " " ++ id ++ ascii " " ++ pass)))
    (hstore : store.says (ascii "/store " ++ (lat ++ ascii " " ++ lon)))
    (hget : get.says (ascii "/get " ++ id ++ ascii " " ++ pass)) :
    CombinedAgrees H u both store get ↔
      ∀ row ∈ u.rows, row.ip = some ip.to_string → row.coordinates = some (lat ++ ascii " " ++ lon) := by
  obtain ⟨husers, hsent⟩ := store_and_get_request (H := H) he hip hlat hlon hf hboth u
  obtain ⟨husers', hsent'⟩ := store_request (H := H) hstore u
  obtain ⟨husers'', hsent''⟩ := get_request (H := H) he' hf hget u
  rw [CombinedAgrees, husers', husers, hsent, hsent', husers'', hsent'', ← setCoordinates_eq_self]
  refine ⟨fun h => h.1, fun h => ⟨h, ?_⟩⟩
  rw [h, List.nil_append]

/-- A client whose row holds the coordinates already. -/
theorem combined_agrees_again :
    CombinedAgrees Host.small
      (Users.single ⟨1, some clientA.to_string, some (hashText Host.small (ascii "00000000")), some (ascii "1.5 2.5")⟩
        (by decide))
      (Request.calm clientA (ascii "/store_and_get 1.5 2.5 1 00000000") (by decide))
      (Request.calm clientA (ascii "/store 1.5 2.5") (by decide))
      (Request.calm clientA (ascii "/get 1 00000000") (by decide)) := by
  refine (combined_agrees_iff Host.small _ (ascii "1.5") (ascii "2.5") (ascii "1") (ascii "00000000")
    (Env.calm_calm _ _) (Env.calm_calm _ _) rfl decimals.1 decimals.2 (by decide)
    ⟨_, rfl⟩ ⟨_, rfl⟩ ⟨_, rfl⟩).mpr fun row hrow _ => ?_
  rw [Users.single, List.mem_singleton] at hrow
  rw [hrow]
  rfl

end MarkMe
