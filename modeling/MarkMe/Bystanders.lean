import MarkMe.Identity

/-! Requests that leave no trace.

    `/get`, `/check` and everything that is no command only read the table, and the coordinates of an
    address that never asks for an account find no row to go to. Such requests can be struck from a run,
    wherever they stand in it and whatever fails: what is left happens exactly as before.

        /init A    /get 1 x    /store_and_get …    /init C    junk        from A, B, B, C, D
        /init A                                    /init C                happens as it did -/

namespace MarkMe
open Text Session

/-- The address the handlers see. -/
def Request.client (r : Request) : Option Address := r.env.remote.toOption

/-- Some request of the run is an `/init` from the same address. -/
def Joins (reqs : List Request) (r : Request) : Bool :=
  reqs.any fun i => i.header == ascii "/init" && i.client == r.client

/-- The request only reads, or its client never asks for an account. -/
def Bystander (reqs : List Request) (r : Request) : Bool :=
  !(r.header == ascii "/init" || (r.header == ascii "/store_and_get" && Joins reqs r))

/-- Every address in the table is that of an `/init` of the run. -/
def Joined (reqs : List Request) (u : Users) : Prop :=
  ∀ a ∈ u.addresses, ∃ i ∈ reqs, i.header = ascii "/init" ∧ ∃ ip, i.client = some ip ∧ a = ip.to_string

theorem client_iff {r : Request} {ip : Address} : r.client = some ip ↔ r.env.remote = .ok ip := by
  rw [Request.client]
  cases r.env.remote <;> simp [Except.toOption]

section
variable {H : Host} {reqs : List Request} {u : Users} {r : Request}

theorem joined_step (hu : Joined reqs u) (hr : r ∈ reqs) : Joined reqs (handleRequest H u r).1 := by
  rcases request_addresses H u r with ⟨heq, -⟩ | ⟨ip, hheader, hremote, -, heq⟩
  · rw [Joined, heq]
    exact hu
  · rw [Joined, heq]
    intro a ha
    rcases List.mem_append.mp ha with ha | ha
    · exact hu a ha
    · exact ⟨r, hr, hheader, ip, client_iff.mpr hremote, List.mem_singleton.mp ha⟩

/-- Coordinates of an address without a row go nowhere. -/
theorem setCoordinates_stranger {ip : Bytes} (h : ip ∉ u.addresses) (s : Bytes) : u.setCoordinates ip s = u := by
  have hrows : (u.setCoordinates ip s).rows = u.rows := by
    rw [Users.setCoordinates, Users.setWhere]
    refine (List.map_congr_left fun row hrow => ?_).trans (List.map_id _)
    have hne : row.ip ≠ some ip := fun hip => h (List.mem_filterMap.mpr ⟨row, hrow, hip⟩)
    rw [if_neg (by simpa using hne), id]
  exact Users.ext hrows rfl

/-- A bystander leaves the table as it is. -/
theorem bystander_still (hu : Joined reqs u) (h : Bystander reqs r = true) : (handleRequest H u r).1 = u := by
  rw [Bystander, Bool.not_eq_true', Bool.or_eq_false_iff, Bool.and_eq_false_iff, beq_eq_false_iff_ne,
    beq_eq_false_iff_ne] at h
  obtain ⟨hinit, hstore⟩ := h
  have hcommand : r.command ≠ .init := fun hc => hinit (header_init.mp hc)
  obtain ⟨a, hacts, husers, -, -⟩ := request_acts H u r
  rw [husers]
  refine Spec.acts_inv (I := fun a => a.users = u) (fun a x hx ha => ?_) hacts rfl
  have hrun : ∀ q, Spec.May H r.env r.command a (.run q) → ∀ u', q.effect u = some u' → u' = u := by
    intro q hq u' hu'
    generalize hc : r.command = c at hq hcommand
    cases hq with
    | lookup | insert | commit => exact absurd rfl hcommand
    | store hip hs =>
      subst hc
      cases hu'
      refine setCoordinates_stranger (fun hmem => ?_) _
      obtain ⟨i, hi, hheader, ip, hclient, heq⟩ := hu _ hmem
      obtain rfl := Address.ext heq
      refine hstore.elim (fun hno => hno (header_store hs)) fun hno => ?_
      rw [Joins, Bool.eq_false_iff, ne_eq, List.any_eq_true] at hno
      exact hno ⟨i, hi, by rw [hheader, hclient, client_iff.mpr hip, beq_self_eq_true, beq_self_eq_true]; rfl⟩
    | _ => exact (Option.some.inj hu').symm
  cases x with
  | open_ => exact ha
  | send data => exact ha
  | run q =>
    rcases Spec.run_cases (e := r.env) q a with ⟨u', hu', -, heq⟩ | heq
    · rw [Spec.Action.take, heq]
      exact hrun q hx u' (ha ▸ hu')
    · rw [Spec.Action.take, heq]
      exact ha

end

/-- Whatever fails, a run is the same without its bystanders: the table at the end, and every other request with the
    tables around it, its statements and its replies. -/
theorem bystanders_invisible (H : Host) (reqs : List Request) :
    tableAfter H (reqs.filter fun r => !Bystander reqs r) = tableAfter H reqs ∧
      historyOf H (reqs.filter fun r => !Bystander reqs r)
        = (historyOf H reqs).filter fun ev => !Bystander reqs ev.input :=
  Machine.purge (I := Joined reqs) (G := fun r => r ∈ reqs) (Bystander reqs) (fun _ _ hu hr => joined_step hu hr)
    (fun _ _ hu _ h => bystander_still hu h) (fun a ha => by cases ha) fun _ hr => hr

end MarkMe
