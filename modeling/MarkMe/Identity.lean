import Mathlib.Data.List.Pairwise
import MarkMe.Credentials

/-! Whose row is whose.

    A statement touches rows of the requesting address only, and an id keeps its address for good.
    So ids given to different addresses differ. The other direction, one id for each address, hangs on
    the lookup in front of the insertion: `initUser` does not look at its error code, and a failed
    lookup counts as an address without a row. `Blind` is that situation, and exactly a run without
    it keeps the addresses distinct. -/

namespace MarkMe
open Text Session

namespace Spec
variable {H : Host} {e : Env} {c : Command} {a b : State}

/-- What a statement makes of a row: nothing, or the row is the client's own, and an `/init` sets its
    password or a store its coordinates. -/
theorem may_touch {q : Query} {row : User} (h : May H e c a (.run q)) (hrow : row ∈ a.users.rows) :
    q.touch row = row ∨ ∃ ip, e.remote = .ok ip ∧ row.ip = some ip.to_string ∧
      ((c = .init ∧ q.touch row = row.set .password (hashText H (password e))) ∨
        ∃ s, c.coordinates = some s ∧ q.touch row = row.set .coordinates s) := by
  cases h with
  | commit hip hlast =>
    rename_i ip v
    by_cases hv : row.id = v
    · obtain ⟨r, hr, hid, hrip⟩ := Users.lastAt_some hlast
      have hsame : row = r := Users.eq_of_id hrow hr (hv.trans hid.symm)
      refine Or.inr ⟨ip, hip, by rw [hsame, hrip], Or.inl ⟨rfl, ?_⟩⟩
      rw [Query.touch, decVal_toDec, if_pos (by simpa using hv)]
    · refine Or.inl ?_
      rw [Query.touch, decVal_toDec, if_neg (by simpa using hv)]
  | store hip hs =>
    rename_i ip s
    by_cases hrip : row.ip = some ip.to_string
    · refine Or.inr ⟨ip, hip, hrip, Or.inr ⟨s, hs, ?_⟩⟩
      rw [Query.touch, if_pos (by simpa using hrip)]
    · refine Or.inl ?_
      rw [Query.touch, if_neg (by simpa using hrip)]
  | _ => exact Or.inl rfl

/-- What a request has made of a row. -/
structure Framed (e : Env) (c : Command) (row row' : User) : Prop where
  id : row'.id = row.id
  ip : row'.ip = row.ip
  foreign : (∀ ip, e.remote = .ok ip → row.ip ≠ some ip.to_string) → row' = row
  password : c ≠ .init → row'.password = row.password
  coordinates : c.coordinates = none → row'.coordinates = row.coordinates

theorem framed_refl (row : User) : Framed e c row row := ⟨rfl, rfl, fun _ => rfl, fun _ => rfl, fun _ => rfl⟩

theorem framed_touch {q : Query} {row row' : User} (h : May H e c a (.run q)) (hrow' : row' ∈ a.users.rows)
    (hf : Framed e c row row') : Framed e c row (q.touch row') := by
  have hid := (touch_id q row').trans hf.id
  have hip := (touch_ip q row').trans hf.ip
  rcases may_touch h hrow' with heq | ⟨ip, hremote, hown, ⟨hc, heq⟩ | ⟨s, hs, heq⟩⟩
  · rw [heq]
    exact hf
  · refine ⟨hid, hip, fun hforeign => absurd (hf.ip ▸ hown) (hforeign ip hremote), fun hne => absurd hc hne,
      fun hnone => ?_⟩
    rw [heq]
    exact hf.coordinates hnone
  · refine ⟨hid, hip, fun hforeign => absurd (hf.ip ▸ hown) (hforeign ip hremote), fun hne => ?_,
      fun hnone => ?_⟩
    · rw [heq]
      exact hf.password hne
    · rw [hs] at hnone
      cases hnone

theorem framed_acts {u : Users} {row : User} (hrow : row ∈ u.rows) (h : Acts H e c (start u) b) :
    ∃ row', b.users.find row.id = some row' ∧ Framed e c row row' := by
  refine acts_inv (I := fun a => ∃ row', a.users.find row.id = some row' ∧ Framed e c row row') ?_ h
    ⟨row, Users.find_some.mpr ⟨hrow, rfl⟩, framed_refl row⟩
  rintro a x hx ⟨row', hrow', hf⟩
  cases x with
  | open_ => exact ⟨row', hrow', hf⟩
  | send d => exact ⟨row', hrow', hf⟩
  | run q =>
    rw [Action.take]
    rcases run_cases (e := e) q a with ⟨w, hw, -, heq⟩ | heq <;> rw [heq]
    · exact ⟨q.touch row', effect_kept hw hrow', framed_touch hx (Users.find_some.mp hrow').1 hf⟩
    · exact ⟨row', hrow', hf⟩

end Spec

/-- Coordinates are stored by `/store_and_get` only. -/
theorem header_store {r : Request} {s : Bytes} (h : r.command.coordinates = some s) :
    r.header = ascii "/store_and_get" := by
  have hread := reads_message r.message
  rw [Request.command] at h
  generalize MarkMe.command r.message = c at hread h
  cases hread with
  | storeAndGet hheader _ _ => exact hheader
  | _ => cases h

/-- A request and a row that was there before it. -/
theorem request_framed (H : Host) (u : Users) (r : Request) {row : User} (hrow : row ∈ u.rows) :
    ∃ row', (handleRequest H u r).1.find row.id = some row' ∧ Spec.Framed r.env r.command row row' := by
  obtain ⟨a, hacts, husers, -, -⟩ := request_acts H u r
  rw [husers]
  exact Spec.framed_acts hrow hacts

/-- An id keeps its address. -/
theorem request_ownerOf {H : Host} {u : Users} {v : ℕ} {ip : Bytes} (h : u.ownerOf v = some ip) (r : Request) :
    (handleRequest H u r).1.ownerOf v = some ip := by
  obtain ⟨row, hfind, hip⟩ := Users.ownerOf_some.mp h
  obtain ⟨hrow, rfl⟩ := Users.find_some.mp hfind
  obtain ⟨row', hrow', hf⟩ := request_framed H u r hrow
  exact Users.ownerOf_some.mpr ⟨row', hrow', hf.ip.trans hip⟩

/-- The id a reply of `/init` gives out. -/
def idOf (s : Sent) : Bytes := word s.data

/-- The event gives the id `v` to `ip`. -/
def Grants (ev : Machine.Event Users Request Outcome) (ip : Address) (id : Bytes) : Prop :=
  ev.input.header = ascii "/init" ∧ ev.input.env.remote = .ok ip ∧ ∃ s ∈ ev.out.sent, idOf s = id

/-- Every id given out belongs to the address it was given to, for the rest of the run. -/
theorem grants_owner (H : Host) (reqs : List Request) :
    ∀ ev ∈ historyOf H reqs, ∀ ip id, Grants ev ip id →
      ∃ v, id = toDec v ∧ (tableAfter H reqs).ownerOf v = some ip.to_string := by
  refine Machine.history (J := fun h u => ∀ ev ∈ h, ∀ ip id, Grants ev ip id →
    ∃ v, id = toDec v ∧ u.ownerOf v = some ip.to_string) (by simp) (fun h u r ih ev hev ip id hg => ?_) reqs
  rcases List.mem_append.mp hev with hev | hev
  · obtain ⟨v, hid, howner⟩ := ih ev hev ip id hg
    exact ⟨v, hid, request_ownerOf howner r⟩
  · rw [List.mem_singleton] at hev
    subst hev
    obtain ⟨hheader, hremote, s, hs, rfl⟩ := hg
    obtain ⟨ip', v, hremote', howner, hdata, -⟩ := request_welcome hheader s hs
    have hip : ip' = ip := Except.ok.inj (hremote'.symm.trans hremote)
    refine ⟨v, ?_, hip ▸ howner⟩
    rw [idOf, hdata]
    exact (welcome_words (Users.owner_le howner) r.env.draws).1

/-- A client can touch only its own rows: a request keeps every row's id and address, leaves rows of
    other addresses as they are, sets passwords only as `/init` and coordinates only as a store. In
    every run, ids given to different addresses differ. -/
theorem own_rows_only (H : Host) :
    (∀ (u : Users) (r : Request), ∀ row ∈ u.rows, ∃ row' ∈ (handleRequest H u r).1.rows,
      row'.id = row.id ∧ row'.ip = row.ip ∧
      ((∀ ip, r.env.remote = .ok ip → row.ip ≠ some ip.to_string) → row' = row) ∧
      (r.header ≠ ascii "/init" → row'.password = row.password) ∧
      (r.header ≠ ascii "/store" → r.header ≠ ascii "/store_and_get" → row'.coordinates = row.coordinates)) ∧
    (∀ (reqs : List Request), ∀ ev ∈ historyOf H reqs, ∀ ev' ∈ historyOf H reqs, ∀ ip ip' id,
      Grants ev ip id → Grants ev' ip' id → ip = ip') := by
  refine ⟨fun u r row hrow => ?_, fun reqs ev hev ev' hev' ip ip' id hg hg' => ?_⟩
  · obtain ⟨row', hfind, hf⟩ := request_framed H u r hrow
    refine ⟨row', (Users.find_some.mp hfind).1, hf.id, hf.ip, hf.foreign, fun hne => ?_, fun _ hne => ?_⟩
    · exact hf.password fun h => hne (header_init.mp h)
    · refine hf.coordinates (Option.eq_none_iff_forall_ne_some.mpr fun s hs => ?_)
      exact hne (header_store hs)
  · obtain ⟨v, rfl, howner⟩ := grants_owner H reqs ev hev ip id hg
    obtain ⟨v', hv', howner'⟩ := grants_owner H reqs ev' hev' ip' _ hg'
    rw [toDec_inj] at hv'
    rw [← hv', howner] at howner'
    exact Address.ext (Option.some.inj howner')

/-- The row of the first client while the second one comes, and the id of the first in its next
    `/init`. -/
theorem own_rows_only_again :
    let again : Request := ⟨Env.calm clientA fun _ => .letter 0, initA.read⟩
    let other := Request.calm clientB (ascii "/init") (by decide)
    (∃ row' ∈ (handleRequest Host.small (Users.single ⟨1, some clientA.to_string, none, none⟩ (by decide)) other).1.rows,
      row' = ⟨1, some clientA.to_string, none, none⟩) ∧
    ∃ ev ∈ historyOf Host.small [initA, other, again], ∃ ev' ∈ historyOf Host.small [initA, other, again],
      ∃ ip ip', ev.input = initA ∧ ev'.input = again ∧ Grants ev ip (ascii "1") ∧ Grants ev' ip' (ascii "1") ∧
        ip = ip' := by
  intro again other
  constructor
  · obtain ⟨row', hrow', -, -, hforeign, -, -⟩ := (own_rows_only Host.small).1
      (Users.single ⟨1, some clientA.to_string, none, none⟩ (by decide)) other _ (List.mem_singleton_self _)
    refine ⟨row', hrow', hforeign fun ip hip => ?_⟩
    cases hip
    decide
  · have hfirst := List.mem_cons_self (a := Machine.event (handleRequest Host.small) Users.empty initA)
      (l := Machine.trace (handleRequest Host.small) (tableAfter Host.small [initA]) [other, again])
    have hthird : Machine.event (handleRequest Host.small) (tableAfter Host.small [initA, other]) again ∈
        historyOf Host.small [initA, other, again] :=
      List.mem_cons_of_mem _ (List.mem_cons_of_mem _ (List.mem_singleton_self _))
    have hgrant : Grants (Machine.event (handleRequest Host.small) Users.empty initA) clientA (ascii "1") :=
      ⟨by decide, rfl, ⟨ascii "1 00000000", true⟩, by decide +kernel, by decide⟩
    have hgrant' : Grants (Machine.event (handleRequest Host.small) (tableAfter Host.small [initA, other]) again)
        clientA (ascii "1") :=
      ⟨by decide, rfl, ⟨ascii "1 aaaaaaaa", true⟩, by decide +kernel, by decide⟩
    exact ⟨_, hfirst, _, hthird, clientA, clientA, rfl, rfl, hgrant, hgrant',
      (own_rows_only Host.small).2 _ _ hfirst _ hthird clientA clientA (ascii "1") hgrant hgrant'⟩

/-! ### One id for each address -/

/-- The addresses of the rows. -/
def Users.addresses (u : Users) : List Bytes := u.rows.filterMap User.ip

theorem lastAt_none_iff {u : Users} {ip : Bytes} : u.lastAt ip = none ↔ ip ∉ u.addresses := by
  simp [Users.lastAt_none, Users.addresses]

theorem addresses_setWhere (u : Users) (sel : User → Bool) {c : TextColumn} (hc : c ≠ .ip) (x : Bytes) :
    (u.setWhere sel c x).addresses = u.addresses := by
  have hip : User.ip ∘ (fun r => if sel r then r.set c x else r) = User.ip := by
    funext r
    simp only [Function.comp]
    split
    · cases c
      · exact absurd rfl hc
      · rfl
      · rfl
    · rfl
  rw [Users.addresses, Users.setWhere, List.filterMap_map, hip, Users.addresses]

theorem addresses_addIp {u u' : Users} {ip : Bytes} (h : u.addIp ip = some u') :
    u'.addresses = u.addresses ++ [ip] := by
  rw [Users.addIp] at h
  split at h
  · cases h
    rw [Users.addresses, Users.insertRow, List.filterMap_append, Users.addresses]
    rfl
  · cases h

/-- Only an insertion changes the addresses. -/
theorem addresses_effect {q : Query} {u u' : Users} (h : q.effect u = some u') (hq : ∀ ip, q ≠ .insertIp ip) :
    u'.addresses = u.addresses := by
  cases q with
  | insertIp ip => exact absurd rfl (hq ip)
  | updatePassword pass id => cases h; exact addresses_setWhere _ _ (by decide) _
  | updateCoordinates coordinates ip => cases h; exact addresses_setWhere _ _ (by decide) _
  | _ => cases h; rfl

/-- With distinct addresses, an address has one id. -/
theorem owner_unique {u : Users} (hu : u.addresses.Nodup) {v v' : ℕ} {ip : Bytes} (h : u.ownerOf v = some ip)
    (h' : u.ownerOf v' = some ip) : v = v' := by
  obtain ⟨r, hr, hip⟩ := Users.ownerOf_some.mp h
  obtain ⟨r', hr', hip'⟩ := Users.ownerOf_some.mp h'
  obtain ⟨hmem, rfl⟩ := Users.find_some.mp hr
  obtain ⟨hmem', rfl⟩ := Users.find_some.mp hr'
  by_contra hne
  have hpair := List.pairwise_filterMap.mp hu
  have hsym : Std.Symm fun a a' : User => ∀ b, a.ip = some b → ∀ b', a'.ip = some b' → b ≠ b' :=
    ⟨fun a a' haa b hb b' hb' heq => haa b' hb' b hb heq.symm⟩
  exact hpair.forall hmem hmem' (fun heq => hne (congrArg User.id heq)) ip hip ip hip' rfl

/-- `initUser` comes to insert a row for `ip`: it is connected, the lookup found nothing or failed, and
    the insertion goes through. -/
def Inserts (e : Env) (ip : Bytes) (u : Users) : Prop :=
  e.opens 0 = .ok ∧ (e.stmts 0 ≠ none ∨ ip ∉ u.addresses) ∧ e.stmts 1 = none ∧ u.seq < maxRowid

/-- The lookup fails, although the address has a row, and the insertion goes through. -/
def Blind (u : Users) (r : Request) : Prop :=
  r.header = ascii "/init" ∧ ∃ ip, r.env.remote = .ok ip ∧ r.env.opens 0 = .ok ∧ r.env.stmts 0 ≠ none ∧
    r.env.stmts 1 = none ∧ u.seq < maxRowid ∧ ip.to_string ∈ u.addresses

namespace Spec
variable {H : Host} {e : Env} {c : Command} {a b : State}

theorem run_addresses {q : Query} (hq : ∀ ip, q ≠ .insertIp ip) (a : State) :
    (a.run e q).users.addresses = a.users.addresses := by
  rcases run_cases (e := e) q a with ⟨u, hu, -, heq⟩ | heq
  · rw [heq]
    exact addresses_effect hu hq
  · rw [heq]

theorem commit_addresses (v : ℕ) (a : State) :
    (commitPassword H e v a).users.addresses = a.users.addresses := by
  have hrun := run_addresses (e := e) (q := .updatePassword (hashText H (password e)) (toDec v)) (by simp) a
  rw [commitPassword]
  split <;> exact hrun

theorem start_connects (u : Users) : (start u).connects e = true ↔ e.opens 0 = .ok := by
  rw [State.connects, start]
  cases e.opens 0 <;> simp

/-- The first lookup finds nothing when it fails and when there is nothing to find. -/
theorem start_lookup (ip : Bytes) (u : Users) :
    (start u).opened.lookup e ip = none ↔ e.stmts 0 ≠ none ∨ ip ∉ u.addresses := by
  have hrun : ((start u).opened.run e (.selectIdByIp ip)).failed = (e.stmts 0).isSome := by
    simp only [State.run, State.opened, start, List.length_nil, Query.effect]
    cases e.stmts 0 <;> rfl
  rw [State.lookup, hrun, ← lastAt_none_iff]
  cases e.stmts 0 <;> simp [State.opened, start]

theorem run_insert (ip : Bytes) (hcalls : a.calls.length = 1) :
    (e.stmts 1 = none → a.users.seq < maxRowid →
      (a.run e (.insertIp ip)).users.addresses = a.users.addresses ++ [ip]) ∧
    (¬ (e.stmts 1 = none ∧ a.users.seq < maxRowid) →
      (a.run e (.insertIp ip)).users.addresses = a.users.addresses) := by
  rw [State.run, hcalls, Query.effect]
  cases hs : e.stmts 1 with
  | some err => exact ⟨fun h => absurd h (by simp), fun _ => rfl⟩
  | none =>
    by_cases hfull : a.users.seq < maxRowid
    · have hadd : a.users.addIp ip = some (a.users.insertRow .ip ip hfull) := dif_pos hfull
      rw [hadd]
      exact ⟨fun _ _ => addresses_addIp hadd, fun h => absurd ⟨rfl, hfull⟩ h⟩
    · have hadd : a.users.addIp ip = none := dif_neg hfull
      rw [hadd]
      exact ⟨fun _ h => absurd h hfull, fun _ => rfl⟩

/-- The addresses after an `/init`. -/
theorem init_addresses (ip : Bytes) (u : Users) :
    (Inserts e ip u → (initUser H e ip (start u)).users.addresses = u.addresses ++ [ip]) ∧
    (¬ Inserts e ip u → (initUser H e ip (start u)).users.addresses = u.addresses) := by
  have hfound : ((start u).opened.run e (.selectIdByIp ip)).users = u := run_users rfl
  have hlen : ((start u).opened.run e (.selectIdByIp ip)).calls.length = 1 := by
    rcases run_cases (e := e) (.selectIdByIp ip) (start u).opened with ⟨w, -, -, heq⟩ | heq <;> rw [heq] <;> rfl
  rw [initUser]
  by_cases hopen : e.opens 0 = .ok
  · rw [if_pos ((start_connects u).mpr hopen)]
    dsimp only
    cases hlook : (start u).opened.lookup e ip with
    | some v =>
      have hno : ¬ Inserts e ip u := fun h => by
        have hnone := (start_lookup (e := e) ip u).mpr h.2.1
        rw [hlook] at hnone
        cases hnone
      refine ⟨fun h => absurd h hno, fun _ => ?_⟩
      rw [commit_addresses, hfound]
    | none =>
      have hlost := (start_lookup ip u).mp hlook
      obtain ⟨hins, hkeep⟩ := run_insert (e := e) ip hlen
      rw [hfound] at hins hkeep
      generalize State.run e (.insertIp ip) ((start u).opened.run e (.selectIdByIp ip)) = b at hins hkeep ⊢
      have hadd : (Inserts e ip u → b.users.addresses = u.addresses ++ [ip]) ∧
          (¬ Inserts e ip u → b.users.addresses = u.addresses) :=
        ⟨fun h => hins h.2.2.1 h.2.2.2, fun h => hkeep fun hs => h ⟨hopen, hlost, hs.1, hs.2⟩⟩
      -- what follows the insertion only looks up and sets a password
      have hagain := run_addresses (e := e) (q := .selectIdByIp ip) (by simp) b
      cases State.lookup e ip b with
      | some v =>
        dsimp only
        rw [commit_addresses, hagain]
        exact hadd
      | none =>
        dsimp only
        rw [hagain]
        exact hadd
  · rw [if_neg fun h => hopen ((start_connects u).mp h)]
    exact ⟨fun h => absurd h.1 hopen, fun _ => rfl⟩

/-- Every other command keeps the addresses. -/
theorem acts_addresses {u : Users} (hc : c ≠ .init) (h : Acts H e c (start u) b) :
    b.users.addresses = u.addresses := by
  refine acts_inv (I := fun a => a.users.addresses = u.addresses) ?_ h rfl
  intro a x hx ih
  cases x with
  | open_ => exact ih
  | send d => exact ih
  | run q =>
    refine (run_addresses (fun ip => ?_) a).trans ih
    rintro rfl
    cases hx with
    | insert => exact hc rfl

end Spec

/-- A request adds the address of an inserted row and nothing else. -/
theorem request_addresses (H : Host) (u : Users) (r : Request) :
    ((handleRequest H u r).1.addresses = u.addresses ∧
      ¬ (r.header = ascii "/init" ∧ ∃ ip, r.env.remote = .ok ip ∧ Inserts r.env ip.to_string u)) ∨
    ∃ ip, r.header = ascii "/init" ∧ r.env.remote = .ok ip ∧ Inserts r.env ip.to_string u ∧
      (handleRequest H u r).1.addresses = u.addresses ++ [ip.to_string] := by
  by_cases hc : r.command = .init
  · cases hip : r.env.remote with
    | error err =>
      have hreq : Spec.request H u r = .error err := by rw [Spec.request, hc, Spec.handle, hip]; rfl
      have husers := (request_threw hreq).1
      exact Or.inl ⟨by rw [husers], by simp⟩
    | ok ip =>
      have husers := (request_done (H := H) (u := u) (r := r)
        (a := Spec.initUser H r.env ip.to_string (Spec.start u)) (by rw [Spec.request, hc, Spec.handle, hip]; rfl)).1
      obtain ⟨hins, hkeep⟩ := Spec.init_addresses (H := H) (e := r.env) ip.to_string u
      rw [husers]
      by_cases h : Inserts r.env ip.to_string u
      · exact Or.inr ⟨ip, header_init.mp hc, rfl, h, hins h⟩
      · refine Or.inl ⟨hkeep h, ?_⟩
        rintro ⟨-, ip', hip', h'⟩
        cases hip'
        exact h h'
  · obtain ⟨a, hacts, husers, -, -⟩ := request_acts H u r
    rw [husers]
    exact Or.inl ⟨Spec.acts_addresses hc hacts, fun h => hc (header_init.mpr h.1)⟩

/-- Distinct addresses stay distinct exactly if the request is not blind. -/
theorem request_distinct (H : Host) {u : Users} (hu : u.addresses.Nodup) (r : Request) :
    (handleRequest H u r).1.addresses.Nodup ↔ ¬ Blind u r := by
  rcases request_addresses H u r with ⟨heq, hno⟩ | ⟨ip, hheader, hremote, hins, heq⟩
  · rw [heq]
    refine iff_of_true hu ?_
    rintro ⟨hheader, ip, hremote, hopen, hlost, hstmt, hfull, -⟩
    exact hno ⟨hheader, ip, hremote, hopen, Or.inl hlost, hstmt, hfull⟩
  · have hblind : Blind u r ↔ ip.to_string ∈ u.addresses := by
      constructor
      · rintro ⟨-, ip', hremote', -, -, -, -, hmem⟩
        cases hremote.symm.trans hremote'
        exact hmem
      · intro hmem
        obtain ⟨hopen, hlost, hstmt, hfull⟩ := hins
        exact ⟨hheader, ip, hremote, hopen, hlost.resolve_right (fun h => h hmem), hstmt, hfull, hmem⟩
    rw [heq, hblind, List.nodup_append]
    refine ⟨fun h hmem => h.2.2 _ hmem _ (by simp) rfl, fun h => ⟨hu, by simp, fun a ha b hb hab => ?_⟩⟩
    rw [List.mem_singleton] at hb
    exact h (hb ▸ hab ▸ ha)

/-- In every table of the history the addresses are distinct, and all ids given to an address are
    the same. -/
def OneIdentity (h : History) : Prop :=
  (∀ ev ∈ h, ev.post.addresses.Nodup) ∧
    ∀ ev ∈ h, ∀ ev' ∈ h, ∀ ip id id', Grants ev ip id → Grants ev' ip id' → id = id'

/-- The second `/init` of a client, while the database is locked for its first lookup. -/
theorem one_identity_blind : ¬ OneIdentity (historyOf Host.small
    [initA,
      { initA with
        env := { Env.calm clientA fun _ => .digit 0 with
          stmts := fun n => if n = 0 then some busyError else none } }]) := by
  rintro ⟨hnodup, -⟩
  revert hnodup
  decide +kernel

/-- A run from the empty table keeps one identity for each address exactly if no `/init` of it is
    blind. -/
theorem one_identity_iff (H : Host) (reqs : List Request) :
    OneIdentity (historyOf H reqs) ↔ ∀ ev ∈ historyOf H reqs, ¬ Blind ev.pre ev.input := by
  have hposts : (∀ ev ∈ historyOf H reqs, ev.post.addresses.Nodup) ↔
      ∀ ev ∈ historyOf H reqs, ¬ Blind ev.pre ev.input :=
    Machine.inv_iff_guard (I := fun u : Users => u.addresses.Nodup) (fun _ r hu => request_distinct H hu r)
      List.nodup_nil
  refine ⟨fun h => hposts.mp h.1, fun h => ⟨hposts.mpr h, fun ev hev ev' hev' ip id id' hg hg' => ?_⟩⟩
  have hfinal : (tableAfter H reqs).addresses.Nodup :=
    Machine.inv_of_guard (I := fun u : Users => u.addresses.Nodup) (G := fun ev => ¬ Blind ev.pre ev.input)
      (fun _ r hu hG => (request_distinct H hu r).mpr hG) List.nodup_nil h
  obtain ⟨v, rfl, howner⟩ := grants_owner H reqs ev hev ip id hg
  obtain ⟨v', rfl, howner'⟩ := grants_owner H reqs ev' hev' ip id' hg'
  rw [owner_unique hfinal howner howner']

end MarkMe
