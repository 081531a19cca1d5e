import MarkMe.Actions

/-! Well-formed messages, received whole and without failures.

    `/check`, `/get` and `/store_and_get` with arguments in the right form are the commands they look
    like, and when nothing fails each has a closed form: what it does to the table and what it
    answers. -/

namespace MarkMe
open Text Session

/-- The message arrives whole. -/
def Request.says (r : Request) (bytes : Bytes) : Prop := ∃ fits, r.read = .data bytes fits

theorem says_command {r : Request} {bytes : Bytes} (h : r.says bytes) : r.command = command bytes := by
  obtain ⟨fits, hread⟩ := h
  rw [Request.command, Request.message, hread]

/-! ### The commands of well-formed messages -/

section
variable {id pass : Bytes}

theorem friend_solid (h : checkFriendFormat id pass = true) :
    (id ≠ [] ∧ ∀ b ∈ id, isSpace b = false) ∧ pass ≠ [] ∧ ∀ b ∈ pass, isSpace b = false := by
  obtain ⟨hid, hne, hpass⟩ := (check_friend_iff _ _).mp h
  exact ⟨numeral_solid hid, hne, fun b hb => (hpass b hb).elim digit_not_space lower_not_space⟩

/-- A header and a friend are four words. -/
theorem words_friend {header : Bytes} (hne : header ≠ []) (hsolid : ∀ b ∈ header, isSpace b = false)
    (h : checkFriendFormat id pass = true) :
    words 5 (header ++ ascii " " ++ (id ++ ascii " " ++ pass)) = [header, id, pass, [], []] := by
  obtain ⟨⟨hid, hid'⟩, hpass, hpass'⟩ := friend_solid h
  rw [words_spaced 4 hne hsolid, words_spaced 3 hid hid', words_last 2 hpass hpass']
  rfl

theorem command_check (h : checkFriendFormat id pass = true) :
    command (ascii "/check " ++ id ++ ascii " " ++ pass) = .check id pass := by
  have hwords : words 5 (ascii "/check" ++ ascii " " ++ (id ++ ascii " " ++ pass)) = _ :=
    words_friend (by decide) (solid_of_all rfl) h
  have hsplit : ascii "/check " = ascii "/check" ++ ascii " " := rfl
  rw [command, hsplit, List.append_assoc, List.append_assoc, ← List.append_assoc id, hwords, commandOf_check,
    if_pos h]

theorem command_get (h : checkFriendFormat id pass = true) :
    command (ascii "/get " ++ id ++ ascii " " ++ pass) = .get id pass := by
  have hwords : words 5 (ascii "/get" ++ ascii " " ++ (id ++ ascii " " ++ pass)) = _ :=
    words_friend (by decide) (solid_of_all rfl) h
  have hsplit : ascii "/get " = ascii "/get" ++ ascii " " := rfl
  rw [command, hsplit, List.append_assoc, List.append_assoc, ← List.append_assoc id, hwords, commandOf_get,
    if_pos h]

/-- A plain `/store` comes to nothing, whatever comes after it. -/
theorem command_store (rest : Bytes) : command (ascii "/store " ++ rest) = .nothing := by
  have hsplit : ascii "/store " = ascii "/store" ++ ascii " " := rfl
  have hwords : words 5 (ascii "/store " ++ rest) = ascii "/store" :: words 4 rest := by
    rw [hsplit]
    exact words_spaced 4 (by decide) (solid_of_all rfl) rest
  rw [command, hwords]
  rfl

/-- `/store_and_get` with good coordinates, whatever comes after them. -/
theorem command_store_and_get {lat lon rest : Bytes} (hlat : IsDecimal lat) (hlon : IsDecimal lon)
    (hrest : ∀ b ∈ rest.head?, isSpace b = true) :
    command (ascii "/store_and_get " ++ lat ++ ascii " " ++ lon ++ rest)
      = .storeAndGet (some (lat ++ ascii " " ++ lon))
          (if checkFriendFormat (word rest) (word (afterWord rest)) then
            some (word rest, word (afterWord rest)) else none) := by
  have hsplit : ascii "/store_and_get " = ascii "/store_and_get" ++ ascii " " := rfl
  have hwords : words 5 (ascii "/store_and_get " ++ lat ++ ascii " " ++ lon ++ rest)
      = [ascii "/store_and_get", lat, lon, word rest, word (afterWord rest)] := by
    have hassoc : ascii "/store_and_get " ++ lat ++ ascii " " ++ lon ++ rest
        = ascii "/store_and_get" ++ ascii " " ++ (lat ++ ascii " " ++ (lon ++ rest)) := by
      rw [hsplit]
      simp only [List.append_assoc]
    obtain ⟨hword, hafter⟩ := word_append hlon.ne_nil hlon.no_space hrest
    rw [hassoc, words_spaced 4 (by decide) (solid_of_all rfl), words_spaced 3 hlat.ne_nil hlat.no_space, words,
      hword, hafter]
    rfl
  rw [command, hwords, commandOf_store_and_get, if_pos ((check_pair hlat.no_space).mpr ⟨hlat, hlon⟩)]

end

/-! ### Without failures -/

namespace Spec
variable {H : Host} {e : Env}

theorem connects_calm (he : e.Calm) (a : State) : a.connects e = true := by
  rw [State.connects, he.opens]

theorem run_calm (he : e.Calm) {q : Query} {a : State} {u : Users} (hq : q.effect a.users = some u) :
    a.run e q = { a with users := u, calls := a.calls ++ [(q.statement, true)], failed := false } := by
  rw [State.run, he.stmts, hq]

theorem authenticate_calm (he : e.Calm) (id pass : Bytes) (deny grant : State → State) (a : State) :
    ∃ b, b.users = a.users ∧ b.sent = a.sent ∧ b.failed = false ∧
      authenticate H e id pass deny grant a = if credential H a.users id pass then grant b else deny b := by
  have hrun := run_calm he (q := .selectCredential id (hashText H pass)) (a := a.opened) rfl
  refine ⟨a.opened.run e (.selectCredential id (hashText H pass)), ?_, ?_, ?_, ?_⟩
  · rw [hrun]; rfl
  · rw [hrun]; rfl
  · rw [hrun]
  · rw [authenticate, if_pos (connects_calm he a)]
    simp only [hrun]
    rfl

theorem check_calm (he : e.Calm) (id pass : Bytes) (a : State) :
    (checkFriendIdAndPassword H e id pass a).sent
      = a.sent ++ [⟨if credential H a.users id pass then ascii "ok" else ascii "wrong", true⟩] := by
  obtain ⟨b, -, hsent, -, heq⟩ := authenticate_calm (H := H) he id pass (State.send e (ascii "wrong"))
    (State.send e (ascii "ok")) a
  rw [checkFriendIdAndPassword, heq]
  split <;> rw [State.send, hsent, he.writes]

/-- What `/get` answers. -/
def getReply (H : Host) (u : Users) (id pass : Bytes) : Bytes :=
  if credential H u id pass then coordinatesReply ((u.find (decVal id)).bind User.coordinates)
  else ascii "err 1"

theorem get_calm (he : e.Calm) (id pass : Bytes) (a : State) :
    (getFriendCoordinates H e id pass a).users = a.users ∧
    (getFriendCoordinates H e id pass a).sent = a.sent ++ [⟨getReply H a.users id pass, true⟩] := by
  rw [getFriendCoordinates]
  obtain ⟨b, husers, hsent, -, heq⟩ := authenticate_calm (H := H) he id pass
    (State.send e (ascii "err 1")) (fun a =>
      let b := a.run e (.selectCoordinates id)
      if b.failed then b
      else b.send e (coordinatesReply ((a.users.find (decVal id)).bind User.coordinates))) a
  rw [heq, getReply]
  split
  · have hread := run_calm he (q := .selectCoordinates id) (a := b) rfl
    simp only [hread, Bool.false_eq_true, if_false, State.send, hsent, he.writes]
    exact ⟨husers, by rw [husers]⟩
  · rw [State.send, hsent, he.writes]
    exact ⟨husers, rfl⟩

theorem store_calm (he : e.Calm) (s ip : Bytes) (a : State) :
    (storeCoordinates e s ip a).users = a.users.setCoordinates ip s ∧
    (storeCoordinates e s ip a).sent = a.sent := by
  rw [storeCoordinates, if_pos (connects_calm he a),
    run_calm he (q := .updateCoordinates s ip) (a := a.opened) rfl]
  exact ⟨rfl, rfl⟩

theorem lookup_calm (he : e.Calm) (ip : Bytes) (a : State) : a.lookup e ip = a.users.lastAt ip := by
  rw [State.lookup, run_calm he rfl, if_neg Bool.false_ne_true]

theorem commit_calm (he : e.Calm) (v : ℕ) (a : State) :
    (commitPassword H e v a).users = a.users.setPassword v (hashText H (password e)) ∧
      (commitPassword H e v a).sent = a.sent ++ [⟨toDec v ++ ascii " " ++ password e, true⟩] := by
  have hrun := run_calm he (q := .updatePassword (hashText H (password e)) (toDec v)) (a := a) rfl
  rw [commitPassword, hrun]
  simp only [Bool.false_eq_true, if_false, State.send, he.writes, decVal_toDec]
  exact ⟨trivial, trivial⟩

/-- A client that has a row gets a new password for it. -/
theorem init_known (he : e.Calm) {ip : Bytes} {v : ℕ} (hlast : a.users.lastAt ip = some v) :
    (initUser H e ip a).users = a.users.setPassword v (hashText H (password e)) ∧
      (initUser H e ip a).sent = a.sent ++ [⟨toDec v ++ ascii " " ++ password e, true⟩] := by
  obtain ⟨husers, hsent⟩ := commit_calm (H := H) he v (a.opened.run e (.selectIdByIp ip))
  have hfound : a.opened.lookup e ip = some v := (lookup_calm he ip a.opened).trans hlast
  rw [initUser, if_pos (connects_calm he a)]
  simp only [hfound]
  rw [husers, hsent, lookup_users, run_sent]
  exact ⟨rfl, rfl⟩

/-- A client without one gets one first. -/
theorem init_new (he : e.Calm) {ip : Bytes} {u : Users} {v : ℕ} (hlast : a.users.lastAt ip = none)
    (hadd : a.users.addIp ip = some u) (hlast' : u.lastAt ip = some v) :
    (initUser H e ip a).users = u.setPassword v (hashText H (password e)) ∧
      (initUser H e ip a).sent = a.sent ++ [⟨toDec v ++ ascii " " ++ password e, true⟩] := by
  have hnone : a.opened.lookup e ip = none := (lookup_calm he ip a.opened).trans hlast
  have hinsert : ((a.opened.run e (.selectIdByIp ip)).run e (.insertIp ip)).users = u := by
    rw [run_calm he (q := .insertIp ip) (u := u) (by rw [lookup_users]; exact hadd)]
  have hfound : ((a.opened.run e (.selectIdByIp ip)).run e (.insertIp ip)).lookup e ip = some v := by
    rw [lookup_calm he, hinsert, hlast']
  obtain ⟨husers, hsent⟩ := commit_calm (H := H) he v
    (((a.opened.run e (.selectIdByIp ip)).run e (.insertIp ip)).run e (.selectIdByIp ip))
  rw [initUser, if_pos (connects_calm he a)]
  simp only [hnone, hfound]
  rw [husers, hsent, lookup_users, hinsert, run_sent, run_sent, run_sent]
  exact ⟨rfl, rfl⟩

/-- A full table takes nobody in. -/
theorem init_refused (he : e.Calm) {ip : Bytes} (hlast : a.users.lastAt ip = none) (hadd : a.users.addIp ip = none) :
    (initUser H e ip a).users = a.users ∧ (initUser H e ip a).sent = a.sent := by
  have hnone : a.opened.lookup e ip = none := (lookup_calm he ip a.opened).trans hlast
  have hinsert : ((a.opened.run e (.selectIdByIp ip)).run e (.insertIp ip)).users = a.users := by
    rcases run_cases (e := e) (.insertIp ip) (a.opened.run e (.selectIdByIp ip)) with ⟨u, hu, -, -⟩ | heq
    · rw [lookup_users] at hu
      cases hadd.symm.trans hu
    · rw [heq]
      exact lookup_users ip a.opened
  have hagain : ((a.opened.run e (.selectIdByIp ip)).run e (.insertIp ip)).lookup e ip = none := by
    rw [lookup_calm he, hinsert, hlast]
  rw [initUser, if_pos (connects_calm he a)]
  simp only [hnone, hagain]
  rw [lookup_users, hinsert, run_sent, run_sent, run_sent]
  exact ⟨rfl, rfl⟩

end Spec

/-- A failure-free `/check`. -/
theorem check_request {H : Host} {r : Request} (he : r.env.Calm) {id pass : Bytes}
    (hf : checkFriendFormat id pass = true) (hr : r.says (ascii "/check " ++ id ++ ascii " " ++ pass))
    (u : Users) : (handleRequest H u r).2.sent
      = [⟨if Spec.credential H u id pass then ascii "ok" else ascii "wrong", true⟩] := by
  have hreq : Spec.request H u r = .ok (Spec.checkFriendIdAndPassword H r.env id pass (Spec.start u)) := by
    rw [Spec.request, says_command hr, command_check hf]
    rfl
  rw [(request_done hreq).2.2, Spec.check_calm he]
  rfl

/-- A failure-free `/get`. -/
theorem get_request {H : Host} {r : Request} (he : r.env.Calm) {id pass : Bytes}
    (hf : checkFriendFormat id pass = true) (hr : r.says (ascii "/get " ++ id ++ ascii " " ++ pass))
    (u : Users) : (handleRequest H u r).1 = u ∧
      (handleRequest H u r).2.sent = [⟨Spec.getReply H u id pass, true⟩] := by
  have hreq : Spec.request H u r = .ok (Spec.getFriendCoordinates H r.env id pass (Spec.start u)) := by
    rw [Spec.request, says_command hr, command_get hf]
    rfl
  obtain ⟨husers, -, hsent⟩ := request_done hreq
  obtain ⟨hcalm, hcalm'⟩ := Spec.get_calm (H := H) he id pass (Spec.start u)
  exact ⟨husers.trans hcalm, hsent.trans hcalm'⟩

/-- A plain `/store`. -/
theorem store_request {H : Host} {r : Request} {rest : Bytes} (hr : r.says (ascii "/store " ++ rest))
    (u : Users) : (handleRequest H u r).1 = u ∧ (handleRequest H u r).2.sent = [] := by
  have hreq : Spec.request H u r = .ok (Spec.start u) := by
    rw [Spec.request, says_command hr, command_store]
    rfl
  obtain ⟨husers, -, hsent⟩ := request_done hreq
  exact ⟨husers, hsent⟩

/-- A failure-free `/store_and_get` with good arguments. -/
theorem store_and_get_request {H : Host} {r : Request} {ip : Address} (he : r.env.Calm)
    (hip : r.env.remote = .ok ip) {lat lon id pass : Bytes} (hlat : IsDecimal lat) (hlon : IsDecimal lon)
    (hf : checkFriendFormat id pass = true)
    (hr : r.says (ascii "/store_and_get " ++ lat ++ ascii " " ++ lon ++ (ascii " " ++ id ++ ascii " " ++ pass)))
    (u : Users) : (handleRequest H u r).1 = u.setCoordinates ip.to_string (lat ++ ascii " " ++ lon) ∧
      (handleRequest H u r).2.sent
        = [⟨Spec.getReply H (u.setCoordinates ip.to_string (lat ++ ascii " " ++ lon)) id pass, true⟩] := by
  obtain ⟨⟨hid, hid'⟩, hpass, hpass'⟩ := friend_solid hf
  have hwords : words 2 (ascii " " ++ id ++ ascii " " ++ pass) = [id, pass] := by
    have hskip : words 2 (ascii " " ++ (id ++ ascii " " ++ pass)) = words 2 (id ++ ascii " " ++ pass) := by
      have hspace : ∀ b ∈ ascii " ", isSpace b = true := List.all_eq_true.mp rfl
      rw [words, words, word_skip hspace, afterWord_skip hspace]
      rfl
    rw [List.append_assoc, List.append_assoc, ← List.append_assoc id, hskip, words_spaced 1 hid hid',
      words_last 0 hpass hpass']
    rfl
  simp only [words, List.cons.injEq, and_true] at hwords
  have hcommand := (says_command hr).trans (command_store_and_get hlat hlon (by rintro b ⟨⟩; rfl))
  rw [hwords.1, hwords.2, if_pos hf] at hcommand
  obtain ⟨husers, hsent⟩ := Spec.store_calm he (lat ++ ascii " " ++ lon) ip.to_string (Spec.start u)
  obtain ⟨husers', hsent'⟩ := Spec.get_calm (H := H) he id pass
    (Spec.storeCoordinates r.env (lat ++ ascii " " ++ lon) ip.to_string (Spec.start u))
  have hreq : Spec.request H u r = .ok (Spec.getFriendCoordinates H r.env id pass
      (Spec.storeCoordinates r.env (lat ++ ascii " " ++ lon) ip.to_string (Spec.start u))) := by
    rw [Spec.request, hcommand, Spec.handle, Spec.storeHalf, hip]
    rfl
  obtain ⟨hdone, -, hdone'⟩ := request_done hreq
  rw [hdone, hdone', husers', hsent', husers, hsent]
  exact ⟨rfl, rfl⟩

end MarkMe
