import MarkMe.Messages
import MarkMe.Statements

/-! The credentials that are valid are the ones committed last.

    `Commits` reads off the statements of a request whether it was an `/init` whose password update
    went through for an id, and `latest` is the password of the last such request of a history. The
    stored hash of every id is always the hash of its latest password, so `/check` accepts that
    password and no other up to hash collisions. -/

namespace MarkMe
open Text Session

variable (H : Host)

/-- An `/init` that committed the password update of `v`. -/
def Commits (v : ℕ) (ev : Machine.Event Users Request Outcome) : Prop :=
  ev.input.header = ascii "/init" ∧ ∃ x ∈ ev.out.execs, x.rc = 0 ∧
    x.sql = SQLDatabase.formatQueryString H updatePassword
      [hashText H (generatePassword ev.input.env.draws 8), toDec v]

instance (v : ℕ) : DecidablePred (Commits H v) := fun ev =>
  inferInstanceAs (Decidable (ev.input.header = ascii "/init" ∧ ∃ x ∈ ev.out.execs, x.rc = 0 ∧
    x.sql = SQLDatabase.formatQueryString H updatePassword
      [hashText H (generatePassword ev.input.env.draws 8), toDec v]))

/-- The password generated by the last `/init` that committed one for `v`. -/
def latest (v : ℕ) (h : History) : Option Bytes :=
  (h.filter (fun ev => Commits H v ev)).getLast?.map fun ev => generatePassword ev.input.env.draws 8

variable {H}

theorem latest_commit {v : ℕ} {h : History} {ev : Machine.Event Users Request Outcome} (hev : Commits H v ev) :
    latest H v (h ++ [ev]) = some (generatePassword ev.input.env.draws 8) := by
  have hsingle : [ev].filter (fun ev => Commits H v ev) = [ev] := by simp [hev]
  rw [latest, List.filter_append, hsingle, List.getLast?_concat, Option.map_some]

theorem latest_other {v : ℕ} {h h' : History} (hh : ∀ ev ∈ h', ¬ Commits H v ev) :
    latest H v (h ++ h') = latest H v h := by
  have hnil : h'.filter (fun ev => Commits H v ev) = [] := by
    rw [List.filter_eq_nil_iff]
    exact fun ev hev => by simpa using hh ev hev
  rw [latest, List.filter_append, hnil, List.append_nil, latest]

/-! ### The generated password -/

theorem generatePassword_eq (draws : ℕ → Draw) (n : ℕ) :
    generatePassword draws n = (List.range n).map fun i => Draw.char (draws i) := by
  have h : ∀ (l : List ℕ) (acc : Bytes), l.foldl (fun result i => result ++ [Draw.char (draws i)]) acc
      = acc ++ l.map fun i => Draw.char (draws i) := by
    intro l
    induction l with
    | nil => intro acc; simp
    | cons i l ih => intro acc; rw [List.foldl_cons, ih, List.map_cons, List.append_assoc, List.singleton_append]
  rw [generatePassword, h, List.nil_append]

theorem generatePassword_length (draws : ℕ → Draw) (n : ℕ) : (generatePassword draws n).length = n := by
  rw [generatePassword_eq, List.length_map, List.length_range]

theorem draw_char (d : Draw) : isDigit (Draw.char d) = true ∨ isLower (Draw.char d) = true := by
  cases d with
  | letter i => exact Or.inr (by revert i; decide)
  | digit i => exact Or.inl (by revert i; decide)

theorem generatePassword_bytes (draws : ℕ → Draw) (n : ℕ) :
    ∀ b ∈ generatePassword draws n, isDigit b = true ∨ isLower b = true := by
  intro b hb
  rw [generatePassword_eq] at hb
  obtain ⟨i, -, rfl⟩ := List.mem_map.mp hb
  exact draw_char _

/-- The arguments of a delivered reply pass the friend check. -/
theorem welcome_format (v : ℕ) (draws : ℕ → Draw) :
    checkFriendFormat (toDec v) (generatePassword draws 8) = true := by
  refine (check_friend_iff _ _).mpr ⟨toDec_numeral v, fun h => ?_, generatePassword_bytes draws 8⟩
  have := generatePassword_length draws 8
  rw [h] at this
  cases this

/-! ### One request -/

theorem header_init {r : Request} : r.command = .init ↔ r.header = ascii "/init" := by
  have hread := reads_message r.message
  rw [Request.command, Request.header]
  generalize MarkMe.command r.message = c at hread ⊢
  cases hread with
  | init h => exact iff_of_true rfl h
  | get h _ => exact iff_of_false (by simp) (by rw [h]; decide)
  | check h _ => exact iff_of_false (by simp) (by rw [h]; decide)
  | storeAndGet h _ _ => exact iff_of_false (by simp) (by rw [h]; decide)
  | nothing h => exact iff_of_false (by simp) h

namespace Spec
variable {e : Env} {c : Command} {a b : State}

/-- A password update is part of an `/init` and is for a row of the client. -/
theorem may_commit {pass id : Bytes} (h : May H e c a (.run (.updatePassword pass id))) :
    c = .init ∧ pass = hashText H (password e) ∧
      ∃ ip v, e.remote = .ok ip ∧ a.users.lastAt ip.to_string = some v ∧ id = toDec v := by
  cases h with
  | commit hip hlast => exact ⟨rfl, rfl, _, _, hip, hlast, rfl⟩

/-- The password update of this request. -/
def commitStatement (H : Host) (e : Env) (v : ℕ) : Statement :=
  (Query.updatePassword (hashText H (password e)) (toDec v)).statement

/-- A statement with the text of a password update is that update. -/
theorem commit_of_text {q : Query} (hq : q.Clean) {v : ℕ} (h : q.text = (commitStatement H e v).sql) :
    q = .updatePassword (hashText H (password e)) (toDec v) :=
  text_inj hq.args (by simpa [Query.args] using ⟨hash_safe _, SafeArg.toDec _⟩) h

theorem passwordOf_set {u : Users} {v : ℕ} {r : User} (hr : u.find v = some r) (pass : Bytes) :
    (u.setPassword v pass).passwordOf v = some pass := by
  have hid : r.id = v := (Users.find_some.mp hr).2
  rw [Users.passwordOf, Users.setPassword, Users.find_setWhere, hr]
  simp [hid, User.set]

/-- The log of a request tells what it did to the stored hash of `v`. -/
structure Told (H : Host) (e : Env) (c : Command) (v : ℕ) (u : Users) (a : State) : Prop where
  committed : (commitStatement H e v, true) ∈ a.calls →
    c = .init ∧ a.users.passwordOf v = some (hashText H (password e))
  kept : (commitStatement H e v, true) ∉ a.calls → a.users.passwordOf v = u.passwordOf v

theorem told_step {v : ℕ} {u : Users} {x : Action} (hc : c.Valid) (hx : May H e c a x)
    (ha : Told H e c v u a) : Told H e c v u (x.take e a) := by
  cases x with
  | open_ => exact ⟨ha.committed, ha.kept⟩
  | send d => exact ⟨ha.committed, ha.kept⟩
  | run q =>
    have hq := may_clean hc hx
    rw [Action.take]
    rcases run_cases (e := e) q a with ⟨w, hw, -, heq⟩ | heq
    · by_cases htext : q.statement = commitStatement H e v
      · -- the update of `v` itself
        cases commit_of_text hq (congrArg Statement.sql htext)
        rw [heq]
        refine ⟨fun _ => ?_, fun h => absurd (by simp [commitStatement]) h⟩
        obtain ⟨hc', -, ip, v', -, hlast, hv'⟩ := may_commit hx
        rw [toDec_inj] at hv'
        subst hv'
        obtain ⟨r, hr, hrid, -⟩ := Users.lastAt_some hlast
        cases hw
        rw [decVal_toDec]
        exact ⟨hc', passwordOf_set (Users.find_some.mpr ⟨hr, hrid⟩) _⟩
      · have hother : ∀ pass id, q = .updatePassword pass id → decVal id ≠ v := by
          rintro pass id rfl hv
          obtain ⟨-, rfl, ip, v', -, -, rfl⟩ := may_commit hx
          rw [decVal_toDec] at hv
          subst hv
          exact htext rfl
        have hmem : ((commitStatement H e v, true) ∈ a.calls ++ [(q.statement, true)]) ↔
            (commitStatement H e v, true) ∈ a.calls := by
          simp [eq_comm (a := commitStatement H e v), htext]
        have hpass := effect_passwordOf hw hother
        rw [heq]
        exact ⟨fun h => (ha.committed (hmem.mp h)).imp_right hpass.trans,
          fun h => hpass.trans (ha.kept fun h' => h (hmem.mpr h'))⟩
    · have hmem : ((commitStatement H e v, true) ∈ a.calls ++ [(q.statement, false)]) ↔
          (commitStatement H e v, true) ∈ a.calls := by
        simp
      rw [heq]
      exact ⟨fun h => ha.committed (hmem.mp h), fun h => ha.kept fun h' => h (hmem.mpr h')⟩

theorem told_acts {v : ℕ} {u : Users} (hc : c.Valid) (h : Acts H e c (start u) b) : Told H e c v u b :=
  acts_inv (fun _ _ hx ha => told_step hc hx ha) h
    ⟨fun h => absurd h (by simp [start]), fun _ => rfl⟩

end Spec

variable {u : Users} {r : Request}

/-- A request has committed for `v` exactly when its log says so. -/
theorem commits_iff {a : Spec.State} (v : ℕ)
    (hacts : Spec.Acts H r.env r.command (Spec.start u) a)
    (hcalls : (handleRequest H u r).2.execs.map ExecCall.view = a.calls) :
    Commits H v (Machine.event (handleRequest H) u r) ↔ (Spec.commitStatement H r.env v, true) ∈ a.calls := by
  have htext : SQLDatabase.formatQueryString H updatePassword
      [hashText H (generatePassword r.env.draws 8), toDec v] = (Spec.commitStatement H r.env v).sql :=
    query_text H (.updatePassword (hashText H (Spec.password r.env)) (toDec v))
  have hlog : (∃ x ∈ (handleRequest H u r).2.execs, x.rc = 0 ∧ x.sql = (Spec.commitStatement H r.env v).sql)
      ↔ (Spec.commitStatement H r.env v, true) ∈ a.calls := by
    rw [← hcalls, List.mem_map]
    simp only [ExecCall.view, Prod.mk.injEq, beq_iff_eq]
    refine exists_congr fun x => and_congr_right fun hx => ?_
    constructor
    · rintro ⟨hrc, hsql⟩
      -- the text of a clean query determines the query
      obtain ⟨q, hq, hst⟩ := execs_clean H u r x hx
      rw [hst, Spec.commit_of_text hq ((congrArg Statement.sql hst).symm.trans hsql)]
      exact ⟨rfl, hrc⟩
    · rintro ⟨hst, hrc⟩
      exact ⟨hrc, by rw [← hst]⟩
  rw [Commits]
  simp only [Machine.event, htext, hlog]
  refine ⟨fun h => h.2, fun h => ⟨?_, h⟩⟩
  exact header_init.mp ((Spec.told_acts (command_valid r.message) hacts).committed h).1

/-- One request: the stored hash of `v` is the one just committed, or what it was. -/
theorem request_password (v : ℕ) :
    (Commits H v (Machine.event (handleRequest H) u r) →
      (handleRequest H u r).1.passwordOf v = some (hashText H (generatePassword r.env.draws 8))) ∧
    (¬ Commits H v (Machine.event (handleRequest H) u r) →
      (handleRequest H u r).1.passwordOf v = u.passwordOf v) := by
  obtain ⟨a, hacts, husers, hcalls, -⟩ := request_acts H u r
  have htold := Spec.told_acts (v := v) (command_valid r.message) hacts
  rw [commits_iff v hacts hcalls, husers]
  exact ⟨fun h => (htold.committed h).2, htold.kept⟩

/-- The stored hashes are those of the latest passwords. -/
theorem passwordOf_latest (H : Host) (reqs : List Request) (v : ℕ) :
    (tableAfter H reqs).passwordOf v
      = (latest H v (historyOf H reqs)).map (hashText H) := by
  refine Machine.history (J := fun h u => ∀ v, u.passwordOf v = (latest H v h).map (hashText H))
    (fun _ => rfl) (fun h u r ih v => ?_) reqs v
  by_cases hev : Commits H v (Machine.event (handleRequest H) u r)
  · rw [latest_commit hev, (request_password v).1 hev]
    rfl
  · have hlatest : latest H v (h ++ [Machine.event (handleRequest H) u r]) = latest H v h :=
      latest_other (by simpa using hev)
    rw [hlatest, ← ih v]
    exact (request_password v).2 hev

/-! ### What a reply of `/init` says -/

namespace Spec
variable {e : Env} {c : Command} {a b : State}

/-- A reply of an `/init`: it names an id of the client's address and the password committed. -/
def Welcome (H : Host) (e : Env) (a : State) (s : Sent) : Prop :=
  ∃ ip v, e.remote = .ok ip ∧ a.users.ownerOf v = some ip.to_string ∧
    s.data = toDec v ++ ascii " " ++ password e ∧ (commitStatement H e v, true) ∈ a.calls

theorem welcome_acts {u : Users} (h : Acts H e .init (start u) b) : ∀ s ∈ b.sent, Welcome H e b s := by
  refine acts_inv (I := fun a => ∀ s ∈ a.sent, Welcome H e a s) ?_ h (by simp [start])
  intro a x hx ih
  cases x with
  | open_ => exact ih
  | run q =>
    intro s hs
    obtain ⟨ip, v, hip, howner, hdata, hlog⟩ := ih s (run_sent q a ▸ hs)
    exact ⟨ip, v, hip, run_ownerOf howner, hdata, run_calls q hlog⟩
  | send d =>
    intro s hs
    rcases List.mem_append.mp hs with hs | hs
    · exact ih s hs
    · rw [List.mem_singleton] at hs
      subst hs
      cases hx with
      | welcome hip hlast hlog => exact ⟨_, _, hip, Users.lastAt_owner hlast, rfl, hlog⟩
      | refusal hf => cases hf
      | reveal hf => cases hf

end Spec

/-- A reply of an `/init` was committed and names an id of the client. -/
theorem request_welcome (hr : r.header = ascii "/init") :
    ∀ s ∈ (handleRequest H u r).2.sent, ∃ ip v, r.env.remote = .ok ip ∧
      (handleRequest H u r).1.ownerOf v = some ip.to_string ∧
      s.data = toDec v ++ ascii " " ++ generatePassword r.env.draws 8 ∧
      Commits H v (Machine.event (handleRequest H) u r) := by
  obtain ⟨a, hacts, husers, hcalls, hsent⟩ := request_acts H u r
  rw [hsent, husers]
  intro s hs
  have hinit := hacts
  rw [header_init.mpr hr] at hinit
  obtain ⟨ip, v, hip, howner, hdata, hlog⟩ := Spec.welcome_acts hinit s hs
  exact ⟨ip, v, hip, howner, hdata, (commits_iff v hacts hcalls).mpr hlog⟩

/-- `/check` answers by the latest password. -/
theorem check_latest (H : Host) (reqs : List Request) {r : Request} (he : r.env.Calm) {id pass : Bytes}
    (hf : checkFriendFormat id pass = true) (hr : r.says (ascii "/check " ++ id ++ ascii " " ++ pass)) :
    (handleRequest H (tableAfter H reqs) r).2.sent = [⟨ascii "ok", true⟩] ↔
      ∃ pw, latest H (decVal id) (historyOf H reqs) = some pw ∧
        H.hash pass = H.hash pw := by
  have hok : ascii "ok" ≠ ascii "wrong" := by decide
  have hhash : ∀ pw, hashText H pw = hashText H pass ↔ H.hash pass = H.hash pw := by
    intro pw
    rw [hashText, hashText, toDec_inj, UInt64.toNat_inj, eq_comm]
  have hanswer : (handleRequest H (tableAfter H reqs) r).2.sent
      = [⟨ascii "ok", true⟩] ↔
      Spec.credential H (tableAfter H reqs) id pass = true := by
    rw [check_request he hf hr]
    split <;> simp [*, hok.symm]
  rw [hanswer, credential_iff, passwordOf_latest, Option.map_eq_some_iff]
  exact exists_congr fun pw => and_congr_right fun _ => hhash pw

/-- The reply of an `/init` has two words, as `/check` extracts them, and fits behind it. -/
theorem welcome_words {v : ℕ} (hv : v ≤ maxRowid) (draws : ℕ → Draw) :
    let reply := toDec v ++ ascii " " ++ generatePassword draws 8
    word reply = toDec v ∧ word (afterWord reply) = generatePassword draws 8 ∧
      (ascii "/check " ++ reply).length ≤ BUFFER_SIZE_IN_BYTES := by
  obtain ⟨⟨hid, hid'⟩, hpass, hpass'⟩ := friend_solid (welcome_format v draws)
  have hwords : words 2 (toDec v ++ ascii " " ++ generatePassword draws 8)
      = [toDec v, generatePassword draws 8] := by
    rw [words_spaced 1 hid hid', words_last 0 hpass hpass']
    rfl
  have hlen : (toDec v).length ≤ 19 := toDec_length_le (by decide) (hv.trans_lt (by decide))
  simp only [words, List.cons.injEq, and_true] at hwords
  refine ⟨hwords.1, hwords.2, ?_⟩
  have h7 : (ascii "/check ").length = 7 := rfl
  have h1 : (ascii " ").length = 1 := rfl
  simp only [List.length_append, generatePassword_length, h7, h1, BUFFER_SIZE_IN_BYTES]
  omega

/-- Exactly the latest committed credentials are valid, in every run from the empty table. And a
    reply of `/init`, sent back to `/check`, is accepted until the next `/init` commits for its id. -/
theorem credentials_latest (H : Host) :
    (∀ (reqs : List Request) (r : Request) (id pass : Bytes), r.env.Calm → isNumeral id = true → pass ≠ [] →
      (∀ b ∈ pass, isDigit b = true ∨ isLower b = true) →
      r.says (ascii "/check " ++ id ++ ascii " " ++ pass) →
      ((handleRequest H (tableAfter H reqs) r).2.sent = [⟨ascii "ok", true⟩] ↔
        ∃ pw, latest H (decVal id) (historyOf H reqs) = some pw ∧
          H.hash pass = H.hash pw)) ∧
    (∀ (reqs : List Request) (r : Request), r.header = ascii "/init" →
      ∀ s ∈ (handleRequest H (tableAfter H reqs) r).2.sent,
        ∃ v pw, s.data = toDec v ++ ascii " " ++ pw ∧ word s.data = toDec v ∧ word (afterWord s.data) = pw ∧
          checkFriendFormat (toDec v) pw = true ∧
          (ascii "/check " ++ s.data).length ≤ BUFFER_SIZE_IN_BYTES ∧
          ∀ (reqs' : List Request) (r' : Request),
            (∀ ev ∈ Machine.trace (handleRequest H) (tableAfter H (reqs ++ [r])) reqs', ¬ Commits H v ev) →
            r'.env.Calm → r'.says (ascii "/check " ++ s.data) →
            (handleRequest H (tableAfter H (reqs ++ [r] ++ reqs')) r').2.sent = [⟨ascii "ok", true⟩]) := by
  refine ⟨fun reqs r id pass he hid hne hpass hr => ?_, fun reqs r hinit s hs => ?_⟩
  · exact check_latest H reqs he ((check_friend_iff _ _).mpr ⟨hid, hne, hpass⟩) hr
  · obtain ⟨ip, v, -, howner, hdata, hcommit⟩ := request_welcome hinit s hs
    obtain ⟨hword, hword', hlen⟩ := welcome_words (Users.owner_le howner) r.env.draws
    refine ⟨v, generatePassword r.env.draws 8, hdata, by rw [hdata, hword], by rw [hdata, hword'],
      welcome_format v _, by rw [hdata]; exact hlen, fun reqs' r' hquiet he hr' => ?_⟩
    have hr'' : r'.says (ascii "/check " ++ toDec v ++ ascii " " ++ generatePassword r.env.draws 8) := by
      rw [hdata] at hr'
      simpa only [List.append_assoc] using hr'
    have hlatest : latest H v (historyOf H (reqs ++ [r] ++ reqs'))
        = some (generatePassword r.env.draws 8) := by
      rw [historyOf, Machine.trace_append, latest_other hquiet, Machine.trace_concat, latest_commit hcommit]
      rfl
    have hcheck := check_latest H (reqs ++ [r] ++ reqs') he (welcome_format v _) hr''
    rw [decVal_toDec] at hcheck
    exact hcheck.mpr ⟨_, hlatest, rfl⟩

/-- The first user of all, once by the history and once by the reply it got. -/
theorem credentials_latest_first :
    let init := initA
    let check := Request.calm clientB (ascii "/check 1 00000000") (by decide)
    (handleRequest Host.small (tableAfter Host.small [init]) check).2.sent = [⟨ascii "ok", true⟩] ∧
      (handleRequest Host.small (tableAfter Host.small ([] ++ [init] ++ [])) check).2.sent
        = [⟨ascii "ok", true⟩] := by
  constructor
  · refine ((credentials_latest Host.small).1 _ _ (ascii "1") (ascii "00000000") (Env.calm_calm _ _) (by decide)
      (by decide) (generatePassword_bytes (fun _ => .digit 0) 8) ⟨_, rfl⟩).mpr ⟨ascii "00000000", ?_, rfl⟩
    decide +kernel
  · obtain ⟨v, pw, -, -, -, -, -, haccepted⟩ := (credentials_latest Host.small).2 []
      (initA) (by decide) ⟨ascii "1 00000000", true⟩ (by decide +kernel)
    exact haccepted [] _ (by simp [Machine.trace]) (Env.calm_calm _ _) ⟨_, rfl⟩

end MarkMe
