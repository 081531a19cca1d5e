import MarkMe.Delivery
import MarkMe.EventLoop

/-! Every request is answered at most once and leaves no connection behind.

    The handles that `sqlite3_open` has given out are those passed to `sqlite3_close`, in this order,
    followed by the one of the open connection. The guard keeps this on both ends and what stands
    between touches neither the connection nor the handles; a `/store_and_get` goes through it twice.
    The replies come from `request_target` and from the verdict on the scene of the request.

        opened   h₀ –– h₂ h₃       (–– is a NULL)
        closed   h₀    h₂          connection   h₃ -/

namespace MarkMe
open Text Session

/-! ### Handles -/

/-- The handle of an open connection. -/
def SQLConnection.current (c : SQLConnection) : Option Handle := if c.connected_ then c.db_ else none

/-- The handles given out. -/
def Handles.given (h : Handles) : List Handle := h.opened.filterMap fun d => d

/-- Every handle given out is closed, but for the one of the open connection. -/
structure Balanced (c : SQLConnection) (h : Handles) : Prop where
  /-- SQLite gives out new handles. -/
  numbered : h.given.Sublist (List.range h.opened.length)
  balanced : h.closed ++ c.current.toList = h.given

namespace Balanced
variable {c : SQLConnection} {h : Handles}

theorem new (file : Bytes) : Balanced (.new file) ⟨[], []⟩ := ⟨List.Sublist.refl _, rfl⟩

theorem nodup (hb : Balanced c h) : h.given.Nodup := hb.numbered.nodup List.nodup_range

/-- One more call of `sqlite3_open`. -/
theorem given_open (h : Handles) (d : Option Handle) (closed : List Handle) :
    Handles.given ⟨h.opened ++ [d], closed⟩ = h.given ++ d.toList := by
  cases d <;> simp [Handles.given]

theorem numbered_open (hb : Balanced c h) {d : Option Handle} (hd : ∀ n ∈ d, n = h.opened.length) :
    (h.given ++ d.toList).Sublist (List.range (h.opened ++ [d]).length) := by
  rw [List.length_append, List.length_singleton, List.range_succ]
  refine hb.numbered.append ?_
  cases d with
  | none => exact List.nil_sublist _
  | some n =>
    rw [hd n rfl]
    exact List.Sublist.refl _

/-- A connection that is not open is connected. -/
theorem connect (hb : Balanced c h) (hc : c.connected_ = false) (o : OpenOutcome) :
    Balanced (c.connect o h).1 (c.connect o h).2.1 := by
  have hclosed : h.closed = h.given := by simpa [SQLConnection.current, hc] using hb.balanced
  have hnew := hb.numbered_open (d := some h.opened.length) (by simp)
  have hnull := hb.numbered_open (d := none) (by simp)
  rw [← given_open h _ h.closed] at hnew hnull
  rcases c.connect_cases o h with ⟨hc', hh⟩ | ⟨code, ⟨hc', hh⟩ | ⟨hc', hh⟩⟩
  · rw [hc', hh]
    exact ⟨hnew, by simp [SQLConnection.current, given_open, hclosed]⟩
  · rw [hc', hh]
    exact ⟨hnull, by simp [SQLConnection.current, given_open, hclosed]⟩
  · rw [hc', hh]
    exact ⟨hnew, by simp [SQLConnection.current, given_open, hclosed]⟩

theorem open_ (hb : Balanced c h) (o : OpenOutcome) : Balanced (c.open_ o h).1 (c.open_ o h).2.1 := by
  rw [SQLConnection.open_]
  split
  · exact hb
  · split
    · exact hb
    · exact hb.connect (by simpa using ‹¬ c.connected_ = true›) o

/-- After `close` the connection is closed and every handle is. -/
theorem close (hb : Balanced c h) : Balanced (c.close h).1 (c.close h).2 ∧ (c.close h).1.connected_ = false := by
  rw [SQLConnection.close]
  cases hc : c.connected_ with
  | false => exact ⟨hb, hc⟩
  | true =>
    cases hdb : c.db_ with
    | none =>
      refine ⟨⟨hb.numbered, ?_⟩, rfl⟩
      simpa [SQLConnection.current, hc, hdb] using hb.balanced
    | some d =>
      refine ⟨⟨hb.numbered, ?_⟩, rfl⟩
      simpa [SQLConnection.current, hc, hdb, sqlite3_close, Handles.given] using hb.balanced

/-- On a closed connection every handle given out has been closed once. -/
theorem closed_once (hb : Balanced c h) (hc : c.connected_ = false) :
    ∀ d, some d ∈ h.opened → h.closed.count d = 1 := by
  intro d hd
  have hclosed : h.closed = h.given := by simpa [SQLConnection.current, hc] using hb.balanced
  have hmem : d ∈ h.given := List.mem_filterMap.mpr ⟨some d, hd, rfl⟩
  rw [hclosed]
  exact List.count_eq_one_of_mem hb.nodup hmem

end Balanced

/-! ### Handlers -/

/-- Neither the connection nor the handles are touched. -/
structure St.Frame (s t : St) : Prop where
  connection : t.dbConnection_ = s.dbConnection_
  handles : t.handles = s.handles

/-- No connection, and every handle accounted for. -/
structure St.AtRest (s : St) : Prop where
  balanced : Balanced s.dbConnection_ s.handles
  closed : s.dbConnection_.connected_ = false

section
variable {H : Host} {e : Env} {s t t' : St}

theorem frame_refl (s : St) : s.Frame s := ⟨rfl, rfl⟩

theorem St.Frame.execute (h : s.Frame t) (query : Bytes) (args : List Bytes) :
    s.Frame (execute H e query args t) := ⟨h.connection, h.handles⟩

theorem St.Frame.send (h : s.Frame t) (data : Bytes) : s.Frame (sendToUser e data t) :=
  ⟨h.connection, h.handles⟩

theorem frame_ite {p : Prop} [Decidable p] (h : s.Frame t) (h' : s.Frame t') : s.Frame (if p then t else t') := by
  split
  · exact h
  · exact h'

/-- Whatever runs under the guard, the session is at rest after it. -/
theorem withConnection_atRest {body : St → St} (hbody : ∀ s, St.Frame s (body s)) (hs : s.AtRest) :
    (withConnection e body s).AtRest := by
  have hopen := hs.balanced.open_ (e.opens s.handles.opened.length)
  have hframe := hbody (s.guarded e)
  have hbalanced : Balanced (body (s.guarded e)).dbConnection_ (body (s.guarded e)).handles := by
    rw [hframe.connection, hframe.handles]
    exact hopen
  rw [withConnection_eq]
  exact ⟨hbalanced.close.1, hbalanced.close.2⟩

theorem init_atRest (hs : s.AtRest) (h : initUser H e s = .ok t) : t.AtRest := by
  rw [initUser] at h
  cases hip : e.remote with
  | error err =>
    rw [hip] at h
    cases h
  | ok ip =>
    rw [hip] at h
    cases h
    refine withConnection_atRest (fun s => ?_) hs
    have hselect := (frame_refl s).execute (H := H) (e := e) selectIdByIp [ip.to_string]
    have hlookup : ∀ (p : Prop) [Decidable p], s.Frame
        (if p then
          execute H e selectIdByIp [ip.to_string]
            (execute H e insertIp [ip.to_string] (execute H e selectIdByIp [ip.to_string] s))
        else execute H e selectIdByIp [ip.to_string] s) := fun p _ =>
      frame_ite ((hselect.execute _ _).execute _ _) hselect
    exact frame_ite (hlookup _) (frame_ite ((hlookup _).execute _ _) (((hlookup _).execute _ _).send _))

theorem store_atRest {coordinates : Bytes} (hs : s.AtRest) (h : storeCoordinates H e coordinates s = .ok t) :
    t.AtRest := by
  rw [storeCoordinates] at h
  cases hip : e.remote with
  | error err =>
    rw [hip] at h
    cases h
  | ok ip =>
    rw [hip] at h
    cases h
    exact withConnection_atRest (fun s => (frame_refl s).execute _ _) hs

theorem get_atRest (id pass : Bytes) (hs : s.AtRest) : (getFriendCoordinates H e id pass s).AtRest := by
  refine withConnection_atRest (fun s => ?_) hs
  have hquery := (frame_refl s).execute (H := H) (e := e) selectCredential [id, hashText H pass]
  have hread := hquery.execute (H := H) (e := e) selectCoordinates [id]
  exact frame_ite hquery (frame_ite (hquery.send _) (frame_ite hread (frame_ite (hread.send _) (hread.send _))))

theorem check_atRest (id pass : Bytes) (hs : s.AtRest) : (checkFriendIdAndPassword H e id pass s).AtRest := by
  refine withConnection_atRest (fun s => ?_) hs
  have hquery := (frame_refl s).execute (H := H) (e := e) selectCredential [id, hashText H pass]
  exact frame_ite hquery (frame_ite (hquery.send _) (hquery.send _))

/-- A request on a session at rest leaves it at rest. -/
theorem receive_atRest {error : Bool} {bytes_tr : ℕ} (hs : s.AtRest)
    (h : receiveDataHandle H e error bytes_tr s = .ok t) : t.AtRest := by
  have hget : ∀ {s : St} {id pass : Bytes}, s.AtRest →
      (if checkFriendFormat id pass then (Except.ok (getFriendCoordinates H e id pass s) : Except SystemError St)
        else .ok s) = .ok t → t.AtRest := by
    intro s id pass hs h
    split at h
    · cases h
      exact get_atRest _ _ hs
    · cases h
      exact hs
  rw [receiveDataHandle] at h
  split at h
  · cases h
    exact hs
  dsimp only at h
  split at h
  · exact init_atRest hs h
  split at h
  · split at h
    · exact store_atRest hs h
    · cases h
      exact hs
  split at h
  · exact hget hs h
  split at h
  · split at h
    · generalize hstore : storeCoordinates H e _ s = stored at h
      cases stored with
      | error err => cases h
      | ok s' => exact hget (store_atRest hs hstore) h
    · exact hget hs h
  split at h
  · split at h
    · cases h
      exact check_atRest _ _ hs
    · cases h
      exact hs
  · cases h
    exact hs

end

/-! ### Replies -/

/-- The request is one that gets a reply when nothing fails. -/
def Request.Answered (r : Request) : Prop := r.header = ascii "/init" ∨ ∃ id pass, r.Presents id pass

section
variable {H : Host} {r : Request} {u : Users}

/-- A command that comes from no answered request stores coordinates at most. -/
theorem unanswered_command (h : ¬ r.Answered) :
    r.command = .nothing ∨ ∃ coordinates, r.command = .storeAndGet coordinates none := by
  obtain ⟨hinit, hfriend⟩ := not_or.mp h
  have hread := reads_message r.message
  rw [Request.command]
  generalize MarkMe.command r.message = c at hread ⊢
  cases hread with
  | init hheader => exact absurd hheader hinit
  | get hheader hf => exact (hfriend ⟨_, _, hf, Or.inl ⟨Or.inl hheader, rfl⟩⟩).elim
  | check hheader hf => exact (hfriend ⟨_, _, hf, Or.inl ⟨Or.inr hheader, rfl⟩⟩).elim
  | @storeAndGet coordinates friend hheader _ hf =>
    cases friend with
    | none => exact Or.inr ⟨coordinates, rfl⟩
    | some f => exact (hfriend ⟨_, _, (hf f rfl).2, Or.inr ⟨hheader, _, _, words_five _⟩⟩).elim
  | nothing _ => exact Or.inl rfl

theorem unanswered_silent (h : ¬ r.Answered) : (handleRequest H u r).2.sent = [] := by
  rcases unanswered_command h with hcommand | ⟨coordinates, hcommand⟩
  · have hreq : Spec.request H u r = .ok (Spec.start u) := by rw [Spec.request, hcommand]; rfl
    exact (request_done hreq).2.2
  · have hhandle : Spec.handle H r.env r.command (Spec.start u)
        = Spec.storeHalf r.env r.command.coordinates (Spec.start u) := by
      have hcoord : r.command.coordinates = coordinates := by rw [hcommand]; rfl
      rw [hcoord, hcommand, Spec.handle]
      cases Spec.storeHalf r.env coordinates (Spec.start u) <;> rfl
    rcases store_half_scene r u with ⟨m, a, -, hhalf, hreached⟩ | ⟨-, err, hhalf⟩
    · exact (request_done (hhandle.trans hhalf)).2.2.trans hreached.sent
    · exact (request_threw (hhandle.trans hhalf)).2.2

/-- The replies of a check, by the verdict. -/
theorem answer_sent {id pass : Bytes} {m : Scene} {a : Spec.State} (h : Spec.Reached u m a) :
    (r.answer H id pass a).sent.length ≤ 1 ∧
      (m.verdict H r.env id pass ≠ .silent → m.readFails r.env = false →
        ∃ d, (r.answer H id pass a).sent = [⟨d, r.env.writes 0⟩]) := by
  rw [Request.answer]
  split
  · rw [Spec.check_sent, h.sent, h.scene]
    cases m.verdict H r.env id pass with
    | silent => exact ⟨by simp [Verdict.choose], fun hne => absurd rfl hne⟩
    | denied => exact ⟨by simp [Verdict.choose], fun _ _ => ⟨_, rfl⟩⟩
    | granted => exact ⟨by simp [Verdict.choose], fun _ _ => ⟨_, rfl⟩⟩
  · rw [Spec.get_sent, h.sent, h.scene]
    cases m.verdict H r.env id pass with
    | silent => exact ⟨by simp [Verdict.choose], fun hne => absurd rfl hne⟩
    | denied => exact ⟨by simp [Verdict.choose], fun _ _ => ⟨_, rfl⟩⟩
    | granted =>
      simp only [Verdict.choose, Spec.revealed, h.scene, h.sent]
      split
      · rename_i hfails
        exact ⟨by simp, fun _ hread => absurd (hfails.symm.trans hread) (by decide)⟩
      · exact ⟨by simp, fun _ _ => ⟨_, rfl⟩⟩

/-- At most one reply is attempted. -/
theorem sent_le_one (H : Host) (u : Users) (r : Request) : (handleRequest H u r).2.sent.length ≤ 1 := by
  by_cases hanswered : r.Answered
  · rcases hanswered with hinit | ⟨id, pass, hp⟩
    · rw [(request_target hinit).1]
      cases r.target u <;> simp
    · rcases presents_outcome hp H u with ⟨m, a, -, hreached, -, hsent, -⟩ | ⟨-, hsent⟩
      · rw [hsent]
        exact (answer_sent hreached).1
      · rw [hsent]
        exact Nat.zero_le 1
  · rw [unanswered_silent hanswered]
    exact Nat.zero_le 1

/-- A failure-free check gets a reply. -/
theorem presents_replies {id pass : Bytes} (hp : r.Presents id pass) (he : r.env.Calm) {ip : Address}
    (hip : r.env.remote = .ok ip) : ∃ d, (handleRequest H u r).2.sent = [⟨d, true⟩] := by
  have hstore : r.StoresWell := Or.inr ⟨⟨ip, hip⟩, he.opens 0, he.stmts 0⟩
  obtain ⟨m', hm', -⟩ := scene_stores_well hstore u
  rcases presents_outcome hp H u with ⟨m, a, -, hreached, -, hsent, -⟩ | ⟨hnone, -⟩
  · have hverdict : m.verdict H r.env id pass ≠ .silent := by
      rw [Scene.verdict, Scene.connects, Scene.queryFails, he.opens, he.stmts]
      cases Spec.credential H m.users id pass <;> simp
    have hread : m.readFails r.env = false := by rw [Scene.readFails, he.stmts]; rfl
    obtain ⟨d, hd⟩ := (answer_sent (H := H) hreached).2 hverdict hread
    exact ⟨d, by rw [hsent, hd, he.writes]⟩
  · rw [hm'] at hnone
    cases hnone

/-- The INSERT of a client without a row fails if the table is full, and the log says so. -/
theorem init_full {e : Env} {ip : Bytes} (hconn : (Spec.start u).connects e = true) (hlast : u.lastAt ip = none)
    (hadd : u.addIp ip = none) : ∃ p ∈ (Spec.initUser H e ip (Spec.start u)).calls, p.2 = false := by
  have hstart : Spec.Pending u 0 (Spec.start u).opened := ⟨rfl, rfl, fun _ => rfl⟩
  have hselect : Spec.Pending u 1 ((Spec.start u).opened.run e (.selectIdByIp ip)) := hstart.run (by simp)
  have husers : ((Spec.start u).opened.run e (.selectIdByIp ip)).users = u := Spec.lookup_users ip _
  have hnone : ∀ n, Spec.found e ip n u = none := by
    intro n
    rw [Spec.found, hlast]
    split <;> rfl
  have hinsert : Spec.Pending u 2 (((Spec.start u).opened.run e (.selectIdByIp ip)).run e (.insertIp ip)) :=
    hselect.run (by simp)
  have heffect : (Query.insertIp ip).effect ((Spec.start u).opened.run e (.selectIdByIp ip)).users = none := by
    rw [husers]
    exact hadd
  obtain ⟨husers', hlog⟩ : (((Spec.start u).opened.run e (.selectIdByIp ip)).run e (.insertIp ip)).users = u ∧
      ((Query.insertIp ip).statement, false) ∈
        (((Spec.start u).opened.run e (.selectIdByIp ip)).run e (.insertIp ip)).calls := by
    rcases Spec.run_cases (e := e) (.insertIp ip) ((Spec.start u).opened.run e (.selectIdByIp ip)) with
      ⟨w, hw, -, -⟩ | heq
    · rw [heffect] at hw
      cases hw
    · rw [heq]
      exact ⟨husers, List.mem_append_right _ (List.mem_singleton_self _)⟩
  refine ⟨((Query.insertIp ip).statement, false), ?_, rfl⟩
  have hstartUsers : (Spec.start u).opened.users = u := rfl
  rw [Spec.initUser, if_pos hconn]
  dsimp only
  rw [Spec.lookup_found hstart, hstartUsers, hnone]
  dsimp only
  rw [Spec.lookup_found hinsert, husers', hnone]
  exact Spec.run_calls _ hlog

/-- An `/init` whose statements all run has a row to update. -/
theorem init_replies (hinit : r.header = ascii "/init") (he : r.env.Calm) {ip : Address}
    (hip : r.env.remote = .ok ip) (hrc : ∀ x ∈ (handleRequest H u r).2.execs, x.rc = 0) :
    ∃ d, (handleRequest H u r).2.sent = [⟨d, true⟩] := by
  obtain ⟨hsent, -⟩ := request_target (H := H) (u := u) hinit
  have htarget : r.target u = Spec.target r.env ip.to_string u := by
    rw [Request.target, hip, he.opens]
  have hfound : ∀ n w, Spec.found r.env ip.to_string n w = w.lastAt ip.to_string := by
    intro n w
    rw [Spec.found, he.stmts]
    rfl
  obtain ⟨v, hv⟩ : ∃ v, r.target u = some v := by
    rw [htarget, Spec.target, hfound, hfound, Spec.inserted, he.stmts, he.stmts]
    cases hlast : u.lastAt ip.to_string with
    | some v => exact ⟨v, rfl⟩
    | none =>
      cases hadd : u.addIp ip.to_string with
      | some u' => exact Users.lastAt_addIp hadd
      | none =>
        have hreq : Spec.request H u r = .ok (Spec.initUser H r.env ip.to_string (Spec.start u)) := by
          rw [Spec.request, header_init.mpr hinit, Spec.handle, hip]
          rfl
        obtain ⟨p, hp, hfailed⟩ := init_full (H := H) (Spec.connects_calm he _) hlast hadd
        rw [← (request_done hreq).2.1] at hp
        obtain ⟨x, hx, rfl⟩ := List.mem_map.mp hp
        have hzero := hrc x hx
        simp [ExecCall.view, hzero] at hfailed
  rw [hsent, hv, he.writes]
  exact ⟨_, rfl⟩

end

/-- Every request is answered at most once and leaves no connection behind; one that gets through without
    failures is answered exactly if it is an `/init` or carries friend arguments in the right form. -/
theorem answered_once (H : Host) (u : Users) (r : Request) (ip : Address) (hip : r.env.remote = .ok ip) :
    ∃ s, completeRead H (Session.new H.dbFilename).start u r = .ok s ∧
      s.sent.length ≤ 1 ∧
      (∀ d, some d ∈ s.handles.opened → s.handles.closed.count d = 1) ∧
      s.dbConnection_.connected_ = false ∧
      (r.env.Calm → (∀ x ∈ s.execs, x.rc = 0) →
        (r.Answered → ∃ d, s.sent = [⟨d, true⟩]) ∧ (¬ r.Answered → s.sent = [])) := by
  have hrest : ∀ bytes, (((Session.new H.dbFilename).start.fill bytes).toSt u).AtRest :=
    fun bytes => ⟨Balanced.new H.dbFilename, rfl⟩
  obtain ⟨s, hs⟩ : ∃ s, completeRead H (Session.new H.dbFilename).start u r = .ok s := by
    cases hread : completeRead H (Session.new H.dbFilename).start u r with
    | ok s => exact ⟨s, rfl⟩
    | error err =>
      obtain ⟨⟨err', herr⟩, -⟩ := (throws_iff H u r).mp ⟨err, hread⟩
      rw [hip] at herr
      cases herr
  have hatRest : s.AtRest := by
    rw [completeRead] at hs
    cases hread : r.read with
    | error =>
      rw [hread] at hs
      exact receive_atRest ⟨Balanced.new H.dbFilename, rfl⟩ hs
    | data bytes fits =>
      rw [hread] at hs
      exact receive_atRest (hrest bytes) hs
  have hhandle : handleRequest H u r = (s.users, ⟨s.execs, s.sent, none⟩) := by
    rw [handleRequest, hs]
    rfl
  have hone := sent_le_one H u r
  rw [hhandle] at hone
  refine ⟨s, hs, hone, hatRest.balanced.closed_once hatRest.closed, hatRest.closed, fun he hrc => ⟨?_, ?_⟩⟩
  · rintro (hinit | ⟨id, pass, hp⟩)
    · have hreplies := init_replies (H := H) (u := u) hinit he hip (by rw [hhandle]; exact hrc)
      rwa [hhandle] at hreplies
    · have hreplies := presents_replies (H := H) (u := u) hp he hip
      rwa [hhandle] at hreplies
  · intro hunanswered
    have hsilent := unanswered_silent (H := H) (u := u) hunanswered
    rwa [hhandle] at hsilent

/-- The first `/init` of all. -/
theorem answered_once_first : ∃ s, completeRead Host.small (Session.new Host.small.dbFilename).start Users.empty initA
      = .ok s ∧ (∀ d, some d ∈ s.handles.opened → s.handles.closed.count d = 1) ∧ ∃ d, s.sent = [⟨d, true⟩] := by
  obtain ⟨s, hs, -, hclosed, -, hcalm⟩ := answered_once Host.small Users.empty initA clientA rfl
  have hexecs : s.execs = (handleRequest Host.small Users.empty initA).2.execs := by
    rw [handleRequest, hs]
    rfl
  have hrc : ∀ x ∈ s.execs, x.rc = 0 := by
    rw [hexecs]
    decide +kernel
  exact ⟨s, hs, hclosed, (hcalm (Env.calm_calm _ _) hrc).1 (Or.inl (by decide +kernel))⟩

end MarkMe
