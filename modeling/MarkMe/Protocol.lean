import MarkMe.Queries
import MarkMe.Validators

/-! What a request is for.

    `command` reads a message once and for all: one of four commands with validated arguments, or
    nothing. `Spec` says what a command does in terms of rows, without strings, result vectors or
    handles: its state is the table, the statements run so far with their outcomes, whether the last
    one failed, and the replies. `receive_refines` is the connection: seen through `St.abs`,
    `receiveDataHandle` on a session between two requests does exactly what `Spec.handle` says.

        bytes ──command──▶ Command ──Spec.handle──▶ Spec.State
          │ receiveDataHandle                          ▲
          └──────────────────▶ St ──────abs────────────┘ -/

namespace MarkMe
open Text Session

/-! ### Commands -/

inductive Command where
  | nothing
  | init
  | get (id pass : Bytes)
  | check (id pass : Bytes)
  | storeAndGet (coordinates : Option Bytes) (friend : Option (Bytes × Bytes))

/-- The command of a message, from its first five words. -/
def commandOf : List Bytes → Command
  | [header, a, b, c, d] =>
    if header = ascii "/init" then .init
    else if header = ascii "/get" then if checkFriendFormat a b then .get a b else .nothing
    else if header = ascii "/store_and_get" then
      .storeAndGet
        (if checkCoordinatesFormat (a ++ ascii " " ++ b) then some (a ++ ascii " " ++ b) else none)
        (if checkFriendFormat c d then some (c, d) else none)
    else if header = ascii "/check" then if checkFriendFormat a b then .check a b else .nothing
    -- `/store` asks a single word for white space and never stores
    else .nothing
  | _ => .nothing

def command (data : Bytes) : Command := commandOf (words 5 data)

section
variable (a b c d : Bytes)

theorem commandOf_init : commandOf [ascii "/init", a, b, c, d] = .init := rfl

theorem commandOf_get : commandOf [ascii "/get", a, b, c, d]
    = if checkFriendFormat a b then .get a b else .nothing := rfl

theorem commandOf_check : commandOf [ascii "/check", a, b, c, d]
    = if checkFriendFormat a b then .check a b else .nothing := rfl

theorem commandOf_store_and_get : commandOf [ascii "/store_and_get", a, b, c, d] = .storeAndGet
    (if checkCoordinatesFormat (a ++ ascii " " ++ b) then some (a ++ ascii " " ++ b) else none)
    (if checkFriendFormat c d then some (c, d) else none) := rfl

/-- How five words make a command. -/
inductive Reads (header : Bytes) : Command → Prop
  | init : header = ascii "/init" → Reads header .init
  | get : header = ascii "/get" → checkFriendFormat a b = true → Reads header (.get a b)
  | check : header = ascii "/check" → checkFriendFormat a b = true → Reads header (.check a b)
  | storeAndGet {coordinates : Option Bytes} {friend : Option (Bytes × Bytes)} :
      header = ascii "/store_and_get" →
      (∀ s ∈ coordinates, s = a ++ ascii " " ++ b ∧ checkCoordinatesFormat s = true) →
      (∀ f ∈ friend, f = (c, d) ∧ checkFriendFormat c d = true) → Reads header (.storeAndGet coordinates friend)
  | nothing : header ≠ ascii "/init" → Reads header .nothing

/-- The words of a message as the handlers extract them. -/
theorem words_five (data : Bytes) : words 5 data = [word data, word (afterWord data),
    word (afterWord (afterWord data)), word (afterWord (afterWord (afterWord data))),
    word (afterWord (afterWord (afterWord (afterWord data))))] := rfl

theorem reads_words (header : Bytes) : Reads a b c d header (commandOf [header, a, b, c, d]) := by
  rcases eq_or_ne header (ascii "/init") with rfl | hinit
  · exact .init rfl
  rcases eq_or_ne header (ascii "/get") with rfl | hget
  · rw [commandOf_get]
    split
    · exact .get rfl ‹_›
    · exact .nothing hinit
  rcases eq_or_ne header (ascii "/check") with rfl | hcheck
  · rw [commandOf_check]
    split
    · exact .check rfl ‹_›
    · exact .nothing hinit
  rcases eq_or_ne header (ascii "/store_and_get") with rfl | hstore
  · rw [commandOf_store_and_get]
    refine .storeAndGet rfl (fun s hs => ?_) (fun f hf => ?_)
    · obtain ⟨h, ⟨⟩⟩ := Option.ite_none_right_eq_some.mp hs
      exact ⟨rfl, h⟩
    · obtain ⟨h, ⟨⟩⟩ := Option.ite_none_right_eq_some.mp hf
      exact ⟨rfl, h⟩
  · rw [commandOf, if_neg hinit, if_neg hget, if_neg hstore, if_neg hcheck]
    exact .nothing hinit

end

/-- How a message makes its command. -/
theorem reads_message (data : Bytes) :
    Reads (word (afterWord data)) (word (afterWord (afterWord data)))
      (word (afterWord (afterWord (afterWord data))))
      (word (afterWord (afterWord (afterWord (afterWord data))))) (word data) (command data) :=
  reads_words _ _ _ _ _

/-! ### The meaning of a command -/

namespace Spec

structure State where
  users : Users
  /-- `sqlite3_open` calls made. -/
  opens : ℕ
  /-- The statements handed to SQLite and whether it carried them out. -/
  calls : List (Statement × Bool)
  /-- The last statement failed. -/
  failed : Bool
  sent : List Sent

variable (H : Host) (e : Env)

def State.opened (a : State) : State := { a with opens := a.opens + 1 }

/-- The next `sqlite3_open` succeeds. -/
def State.connects (a : State) : Bool :=
  match e.opens a.opens with
  | .ok => true
  | .fail _ _ => false

def State.send (data : Bytes) (a : State) : State :=
  { a with sent := a.sent ++ [⟨data, e.writes a.sent.length⟩] }

/-- Run a statement on an open connection. -/
def State.run (q : Query) (a : State) : State :=
  match e.stmts a.calls.length, q.effect a.users with
  | none, some u => { a with users := u, calls := a.calls ++ [(q.statement, true)], failed := false }
  | _, _ => { a with calls := a.calls ++ [(q.statement, false)], failed := true }

/-- The id a lookup by address comes back with. -/
def State.lookup (ip : Bytes) (a : State) : Option ℕ :=
  if (a.run e (.selectIdByIp ip)).failed then none else a.users.lastAt ip

/-- The password generated for this request. -/
def password : Bytes := generatePassword e.draws 8

def commitPassword (v : ℕ) (a : State) : State :=
  let a := a.run e (.updatePassword (hashText H (password e)) (toDec v))
  if a.failed then a else a.send e (toDec v ++ ascii " " ++ password e)

/-- A failed lookup and an address without a row are treated alike. -/
def initUser (ip : Bytes) (a : State) : State :=
  if a.connects e then
    let a := a.opened
    match a.lookup e ip with
    | some v => commitPassword H e v (a.run e (.selectIdByIp ip))
    | none =>
      let a := (a.run e (.selectIdByIp ip)).run e (.insertIp ip)
      match a.lookup e ip with
      | some v => commitPassword H e v (a.run e (.selectIdByIp ip))
      | none => a.run e (.selectIdByIp ip)
  else a.opened

def storeCoordinates (coordinates ip : Bytes) (a : State) : State :=
  if a.connects e then a.opened.run e (.updateCoordinates coordinates ip) else a.opened

/-- The row of `id` holds the hash of `pass`. -/
def credential (u : Users) (id pass : Bytes) : Bool :=
  (u.find (decVal id)).any fun r => r.password == some (hashText H pass)

/-- The credential check in front of an answer. Without a connection the query is not run, and the
    check is decided by the error and the empty result of before. -/
def authenticate (id pass : Bytes) (deny grant : State → State) (a : State) : State :=
  if a.connects e then
    let a := a.opened.run e (.selectCredential id (hashText H pass))
    if a.failed then a else if credential H a.users id pass then grant a else deny a
  else if a.failed then a.opened else deny a.opened

def checkFriendIdAndPassword (id pass : Bytes) : State → State :=
  authenticate H e id pass (State.send e (ascii "wrong")) (State.send e (ascii "ok"))

/-- What is sent for the coordinates of a row. -/
def coordinatesReply : Option Bytes → Bytes
  | none => ascii "err 2"
  | some c => if cstr c == ascii "NULL" then ascii "err 2" else cstr c

def getFriendCoordinates (id pass : Bytes) : State → State :=
  authenticate H e id pass (State.send e (ascii "err 1")) fun a =>
    let b := a.run e (.selectCoordinates id)
    if b.failed then b
    else b.send e (coordinatesReply ((a.users.find (decVal id)).bind User.coordinates))

/-- The first half of `/store_and_get`, if its coordinates are accepted. -/
def storeHalf (coordinates : Option Bytes) (a : State) : Except SystemError State :=
  match coordinates with
  | some c => e.remote.map fun ip => storeCoordinates e c ip.to_string a
  | none => .ok a

/-- The second half, if its friend arguments are accepted. -/
def getHalf (friend : Option (Bytes × Bytes)) (a : State) : State :=
  match friend with
  | some f => getFriendCoordinates H e f.1 f.2 a
  | none => a

def handle (c : Command) (a : State) : Except SystemError State :=
  match c with
  | .nothing => .ok a
  | .init => e.remote.map fun ip => initUser H e ip.to_string a
  | .get id pass => .ok (getFriendCoordinates H e id pass a)
  | .check id pass => .ok (checkFriendIdAndPassword H e id pass a)
  | .storeAndGet coordinates friend => (storeHalf e coordinates a).map (getHalf H e friend)

end Spec

/-! ### The view of a session -/

def ExecCall.view (c : ExecCall) : Statement × Bool := (c.toStatement, c.rc == 0)

/-- A session in the middle of a request, seen as a specification state. -/
def St.abs (s : St) : Spec.State where
  users := s.users
  opens := s.handles.opened.length
  calls := s.execs.map ExecCall.view
  failed := s.database_.lastErrorCode_ != 0
  sent := s.sent

/-- A session between two handlers: closed, with nothing left in its result vector. -/
structure St.Idle (H : Host) (s : St) : Prop where
  closed : s.dbConnection_.connected_ = false
  filename : s.dbConnection_.filename_ = H.dbFilename
  results : s.database_.queryResults_ = []

/-- The session with its connection opened by the guard. -/
def St.guarded (e : Env) (s : St) : St :=
  let r := s.dbConnection_.open_ (e.opens s.handles.opened.length) s.handles
  { s with dbConnection_ := r.1, handles := r.2.1 }

/-- The guard closes the connection again. -/
def St.unguarded (s : St) : St :=
  let r := s.dbConnection_.close s.handles
  { s with dbConnection_ := r.1, handles := r.2 }

section
variable {H : Host} {e : Env}

theorem withConnection_eq (body : St → St) (s : St) :
    withConnection e body s = (body (s.guarded e)).unguarded := rfl

theorem abs_unguarded (s : St) : s.unguarded.abs = s.abs := by
  have hopened : (s.dbConnection_.close s.handles).2.opened = s.handles.opened := by
    rw [SQLConnection.close]
    split
    · rfl
    · split <;> rfl
  simp only [St.abs, St.unguarded, hopened]

theorem unguarded_idle {s : St} (hf : s.dbConnection_.filename_ = H.dbFilename)
    (hr : s.database_.queryResults_ = []) : s.unguarded.Idle H := by
  refine ⟨?_, ?_, hr⟩ <;> rw [St.unguarded, SQLConnection.close] <;> split
  · simp_all
  · split <;> rfl
  · exact hf
  · split <;> exact hf

/-- Opening from an idle session: one more `sqlite3_open`, connected if it succeeds. -/
theorem guarded_spec {s : St} (hs : s.Idle H) :
    (s.guarded e).abs = s.abs.opened ∧
      (s.guarded e).dbConnection_.connected_ = s.abs.connects e ∧
      (s.guarded e).dbConnection_.filename_ = H.dbFilename ∧
      (s.guarded e).database_ = s.database_ ∧ (s.guarded e).users = s.users := by
  have hfile : ¬ s.dbConnection_.filename_ = [] := by
    rw [hs.filename]; exact H.dbFilename_ne
  have hopen : s.dbConnection_.open_ (e.opens s.handles.opened.length) s.handles
      = s.dbConnection_.connect (e.opens s.handles.opened.length) s.handles := by
    rw [SQLConnection.open_, hs.closed, if_neg (by decide), if_neg hfile]
  refine ⟨?_, ?_, ?_, rfl, rfl⟩
  · simp only [St.abs, St.guarded, hopen, SQLConnection.connect, sqlite3_open, Spec.State.opened]
    cases e.opens s.handles.opened.length with
    | ok => simp
    | fail code null =>
      have hcode : (code.1 == 0) = false := beq_eq_false_iff_ne.mpr code.2
      cases null <;> simp [sqlite3_close, hcode]
  · rw [St.guarded, Spec.State.connects, St.abs]
    simp only [hopen, SQLConnection.connect, sqlite3_open]
    cases e.opens s.handles.opened.length with
    | ok => rfl
    | fail code null => simp [code.2]
  · rw [St.guarded]
    simp only [hopen, SQLConnection.connect]
    exact hs.filename

/-- Without a connection `execute` does nothing at all. -/
theorem execute_unconnected {s : St} (hs : s.dbConnection_.connected_ = false) (query : Bytes)
    (args : List Bytes) : execute H e query args s = s := by
  simp [execute, SQLDatabase.execute, SQLDatabase.passed_closed hs]

/-- One clean statement on an open connection. -/
theorem execute_query (query : Bytes) (args : List Bytes) {q : Query} (ht : query = q.template)
    (ha : args = q.args) (hq : q.Clean) {s : St} (hs : s.dbConnection_.connected_ = true) :
    (execute H e query args s).abs = s.abs.run e q ∧
      (execute H e query args s).database_.queryResults_
        = (if (s.abs.run e q).failed then s.database_.queryResults_
          else ((q.answer s.users).map ([·])).getD s.database_.queryResults_) ∧
      (execute H e query args s).dbConnection_ = s.dbConnection_ := by
  have htext : SQLDatabase.formatQueryString H query args = q.text := by rw [ht, ha, query_text]
  have hstatement : (⟨query, args, q.text⟩ : Statement) = q.statement := by rw [ht, ha, Query.statement]
  have hcut : cstr q.text = q.text := cstr_eq_self (no_nul_text hq.args)
  have hlen : s.abs.calls.length = s.execs.length := List.length_map _
  rw [execute, Spec.State.run, hlen]
  simp only [sqlite3_exec, htext, hstatement, hcut, sqlite_query H hq, SQLDatabase.execute,
    SQLDatabase.passed_connected hs, Option.toList_some, List.map_cons, List.map_nil]
  cases e.stmts s.execs.length with
  | some err =>
    have hcode := err.code.2
    simp [St.abs, ExecCall.view, resultCode, hcode]
  | none =>
    rcases eval_op q s.users s.database_.queryResults_ with ⟨heff, err, hev⟩ | ⟨u', rows, heff, hev, hdel⟩
    · have hcode := err.code.2
      simp [St.abs, ExecCall.view, resultCode, hcode, heff, hev]
    · simp [St.abs, ExecCall.view, resultCode, heff, hev, hdel]

/-- A statement without an effect of its own leaves the table alone. -/
theorem run_users {q : Query} {a : Spec.State} (hq : q.effect a.users = some a.users) :
    (a.run e q).users = a.users := by
  rw [Spec.State.run, hq]
  split
  · rename_i h; cases h; rfl
  · rfl

theorem failed_iff (s : St) : s.database_.lastErrorCode_ ≠ 0 ↔ s.abs.failed = true := by
  simp [St.abs]

theorem not_failed {s : St} (hs : s.abs.failed = false) : ¬ s.database_.lastErrorCode_ ≠ 0 := by
  rw [failed_iff, hs]
  exact Bool.false_ne_true

theorem coordinates_safe {s : Bytes} (h : IsCoordinates s) : SafeArg s where
  bytes := h.bytes
  spaces := by
    obtain ⟨lat, lon, hlat, hlon, rfl⟩ := h
    have hzero : ∀ w, IsDecimal w → w.count 32 = 0 := fun w hw =>
      List.count_eq_zero.mpr fun hm => absurd (hw.no_space 32 hm) (by decide)
    have hone : (ascii " ").count 32 = 1 := rfl
    rw [List.count_append, List.count_append, hzero lat hlat, hzero lon hlon, hone]

theorem address_safe (ip : Address) : SafeArg ip.to_string := SafeArg.of_digits_dots ip.clean

theorem hash_safe (pass : Bytes) : SafeArg (hashText H pass) := SafeArg.toDec _

/-! ### The handlers refine the commands -/

theorem store_refines {s : St} (hs : s.Idle H) {c : Bytes} (hc : SafeArg c) {ip : Address}
    (hip : e.remote = .ok ip) : ∃ s', storeCoordinates H e c s = .ok s' ∧
      s'.abs = Spec.storeCoordinates e c ip.to_string s.abs ∧ s'.Idle H := by
  have hq : (Query.updateCoordinates c ip.to_string).Clean :=
    ⟨by simpa [Query.args] using ⟨hc, address_safe ip⟩, by simp [Query.idArg]⟩
  obtain ⟨habs, hconn, hfile, hdb, -⟩ := guarded_spec (e := e) hs
  refine ⟨(execute H e updateCoordinates [c, ip.to_string] (s.guarded e)).unguarded,
    by rw [storeCoordinates, hip]; rfl, ?_⟩
  rw [abs_unguarded, Spec.storeCoordinates]
  cases hopen : s.abs.connects e with
  | true =>
    rw [hopen] at hconn
    obtain ⟨hrun, hres, hsame⟩ := execute_query (H := H) (e := e) updateCoordinates
      [c, ip.to_string] rfl rfl hq hconn
    refine ⟨by rw [hrun, habs]; rfl, unguarded_idle (by rw [hsame]; exact hfile) (hres.trans ?_)⟩
    rw [hdb, hs.results]
    split <;> rfl
  | false =>
    rw [hopen] at hconn
    rw [execute_unconnected hconn]
    exact ⟨habs, unguarded_idle hfile (by rw [hdb, hs.results])⟩

/-- The credential query on an open connection with an empty result vector: the vector is filled
    exactly when the row of the id holds the hash. -/
theorem credential_query {s : St} (hconn : s.dbConnection_.connected_ = true)
    (hres : s.database_.queryResults_ = []) {id : Bytes} (hid : isNumeral id = true) (pass : Bytes) :
    let s' := execute H e selectCredential [id, hashText H pass] s
    s'.abs = s.abs.run e (.selectCredential id (hashText H pass)) ∧
      s'.dbConnection_.connected_ = true ∧
      (s'.abs.failed = false → s'.database_.queryResults_ =
        if Spec.credential H s'.users id pass then [[(ascii "id", toDec (decVal id))]] else []) := by
  have hq : (Query.selectCredential id (hashText H pass)).Clean :=
    ⟨by simpa [Query.args] using ⟨SafeArg.of_numeral hid, hash_safe pass⟩, by simpa [Query.idArg] using hid⟩
  obtain ⟨habs, hans, hsame⟩ := execute_query (H := H) (e := e) selectCredential
    [id, hashText H pass] rfl rfl hq hconn
  refine ⟨habs, (congrArg SQLConnection.connected_ hsame).trans hconn, fun hfail => ?_⟩
  have husers : (execute H e selectCredential [id, hashText H pass] s).users = s.users :=
    (congrArg Spec.State.users habs).trans (run_users rfl)
  rw [habs] at hfail
  rw [hans, hfail, husers, hres, if_neg (by decide), Query.answer, Spec.credential]
  cases hf : s.users.find (decVal id) with
  | none => rfl
  | some r =>
    have hrid := (Users.find_some.mp hf).2
    by_cases hp : r.password = some (hashText H pass) <;> simp [Option.filter_some, hp, hrid]

/-- The row whose credential holds. -/
theorem credential_found {u : Users} {id pass : Bytes} (h : Spec.credential H u id pass = true) :
    ∃ r, u.find (decVal id) = some r := by
  cases hf : u.find (decVal id) with
  | none => simp [Spec.credential, hf] at h
  | some r => exact ⟨r, rfl⟩

/-- The coordinates query on an open connection, for a row that exists. -/
theorem read_query {s : St} (hconn : s.dbConnection_.connected_ = true) {id : Bytes} (hid : isNumeral id = true)
    {r : User} (hr : s.users.find (decVal id) = some r) :
    let s' := execute H e selectCoordinates [id] s
    s'.abs = s.abs.run e (.selectCoordinates id) ∧
      (s'.abs.failed = false → s'.database_.queryResults_
        = [[(ascii "coordinates", cstr (r.coordinates.getD (ascii "NULL")))]]) := by
  have hq : (Query.selectCoordinates id).Clean :=
    ⟨by simpa [Query.args] using SafeArg.of_numeral hid, by simpa [Query.idArg] using hid⟩
  obtain ⟨habs, hans, -⟩ := execute_query (H := H) (e := e) selectCoordinates [id] rfl rfl hq hconn
  refine ⟨habs, fun hfail => ?_⟩
  rw [habs] at hfail
  rw [hans, hfail, if_neg Bool.false_ne_true, Query.answer, hr]
  rfl

/-- No numeral is the word NULL. -/
theorem toDec_ne_null (n : ℕ) : (toDec n == ascii "NULL") = false := by
  rw [beq_eq_false_iff_ne]
  intro h
  have := toDec_digits n 78 (by rw [h]; decide)
  exact absurd this (by decide)

/-- The two users of the credential check share its shape. -/
theorem authenticate_refines {s : St} (hs : s.Idle H) {id pass : Bytes} (hid : isNumeral id = true)
    {b : St → St} {deny grant : Spec.State → Spec.State}
    (hfail : ∀ t, t.abs.failed = true → b t = t)
    (hdeny : ∀ t, t.abs.failed = false → t.database_.queryResults_ = [] → (b t).abs = deny t.abs)
    (hgrant : ∀ t, t.abs.failed = false → t.dbConnection_.connected_ = true →
      Spec.credential H t.users id pass = true →
      t.database_.queryResults_ = [[(ascii "id", toDec (decVal id))]] → (b t).abs = grant t.abs) :
    (withConnection e (fun t => b (execute H e selectCredential [id, hashText H pass] t)) s).abs
      = Spec.authenticate H e id pass deny grant s.abs := by
  obtain ⟨habs, hconn, -, hdb, -⟩ := guarded_spec (e := e) hs
  rw [withConnection_eq, abs_unguarded, Spec.authenticate]
  cases hopen : s.abs.connects e with
  | true =>
    rw [hopen] at hconn
    obtain ⟨hrun, hconn', hres⟩ := credential_query (H := H) (e := e) hconn
      (by rw [hdb, hs.results]) hid pass
    rw [habs] at hrun
    simp only [if_true]
    rw [← hrun]
    cases hf : (execute H e selectCredential [id, hashText H pass] (s.guarded e)).abs.failed with
    | true => rw [hfail _ hf]; rfl
    | false =>
      cases hcred : Spec.credential H
          (execute H e selectCredential [id, hashText H pass] (s.guarded e)).users id pass with
      | true => rw [hgrant _ hf hconn' hcred (by rw [hres hf, hcred]; rfl)]; simp [St.abs, hcred]
      | false => rw [hdeny _ hf (by rw [hres hf, hcred]; rfl)]; simp [St.abs, hcred]
  | false =>
    rw [hopen] at hconn
    rw [execute_unconnected hconn]
    have hf : (s.guarded e).abs.failed = s.abs.failed := by rw [habs]; rfl
    cases hfa : s.abs.failed with
    | true => rw [hfail _ (hf.trans hfa), habs]; rfl
    | false => rw [hdeny _ (hf.trans hfa) (by rw [hdb, hs.results]), habs]; rfl

theorem check_refines {s : St} (hs : s.Idle H) {id pass : Bytes} (hid : isNumeral id = true) :
    (checkFriendIdAndPassword H e id pass s).abs = Spec.checkFriendIdAndPassword H e id pass s.abs := by
  refine authenticate_refines (b := fun t =>
    if t.database_.lastErrorCode_ ≠ 0 then t
    else if t.database_.queryResults_.isEmpty
        || ((t.database_.queryResults_.headD []).lookup (ascii "id")).isNone
        || field t.database_.queryResults_ (ascii "id") == ascii "NULL" then
      sendToUser e (ascii "wrong") t
    else sendToUser e (ascii "ok") t) hs hid ?_ ?_ ?_
  · intro t ht
    exact if_pos ((failed_iff t).mpr ht)
  · intro t ht hres
    simp only [if_neg (not_failed ht), hres]
    rfl
  · intro t ht _ _ hres
    have hfield : field [[(ascii "id", toDec (decVal id))]] (ascii "id") = toDec (decVal id) := rfl
    have hlookup : List.lookup (ascii "id") [(ascii "id", toDec (decVal id))] = some (toDec (decVal id)) :=
      rfl
    simp only [if_neg (not_failed ht), hres, hfield, toDec_ne_null, List.headD_cons, hlookup]
    rfl

theorem get_refines {s : St} (hs : s.Idle H) {id pass : Bytes} (hid : isNumeral id = true) :
    (getFriendCoordinates H e id pass s).abs = Spec.getFriendCoordinates H e id pass s.abs := by
  refine authenticate_refines (b := fun t =>
    if t.database_.lastErrorCode_ ≠ 0 then t
    else if t.database_.queryResults_.isEmpty then sendToUser e (ascii "err 1") t
    else
      let t := execute H e selectCoordinates [id] t
      if t.database_.lastErrorCode_ ≠ 0 then t
      else
        let rcoord := t.database_.queryResults_
        if rcoord.isEmpty || field rcoord (ascii "coordinates") == ascii "NULL" then
          sendToUser e (ascii "err 2") t
        else sendToUser e (field rcoord (ascii "coordinates")) t) hs hid ?_ ?_ ?_
  · intro t ht
    exact if_pos ((failed_iff t).mpr ht)
  · intro t ht hres
    simp only [if_neg (not_failed ht), hres]
    rfl
  · intro t ht hconn hcred hres
    -- the row the credential query found is still there
    obtain ⟨r, hr⟩ := credential_found hcred
    obtain ⟨hrun, hres'⟩ := read_query (H := H) (e := e) hconn hid hr
    have hr' : t.abs.users.find (decVal id) = some r := hr
    simp only [if_neg (not_failed ht), hres, List.isEmpty_cons, Bool.false_eq_true, if_false, hr',
      Option.bind_some]
    rw [← hrun]
    cases hf : (execute H e selectCoordinates [id] t).abs.failed with
    | true => rw [if_pos ((failed_iff _).mpr hf)]; rfl
    | false =>
      have hfield : ∀ v, field [[(ascii "coordinates", v)]] (ascii "coordinates") = v := fun _ => rfl
      simp only [if_neg (not_failed hf), hres' hf, hfield, List.isEmpty_cons, Bool.false_or]
      cases hc : r.coordinates with
      | none => rfl
      | some c =>
        simp only [Option.getD_some, Spec.coordinatesReply, Bool.false_eq_true, if_false]
        split <;> rfl

/-- The lookup by address on an open connection with an empty result vector. -/
theorem lookup_query {s : St} (hconn : s.dbConnection_.connected_ = true)
    (hres : s.database_.queryResults_ = []) (ip : Address) :
    let s' := execute H e selectIdByIp [ip.to_string] s
    s'.abs = s.abs.run e (.selectIdByIp ip.to_string) ∧ s'.dbConnection_.connected_ = true ∧
      s'.database_.queryResults_
        = ((s.abs.lookup e ip.to_string).map fun v => [[(ascii "id", toDec v)]]).getD [] := by
  have hq : (Query.selectIdByIp ip.to_string).Clean :=
    ⟨by simpa [Query.args] using address_safe ip, by simp [Query.idArg]⟩
  obtain ⟨habs, hans, hsame⟩ := execute_query (H := H) (e := e) selectIdByIp [ip.to_string] rfl rfl hq hconn
  refine ⟨habs, (congrArg SQLConnection.connected_ hsame).trans hconn, ?_⟩
  have husers : s.abs.users = s.users := rfl
  rw [hans, hres, Spec.State.lookup, husers, Query.answer]
  split
  · rfl
  · cases s.users.lastAt ip.to_string <;> rfl

theorem commit_refines {s : St} (hconn : s.dbConnection_.connected_ = true) (v : ℕ) :
    let s' := execute H e updatePassword [hashText H (Spec.password e), toDec v] s
    (if s'.database_.lastErrorCode_ ≠ 0 then s'
      else sendToUser e (toDec v ++ ascii " " ++ Spec.password e) s').abs
      = Spec.commitPassword H e v s.abs := by
  have hq : (Query.updatePassword (hashText H (Spec.password e)) (toDec v)).Clean :=
    ⟨by simpa [Query.args] using ⟨hash_safe _, SafeArg.toDec v⟩, by simpa [Query.idArg] using toDec_numeral v⟩
  obtain ⟨habs, -, -⟩ := execute_query (H := H) (e := e) updatePassword
    [hashText H (Spec.password e), toDec v] rfl rfl hq hconn
  simp only [failed_iff, Spec.commitPassword, ← habs]
  split <;> rfl

theorem init_refines {s : St} (hs : s.Idle H) {ip : Address} (hip : e.remote = .ok ip) :
    ∃ s', initUser H e s = .ok s' ∧ s'.abs = Spec.initUser H e ip.to_string s.abs := by
  obtain ⟨habs, hconn, -, hdb, -⟩ := guarded_spec (e := e) hs
  refine ⟨_, by rw [initUser, hip]; rfl, ?_⟩
  rw [withConnection_eq, abs_unguarded, Spec.initUser]
  have hnil : (s.guarded e).database_.queryResults_ = [] := by rw [hdb, hs.results]
  have hfield : ∀ v, field [[(ascii "id", toDec v)]] (ascii "id") = toDec v := fun _ => rfl
  cases hopen : s.abs.connects e with
  | true =>
    rw [hopen] at hconn
    obtain ⟨hrun, hconn₁, hres₁⟩ := lookup_query (H := H) (e := e) hconn hnil ip
    rw [habs] at hrun hres₁
    cases hfound : s.abs.opened.lookup e ip.to_string with
    | some v =>
      rw [hfound, Option.map_some, Option.getD_some] at hres₁
      have hcommit := commit_refines (H := H) (e := e) hconn₁ v
      rw [hrun] at hcommit
      simp only [hres₁, hfield, toDec_ne_null, List.isEmpty_cons, Bool.false_or, Bool.false_eq_true,
        if_false, if_true, hfound]
      exact hcommit
    | none =>
      rw [hfound, Option.map_none, Option.getD_none] at hres₁
      have hq : (Query.insertIp ip.to_string).Clean :=
        ⟨by simpa [Query.args] using address_safe ip, by simp [Query.idArg]⟩
      obtain ⟨hins, hans₂, hsame₂⟩ := execute_query (H := H) (e := e) insertIp [ip.to_string] rfl rfl hq hconn₁
      have hnil₂ : (execute H e insertIp [ip.to_string]
          (execute H e selectIdByIp [ip.to_string] (s.guarded e))).database_.queryResults_ = [] :=
        hans₂.trans (by rw [hres₁]; split <;> rfl)
      obtain ⟨hrun₃, hconn₃, hres₃⟩ := lookup_query (H := H) (e := e)
        ((congrArg SQLConnection.connected_ hsame₂).trans hconn₁) hnil₂ ip
      rw [hins, hrun] at hrun₃ hres₃
      simp only [hres₁, List.isEmpty_nil, Bool.true_or, if_true, hfound]
      cases hfound₃ : Spec.State.lookup e ip.to_string
          (Spec.State.run e (.insertIp ip.to_string)
            (Spec.State.run e (.selectIdByIp ip.to_string) s.abs.opened)) with
      | some v =>
        rw [hfound₃, Option.map_some, Option.getD_some] at hres₃
        have hcommit := commit_refines (H := H) (e := e) hconn₃ v
        rw [hrun₃] at hcommit
        simp only [hres₃, hfield, List.isEmpty_cons, Bool.false_eq_true, if_false]
        exact hcommit
      | none =>
        rw [hfound₃, Option.map_none, Option.getD_none] at hres₃
        simp only [hres₃, List.isEmpty_nil, if_true]
        exact hrun₃
  | false =>
    rw [hopen] at hconn
    simp only [execute_unconnected hconn, hnil, List.isEmpty_nil, Bool.true_or, if_true,
      Bool.false_eq_true, if_false]
    exact habs

/-- The store half of a `/store_and_get`, done or refused or stopped by a client that is gone. -/
theorem store_half_refines {s : St} (hs : s.Idle H) {lat : Bytes} (hlat : ∀ b ∈ lat, isSpace b = false)
    (lon : Bytes) :
    let coordinates := lat ++ ascii " " ++ lon
    let code : Except SystemError St :=
      if checkCoordinatesFormat coordinates then storeCoordinates H e coordinates s else pure s
    let spec := Spec.storeHalf e (if checkCoordinatesFormat coordinates then some coordinates else none) s.abs
    (∃ s', code = .ok s' ∧ spec = .ok s'.abs ∧ s'.Idle H) ∨ ∃ err, code = .error err ∧ spec = .error err := by
  dsimp only
  cases hc : checkCoordinatesFormat (lat ++ ascii " " ++ lon) with
  | false => exact Or.inl ⟨s, rfl, rfl, hs⟩
  | true =>
    obtain ⟨hlat', hlon'⟩ := (check_pair hlat).mp hc
    have hsafe : SafeArg (lat ++ ascii " " ++ lon) := coordinates_safe ⟨lat, lon, hlat', hlon', rfl⟩
    simp only [if_true, Spec.storeHalf]
    cases hip : e.remote with
    | error err => exact Or.inr ⟨err, by rw [storeCoordinates, hip]; rfl, rfl⟩
    | ok ip =>
      obtain ⟨s', hs', habs, hidle⟩ := store_refines (e := e) hs hsafe hip
      exact Or.inl ⟨s', hs', by rw [habs]; rfl, hidle⟩

/-- The get half, from any idle session. -/
theorem get_half_refines {s : St} (hs : s.Idle H) (id pass : Bytes) :
    (if checkFriendFormat id pass then (Except.ok (getFriendCoordinates H e id pass s) : Except SystemError St)
      else .ok s).map St.abs
    = .ok (Spec.getHalf H e (if checkFriendFormat id pass then some (id, pass) else none) s.abs) := by
  cases hf : checkFriendFormat id pass with
  | true => exact congrArg Except.ok (get_refines hs ((check_friend_iff _ _).mp hf).1)
  | false => rfl

/-- `receiveDataHandle` on an idle session does what its command says. -/
theorem receive_refines {s : St} (hs : s.Idle H) (bytes_tr : ℕ) :
    (receiveDataHandle H e false bytes_tr s).map St.abs
      = Spec.handle H e (command (s.buffer_.take bytes_tr)) s.abs := by
  rw [receiveDataHandle, if_neg (by decide), command, words_five, commandOf]
  simp only []
  generalize s.buffer_.take bytes_tr = data
  by_cases hinit : word data = ascii "/init"
  · simp only [eq_true hinit, if_true, Spec.handle]
    cases hip : e.remote with
    | error err => rw [initUser, hip]; rfl
    | ok ip =>
      obtain ⟨s', hs', habs⟩ := init_refines (H := H) (e := e) hs hip
      rw [hs', Except.map, Except.map, habs]
  by_cases hstore : word data = ascii "/store"
  · have hrefused := check_word (word_no_space (afterWord data))
    have hget : ¬ word data = ascii "/get" := by rw [hstore]; decide
    have hsg : ¬ word data = ascii "/store_and_get" := by rw [hstore]; decide
    have hcheck : ¬ word data = ascii "/check" := by rw [hstore]; decide
    simp only [eq_false hinit, eq_true hstore, eq_false hget, eq_false hsg, eq_false hcheck, if_true,
      if_false, hrefused, Bool.false_eq_true]
    rfl
  by_cases hget : word data = ascii "/get"
  · simp only [eq_false hinit, eq_false hstore, eq_true hget, if_true, if_false]
    split
    · rename_i hf
      exact congrArg Except.ok (get_refines hs ((check_friend_iff _ _).mp hf).1)
    · rfl
  by_cases hsg : word data = ascii "/store_and_get"
  · simp only [eq_false hinit, eq_false hstore, eq_false hget, eq_true hsg, if_true, if_false, Spec.handle]
    -- the code joins its two branches in what comes after them
    have hjoin : ∀ (ok : Bool) (t : Except SystemError St) (k : St → Except SystemError St),
        (if ok then t >>= k else pure s >>= k) = (if ok then t else pure s) >>= k := by
      intro ok t k
      split <;> rfl
    rw [hjoin]
    rcases store_half_refines (e := e) hs (word_no_space (afterWord data))
      (word (afterWord (afterWord data))) with ⟨s', hcode, hspec, hidle⟩ | ⟨err, hcode, hspec⟩
    · rw [hcode, hspec]
      exact get_half_refines hidle _ _
    · rw [hcode, hspec]
      rfl
  by_cases hcheck : word data = ascii "/check"
  · simp only [eq_false hinit, eq_false hstore, eq_false hget, eq_false hsg, eq_true hcheck, if_true, if_false]
    split
    · rename_i hf
      exact congrArg Except.ok (check_refines hs ((check_friend_iff _ _).mp hf).1)
    · rfl
  · simp only [eq_false hinit, eq_false hstore, eq_false hget, eq_false hsg, eq_false hcheck, if_false]
    rfl

end

end MarkMe
