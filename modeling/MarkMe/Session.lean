import MarkMe.SQLDatabase
import Mathlib.Computability.RegularExpressions

/-! One request, as `Session` handles it.

    A session reads once: `start` offers a buffer of 128 bytes to a single `async_read_some`, and
    `receiveDataHandle` takes the bytes that arrived for the whole request. It splits them at white
    space, looks at the first word and calls one of four handlers, each of which opens the database,
    runs its statements and at most once writes a reply.

        /init                  ──▶ SELECT id … INSERT … SELECT id … UPDATE password ──▶ "id pass"
        /store word            ──▶ UPDATE coordinates
        /get id pass           ──▶ SELECT id … SELECT coordinates ──▶ coordinates, "err 1", "err 2"
        /store_and_get a b …   ──▶ both of the above
        /check id pass         ──▶ SELECT id ──▶ "ok", "wrong" -/

namespace MarkMe
open Text

/-! ### The statement templates -/

def selectIdByIp : Bytes := ascii "SELECT id FROM users WHERE ip = '%1%';"
def insertIp : Bytes := ascii "INSERT INTO users(ip) VALUES('%1%');"
def updatePassword : Bytes := ascii "UPDATE users SET password = '%1%' WHERE id = '%2%';"
def updateCoordinates : Bytes := ascii "UPDATE users SET coordinates = '%1%' WHERE ip = '%2%';"
def selectCredential : Bytes := ascii "SELECT id FROM users WHERE id = '%1%' AND password = '%2%';"
def selectCoordinates : Bytes := ascii "SELECT coordinates FROM users WHERE id = '%1%';"

/-! ### State -/

def BUFFER_SIZE_IN_BYTES : ℕ := 128

/-- The session object; its socket is part of the environment. -/
structure Session where
  buffer_ : Bytes
  dbConnection_ : SQLConnection
  database_ : SQLDatabase

/-- A statement as `execute` makes it: the template, the arguments, and the string they come to. -/
structure Statement where
  query : Bytes
  args : List Bytes
  /-- The whole `std::string`, what may stand behind a NUL included. -/
  sql : Bytes
  deriving DecidableEq

/-- A call of `sqlite3_exec`: the statement, the handle and the result code. -/
structure ExecCall extends Statement where
  handle : Option Handle
  rc : ℤ
  deriving DecidableEq

/-- A `boost::asio::write` of a reply, and whether it went through. -/
structure Sent where
  data : Bytes
  ok : Bool
  deriving DecidableEq

/-- A session in the middle of a request: the object, the database file, and what the request has
    done so far to SQLite and to the socket. -/
structure St extends Session where
  users : Users
  handles : Handles
  execs : List ExecCall
  sent : List Sent

namespace Session

/-- `Session(io_service, filename)`. -/
def new (filename : Bytes) : Session := ⟨[], SQLConnection.new filename, SQLDatabase.new⟩

/-- `start`, up to the read it asks for. -/
def start (s : Session) : Session :=
  { s with buffer_ := List.replicate BUFFER_SIZE_IN_BYTES 0 }

/-- The read completes with some bytes at the front of the buffer. -/
def fill (s : Session) (data : Bytes) : Session :=
  { s with buffer_ := data ++ s.buffer_.drop data.length }

def toSt (s : Session) (u : Users) : St := { s with users := u, handles := ⟨[], []⟩, execs := [], sent := [] }

/-! ### Validators and the password generator -/

def Draw.char : Draw → Byte
  | .letter i => UInt8.ofNat (97 + i)
  | .digit i => UInt8.ofNat (48 + i)

def generatePassword (draws : ℕ → Draw) (num : ℕ) : Bytes :=
  (List.range num).foldl (fun result i => result ++ [Draw.char (draws i)]) []

/-- A class of bytes, as an alternative of single characters. -/
def oneOf (bs : List Byte) : RegularExpression Byte := (bs.map RegularExpression.char).sum

def digit : RegularExpression Byte := oneOf (ascii "0123456789")

/-- `\s` in the classic locale. -/
def space : RegularExpression Byte := oneOf [9, 10, 11, 12, 13, 32]

def plus (r : RegularExpression Byte) : RegularExpression Byte := r * r.star

/-- `^\d+\.\d+\s\d+\.\d+$`; `regex_match` is anchored at both ends by itself. -/
def coordinatesRegex : RegularExpression Byte :=
  plus digit * RegularExpression.char 46 * plus digit * space *
    (plus digit * RegularExpression.char 46 * plus digit)

def checkCoordinatesFormat (coordinates : Bytes) : Bool := coordinatesRegex.rmatch coordinates

def checkFriendFormat (friend_id friend_password : Bytes) : Bool :=
  if friend_id.isEmpty || friend_password.isEmpty then false
  else friend_id.all (fun ch => isDigit ch) && friend_password.all (fun ch => isDigit ch || isLower ch)

/-- `std::to_string(std::hash<std::string>()(pass))`. -/
def hashText (H : Host) (pass : Bytes) : Bytes := toDec (H.hash pass).toNat

/-! ### Calls a handler makes -/

variable (H : Host) (e : Env)

/-- The guard `UniqueSQLConnection uconn(dbConnection_)` around the rest of a handler. -/
def withConnection (body : St → St) (s : St) : St :=
  let (c, h, _) := s.dbConnection_.open_ (e.opens s.handles.opened.length) s.handles
  let s := body { s with dbConnection_ := c, handles := h }
  let (c, h) := s.dbConnection_.close s.handles
  { s with dbConnection_ := c, handles := h }

/-- What `sqlite3_exec` answers to `sql.c_str()`: the failure the environment has for this call, or
    what SQLite makes of the text up to its first NUL. -/
def sqlite3_exec (n : ℕ) (sql : Bytes) (u : Users) : Except SqlError (Users × List Row) :=
  match e.stmts n with
  | some err => .error err
  | none => H.sqlite (cstr sql) u

def resultCode : Except SqlError (Users × List Row) → ℤ
  | .ok _ => 0
  | .error err => err.code

/-- `database_.execute(dbConnection_, query, args...)`. -/
def execute (query : Bytes) (args : List Bytes) (s : St) : St :=
  let statement : Statement := ⟨query, args, SQLDatabase.formatQueryString H query args⟩
  let answer := sqlite3_exec H e s.execs.length statement.sql s.users
  let (d, u, _) := s.database_.execute s.dbConnection_ s.users answer
  let made := (SQLDatabase.passed s.dbConnection_).toList.map fun handle =>
    (⟨statement, handle, resultCode answer⟩ : ExecCall)
  { s with database_ := d, users := u, execs := s.execs ++ made }

def sendToUser (data : Bytes) (s : St) : St :=
  { s with sent := s.sent ++ [⟨data, e.writes s.sent.length⟩] }

/-! ### The handlers -/

/-- `results[0][column]` of a nonempty result vector. -/
def field (results : SQLQueryResults) (column : Bytes) : Bytes := (results.headD []).at column

def initUser (s : St) : Except SystemError St := do
  let client_ip := (← e.remote).to_string
  return withConnection e (fun s =>
    let s := execute H e selectIdByIp [client_ip] s
    let r := s.database_.queryResults_
    let s :=
      if r.isEmpty || field r (ascii "id") == ascii "NULL" then
        let s := execute H e insertIp [client_ip] s
        execute H e selectIdByIp [client_ip] s
      else s
    let res := s.database_.queryResults_
    if res.isEmpty then s
    else
      let pass := generatePassword e.draws 8
      let s := execute H e updatePassword [hashText H pass, field res (ascii "id")] s
      if s.database_.lastErrorCode_ ≠ 0 then s
      else sendToUser e (field res (ascii "id") ++ ascii " " ++ pass) s) s

def storeCoordinates (coordinates : Bytes) (s : St) : Except SystemError St := do
  let client_ip := (← e.remote).to_string
  return withConnection e (fun s => execute H e updateCoordinates [coordinates, client_ip] s) s

def getFriendCoordinates (friend_id friend_password : Bytes) (s : St) : St :=
  withConnection e (fun s =>
    let s := execute H e selectCredential [friend_id, hashText H friend_password] s
    if s.database_.lastErrorCode_ ≠ 0 then s
    else
      let ans_id := s.database_.queryResults_
      if ans_id.isEmpty then sendToUser e (ascii "err 1") s
      else
        let s := execute H e selectCoordinates [friend_id] s
        if s.database_.lastErrorCode_ ≠ 0 then s
        else
          let rcoord := s.database_.queryResults_
          if rcoord.isEmpty || field rcoord (ascii "coordinates") == ascii "NULL" then
            sendToUser e (ascii "err 2") s
          else sendToUser e (field rcoord (ascii "coordinates")) s) s

def checkFriendIdAndPassword (friend_id friend_password : Bytes) (s : St) : St :=
  withConnection e (fun s =>
    let s := execute H e selectCredential [friend_id, hashText H friend_password] s
    if s.database_.lastErrorCode_ ≠ 0 then s
    else
      let ans_id := s.database_.queryResults_
      if ans_id.isEmpty || ((ans_id.headD []).lookup (ascii "id")).isNone
          || field ans_id (ascii "id") == ascii "NULL" then
        sendToUser e (ascii "wrong") s
      else sendToUser e (ascii "ok") s) s

/-- `is >> w` reads `word is` and leaves `afterWord is`. -/
def receiveDataHandle (error : Bool) (bytes_tr : ℕ) (s : St) : Except SystemError St :=
  if error then return s
  else
    let data_str := s.buffer_.take bytes_tr
    let header := word data_str
    let is := afterWord data_str
    if header = ascii "/init" then initUser H e s
    else if header = ascii "/store" then
      let coordinates := word is
      if checkCoordinatesFormat coordinates then storeCoordinates H e coordinates s else return s
    else if header = ascii "/get" then
      let friend_id := word is
      let friend_pass := word (afterWord is)
      if checkFriendFormat friend_id friend_pass then
        return getFriendCoordinates H e friend_id friend_pass s
      else return s
    else if header = ascii "/store_and_get" then do
      let latitude := word is
      let is := afterWord is
      let longitude := word is
      let is := afterWord is
      let friend_id := word is
      let friend_pass := word (afterWord is)
      let coordinates := latitude ++ ascii " " ++ longitude
      let s ← if checkCoordinatesFormat coordinates then storeCoordinates H e coordinates s else pure s
      if checkFriendFormat friend_id friend_pass then
        return getFriendCoordinates H e friend_id friend_pass s
      else return s
    else if header = ascii "/check" then
      let friend_id := word is
      let friend_pass := word (afterWord is)
      if checkFriendFormat friend_id friend_pass then
        return checkFriendIdAndPassword H e friend_id friend_pass s
      else return s
    else return s

end Session

end MarkMe
