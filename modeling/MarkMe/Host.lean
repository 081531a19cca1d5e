import MarkMe.Lib.Format
import MarkMe.Users

/-! What the program runs on.

    `Host` gathers the code that is linked in: the hash of the standard library, `boost::format`,
    and SQLite running one statement text on the database file. Each comes with the documented law
    the program relies on, and `Host.reference` is an executable host that obeys all of them.
    `Env` is what the world decides while one request is handled: whether the peer still has an
    address, how every `sqlite3_open`, every statement and every write turns out, and the random
    draws. Any pattern of failures is some `Env`; `Env.Calm` is the one without failures. -/

namespace MarkMe
open Text

structure Host where
  /-- `std::hash<std::string>`. -/
  hash : Bytes → UInt64
  /-- `boost::format`: the template and its arguments. -/
  format : Bytes → List Bytes → Bytes
  /-- A successful `sqlite3_exec`: the table after the text and the rows it delivers; an error is
      SQLite's own refusal. -/
  sqlite : Bytes → Users → Except SqlError (Users × List Row)
  /-- The `-db` setting. -/
  dbFilename : Bytes
  /-- Positional directives are replaced by their arguments, which are not rescanned. -/
  format_fits : ∀ {ps : List Format.Piece} {args : List Bytes}, Format.Fits ps args →
    format (Format.template ps) args = Format.subst ps args
  /-- A text that is one covered statement does what the statement means. -/
  sqlite_runs : ∀ {sql : Bytes} {s : Sql.Stmt} {op : Op} (u : Users), Sql.parse sql = some [s] →
    meaning s = some op → sqlite sql u = op.eval u
  /-- `main` does not start the server on a database it could not open. -/
  dbFilename_ne : dbFilename ≠ []

namespace Host

/-- SQLITE_ERROR. -/
def syntaxError : SqlError := ⟨⟨1, by decide⟩, some (ascii "syntax error")⟩

/-- Runs a text that is one covered statement, and refuses every other. -/
def runText (sql : Bytes) (u : Users) : Except SqlError (Users × List Row) :=
  match Sql.parse sql with
  | some [s] =>
    match meaning s with
    | some op => op.eval u
    | none => .error syntaxError
  | _ => .error syntaxError

theorem runText_eq {sql : Bytes} {s : Sql.Stmt} {op : Op} (u : Users) (hs : Sql.parse sql = some [s])
    (ho : meaning s = some op) : runText sql u = op.eval u := by
  rw [runText, hs]
  simp only [ho]

/-- A host that obeys the laws and can be run. -/
def reference (hash : Bytes → UInt64) : Host where
  hash := hash
  format := Format.fill
  sqlite := runText
  dbFilename := ascii "users.db"
  format_fits := Format.fill_template _
  sqlite_runs := runText_eq
  dbFilename_ne := by decide

end Host

/-- `tcp::socket::remote_endpoint()` without an error code throws this when the peer is gone. -/
inductive SystemError where | notConnected
  deriving DecidableEq

/-- An IPv4 address as `to_string()` prints it. -/
@[ext] structure Address where
  to_string : Bytes
  clean : ∀ b ∈ to_string, isDigit b = true ∨ b = 46

def Address.ofText (s : Bytes) (h : s.all (fun b => isDigit b || b == 46) = true) : Address :=
  ⟨s, by simpa using h⟩

instance : DecidableEq Address := fun a b => decidable_of_iff (a.to_string = b.to_string) Address.ext_iff.symm

/-- Two clients and a host with a small hash, to work cases out with. -/
def clientA : Address := Address.ofText (ascii "10.0.0.1") rfl

def clientB : Address := Address.ofText (ascii "10.0.0.2") rfl

def Host.small : Host := Host.reference fun s => s.foldl (fun h b => 31 * h + b.toUInt64) 7

/-- SQLITE_BUSY. -/
def busyError : SqlError := ⟨⟨5, by decide⟩, some (ascii "database is locked")⟩

/-- How an `sqlite3_open` turns out; a failed one may leave a handle or NULL. -/
inductive OpenOutcome where
  | ok
  | fail (code : ErrCode) (null : Bool)

/-- One round of the password generator: the coin and the character drawn. -/
inductive Draw where
  | letter (i : Fin 26)
  | digit (i : Fin 10)

structure Env where
  /-- `socket_.remote_endpoint().address()`. -/
  remote : Except SystemError Address
  /-- The `n`-th `sqlite3_open` of the request. -/
  opens : ℕ → OpenOutcome
  /-- The `n`-th `sqlite3_exec`: the error it fails with, or none if SQLite gets to run the text. -/
  stmts : ℕ → Option SqlError
  /-- Whether the `n`-th `boost::asio::write` goes through. -/
  writes : ℕ → Bool
  /-- The `n`-th round of the generator. -/
  draws : ℕ → Draw

/-- Nothing fails. -/
structure Env.Calm (e : Env) : Prop where
  opens : ∀ n, e.opens n = .ok
  stmts : ∀ n, e.stmts n = none
  writes : ∀ n, e.writes n = true

/-- A client without failures. -/
def Env.calm (ip : Address) (draws : ℕ → Draw) : Env :=
  ⟨.ok ip, fun _ => .ok, fun _ => none, fun _ => true, draws⟩

theorem Env.calm_calm (ip : Address) (draws : ℕ → Draw) : (Env.calm ip draws).Calm :=
  ⟨fun _ => rfl, fun _ => rfl, fun _ => rfl⟩

end MarkMe
