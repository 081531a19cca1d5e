import MarkMe.Lib.Machine
import MarkMe.Protocol

/-! Requests, one new session each, and runs of them.

    `Server::startAccept` makes a new session for every connection, and a session reads once, so a
    request meets an empty result vector, error code 0 and a closed connection. `handleRequest` is
    one such session from its read to its end, and a run of requests is a run of this machine on the
    table. `Spec.request` is the same on the specification side, and `request_refines` connects the
    two.

        u₀ ──request──▶ u₁ ──request──▶ u₂ ──▶ ⋯       each arrow a session of its own -/

namespace MarkMe
open Text Session

/-- How the one read of a session ends; at most the buffer can be filled. -/
inductive Read where
  | error
  | data (bytes : Bytes) (fits : bytes.length ≤ BUFFER_SIZE_IN_BYTES)

structure Request where
  env : Env
  read : Read

/-- What a request did besides changing the table. -/
structure Outcome where
  execs : List ExecCall
  sent : List Sent
  threw : Option SystemError

/-- The read of a session completes. -/
def completeRead (H : Host) (s : Session) (u : Users) (r : Request) : Except SystemError St :=
  match r.read with
  | .error => receiveDataHandle H r.env true 0 (s.toSt u)
  | .data bytes _ => receiveDataHandle H r.env false bytes.length ((s.fill bytes).toSt u)

/-- What is left behind; an exception leaves a handler before it has done anything else. -/
def conclude (u : Users) : Except SystemError St → Users × Outcome
  | .ok s => (s.users, ⟨s.execs, s.sent, none⟩)
  | .error err => (u, ⟨[], [], some err⟩)

/-- A request on a new session. -/
def handleRequest (H : Host) (u : Users) (r : Request) : Users × Outcome :=
  conclude u (completeRead H (Session.new H.dbFilename).start u r)

/-- A message from a client without failures, whose random draws are all zeros. -/
def Request.calm (ip : Address) (bytes : Bytes) (fits : bytes.length ≤ BUFFER_SIZE_IN_BYTES) : Request :=
  ⟨Env.calm ip fun _ => .digit 0, .data bytes fits⟩

/-- The first client asks for an account. -/
def initA : Request := Request.calm clientA (ascii "/init") (by decide)

/-- What has happened: each request with the tables around it. -/
abbrev History := List (Machine.Event Users Request Outcome)

/-- The table after a run from the empty one, and what happened in it. -/
abbrev tableAfter (H : Host) (reqs : List Request) : Users := Machine.final (handleRequest H) Users.empty reqs

abbrev historyOf (H : Host) (reqs : List Request) : History := Machine.trace (handleRequest H) Users.empty reqs

/-- The message received; none if the read failed. -/
def Request.message (r : Request) : Bytes :=
  match r.read with
  | .error => []
  | .data bytes _ => bytes

/-- The first word of the message. -/
def Request.header (r : Request) : Bytes := word r.message

def Request.command (r : Request) : Command := MarkMe.command r.message

namespace Spec

/-- Nothing done yet. -/
def start (u : Users) : State := ⟨u, 0, [], false, []⟩

def request (H : Host) (u : Users) (r : Request) : Except SystemError State :=
  handle H r.env r.command (start u)

/-- The part of an outcome the specification speaks about. -/
def conclude (u : Users) :
    Except SystemError State → Users × List (Statement × Bool) × List Sent × Option SystemError
  | .ok a => (a.users, a.calls, a.sent, none)
  | .error err => (u, [], [], some err)

end Spec

def Outcome.view (o : Outcome) : List (Statement × Bool) × List Sent × Option SystemError :=
  (o.execs.map ExecCall.view, o.sent, o.threw)

/-- A message on a new session does what its command says. -/
theorem message_refines (H : Host) (e : Env) (u : Users) (bytes : Bytes) :
    (receiveDataHandle H e false bytes.length
        (((Session.new H.dbFilename).start.fill bytes).toSt u)).map St.abs
      = Spec.handle H e (command bytes) (Spec.start u) := by
  have hidle : (((Session.new H.dbFilename).start.fill bytes).toSt u).Idle H := ⟨rfl, rfl, rfl⟩
  have h := receive_refines (e := e) hidle bytes.length
  have htake : (((Session.new H.dbFilename).start.fill bytes).toSt u).buffer_.take bytes.length = bytes :=
    List.take_left
  rw [htake] at h
  exact h

theorem read_refines (H : Host) (u : Users) (r : Request) :
    (completeRead H (Session.new H.dbFilename).start u r).map St.abs = Spec.request H u r := by
  rw [completeRead, Spec.request, Request.command, Request.message]
  cases r.read with
  | error => rfl
  | data bytes _ => exact message_refines H r.env u bytes

/-- A request does what its command says. -/
theorem request_refines (H : Host) (u : Users) (r : Request) :
    ((handleRequest H u r).1, (handleRequest H u r).2.view) = Spec.conclude u (Spec.request H u r) := by
  rw [handleRequest, ← read_refines]
  cases completeRead H (Session.new H.dbFilename).start u r <;> rfl

section
variable {H : Host} {u : Users} {r : Request}

/-- A request whose command succeeds leaves behind what the command does. -/
theorem request_done {a : Spec.State} (h : Spec.request H u r = .ok a) :
    (handleRequest H u r).1 = a.users ∧ (handleRequest H u r).2.execs.map ExecCall.view = a.calls ∧
      (handleRequest H u r).2.sent = a.sent := by
  have href := request_refines H u r
  rw [h] at href
  simp only [Spec.conclude, Outcome.view, Prod.mk.injEq] at href
  exact ⟨href.1, href.2.1, href.2.2.1⟩

/-- One whose command throws leaves nothing behind. -/
theorem request_threw {err : SystemError} (h : Spec.request H u r = .error err) :
    (handleRequest H u r).1 = u ∧ (handleRequest H u r).2.execs.map ExecCall.view = [] ∧
      (handleRequest H u r).2.sent = [] := by
  have href := request_refines H u r
  rw [h] at href
  simp only [Spec.conclude, Outcome.view, Prod.mk.injEq] at href
  exact ⟨href.1, href.2.1, href.2.2.1⟩

end

end MarkMe
