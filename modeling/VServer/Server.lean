/-
The server on a stream.

Messages are read one after another.  All that the session has to say to a message is written
before the next one is read.  What cannot be read is answered by an error without id.  The server
stops when the session ends, or with the stream.

A turn takes one message off the stream, and what it comes to depends on the session and on the
bytes at hand alone.  `Step.andThen` is the only place where the server decides whether to go on.
The same turn serves a stream that is known as a whole and one that arrives piece by piece.
-/
import VServer.Protocol.Frame
import VServer.Session

namespace VServer

open Text (Bytes)

namespace Server

/-- The answer to something that is no message. -/
def malformedReply (e : FrameError) : Message :=
  .response (.failure none { code := ErrorCode.parseError.number, message := e.message })

/-- What one step of the server comes to: bytes to write, the session, and the code to exit with
if the server stops. -/
structure Step where
  output : Bytes
  session : Session
  code : Option Nat

/-- Send what waits. -/
def flush (session : Session) (code : Option Nat) : Step :=
  let (messages, session) := session.takeOutgoing
  ⟨messages.flatMap Frame.ofMessage, session, code⟩

/-- Take one result of reading. -/
def step (session : Session) : Received → Step
  | .message m =>
    let (code, session) := session.handle m
    flush session code
  | .malformed e => ⟨Frame.ofMessage (malformedReply e), session, none⟩
  | .ended _ => flush session.exit (some session.exitCode)

/-- One turn of the server: the step that the next message of a stream leads to, and the bytes
behind the message. -/
def turn (session : Session) (input : Bytes) : Step × Bytes :=
  let (received, rest) := Frame.read input
  (step session received, rest)

/-- How a run of the server ended. -/
structure Outcome where
  code : Nat
  output : Bytes
  session : Session

/-- What a step comes to where `later` tells how the server goes on, unless the step stops it. -/
def Step.andThen (out : Step) (later : Session → Outcome) : Outcome :=
  match out.code with
  | some code => ⟨code, out.output, out.session⟩
  | none =>
    let tail := later out.session
    { tail with output := out.output ++ tail.output }

/-- Serve a stream, in at most `fuel` steps. -/
def serveIn (fuel : Nat) (session : Session) (input : Bytes) : Outcome :=
  match fuel with
  | 0 => ⟨session.exitCode, [], session.exit⟩
  | fuel + 1 =>
    let (out, rest) := turn session input
    out.andThen fun session => serveIn fuel session rest

/-- Serve a stream to its end. -/
def serve (session : Session) (input : Bytes) : Outcome :=
  serveIn (input.length + 1) session input

end Server

end VServer
