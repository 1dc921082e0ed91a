/-
Messages that wait to be sent.

The session never writes to the stream.  It queues what it has to say, oldest first, and the
server sends the queue after each message that came in.

There are five things to say: a result, an error, a notification, and two notifications with a text
of their own, one for the user to see and one for the log of the editor.
-/
import VServer.Protocol.Message
import VServer.Protocol.Params

namespace VServer

/-- Codes of errors in responses. -/
inductive ErrorCode where
  | parseError
  | invalidRequest
  | methodNotFound
  | notInitialized
deriving DecidableEq, Repr

namespace ErrorCode

/-- The number of a code. -/
def number : ErrorCode → Int
  | parseError => -32700
  | invalidRequest => -32600
  | methodNotFound => -32601
  | notInitialized => -32002

end ErrorCode

/-- Messages that wait to be sent, oldest first. -/
structure Outbox where
  queue : List Message := []

namespace Outbox

/-- Queue a message. -/
def push (o : Outbox) (m : Message) : Outbox :=
  ⟨o.queue ++ [m]⟩

/-- Number of messages that wait. -/
def pending (o : Outbox) : Nat :=
  o.queue.length

/-- Answer a request. -/
def respond (o : Outbox) (id : RequestId) (result : Json) : Outbox :=
  o.push (.response (.success id result))

/-- Answer a request, or a message that could not be read, with an error. -/
def respondError (o : Outbox) (id : Option RequestId) (error : ResponseError) : Outbox :=
  o.push (.response (.failure id error))

/-- Send a notification. -/
def notify (o : Outbox) (method : String) (params : Json) : Outbox :=
  o.push (.notification { method, params := some params.sorted })

/-- Have a message shown to the user. -/
def showMessage (o : Outbox) (severity : Severity) (message : String) : Outbox :=
  o.notify "window/showMessage" (MessageParams.toJson ⟨severity, message⟩)

/-- Have a message written to the editor's log. -/
def logMessage (o : Outbox) (severity : Severity) (message : String) : Outbox :=
  o.notify "window/logMessage" (MessageParams.toJson ⟨severity, message⟩)

end Outbox

end VServer
