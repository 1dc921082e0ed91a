/-
Parameters of messages.

Each record says of its fields which of them have to be there, which have a default and which can
be left out, and decodes accordingly.  Fields that the server does not use are passed over, so a
client may send more than is listed here.
-/
import VServer.Json.Decode

namespace VServer

open Json (Decoder)

/-- The program at the other end. -/
structure ClientInfo where
  name : String := ""
  version : Option String := none
deriving DecidableEq, Repr

namespace ClientInfo

/-- A client as JSON. -/
def toJson (c : ClientInfo) : Json :=
  .object ([("name", .string c.name)] ++ Json.present "version" .string c.version)

/-- A client from JSON. -/
def decode : Decoder ClientInfo :=
  Decoder.record "ClientInfo"
    [Decoder.slot "name" .defaulted Decoder.string fun c s => { c with name := s },
      Decoder.slot "version" .optional (Decoder.option Decoder.string) fun c v =>
        { c with version := v }]
    {}

end ClientInfo

/-- How much the client wants to be told about what the server does. -/
inductive TraceLevel where
  | off
  | messages
  | verbose
deriving DecidableEq, Repr

namespace TraceLevel

/-- The name of a level. -/
def name : TraceLevel → String
  | off => "off"
  | messages => "messages"
  | verbose => "verbose"

/-- The levels by name. -/
def byName : List (String × TraceLevel) :=
  [off, messages, verbose].map fun t => (t.name, t)

/-- A level as JSON. -/
def toJson (t : TraceLevel) : Json := .string t.name

/-- A level from JSON. -/
def decode : Decoder TraceLevel := Decoder.variant byName

end TraceLevel

/-- What a client says when a session starts. -/
structure InitializeParams where
  processId : Option Nat := none
  rootUri : Option String := none
  rootPath : Option String := none
  capabilities : Json := .null
  clientInfo : Option ClientInfo := none
  trace : Option TraceLevel := none
  options : Option Json := none

namespace InitializeParams

/-- Parameters as JSON. -/
def toJson (p : InitializeParams) : Json :=
  .object ([("processId", .ofOption Json.ofNat p.processId),
      ("rootUri", .ofOption .string p.rootUri)] ++
    Json.present "rootPath" .string p.rootPath ++
    [("capabilities", p.capabilities)] ++
    Json.present "clientInfo" ClientInfo.toJson p.clientInfo ++
    [("trace", .ofOption TraceLevel.toJson p.trace)] ++
    Json.present "initializationOptions" id p.options)

/-- Parameters from JSON. -/
def decode : Decoder InitializeParams :=
  Decoder.record "InitializeParams"
    [Decoder.slot "processId" .defaulted (Decoder.option Decoder.nat32) fun p v =>
        { p with processId := v },
      Decoder.slot "rootUri" .defaulted (Decoder.option Decoder.string) fun p v =>
        { p with rootUri := v },
      Decoder.slot "rootPath" .defaulted (Decoder.option Decoder.string) fun p v =>
        { p with rootPath := v },
      Decoder.slot "capabilities" .defaulted Decoder.any fun p v => { p with capabilities := v },
      Decoder.slot "clientInfo" .defaulted (Decoder.option ClientInfo.decode) fun p v =>
        { p with clientInfo := v },
      Decoder.slot "trace" .defaulted (Decoder.option TraceLevel.decode) fun p v =>
        { p with trace := v },
      Decoder.slot "initializationOptions" .defaulted (Decoder.option Decoder.any) fun p v =>
        { p with options := v }]
    {}

end InitializeParams

/-- A change of the trace level. -/
structure SetTraceParams where
  value : TraceLevel
deriving DecidableEq, Repr

namespace SetTraceParams

/-- Parameters as JSON. -/
def toJson (p : SetTraceParams) : Json :=
  .object [("value", p.value.toJson)]

/-- Parameters from JSON. -/
def decode : Decoder SetTraceParams :=
  Decoder.record "SetTraceParams"
    [Decoder.slot "value" .required TraceLevel.decode fun p v => { p with value := v }]
    ⟨.off⟩

end SetTraceParams

/-- How grave a message to the user is. -/
inductive Severity where
  | error
  | warning
  | info
  | log
deriving DecidableEq, Repr

namespace Severity

/-- The code of a severity. -/
def code : Severity → Nat
  | error => 1
  | warning => 2
  | info => 3
  | log => 4

/-- The severities by code. -/
def byCode : List (Nat × Severity) :=
  [error, warning, info, log].map fun s => (s.code, s)

/-- A severity as JSON. -/
def toJson (s : Severity) : Json := .ofNat s.code

/-- A severity from JSON. -/
def decode : Decoder Severity := Decoder.coded byCode

end Severity

/-- A message to the user. -/
structure MessageParams where
  severity : Severity
  message : String
deriving DecidableEq, Repr

namespace MessageParams

/-- Parameters as JSON. -/
def toJson (p : MessageParams) : Json :=
  .object [("type", p.severity.toJson), ("message", .string p.message)]

/-- Parameters from JSON. -/
def decode : Decoder MessageParams :=
  Decoder.record "MessageParams"
    [Decoder.slot "type" .required Severity.decode fun p v => { p with severity := v },
      Decoder.slot "message" .required Decoder.string fun p v => { p with message := v }]
    ⟨.error, ""⟩

end MessageParams

end VServer
