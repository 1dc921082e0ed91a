/-
Messages between editor and server.

A request has an id and a method and is answered by a response with the same id.  A notification
has a method and no id, and is not answered.  Which of the three a JSON object is follows from the
presence of its fields `id` and `method` alone.

Ids are numbers or texts.  A response without an id answers something that was no message.
Results, parameters and the data of errors are values of any kind, which are not looked into here.
-/
import VServer.Json.Read
import VServer.Json.Decode

namespace VServer

open Json (Decoder)

/-- What tells a request from others: a number or a text. -/
inductive RequestId where
  | number (n : Nat)
  | text (s : String)
deriving DecidableEq, Repr

namespace RequestId

/-- An id as JSON. -/
def toJson : RequestId → Json
  | number n => .ofNat n
  | text s => .string s

/-- An id from JSON. -/
def decode : Decoder RequestId
  | .number (.integer i) =>
    if 0 ≤ i then .ok (number i.toNat) else .error (.noAlternative "RequestId")
  | .string s => .ok (text s)
  | _ => .error (.noAlternative "RequestId")

end RequestId

/-- What a failed request is answered with. -/
structure ResponseError where
  code : Int
  message : String
  data : Option Json := none

namespace ResponseError

/-- An error as JSON. -/
def toJson (e : ResponseError) : Json :=
  .object ([("code", .ofInt e.code), ("message", .string e.message)] ++
    Json.present "data" id e.data)

/-- An error from JSON. -/
def decode : Decoder ResponseError :=
  Decoder.record "ResponseError"
    [Decoder.slot "code" .required Decoder.int32 fun e n => { e with code := n },
      Decoder.slot "message" .required Decoder.string fun e s => { e with message := s },
      Decoder.slot "data" .optional (Decoder.option Decoder.any) fun e d => { e with data := d }]
    ⟨0, "", none⟩

/-- An error in words. -/
def display (e : ResponseError) : String :=
  "[" ++ String.ofList (Json.integerText e.code) ++ "] " ++ e.message

end ResponseError

/-- The version of the message format that the server writes. -/
def protocolVersion : String := "2.0"

/-- A request. -/
structure Request where
  version : String := protocolVersion
  id : RequestId
  method : String
  params : Option Json := none

namespace Request

/-- A request as JSON. -/
def toJson (r : Request) : Json :=
  .object ([("jsonrpc", .string r.version), ("id", r.id.toJson), ("method", .string r.method)] ++
    Json.present "params" (fun v => v) r.params)

/-- A request from JSON. -/
def decode : Decoder Request :=
  Decoder.record "Request"
    [Decoder.slot "jsonrpc" .required Decoder.string fun r s => { r with version := s },
      Decoder.slot "id" .required RequestId.decode fun r i => { r with id := i },
      Decoder.slot "method" .required Decoder.string fun r s => { r with method := s },
      Decoder.slot "params" .optional (Decoder.option Decoder.any) fun r p =>
        { r with params := p }]
    ⟨"", .number 0, "", none⟩

end Request

/-- A response.  One without an error is a success. -/
structure Response where
  version : String := protocolVersion
  id : Option RequestId
  result : Option Json := none
  error : Option ResponseError := none

namespace Response

/-- The answer to a request that went well. -/
def success (id : RequestId) (result : Json) : Response :=
  { id := some id, result := some result }

/-- The answer to a request that failed, or to a message that could not be read. -/
def failure (id : Option RequestId) (error : ResponseError) : Response :=
  { id, error := some error }

/-- Whether a response is a success. -/
def isSuccess (r : Response) : Bool :=
  r.error.isNone

/-- The result of a success, or the error. -/
def toExcept (r : Response) : Except ResponseError Json :=
  match r.error with
  | some e => .error e
  | none => .ok (r.result.getD .null)

/-- A response as JSON. -/
def toJson (r : Response) : Json :=
  .object ([("jsonrpc", .string r.version), ("id", .ofOption RequestId.toJson r.id)] ++
    Json.present "result" (fun v => v) r.result ++
    Json.present "error" ResponseError.toJson r.error)

/-- A response from JSON. -/
def decode : Decoder Response :=
  Decoder.record "Response"
    [Decoder.slot "jsonrpc" .required Decoder.string fun r s => { r with version := s },
      Decoder.slot "id" .optional (Decoder.option RequestId.decode) fun r i => { r with id := i },
      Decoder.slot "result" .defaulted (Decoder.option Decoder.any) fun r v =>
        { r with result := v },
      Decoder.slot "error" .optional (Decoder.option ResponseError.decode) fun r e =>
        { r with error := e }]
    ⟨"", none, none, none⟩

end Response

/-- A notification. -/
structure Notification where
  version : String := protocolVersion
  method : String
  params : Option Json := none

namespace Notification

/-- A notification as JSON. -/
def toJson (n : Notification) : Json :=
  .object ([("jsonrpc", .string n.version), ("method", .string n.method)] ++
    Json.present "params" (fun v => v) n.params)

/-- A notification from JSON. -/
def decode : Decoder Notification :=
  Decoder.record "Notification"
    [Decoder.slot "jsonrpc" .required Decoder.string fun n s => { n with version := s },
      Decoder.slot "method" .required Decoder.string fun n s => { n with method := s },
      Decoder.slot "params" .optional (Decoder.option Decoder.any) fun n p =>
        { n with params := p }]
    ⟨"", "", none⟩

end Notification

/-- Any message. -/
inductive Message where
  | request (r : Request)
  | response (r : Response)
  | notification (n : Notification)

/-- Why a text is no message. -/
inductive MessageError where
  | unreadable (error : Json.ReadError)
  | undecodable (error : Json.DecodeError)
  /-- Neither an id nor a method. -/
  | unrecognised
deriving DecidableEq, Repr

namespace MessageError

/-- The error in words. -/
def message : MessageError → String
  | unreadable e => e.message
  | undecodable e => e.message
  | unrecognised => "Invalid LSP message"

end MessageError

namespace Message

/-- A message as JSON. -/
def toJson : Message → Json
  | request r => r.toJson
  | response r => r.toJson
  | notification n => n.toJson

/-- A message as a text. -/
def render (m : Message) : String :=
  m.toJson.render

/-- The method of a request or a notification. -/
def method? : Message → Option String
  | request r => some r.method
  | notification n => some n.method
  | response _ => none

/-- The message that a value is. -/
def ofJson (value : Json) : Except MessageError Message :=
  match value.hasField "id", value.hasField "method" with
  | true, true => ((Request.decode value).map request).mapError .undecodable
  | true, false => ((Response.decode value).map response).mapError .undecodable
  | false, true => ((Notification.decode value).map notification).mapError .undecodable
  | false, false => .error .unrecognised

/-- The message that a text is. -/
def parse (text : List Char) : Except MessageError Message :=
  match Json.read text with
  | .error e => .error (.unreadable e)
  | .ok value => ofJson value

end Message

end VServer
