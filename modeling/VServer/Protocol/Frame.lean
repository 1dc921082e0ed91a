/-
Messages on a stream of bytes.

A message is sent as a frame: header lines, an empty line, and a body whose length one of the
headers tells.  Reading is a function from the bytes at hand to a result and the bytes behind it.
A frame that cannot be understood is an error, and reading goes on behind what was looked at; the
end of the stream is the one result behind which nothing follows.

`wants` tells what is missing where a message has arrived in part: a line of its headers, or a
number of bytes of its body.
-/
import VServer.Text.Blank
import VServer.Protocol.Message

namespace VServer

open Text (Bytes)

/-- The longest body that is accepted. -/
def bodyLimit : Nat := 64 * 1024 * 1024

/-- Why a header does not tell a length. -/
inductive LengthError where
  | empty
  | invalidDigit
  | tooLarge
deriving DecidableEq, Repr

namespace LengthError

/-- The error in words. -/
def message : LengthError → String
  | empty => "cannot parse integer from empty string"
  | invalidDigit => "invalid digit found in string"
  | tooLarge => "number too large to fit in target type"

end LengthError

/-- The largest length that can be told. -/
def largestLength : Nat := 18446744073709551615

/-- Read digits behind `value`. -/
def readDigits (value : Nat) : List Char → Except LengthError Nat
  | [] => .ok value
  | c :: cs =>
    if c.isDigit then
      let next := value * 10 + (c.toNat - 48)
      if next ≤ largestLength then readDigits next cs else .error .tooLarge
    else .error .invalidDigit

/-- Read a length: digits with an optional plus in front. -/
def readLength (cs : List Char) : Except LengthError Nat :=
  match cs with
  | [] => .error .empty
  | c :: rest =>
    if c = '+' then if rest.isEmpty then .error .invalidDigit else readDigits 0 rest
    else readDigits 0 cs

/-- Why bytes are no message, although more may follow. -/
inductive FrameError where
  /-- A header line or a body is no text. -/
  | notText (error : Text.Utf8Error)
  | badLength (error : LengthError)
  | noLength
  | tooLong (length : Nat)
  | badMessage (error : MessageError)
deriving DecidableEq, Repr

namespace FrameError

/-- The error in words. -/
def message : FrameError → String
  | notText e => e.message
  | badLength e => e.message
  | noLength => "Missing Content-Length"
  | tooLong length =>
    "Content-Length " ++ length.repr ++ " exceeds limit of " ++ bodyLimit.repr ++ " bytes"
  | badMessage e => e.message

end FrameError

/-- How a stream ends. -/
inductive StreamEnd where
  /-- Before a body. -/
  | closed
  /-- Inside a body. -/
  | cutShort
deriving DecidableEq, Repr

namespace StreamEnd

/-- The end in words. -/
def message : StreamEnd → String
  | closed => "Client closed connection"
  | cutShort => "early eof"

end StreamEnd

/-- The result of one attempt to read a message. -/
inductive Received where
  | message (m : Message)
  | malformed (error : FrameError)
  | ended (how : StreamEnd)

namespace Frame

/-- The bytes through the first newline, and the bytes behind it. -/
def splitLine : Bytes → Bytes × Bytes
  | [] => ([], [])
  | b :: bs =>
    if b = 10 then ([b], bs)
    else
      let (line, rest) := splitLine bs
      (b :: line, rest)

/-- What a header line says. -/
inductive Header where
  /-- The headers end here. -/
  | last
  | length (n : Nat)
  /-- Something that does not matter. -/
  | other
deriving DecidableEq, Repr

/-- The name of the header that tells the length of the body. -/
def lengthHeader : List Char := "Content-Length:".toList

/-- The text behind a given beginning. -/
def after? (beginning text : List Char) : Option (List Char) :=
  if beginning.isPrefixOf text then some (text.drop beginning.length) else none

/-- What a header line says, blanks around it left out. -/
def readHeader (line : Bytes) : Except FrameError Header :=
  match Text.decode line with
  | .error e => .error (.notText e)
  | .ok cs =>
    let text := Text.trim cs
    if text.isEmpty then .ok .last
    else
      match after? lengthHeader text with
      | some value =>
        match readLength (Text.trim value) with
        | .ok n => .ok (.length n)
        | .error e => .error (.badLength e)
      | none => .ok .other

/-- The length that the headers of a frame have told, if a body of that length is accepted. -/
def acceptLength (told : Option Nat) : Except FrameError Nat :=
  match told with
  | none => .error .noLength
  | some n => if bodyLimit < n then .error (.tooLong n) else .ok n

/-- What reading the headers of a frame comes to. -/
inductive Headers where
  | body (length : Nat)
  | malformed (error : FrameError)
  | ended
deriving DecidableEq, Repr

/-- Read header lines, in at most `fuel` steps, where `told` is the length told so far. -/
def readHeadersIn (fuel : Nat) (told : Option Nat) (bytes : Bytes) : Headers × Bytes :=
  match fuel, bytes with
  | 0, bytes => (.ended, bytes)
  | _ + 1, [] => (.ended, [])
  | fuel + 1, b :: bs =>
    let (line, rest) := splitLine (b :: bs)
    match readHeader line with
    | .error e => (.malformed e, rest)
    | .ok .last =>
      match acceptLength told with
      | .ok n => (.body n, rest)
      | .error e => (.malformed e, rest)
    | .ok (.length n) => readHeadersIn fuel (some n) rest
    | .ok .other => readHeadersIn fuel told rest

/-- Read the headers of a frame. -/
def readHeaders (bytes : Bytes) : Headers × Bytes :=
  readHeadersIn (bytes.length + 1) none bytes

/-- The message that a body is. -/
def readBody (body : Bytes) : Received :=
  match Text.decode body with
  | .error e => .malformed (.notText e)
  | .ok cs =>
    match Message.parse cs with
    | .ok m => .message m
    | .error e => .malformed (.badMessage e)

/-- Read the next message of a stream. -/
def read (bytes : Bytes) : Received × Bytes :=
  match readHeaders bytes with
  | (.ended, rest) => (.ended .closed, rest)
  | (.malformed e, rest) => (.malformed e, rest)
  | (.body n, rest) =>
    if rest.length < n then (.ended .cutShort, [])
    else (readBody (rest.take n), rest.drop n)

/-- What has to be fetched before the next message can be read. -/
inductive Wants where
  | nothing
  /-- The rest of a header line, or the next one. -/
  | line
  | bytes (count : Nat)
deriving DecidableEq, Repr

/-- What is wanted behind the headers, where so many bytes of the body are there. -/
def Headers.wants (headers : Headers) (there : Nat) : Wants :=
  match headers with
  | .ended => .line
  | .malformed _ => .nothing
  | .body n => if there < n then .bytes (n - there) else .nothing

/-- What the next message of a stream still wants, where these are its bytes so far.  A header line
without its newline may go on, so nothing is concluded from it. -/
def wants (bytes : Bytes) : Wants :=
  let (headers, rest) := readHeaders bytes
  let lines := bytes.take (bytes.length - rest.length)
  if lines.getLast? = some 10 then headers.wants rest.length else .line

/-- A text as a frame. -/
def ofText (text : List Char) : Bytes :=
  let body := Text.encode text
  Text.encodeString ("Content-Length: " ++ body.length.repr ++ "\r\n\r\n") ++ body

/-- A message as a frame. -/
def ofMessage (m : Message) : Bytes :=
  ofText m.toJson.text

/-- Read messages, in at most `fuel` steps, through the end of the stream. -/
def readAllIn (fuel : Nat) (bytes : Bytes) : List Received :=
  match fuel with
  | 0 => []
  | fuel + 1 =>
    match read bytes with
    | (.ended how, _) => [.ended how]
    | (received, rest) => received :: readAllIn fuel rest

/-- All results of reading a stream; the last one tells how it ends. -/
def readAll (bytes : Bytes) : List Received :=
  readAllIn (bytes.length + 1) bytes

end Frame

end VServer
