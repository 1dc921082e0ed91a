/-
JSON values as texts.

Nothing stands between the parts of a value, so a value has one text.  In a string the quote, the
backslash and the control characters are escaped and everything else stands for itself.

The fields of an object are written in the order in which they stand.  Numbers are written in
digits, doubles with as few of them as tell the double again.
-/
import VServer.Json

namespace VServer.Json

/-- A hexadecimal digit, a small letter above nine. -/
def smallHexDigit (n : Nat) : Char :=
  Char.ofNat (if n < 10 then 48 + n else 87 + n)

/-- One character of a string. -/
def escapeChar (c : Char) : List Char :=
  if c = '"' then ['\\', '"']
  else if c = '\\' then ['\\', '\\']
  else if c = '\n' then ['\\', 'n']
  else if c = '\r' then ['\\', 'r']
  else if c = '\t' then ['\\', 't']
  else if c.toNat = 8 then ['\\', 'b']
  else if c.toNat = 12 then ['\\', 'f']
  else if c.toNat < 32 then
    ['\\', 'u', '0', '0', smallHexDigit (c.toNat / 16), smallHexDigit (c.toNat % 16)]
  else [c]

/-- A string between its quotes. -/
def stringText (s : String) : List Char :=
  '"' :: s.toList.flatMap escapeChar ++ ['"']

/-- An integer. -/
def integerText (i : Int) : List Char :=
  if i < 0 then '-' :: Nat.toDigits 10 i.natAbs else Nat.toDigits 10 i.natAbs

/-- A number. -/
def numberText : Number → List Char
  | .integer i => integerText i
  | .double d => d.text

mutual

/-- The text of a value. -/
def text : Json → List Char
  | .null => ['n', 'u', 'l', 'l']
  | .bool true => ['t', 'r', 'u', 'e']
  | .bool false => ['f', 'a', 'l', 's', 'e']
  | .number n => numberText n
  | .string s => stringText s
  | .array items => '[' :: itemsText items ++ [']']
  | .object fields => '\x7b' :: fieldsText fields ++ ['\x7d']

/-- The items of an array with commas between them. -/
def itemsText : List Json → List Char
  | [] => []
  | item :: items =>
    match items with
    | [] => text item
    | _ :: _ => text item ++ ',' :: itemsText items

/-- The fields of an object with commas between them. -/
def fieldsText : List (String × Json) → List Char
  | [] => []
  | (name, value) :: fields =>
    match fields with
    | [] => stringText name ++ ':' :: text value
    | _ :: _ => stringText name ++ ':' :: text value ++ ',' :: fieldsText fields

end

/-- The text of a value as a string. -/
def render (value : Json) : String :=
  String.ofList value.text

end VServer.Json
