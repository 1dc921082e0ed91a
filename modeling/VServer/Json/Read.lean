/-
Reading JSON texts.

The reader goes through the characters once and stops at the first thing that is wrong.  A failure
carries its cause and the number of bytes that were left at its place, from which line and column
follow.  An offending character counts as read, so its column is counted from one; at the end of
the text the column is that of the last character.

Brackets may be nested 127 deep.  The depth is the argument of the recursion for values; the items
of one array, and the fields of one object, are read in a loop that is bounded by the number of
characters.
-/
import VServer.Text.Utf8
import VServer.Json

namespace VServer.Json

/-- What is wrong with a text. -/
inductive ReadCause where
  | endInValue
  | endInObject
  | endInList
  | endInString
  | noValue
  | noWord
  | noColon
  | noCommaOrBrace
  | noCommaOrBracket
  | keyNoString
  | trailingComma
  | trailingCharacters
  | invalidNumber
  | numberTooLarge
  | invalidEscape
  | controlCharacter
  | endOfHexEscape
  | loneSurrogate
  | tooDeep
deriving DecidableEq, Repr

namespace ReadCause

/-- The cause in words. -/
def message : ReadCause → String
  | endInValue => "EOF while parsing a value"
  | endInObject => "EOF while parsing an object"
  | endInList => "EOF while parsing a list"
  | endInString => "EOF while parsing a string"
  | noValue => "expected value"
  | noWord => "expected ident"
  | noColon => "expected `:`"
  | noCommaOrBrace => "expected `,` or `\x7d`"
  | noCommaOrBracket => "expected `,` or `]`"
  | keyNoString => "key must be a string"
  | trailingComma => "trailing comma"
  | trailingCharacters => "trailing characters"
  | invalidNumber => "invalid number"
  | numberTooLarge => "number out of range"
  | invalidEscape => "invalid escape"
  | controlCharacter => "control character (\\u0000-\\u001F) found while parsing a string"
  | endOfHexEscape => "unexpected end of hex escape"
  | loneSurrogate => "lone leading surrogate in hex escape"
  | tooDeep => "recursion limit exceeded"

end ReadCause

/-- A cause with its line, counted from one, and the bytes before it on that line. -/
structure ReadError where
  cause : ReadCause
  line : Nat
  column : Nat
deriving DecidableEq, Repr

namespace ReadError

/-- The error as it is told. -/
def message (e : ReadError) : String :=
  e.cause.message ++ " at line " ++ e.line.repr ++ " column " ++ e.column.repr

end ReadError

/-- A cause, and how many bytes of the text are left behind its place. -/
structure Failure where
  cause : ReadCause
  left : Nat
deriving DecidableEq, Repr

/-- A value and the characters behind it, or a failure. -/
abbrev Outcome (α : Type) := Except Failure (α × List Char)

/-- A failure between what is read and `rest`. -/
def failHere {α : Type} (cause : ReadCause) (rest : List Char) : Except Failure α :=
  .error ⟨cause, Text.byteSize rest⟩

/-- A failure at the next byte, or at the end of the text. -/
def failNext {α : Type} (cause : ReadCause) (rest : List Char) : Except Failure α :=
  .error ⟨cause, Text.byteSize rest - 1⟩

/-- Blanks between the parts of a value. -/
def isSpace (c : Char) : Bool :=
  c = ' ' || c = '\n' || c = '\t' || c = '\r'

/-- The text without the blanks in front. -/
def skipSpace (cs : List Char) : List Char :=
  cs.dropWhile isSpace

/-! ### Words and strings -/

/-- Read the characters `word`, and give `value` for them. -/
def readWord {α : Type} (value : α) : List Char → List Char → Outcome α
  | [], cs => .ok (value, cs)
  | _ :: _, [] => failHere .endInValue []
  | w :: word, c :: cs => if c = w then readWord value word cs else failNext .noWord (c :: cs)

/-- The value of a hexadecimal digit. -/
def hexValue? (c : Char) : Option Nat :=
  let n := c.toNat
  if 48 ≤ n ∧ n ≤ 57 then some (n - 48)
  else if 97 ≤ n ∧ n ≤ 102 then some (n - 87)
  else if 65 ≤ n ∧ n ≤ 70 then some (n - 55)
  else none

/-- Four hexadecimal digits.  Whatever else the next four bytes are, they count as read. -/
def readHex (cs : List Char) : Outcome Nat :=
  if Text.byteSize cs < 4 then .error ⟨.endInString, 0⟩
  else
    let value? : Option (Nat × List Char) :=
      match cs with
      | a :: b :: c :: d :: rest => do
        let a ← hexValue? a
        let b ← hexValue? b
        let c ← hexValue? c
        let d ← hexValue? d
        some (((a * 16 + b) * 16 + c) * 16 + d, rest)
      | _ => none
    match value? with
    | some out => .ok out
    | none => .error ⟨.invalidEscape, Text.byteSize cs - 4⟩

/-- The escaped half of a pair of surrogates behind the first half `high`. -/
def readLowSurrogate (high : Nat) (cs : List Char) : Outcome Char :=
  match cs with
  | [] => failHere .endInString []
  | c :: afterMark =>
    if c ≠ '\\' then failNext .endOfHexEscape cs
    else
      match afterMark with
      | [] => failHere .endInString []
      | u :: digits =>
        if u ≠ 'u' then failNext .endOfHexEscape afterMark
        else
          match readHex digits with
          | .error e => .error e
          | .ok (low, rest) =>
            if low < 0xdc00 ∨ 0xdfff < low then failHere .loneSurrogate rest
            else .ok (Char.ofNat ((high - 0xd800) * 1024 + (low - 0xdc00) + 0x10000), rest)

/-- A character escaped by its code, behind the `u`. -/
def readCode (cs : List Char) : Outcome Char :=
  match readHex cs with
  | .error e => .error e
  | .ok (n, rest) =>
    if 0xdc00 ≤ n ∧ n ≤ 0xdfff then failHere .loneSurrogate rest
    else if 0xd800 ≤ n ∧ n ≤ 0xdbff then readLowSurrogate n rest
    else .ok (Char.ofNat n, rest)

/-- A character behind a backslash. -/
def readEscape (cs : List Char) : Outcome Char :=
  match cs with
  | [] => failHere .endInString []
  | c :: rest =>
    if c = '"' ∨ c = '\\' ∨ c = '/' then .ok (c, rest)
    else if c = 'b' then .ok (Char.ofNat 8, rest)
    else if c = 'f' then .ok (Char.ofNat 12, rest)
    else if c = 'n' then .ok ('\n', rest)
    else if c = 'r' then .ok ('\r', rest)
    else if c = 't' then .ok ('\t', rest)
    else if c = 'u' then readCode rest
    else failNext .invalidEscape cs

/-- The characters of a string behind its opening quote, in at most `fuel` steps. -/
def readChars (fuel : Nat) (cs : List Char) : Outcome (List Char) :=
  match fuel, cs with
  | 0, cs => failHere .endInString cs
  | _ + 1, [] => failHere .endInString []
  | fuel + 1, c :: cs =>
    if c = '"' then .ok ([], cs)
    else if c = '\\' then
      match readEscape cs with
      | .error e => .error e
      | .ok (d, rest) => (readChars fuel rest).map fun (ds, rest) => (d :: ds, rest)
    else if c.toNat < 32 then failHere .controlCharacter cs
    else (readChars fuel cs).map fun (ds, rest) => (c :: ds, rest)

/-- A string behind its opening quote. -/
def readString (cs : List Char) : Outcome String :=
  (readChars (cs.length + 1) cs).map fun (ds, rest) => (String.ofList ds, rest)

/-! ### Numbers

Digits are collected as long as the significand fits into 64 bits.  Digits beyond that only move
the decimal point: in front of the point each counts a power of ten, behind it they are dropped.
-/

/-- The largest significand. -/
def largestSignificand : Nat := 18446744073709551615

/-- The largest number whose negative is an integer of 64 bits. -/
def largestNegated : Nat := 9223372036854775808

/-- The value of a decimal digit. -/
def digitValue (c : Char) : Nat :=
  c.toNat - 48

/-- Collect digits behind `significand` while they fit: the significand, how many digits were
collected, and the rest. -/
def collectDigits (significand count : Nat) : List Char → Nat × Nat × List Char
  | [] => (significand, count, [])
  | c :: cs =>
    if c.isDigit then
      let next := significand * 10 + digitValue c
      if next ≤ largestSignificand then collectDigits next (count + 1) cs
      else (significand, count, c :: cs)
    else (significand, count, c :: cs)

/-- A double, or the failure of a number that is too large; the number ends at `rest`. -/
def makeDouble (negative : Bool) (significand : Nat) (exponent : Int) (rest : List Char) :
    Outcome Number :=
  match Double.ofDecimal? negative significand exponent with
  | some d => .ok (.double d, rest)
  | none => failHere .numberTooLarge rest

/-- The largest exponent that is told apart from infinity. -/
def largestExponent : Nat := 2147483647

/-- Collect the digits of an exponent: its value, or the characters behind the digit that made it
too large. -/
def collectExponent (value : Nat) : List Char → Except (List Char) (Nat × List Char)
  | [] => .ok (value, [])
  | c :: cs =>
    if c.isDigit then
      let next := value * 10 + digitValue c
      if next ≤ largestExponent then collectExponent next cs else .error cs
    else .ok (value, c :: cs)

/-- The exponent of a number, behind its mark. -/
def readExponent (negative : Bool) (significand : Nat) (exponent : Int) (cs : List Char) :
    Outcome Number :=
  let (below, digits) : Bool × List Char :=
    match cs with
    | c :: rest => if c = '+' then (false, rest) else if c = '-' then (true, rest) else (false, cs)
    | [] => (false, cs)
  match digits with
  | [] => failHere .endInValue []
  | c :: rest =>
    if c.isDigit then
      match collectExponent (digitValue c) rest with
      | .ok (e, rest) =>
        makeDouble negative significand (if below then exponent - e else exponent + e) rest
      | .error rest =>
        if significand ≠ 0 ∧ below = false then failHere .numberTooLarge rest
        else .ok (.double (Double.zero negative), rest.dropWhile Char.isDigit)
    else failNext .invalidNumber digits

/-- What may stand behind the digits of a fraction. -/
def finishFraction (negative : Bool) (significand : Nat) (exponent : Int) (cs : List Char) :
    Outcome Number :=
  match cs with
  | c :: rest =>
    if c = 'e' ∨ c = 'E' then readExponent negative significand exponent rest
    else makeDouble negative significand exponent cs
  | [] => makeDouble negative significand exponent []

/-- The digits of a fraction, behind the point. -/
def readFraction (negative : Bool) (significand : Nat) (exponent : Int) (cs : List Char) :
    Outcome Number :=
  let (significand, count, rest) := collectDigits significand 0 cs
  match rest with
  | c :: _ =>
    if c.isDigit then
      finishFraction negative significand (exponent - count) (rest.dropWhile Char.isDigit)
    else if count = 0 then failNext .invalidNumber rest
    else finishFraction negative significand (exponent - count) rest
  | [] =>
    if count = 0 then failNext .endInValue []
    else finishFraction negative significand (exponent - count) []

/-- A number whose integer part has the digits of `significand` and `dropped` more. -/
def finishNumber (negative : Bool) (significand dropped : Nat) (cs : List Char) :
    Outcome Number :=
  let whole : Outcome Number :=
    if dropped = 0 then
      if negative then
        if significand = 0 ∨ largestNegated < significand then makeDouble true significand 0 cs
        else .ok (.integer (-(significand : Int)), cs)
      else .ok (.integer significand, cs)
    else makeDouble negative significand dropped cs
  match cs with
  | c :: rest =>
    if c = '.' then readFraction negative significand dropped rest
    else if c = 'e' ∨ c = 'E' then readExponent negative significand dropped rest
    else whole
  | [] => whole

/-- A number behind its sign. -/
def readNumber (negative : Bool) (cs : List Char) : Outcome Number :=
  match cs with
  | [] => failHere .endInValue []
  | c :: rest =>
    if c = '0' then
      if rest.head?.any Char.isDigit then failNext .invalidNumber rest
      else finishNumber negative 0 0 rest
    else if c.isDigit then
      let (significand, _, rest) := collectDigits (digitValue c) 0 rest
      let more := rest.takeWhile Char.isDigit
      finishNumber negative significand more.length (rest.dropWhile Char.isDigit)
    else failNext .invalidNumber cs

/-! ### Arrays and objects -/

/-- The items of an array, in at most `fuel` steps, where `cs` stands at an item and `item` reads
one. -/
def readItems (item : List Char → Outcome Json) (fuel : Nat) (cs : List Char) :
    Outcome (List Json) :=
  match fuel with
  | 0 => failHere .endInList cs
  | fuel + 1 =>
    match item cs with
    | .error e => .error e
    | .ok (value, rest) =>
      match skipSpace rest with
      | [] => failNext .endInList []
      | c :: after =>
        if c = ']' then .ok ([value], after)
        else if c = ',' then
          match skipSpace after with
          | [] => failNext .endInValue []
          | d :: more =>
            if d = ']' then failNext .trailingComma (d :: more)
            else (readItems item fuel (d :: more)).map fun (vs, rest) => (value :: vs, rest)
        else failNext .noCommaOrBracket (c :: after)

/-- An array behind its opening bracket. -/
def readArray (item : List Char → Outcome Json) (cs : List Char) : Outcome Json :=
  match skipSpace cs with
  | [] => failNext .endInList []
  | c :: rest =>
    if c = ']' then .ok (.array [], rest)
    else (readItems item (c :: rest).length (c :: rest)).map fun (vs, rest) => (.array vs, rest)

/-- A field of an object behind the quote that opens its name. -/
def readField (item : List Char → Outcome Json) (cs : List Char) : Outcome (String × Json) :=
  match readString cs with
  | .error e => .error e
  | .ok (name, rest) =>
    match skipSpace rest with
    | [] => failNext .endInObject []
    | c :: after =>
      if c = ':' then (item after).map fun (value, rest) => ((name, value), rest)
      else failNext .noColon (c :: after)

/-- The fields of an object, in at most `fuel` steps, where `cs` stands behind the quote that
opens the name of the first one.  Of two fields with one name the later one counts. -/
def readFields (item : List Char → Outcome Json) (fuel : Nat)
    (known : List (String × Json)) (cs : List Char) : Outcome (List (String × Json)) :=
  match fuel with
  | 0 => failHere .endInObject cs
  | fuel + 1 =>
    match readField item cs with
    | .error e => .error e
    | .ok ((name, value), rest) =>
      let known := putEntry name value known
      match skipSpace rest with
      | [] => failNext .endInObject []
      | c :: after =>
        if c = '\x7d' then .ok (known, after)
        else if c = ',' then
          match skipSpace after with
          | [] => failNext .endInValue []
          | d :: more =>
            if d = '"' then readFields item fuel known more
            else if d = '\x7d' then failNext .trailingComma (d :: more)
            else failNext .keyNoString (d :: more)
        else failNext .noCommaOrBrace (c :: after)

/-- An object behind its opening brace. -/
def readObject (item : List Char → Outcome Json) (cs : List Char) : Outcome Json :=
  match skipSpace cs with
  | [] => failNext .endInObject []
  | c :: rest =>
    if c = '\x7d' then .ok (.object [], rest)
    else if c = '"' then
      (readFields item (c :: rest).length [] rest).map fun (fs, rest) => (.object fs, rest)
    else failNext .keyNoString (c :: rest)

/-- A value, in which brackets are nested at most `depth` deep. -/
def readValue (depth : Nat) (cs : List Char) : Outcome Json :=
  match skipSpace cs with
  | [] => failNext .endInValue []
  | c :: rest =>
    if c = 'n' then readWord .null ['u', 'l', 'l'] rest
    else if c = 't' then readWord (.bool true) ['r', 'u', 'e'] rest
    else if c = 'f' then readWord (.bool false) ['a', 'l', 's', 'e'] rest
    else if c = '-' then (readNumber true rest).map fun (n, rest) => (.number n, rest)
    else if c.isDigit then (readNumber false (c :: rest)).map fun (n, rest) => (.number n, rest)
    else if c = '"' then (readString rest).map fun (s, rest) => (.string s, rest)
    else if c = '[' then
      match depth with
      | 0 => failNext .tooDeep (c :: rest)
      | depth + 1 => readArray (readValue depth) rest
    else if c = '\x7b' then
      match depth with
      | 0 => failNext .tooDeep (c :: rest)
      | depth + 1 => readObject (readValue depth) rest
    else failNext .noValue (c :: rest)

/-- How deep brackets may be nested. -/
def depthLimit : Nat := 127

/-- Line and column behind the first `n` bytes of a text. -/
def locate (n : Nat) (cs : List Char) : Nat × Nat :=
  let before := (Text.encode cs).take n
  (1 + before.count 10, (before.reverse.takeWhile (· != 10)).length)

/-- A failure with its line and column. -/
def Failure.locate (f : Failure) (cs : List Char) : ReadError :=
  let (line, column) := Json.locate (Text.byteSize cs - f.left) cs
  ⟨f.cause, line, column⟩

/-- Read a text that is one value and nothing else. -/
def read (cs : List Char) : Except ReadError Json :=
  let outcome : Except Failure Json :=
    match readValue depthLimit cs with
    | .error e => .error e
    | .ok (value, rest) =>
      match skipSpace rest with
      | [] => .ok value
      | c :: after => failNext .trailingCharacters (c :: after)
  outcome.mapError fun f => f.locate cs

end VServer.Json
