/-
Reading documents of settings.

Every reader takes characters and gives what it read together with the characters behind it, or
nothing at all: where a document cannot be read, it does not matter why.

A document is read line by line: a header, or a key with its value.  Values can go on over lines.
Texts have four forms, and keys can be such texts.  Whether an entry gets in the way of another one
is decided where it is put into the document.
-/
import VServer.Toml

namespace VServer.Toml

/-- Blanks inside a line. -/
def isSpace (c : Char) : Bool :=
  c = ' ' || c = '\t'

/-- The text without the blanks in front. -/
def skipSpace (cs : List Char) : List Char :=
  cs.dropWhile isSpace

/-- Characters of comments and of texts between quotes: no control characters but the tab. -/
def isPlain (c : Char) : Bool :=
  c = '\t' || (32 ≤ c.toNat && c.toNat != 127)

/-- The text behind a line end, if one stands here. -/
def newline? : List Char → Option (List Char)
  | '\n' :: cs => some cs
  | '\r' :: '\n' :: cs => some cs
  | _ => none

/-- The text behind a comment, if one stands here. -/
def skipComment (cs : List Char) : List Char :=
  match cs with
  | '#' :: rest => rest.dropWhile isPlain
  | _ => cs

/-- The end of a line: blanks, perhaps a comment, and a line end or the end of the text. -/
def lineEnd? (cs : List Char) : Option (List Char) :=
  let rest := skipComment (skipSpace cs)
  if rest.isEmpty then some [] else newline? rest

/-- Pass over blanks, comments and line ends, in at most `fuel` steps. -/
def skipLinesIn (fuel : Nat) (cs : List Char) : List Char :=
  match fuel with
  | 0 => cs
  | fuel + 1 =>
    let here := skipSpace cs
    match newline? (skipComment here) with
    | some rest => skipLinesIn fuel rest
    | none => here

/-- Pass over blanks, comments and line ends. -/
def skipLines (cs : List Char) : List Char :=
  skipLinesIn (cs.length + 1) cs

/-! ### Texts -/

/-- The value of hexadecimal digits. -/
def hexNumber (digits : List Char) : Option Nat :=
  digits.foldl
    (fun acc c => do
      let n ← acc
      let v := c.toNat
      if 48 ≤ v && v ≤ 57 then some (n * 16 + (v - 48))
      else if 97 ≤ v && v ≤ 102 then some (n * 16 + (v - 87))
      else if 65 ≤ v && v ≤ 70 then some (n * 16 + (v - 55))
      else none)
    (some 0)

/-- A character by its code in `count` hexadecimal digits. -/
def readCode (count : Nat) (cs : List Char) : Option (Char × List Char) :=
  let digits := cs.take count
  if digits.length = count then
    match hexNumber digits with
    | some n => if n.isValidChar then some (Char.ofNat n, cs.drop count) else none
    | none => none
  else none

/-- A character behind a backslash. -/
def readEscape (cs : List Char) : Option (Char × List Char) :=
  match cs with
  | [] => none
  | c :: rest =>
    if c = 'b' then some (Char.ofNat 8, rest)
    else if c = 't' then some ('\t', rest)
    else if c = 'n' then some ('\n', rest)
    else if c = 'f' then some (Char.ofNat 12, rest)
    else if c = 'r' then some ('\r', rest)
    else if c = '"' ∨ c = '\\' then some (c, rest)
    else if c = 'u' then readCode 4 rest
    else if c = 'U' then readCode 8 rest
    else none

/-- The character of single quotes. -/
def singleQuote : Char := Char.ofNat 39

/-- A text of one line behind its quote, in at most `fuel` steps; between double quotes a
backslash escapes. -/
def readQuotedIn (quote : Char) (fuel : Nat) (cs : List Char) : Option (List Char × List Char) :=
  match fuel, cs with
  | 0, _ => none
  | _ + 1, [] => none
  | fuel + 1, c :: rest =>
    if c = quote then some ([], rest)
    else if c = '\\' ∧ quote = '"' then do
      let (d, rest) ← readEscape rest
      let (ds, rest) ← readQuotedIn quote fuel rest
      some (d :: ds, rest)
    else if isPlain c then do
      let (ds, rest) ← readQuotedIn quote fuel rest
      some (c :: ds, rest)
    else none

/-- A text of one line behind its quote. -/
def readQuoted (quote : Char) (cs : List Char) : Option (String × List Char) :=
  (readQuotedIn quote (cs.length + 1) cs).map fun (ds, rest) => (String.ofList ds, rest)

/-- Pass over blanks and line ends behind a backslash that ends a line. -/
def skipFold (cs : List Char) : Option (List Char) :=
  match newline? (skipSpace cs) with
  | none => none
  | some rest => some (rest.dropWhile fun c => isSpace c || c = '\n' || c = '\r')

/-- Whether returns in a text stand in front of newlines only. -/
def returnsPaired : List Char → Bool
  | [] => true
  | c :: cs => (c != '\r' || cs.head? == some '\n') && returnsPaired cs

/-- A text of several lines behind its three quotes, in at most `fuel` steps.  Up to two quotes
belong to the text, also right before its end. -/
def readLongIn (quote : Char) (fuel : Nat) (cs : List Char) : Option (List Char × List Char) :=
  match fuel, cs with
  | 0, _ => none
  | _ + 1, [] => none
  | fuel + 1, c :: rest =>
    if c = quote then
      let run := (c :: rest).takeWhile (· == quote)
      let after := (c :: rest).dropWhile (· == quote)
      if run.length < 3 then do
        let (ds, rest) ← readLongIn quote fuel after
        some (run ++ ds, rest)
      else if run.length ≤ 5 then some (List.replicate (run.length - 3) quote, after)
      else none
    else if c = '\\' ∧ quote = '"' then
      match skipFold rest with
      | some folded =>
        -- Returns that were passed over must have been part of line ends.
        if returnsPaired (rest.take (rest.length - folded.length)) then
          readLongIn quote fuel folded
        else none
      | none => do
        let (d, rest) ← readEscape rest
        let (ds, rest) ← readLongIn quote fuel rest
        some (d :: ds, rest)
    else
      match newline? (c :: rest) with
      | some rest => do
        let (ds, rest) ← readLongIn quote fuel rest
        some ('\n' :: ds, rest)
      | none =>
        if isPlain c then do
          let (ds, rest) ← readLongIn quote fuel rest
          some (c :: ds, rest)
        else none

/-- A text of several lines behind its three quotes; a line end right behind them is left out. -/
def readLong (quote : Char) (cs : List Char) : Option (String × List Char) :=
  let body := (newline? cs).getD cs
  (readLongIn quote (body.length + 1) body).map fun (ds, rest) => (String.ofList ds, rest)

/-- A text in any of its four forms. -/
def readText (cs : List Char) : Option (String × List Char) :=
  match cs with
  | [] => none
  | q :: rest =>
    if q = '"' ∨ q = singleQuote then
      if rest.take 2 = [q, q] then readLong q (rest.drop 2) else readQuoted q rest
    else none

/-! ### Keys and values -/

/-- Characters of keys without quotes. -/
def isKeyPart (c : Char) : Bool :=
  c.isAlphanum || c = '_' || c = '-'

/-- One key. -/
def readKey (cs : List Char) : Option (String × List Char) :=
  match cs with
  | [] => none
  | c :: rest =>
    if c = '"' ∨ c = singleQuote then readQuoted c rest
    else
      let word := cs.takeWhile isKeyPart
      if word.isEmpty then none else some (String.ofList word, cs.dropWhile isKeyPart)

/-- Keys with dots between them, in at most `fuel` steps: those in front, and the last one. -/
def readKeysIn (fuel : Nat) (cs : List Char) : Option ((List String × String) × List Char) :=
  match fuel with
  | 0 => none
  | fuel + 1 => do
    let (key, rest) ← readKey cs
    match skipSpace rest with
    | '.' :: more =>
      let ((path, last), rest) ← readKeysIn fuel (skipSpace more)
      some ((key :: path, last), rest)
    | _ => some (([], key), rest)

/-- Keys with dots between them. -/
def readKeys (cs : List Char) : Option ((List String × String) × List Char) :=
  readKeysIn (cs.length + 1) cs

/-- The text behind the sign between a key and its value. -/
def equals? (cs : List Char) : Option (List Char) :=
  match skipSpace cs with
  | '=' :: rest => some (skipSpace rest)
  | _ => none

/-- The items of an array, in at most `fuel` steps. -/
def readItems (value : List Char → Option (Toml × List Char)) (fuel : Nat) (cs : List Char) :
    Option (List Toml × List Char) :=
  match fuel with
  | 0 => none
  | fuel + 1 =>
    match skipLines cs with
    | ']' :: rest => some ([], rest)
    | here => do
      let (item, rest) ← value here
      match skipLines rest with
      | ']' :: rest => some ([item], rest)
      | ',' :: rest =>
        let (items, rest) ← readItems value fuel rest
        some (item :: items, rest)
      | _ => none

/-- The entries of a table between braces, in at most `fuel` steps, where one has to follow. -/
def readEntries (value : List Char → Option (Toml × List Char)) (fuel : Nat) (known : Entries)
    (cs : List Char) : Option (Entries × List Char) :=
  match fuel with
  | 0 => none
  | fuel + 1 => do
    let ((path, key), rest) ← readKeys (skipSpace cs)
    let rest ← equals? rest
    let (item, rest) ← value rest
    let known ← addEntry path key item known
    match skipSpace rest with
    | '\x7d' :: rest => some (known, rest)
    | ',' :: rest => readEntries value fuel known rest
    | _ => none

/-- A value, in at most `fuel` steps. -/
def readValue (fuel : Nat) (cs : List Char) : Option (Toml × List Char) :=
  match fuel with
  | 0 => none
  | fuel + 1 =>
    match cs with
    | [] => none
    | c :: rest =>
      if c = '[' then
        (readItems (readValue fuel) (rest.length + 1) rest).map fun (items, rest) =>
          (.array items, rest)
      else if c = '\x7b' then
        match skipSpace rest with
        | '\x7d' :: rest => some (.inline [], rest)
        | here =>
          (readEntries (readValue fuel) (here.length + 1) [] here).map fun (entries, rest) =>
            (.inline entries, rest)
      else if "true".toList.isPrefixOf cs then some (.boolean true, cs.drop 4)
      else if "false".toList.isPrefixOf cs then some (.boolean false, cs.drop 5)
      else (readText cs).map fun (s, rest) => (.text s, rest)

/-! ### Documents -/

/-- A header behind its bracket, with `close` at its end. -/
def readHeader (close : List Char) (cs : List Char) :
    Option ((List String × String) × List Char) := do
  let (keys, rest) ← readKeys (skipSpace cs)
  let here := skipSpace rest
  if close.isPrefixOf here then some (keys, here.drop close.length) else none

/-- One line of a document that is not empty. -/
def readLine (d : Draft) (cs : List Char) : Option (Draft × List Char) :=
  match cs with
  | '[' :: '[' :: rest => do
    let ((path, key), rest) ← readHeader [']', ']'] rest
    let d ← d.openListed path key
    some (d, rest)
  | '[' :: rest => do
    let ((path, key), rest) ← readHeader [']'] rest
    let d ← d.openTable path key
    some (d, rest)
  | _ => do
    let ((path, key), rest) ← readKeys cs
    let rest ← equals? rest
    let (value, rest) ← readValue (rest.length + 1) rest
    let d ← d.addLine path key value
    some (d, rest)

/-- The lines of a document, in at most `fuel` steps. -/
def readLines (fuel : Nat) (d : Draft) (cs : List Char) : Option Entries :=
  match fuel with
  | 0 => none
  | fuel + 1 =>
    match skipComment (skipSpace cs) with
    | [] => d.finish
    | c :: rest =>
      match newline? (c :: rest) with
      | some rest => readLines fuel d rest
      | none => do
        let (d, rest) ← readLine d (skipSpace cs)
        let rest ← lineEnd? rest
        readLines fuel d rest

/-- The entries of a document.  A byte order mark in front of it is passed over. -/
def read (cs : List Char) : Option Entries :=
  let text := if cs.head?.any (·.toNat == 0xfeff) then cs.drop 1 else cs
  readLines (text.length + 1) {} text

end VServer.Toml
