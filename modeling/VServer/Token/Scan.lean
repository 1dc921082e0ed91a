/-
Cutting source text into tokens.

`munch` takes the longest piece that can be taken at the head of a text: blanks, a comment, a
token, or text that starts no token.  It returns the piece together with the rest, and the piece
is never empty, so `scanFrom` comes to the end of the text after at most as many pieces as the
text has characters.

Block comments nest.  A comment that does not end swallows the rest of the text; a quoted text
that does not end is stray up to where it stopped being readable, and scanning goes on there.
-/
import VServer.Token

namespace VServer.Token

/-- What the head of a text is. -/
inductive Piece where
  /-- Blanks or a comment. -/
  | gap
  /-- Text that starts no token. -/
  | stray
  | token (kind : Kind)
deriving DecidableEq, Repr

/-- The head of a text: what it is, its characters, and the text behind it. -/
structure Munch where
  piece : Piece
  taken : List Char
  rest : List Char
deriving DecidableEq, Repr

/-- Blanks between tokens; a newline is a token. -/
def isGapChar (c : Char) : Bool :=
  c = ' ' || c = '\t' || c = '\r' || c.toNat = 12

/-- Whether a character can start a word. -/
def isWordStart (c : Char) : Bool :=
  c.isAlpha || c = '_'

/-- Whether a character can go on a word or a number. -/
def isWordPart (c : Char) : Bool :=
  c.isAlphanum || c = '_'

/-- The kind of a token that is one mark. -/
def markKind? (c : Char) : Option Kind :=
  if c = '(' then some (.opener .paren)
  else if c = ')' then some (.closer .paren)
  else if c = '\x7b' then some (.opener .brace)
  else if c = '\x7d' then some (.closer .brace)
  else if c = '[' then some (.opener .square)
  else if c = ']' then some (.closer .square)
  else if c = '.' then some .dot
  else if c = ',' then some .comma
  else if c = ':' then some .colon
  else if c = '=' then some .equals
  else if c = '@' then some .atSign
  else if "+-*/%<>!|^~?#$&;\\".toList.contains c then some .operator
  else none

/-- Cut off the inside of a block comment, with `depth` comments open around it, through the mark
that ends the outermost one. -/
def splitComment (depth : Nat) : List Char → List Char × List Char
  | [] => ([], [])
  | [c] => ([c], [])
  | c :: d :: cs =>
    if c = '/' ∧ d = '*' then
      let (inside, rest) := splitComment (depth + 1) cs
      (c :: d :: inside, rest)
    else if c = '*' ∧ d = '/' then
      match depth with
      | 0 => ([c, d], cs)
      | outer + 1 =>
        let (inside, rest) := splitComment outer cs
        (c :: d :: inside, rest)
    else
      let (inside, rest) := splitComment depth (d :: cs)
      (c :: inside, rest)

/-- Cut off the units of a quoted text: a character other than the quote and the backslash, or a
backslash with the character behind it, which is no newline. -/
def splitUnits (quote : Char) : List Char → List Char × List Char
  | [] => ([], [])
  | [c] => if c = quote ∨ c = '\\' then ([], [c]) else ([c], [])
  | c :: d :: cs =>
    if c = '\\' then
      if d = '\n' then ([], c :: d :: cs)
      else
        let (units, rest) := splitUnits quote cs
        (c :: d :: units, rest)
    else if c = quote then ([], c :: d :: cs)
    else
      let (units, rest) := splitUnits quote (d :: cs)
      (c :: units, rest)

/-- A quoted text behind its opening quote.  Where `filled` holds, an empty one does not count. -/
def munchQuoted (kind : Kind) (quote : Char) (filled : Bool) (cs : List Char) : Munch :=
  match splitUnits quote cs with
  | (units, rest) =>
    match rest with
    | c :: after =>
      if c = quote ∧ ¬ (filled ∧ units = []) then ⟨.token kind, quote :: units ++ [c], after⟩
      else ⟨.stray, quote :: units, rest⟩
    | [] => ⟨.stray, quote :: units, rest⟩

/-- The characters `c` and those behind it for which `p` holds. -/
def munchWhile (piece : List Char → Piece) (p : Char → Bool) (c : Char) (cs : List Char) : Munch :=
  let taken := c :: cs.takeWhile p
  ⟨piece taken, taken, cs.dropWhile p⟩

/-- The kind of a word. -/
def wordPiece (word : List Char) : Piece :=
  match Keyword.ofWord? word with
  | some keyword => .token (.keyword keyword)
  | none => .token .ident

/-- A piece that starts with a slash: a comment or a mark. -/
def munchSlash (cs : List Char) : Munch :=
  match cs with
  | [] => ⟨.token .operator, ['/'], []⟩
  | d :: rest =>
    if d = '/' then munchWhile (fun _ => .gap) (· != '\n') '/' cs
    else if d = '*' then
      let (inside, after) := splitComment 0 rest
      ⟨.gap, '/' :: '*' :: inside, after⟩
    else ⟨.token .operator, ['/'], cs⟩

/-- The head of the text `c :: cs`. -/
def munch (c : Char) (cs : List Char) : Munch :=
  if isGapChar c then munchWhile (fun _ => .gap) isGapChar c cs
  else if c = '\n' then ⟨.token .newline, [c], cs⟩
  else if c = '/' then munchSlash cs
  else if isWordStart c then munchWhile wordPiece isWordPart c cs
  else if c.isDigit then munchWhile (fun _ => .token .number) isWordPart c cs
  else if c.toNat = 39 then munchQuoted .quoted c false cs
  else if c.toNat = 34 then munchQuoted .quoted c false cs
  else if c.toNat = 96 then munchQuoted .rune c true cs
  else
    match markKind? c with
    | some kind => ⟨.token kind, [c], cs⟩
    | none => ⟨.stray, [c], cs⟩

/-- What a piece adds to the lexemes of a text. -/
def Piece.lexemes (piece : Piece) (span : Text.Span) : List Lexeme :=
  match piece with
  | .gap => []
  | .stray => [⟨none, span⟩]
  | .token kind => [⟨some kind, span⟩]

/-- The lexemes of a text that starts at byte `offset`, in at most `fuel` pieces. -/
def scanFrom (fuel offset : Nat) (text : List Char) : List Lexeme :=
  match fuel, text with
  | 0, _ => []
  | _ + 1, [] => []
  | fuel + 1, c :: cs =>
    let head := munch c cs
    let stop := offset + Text.byteSize head.taken
    head.piece.lexemes ⟨offset, stop⟩ ++ scanFrom fuel stop head.rest

/-- The lexemes of a source text. -/
def scan (text : List Char) : List Lexeme :=
  scanFrom text.length 0 text

end VServer.Token
