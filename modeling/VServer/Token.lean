/-
Tokens of V source.

Only what a reader of declarations has to tell apart is told apart: the words that open or shape
a declaration, names, the three pairs of brackets and a few marks.  All other marks are one kind.
A token is its kind and its place; its text is a slice of the source.

The keywords are those that matter to a reader of declarations.  Other words of the language, such
as those inside the body of a function, are names here.
-/
import VServer.Text.Span

namespace VServer

/-- The words that names cannot be. -/
inductive Keyword where
  | moduleKw
  | importKw
  | pubKw
  | mutKw
  | fnKw
  | structKw
  | unionKw
deriving DecidableEq, Repr

namespace Keyword

/-- The keyword that a word is, if it is one. -/
def ofWord? (word : List Char) : Option Keyword :=
  if word = ['m', 'o', 'd', 'u', 'l', 'e'] then some moduleKw
  else if word = ['i', 'm', 'p', 'o', 'r', 't'] then some importKw
  else if word = ['p', 'u', 'b'] then some pubKw
  else if word = ['m', 'u', 't'] then some mutKw
  else if word = ['f', 'n'] then some fnKw
  else if word = ['s', 't', 'r', 'u', 'c', 't'] then some structKw
  else if word = ['u', 'n', 'i', 'o', 'n'] then some unionKw
  else none

end Keyword

/-- The three pairs of brackets. -/
inductive Bracket where
  | paren
  | brace
  | square
deriving DecidableEq, Repr

namespace Bracket

/-- The opening bracket as text. -/
def opening : Bracket → String
  | paren => "("
  | brace => "\x7b"
  | square => "["

/-- The closing bracket as text. -/
def closing : Bracket → String
  | paren => ")"
  | brace => "\x7d"
  | square => "]"

end Bracket

/-- What a token is. -/
inductive Kind where
  | newline
  | keyword (word : Keyword)
  | ident
  | number
  /-- Text between single or double quotes. -/
  | quoted
  /-- Text between backquotes. -/
  | rune
  | opener (bracket : Bracket)
  | closer (bracket : Bracket)
  | dot
  | comma
  | colon
  | equals
  | atSign
  /-- Any other mark. -/
  | operator
deriving DecidableEq, Repr

namespace Kind

/-- Whether a token of this kind can be the name of something. -/
def isName : Kind → Bool
  | ident => true
  | keyword .moduleKw => true
  | keyword .importKw => true
  | keyword .mutKw => true
  | keyword .unionKw => true
  | _ => false

/-- Whether a token of this kind can be part of an operator's name. -/
def isOperatorPart : Kind → Bool
  | operator => true
  | equals => true
  | _ => false

end Kind

/-- A token and its place in the source. -/
structure Token where
  kind : Kind
  span : Text.Span
deriving DecidableEq, Repr

/-- A piece of the source that counts: a token, or text that starts none. -/
structure Lexeme where
  kind : Option Kind
  span : Text.Span
deriving DecidableEq, Repr

namespace Lexeme

/-- The token that a piece is, if it is one. -/
def token? (lexeme : Lexeme) : Option Token :=
  lexeme.kind.map fun kind => ⟨kind, lexeme.span⟩

/-- Whether a piece starts no token. -/
def isStray (lexeme : Lexeme) : Bool :=
  lexeme.kind.isNone

end Lexeme

end VServer
