/-
Problems of a source file.

A fault is a cause and a place.  Reading a file never stops at a fault, so a file can have any
number of them.
-/
import VServer.Token
import VServer.Position

namespace VServer

/-- What is wrong at a place of a file. -/
inductive FaultCause where
  /-- Text that starts no token. -/
  | strayText (text : String)
  /-- An opening bracket that nothing closes. -/
  | unclosed (bracket : Bracket)
  /-- A closing bracket outside all brackets. -/
  | unmatched (bracket : Bracket)
  /-- A closing bracket of another kind than the opening one. -/
  | mismatched (bracket : Bracket)
  | noModuleName
  | noFunctionName
  | noStructName
  /-- A token that neither starts a field nor ends the struct. -/
  | notAField
  /-- The file could not be read. -/
  | unreadable (reason : String)
deriving DecidableEq, Repr

namespace FaultCause

/-- A text between backquotes. -/
def marked (text : String) : String :=
  "`" ++ text ++ "`"

/-- The cause as it is told. -/
def message : FaultCause → String
  | strayText text => "unexpected character " ++ marked text
  | unclosed b => "unclosed " ++ marked b.opening
  | unmatched b => "unmatched " ++ marked b.closing
  | mismatched b => "mismatched " ++ marked b.closing
  | noModuleName => "expected module name"
  | noFunctionName => "expected function name"
  | noStructName => "expected struct name"
  | notAField => "unexpected token in struct body"
  | unreadable reason => "cannot read file: " ++ reason

end FaultCause

/-- A cause at a span of the source. -/
structure Fault where
  span : Text.Span
  cause : FaultCause
deriving DecidableEq, Repr

/-- A cause at a range of a file. -/
structure FaultReport where
  path : String
  range : Range
  cause : FaultCause
deriving DecidableEq, Repr

namespace FaultReport

/-- The fault as a line for a person: path, line, column and cause. -/
def display (r : FaultReport) : String :=
  let (line, column) := r.range.first.display
  r.path ++ ":" ++ line.repr ++ ":" ++ column.repr ++ ": " ++ r.cause.message

end FaultReport

end VServer
