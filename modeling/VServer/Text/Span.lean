/-
Parts of a text, addressed by bytes.

Places in a source are byte offsets.  `slice` cuts out what lies between two of them; where both
ends fall between characters it is exactly the text between them.
-/
import VServer.Text.Utf8

namespace VServer.Text

/-- The bytes from `start` up to, but not including, `stop`. -/
structure Span where
  start : Nat
  stop : Nat
deriving DecidableEq, Repr, Inhabited

/-- The text behind its first `n` bytes. -/
def dropBytes (n : Nat) : List Char → List Char
  | [] => []
  | c :: cs => if n = 0 then c :: cs else dropBytes (n - c.utf8Size) cs

/-- The characters that end within the first `n` bytes. -/
def takeBytes (n : Nat) : List Char → List Char
  | [] => []
  | c :: cs => if c.utf8Size ≤ n then c :: takeBytes (n - c.utf8Size) cs else []

/-- The text of a span. -/
def slice (cs : List Char) (s : Span) : List Char :=
  takeBytes (s.stop - s.start) (dropBytes s.start cs)

/-- The text of a span, as a string. -/
def sliceString (cs : List Char) (s : Span) : String :=
  String.ofList (slice cs s)

end VServer.Text
