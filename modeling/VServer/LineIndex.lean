/-
From byte offsets to lines and columns.

The index of a text holds the byte offset at which each of its lines starts.  The line of an
offset is the last one that starts at or before it, and is found by halving; the column counts
UTF-16 code units from there, and is zero for an offset inside a character.

An offset behind the text has the place of the end of the text, so every offset has a place.
-/
import VServer.Text.Span
import VServer.Position

namespace VServer

/-- Number of UTF-16 code units of a character. -/
def units16 (c : Char) : Nat :=
  if c.toNat < 0x10000 then 1 else 2

/-- Number of UTF-16 code units of a text. -/
def utf16Length : List Char → Nat
  | [] => 0
  | c :: cs => units16 c + utf16Length cs

/-- The part of a text that ends after exactly `n` bytes, if a character ends there. -/
def headOfBytes? (n : Nat) : List Char → Option (List Char)
  | [] => if n = 0 then some [] else none
  | c :: cs =>
    if n = 0 then some []
    else if c.utf8Size ≤ n then (headOfBytes? (n - c.utf8Size) cs).map (c :: ·)
    else none

/-- Offsets of the lines of a text behind the first one, when the text stands at `offset`. -/
def lineStartsFrom (offset : Nat) : List Char → List Nat
  | [] => []
  | c :: cs =>
    let next := offset + c.utf8Size
    if c = '\n' then next :: lineStartsFrom next cs else lineStartsFrom next cs

/-- The offsets at which the lines of a text start, in order; the first line starts at zero. -/
structure LineIndex where
  starts : Array Nat
deriving DecidableEq, Repr

namespace LineIndex

/-- The index of a text. -/
def ofText (text : List Char) : LineIndex :=
  ⟨(0 :: lineStartsFrom 0 text).toArray⟩

/-- Number of lines. -/
def lineCount (index : LineIndex) : Nat :=
  index.starts.size

/-- What a search for an offset among the starts of lines comes to. -/
inductive Search where
  /-- A line starts at the offset. -/
  | found (line : Nat)
  /-- No line does; one that did would stand in front of the line `next`. -/
  | missing (next : Nat)
deriving DecidableEq, Repr

/-- The line at which halving ends that starts with the `size` lines from `base` on, after at most
`fuel` steps.  A half is left out if the line in the middle is on the wrong side of the offset. -/
def halve (index : LineIndex) (offset : Nat) : Nat → Nat → Nat → Nat
  | 0, base, _ => base
  | fuel + 1, base, size =>
    if size ≤ 1 then base
    else
      let middle := base + size / 2
      halve index offset fuel (if offset < index.starts.getD middle 0 then base else middle)
        (size - size / 2)

/-- Search for an offset among the starts of lines. -/
def search (index : LineIndex) (offset : Nat) : Search :=
  let line := index.halve offset index.lineCount 0 index.lineCount
  match index.starts[line]? with
  | none => .missing line
  | some start =>
    if start = offset then .found line
    else .missing (if start < offset then line + 1 else line)

/-- The line that holds an offset. -/
def lineOf (index : LineIndex) (offset : Nat) : Nat :=
  match index.search offset with
  | .found line => line
  | .missing next => next - 1

/-- Line and column of a byte offset; an offset behind the text counts as its end. -/
def position (index : LineIndex) (text : List Char) (offset : Nat) : Position :=
  let offset := min offset (Text.byteSize text)
  let line := index.lineOf offset
  let start := index.starts.getD line 0
  let column := (headOfBytes? (offset - start) (Text.dropBytes start text)).map utf16Length
  ⟨line, column.getD 0⟩

/-- The range of a span. -/
def range (index : LineIndex) (text : List Char) (span : Text.Span) : Range :=
  ⟨index.position text span.start, index.position text span.stop⟩

end LineIndex

end VServer
