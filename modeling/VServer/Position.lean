/-
Places in a document.

Lines and columns are counted from zero, and columns in UTF-16 code units.  A range holds both
its ends.
-/

namespace VServer

/-- A line and a column in it. -/
structure Position where
  line : Nat
  character : Nat
deriving DecidableEq, Repr, Inhabited

namespace Position

/-- The start of a document. -/
def zero : Position := ⟨0, 0⟩

/-- Order of the text: by line, then by column. -/
protected def le (p q : Position) : Prop :=
  p.line < q.line ∨ (p.line = q.line ∧ p.character ≤ q.character)

instance : LE Position := ⟨Position.le⟩

instance (p q : Position) : Decidable (p ≤ q) :=
  inferInstanceAs (Decidable (p.line < q.line ∨ (p.line = q.line ∧ p.character ≤ q.character)))

/-- Strict order of the text. -/
protected def lt (p q : Position) : Prop :=
  p.line < q.line ∨ (p.line = q.line ∧ p.character < q.character)

instance : LT Position := ⟨Position.lt⟩

instance (p q : Position) : Decidable (p < q) :=
  inferInstanceAs (Decidable (p.line < q.line ∨ (p.line = q.line ∧ p.character < q.character)))

/-- Line and column as a person counts them, from one. -/
def display (p : Position) : Nat × Nat :=
  (p.line + 1, p.character + 1)

end Position

/-- A part of a document, both ends included. -/
structure Range where
  first : Position
  last : Position
deriving DecidableEq, Repr, Inhabited

namespace Range

/-- The empty range at the start of a document. -/
def zero : Range := ⟨Position.zero, Position.zero⟩

/-- Whether a place lies in the range. -/
def contains (r : Range) (p : Position) : Bool :=
  decide (r.first ≤ p) && decide (p ≤ r.last)

end Range

/-- A range of a document that is named by its URI. -/
structure Location where
  uri : String
  range : Range
deriving DecidableEq, Repr, Inhabited

end VServer
