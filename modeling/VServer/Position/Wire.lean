/-
Places on the wire.

A place is an object with its parts as fields, and none of them can be left out.  Line and
character are numbers of 32 bits.  The two ends of a range are called `start` and `end`, although a
range holds both of them.
-/
import VServer.Position
import VServer.Json.Decode

namespace VServer

open Json (Decoder)

namespace Position

/-- A position as JSON. -/
def toJson (p : Position) : Json :=
  .object [("line", .ofNat p.line), ("character", .ofNat p.character)]

/-- A position from JSON. -/
def decode : Decoder Position :=
  Decoder.record "Position"
    [Decoder.slot "line" .required Decoder.nat32 fun p n => { p with line := n },
      Decoder.slot "character" .required Decoder.nat32 fun p n => { p with character := n }]
    Position.zero

end Position

namespace Range

/-- A range as JSON. -/
def toJson (r : Range) : Json :=
  .object [("start", r.first.toJson), ("end", r.last.toJson)]

/-- A range from JSON. -/
def decode : Decoder Range :=
  Decoder.record "Range"
    [Decoder.slot "start" .required Position.decode fun r p => { r with first := p },
      Decoder.slot "end" .required Position.decode fun r p => { r with last := p }]
    Range.zero

end Range

namespace Location

/-- A location as JSON. -/
def toJson (l : Location) : Json :=
  .object [("uri", .string l.uri), ("range", l.range.toJson)]

/-- A location from JSON. -/
def decode : Decoder Location :=
  Decoder.record "Location"
    [Decoder.slot "uri" .required Decoder.string fun l s => { l with uri := s },
      Decoder.slot "range" .required Range.decode fun l r => { l with range := r }]
    ⟨"", Range.zero⟩

end Location

end VServer
