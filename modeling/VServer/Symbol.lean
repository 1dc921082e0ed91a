/-
Where names are declared.

The index of symbols maps a name to the place of its declaration.  A later declaration of a name
replaces an earlier one.  A field of a struct is known by the name of the struct, a dot and its
own name.

An entry is a location under another name, and is written in the same way.
-/
import VServer.NameMap
import VServer.Position.Wire

namespace VServer

open Json (Decoder)

/-- The place of a declaration. -/
structure SymbolEntry where
  uri : String
  range : Range
deriving DecidableEq, Repr

namespace SymbolEntry

/-- The place as a location in a document. -/
def location (e : SymbolEntry) : Location :=
  ⟨e.uri, e.range⟩

/-- An entry as JSON. -/
def toJson (e : SymbolEntry) : Json :=
  .object [("uri", .string e.uri), ("range", e.range.toJson)]

/-- An entry from JSON. -/
def decode : Decoder SymbolEntry :=
  Decoder.record "BuiltinSymbolEntry"
    [Decoder.slot "uri" .required Decoder.string fun e s => { e with uri := s },
      Decoder.slot "range" .required Range.decode fun e r => { e with range := r }]
    ⟨"", Range.zero⟩

end SymbolEntry

/-- The places of declarations by name. -/
abbrev SymbolIndex := NameMap SymbolEntry

namespace SymbolIndex

/-- The name under which a field is known. -/
def fieldName (structName fieldName : String) : String :=
  structName ++ "." ++ fieldName

/-- The place of a field. -/
def field? (index : SymbolIndex) (structName field : String) : Option SymbolEntry :=
  NameMap.get? index (fieldName structName field)

end SymbolIndex

end VServer
