/-
Declarations of a file.

A file is a list of statements: functions, structs with their fields, and statements that are
passed over.  The type of a place is a parameter: the reader of a file works with byte spans, and
a client sees ranges of lines and columns.

Places are changed by `Statement.mapPlace`, and nothing else about a declaration depends on them.
The name of a declaration is the one under which it is known outside of its module.
-/

namespace VServer

/-- The language that a declaration belongs to. -/
inductive Language where
  | v
  | c
  | js
deriving DecidableEq, Repr

namespace Language

/-- The foreign language that a name in front of a dot stands for. -/
def ofQualifier? (name : List Char) : Option Language :=
  if name = ['C'] then some c
  else if name = ['J', 'S'] then some js
  else none

/-- What stands in front of the dot in a foreign name. -/
def qualifier? : Language → Option String
  | v => none
  | c => some "C"
  | js => some "JS"

end Language

/-- A function; its place is that of its name. -/
structure Function (α : Type) where
  name : String
  isPublic : Bool
  isMethod : Bool
  language : Language
  place : α
deriving DecidableEq, Repr

/-- A field of a struct, with the text of its type; its place is that of its name. -/
structure Field (α : Type) where
  name : String
  typeText : String
  place : α
deriving DecidableEq, Repr

/-- A struct or a union; its place is that of its name. -/
structure Struct (α : Type) where
  name : String
  isPublic : Bool
  isUnion : Bool
  language : Language
  place : α
  fields : List (Field α)
deriving DecidableEq, Repr

/-- A statement at the top of a file. -/
inductive Statement (α : Type) where
  | function (decl : Function α)
  | struct (decl : Struct α)
  /-- Anything else. -/
  | other
deriving DecidableEq, Repr

namespace Function

/-- The same function with another kind of place. -/
def mapPlace {α β : Type} (f : α → β) (d : Function α) : Function β :=
  { name := d.name, isPublic := d.isPublic, isMethod := d.isMethod, language := d.language,
    place := f d.place }

end Function

namespace Field

/-- The same field with another kind of place. -/
def mapPlace {α β : Type} (f : α → β) (d : Field α) : Field β :=
  { name := d.name, typeText := d.typeText, place := f d.place }

end Field

namespace Struct

/-- The same struct with another kind of place. -/
def mapPlace {α β : Type} (f : α → β) (d : Struct α) : Struct β :=
  { name := d.name, isPublic := d.isPublic, isUnion := d.isUnion, language := d.language,
    place := f d.place, fields := d.fields.map (Field.mapPlace f) }

end Struct

namespace Statement

variable {α β : Type}

/-- The same statement with another kind of place. -/
def mapPlace (f : α → β) : Statement α → Statement β
  | function d => function (d.mapPlace f)
  | struct d => struct (d.mapPlace f)
  | other => other

/-- The function that a statement declares. -/
def function? : Statement α → Option (Function α)
  | function d => some d
  | _ => none

/-- The struct that a statement declares. -/
def struct? : Statement α → Option (Struct α)
  | struct d => some d
  | _ => none

end Statement

/-- The functions among statements. -/
def functionsOf {α : Type} (statements : List (Statement α)) : List (Function α) :=
  statements.filterMap Statement.function?

/-- The structs among statements. -/
def structsOf {α : Type} (statements : List (Statement α)) : List (Struct α) :=
  statements.filterMap Statement.struct?

end VServer
