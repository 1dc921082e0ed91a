/-
What the files read so far declare.

A table knows types and functions by name.  The types that are built into the language are there
from the start.  A type that is only mentioned waits as a placeholder until a declaration of it
is met, so files can be read in any order.
-/
import VServer.NameMap

namespace VServer

/-- What is known of a type. -/
inductive TypeKind where
  | primitive
  | struct
  /-- Mentioned, and not declared so far. -/
  | placeholder
deriving DecidableEq, Repr

/-- The types that are built into the language. -/
def primitiveTypes : List String :=
  ["bool", "i8", "i16", "i32", "int", "i64", "isize", "u8", "byte", "u16", "u32", "u64",
    "usize", "f32", "f64", "rune", "char", "string", "voidptr", "byteptr", "charptr", "nil",
    "any", "float_literal", "int_literal", "thread"]

/-- The types and functions known by name. -/
structure Table where
  types : NameMap TypeKind
  functions : NameSet

namespace Table

/-- The table of no file: only the built-in types. -/
def initial : Table where
  types := NameMap.ofList (primitiveTypes.map fun name => (name, .primitive))
  functions := NameMap.empty

instance : Inhabited Table := ⟨initial⟩

/-- What is known of a type. -/
def typeKind (t : Table) (name : String) : Option TypeKind :=
  t.types.get? name

/-- Whether a function is declared. -/
def hasFunction (t : Table) (name : String) : Bool :=
  t.functions.contains name

/-- Mention a type: one that is not known becomes a placeholder. -/
def mention (t : Table) (name : String) : Table :=
  match t.types.get? name with
  | some _ => t
  | none => { t with types := t.types.insert name .placeholder }

/-- What a mentioned type is. -/
def mentionedKind (t : Table) (name : String) : TypeKind :=
  (t.types.get? name).getD .placeholder

/-- Declare a struct, whatever its name stood for before. -/
def declareStruct (t : Table) (name : String) : Table :=
  { t with types := t.types.insert name .struct }

/-- Declare a function. -/
def declareFunction (t : Table) (name : String) : Table :=
  { t with functions := t.functions.insert name () }

@[simp] theorem typeKind_mention (t : Table) (name k : String) :
    (t.mention name).typeKind k =
      if k = name then some (t.mentionedKind name) else t.typeKind k := by
  unfold mention mentionedKind typeKind
  cases h : t.types.get? name with
  | none => simp
  | some kind => by_cases hk : k = name <;> simp [hk, h]

@[simp] theorem typeKind_declareStruct (t : Table) (name k : String) :
    (t.declareStruct name).typeKind k = if k = name then some .struct else t.typeKind k := by
  simp [declareStruct, typeKind]

@[simp] theorem hasFunction_declareFunction (t : Table) (name k : String) :
    (t.declareFunction name).hasFunction k = (decide (k = name) || t.hasFunction k) := by
  simp [declareFunction, hasFunction, NameMap.contains_insert]

/-- Forget everything but the built-in types. -/
def clear (_ : Table) : Table := initial

/-- The types that wait for a declaration, in order. -/
def placeholders (t : Table) : List String :=
  (t.types.entries.filter fun e => e.2 == .placeholder).map Prod.fst

/-- Number of declared functions. -/
def functionCount (t : Table) : Nat :=
  t.functions.size

/-- Number of declared structs. -/
def structCount (t : Table) : Nat :=
  (t.types.entries.filter fun e => e.2 == .struct).length

end Table

/-- What a file adds to a table. -/
inductive Registration where
  | function (name : String)
  | struct (name : String)
  | mention (name : String)
deriving DecidableEq, Repr

namespace Table

/-- Enter one registration. -/
def register (t : Table) : Registration → Table
  | .function name => t.declareFunction name
  | .struct name => t.declareStruct name
  | .mention name => t.mention name

/-- Enter registrations one after another. -/
def registerAll (t : Table) (rs : List Registration) : Table :=
  rs.foldl register t

end Table

end VServer
