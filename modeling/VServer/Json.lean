/-
JSON values.

Numbers are exact integers of 64 bits or doubles.  The fields of an object stand in a list; values
that were read from a text, and values that were put in order by `sorted`, have their fields in
order of the names without repetition.

Values are compared as they stand, with their fields in order.  Two objects with the same fields in
different orders are different values here, and `sorted` makes them the same.
-/
import VServer.NameMap
import VServer.Json.Shortest

namespace VServer

/-- A JSON number. -/
inductive Json.Number where
  /-- An integer that fits into 64 bits, signed or unsigned. -/
  | integer (value : Int)
  | double (value : Json.Double)
deriving DecidableEq, Repr

/-- A JSON value. -/
inductive Json where
  | null
  | bool (value : Bool)
  | number (value : Json.Number)
  | string (value : String)
  | array (items : List Json)
  | object (fields : List (String × Json))
deriving Inhabited

namespace Json

/-- The integer `n`. -/
def ofNat (n : Nat) : Json := .number (.integer n)

/-- The integer `i`. -/
def ofInt (i : Int) : Json := .number (.integer i)

/-- A value, or null. -/
def ofOption {α : Type} (f : α → Json) : Option α → Json
  | some a => f a
  | none => .null

/-- The value of a field of an object. -/
def field? : Json → String → Option Json
  | .object fields, name => fields.lookup name
  | _, _ => none

/-- Whether a value is an object with this field. -/
def hasField (value : Json) (name : String) : Bool :=
  (value.field? name).isSome

mutual

/-- The value with the fields of all objects in order of their names. -/
def sorted : Json → Json
  | .null => .null
  | .bool b => .bool b
  | .number n => .number n
  | .string s => .string s
  | .array items => .array (sortedItems items)
  | .object fields => .object (sortedFields fields)

/-- The items of an array, each `sorted`. -/
def sortedItems : List Json → List Json
  | [] => []
  | item :: items => sorted item :: sortedItems items

/-- The fields of an object with each value `sorted`, put in order by name. -/
def sortedFields : List (String × Json) → List (String × Json)
  | [] => []
  | (name, value) :: fields => putEntry name (sorted value) (sortedFields fields)

end

end Json

end VServer
