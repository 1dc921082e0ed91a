/-
Values of a type from JSON.

A decoder takes a value or says what it found in place of what it expected.  Records are read
from an object, field by field in the order of the object, or from an array of the fields in
the order of the record.  What stands in an object without being a field is passed over.

The text of an error says what was found and what was expected, with the names that are known where
a name is not.  A decoder looks at one value and has no state, so decoders are put together by
plain functions.
-/
import VServer.Text.Quoted
import VServer.Json.Write

namespace VServer.Json

/-- What kind of value was found. -/
inductive Found where
  | null
  | bool (value : Bool)
  | number (value : Number)
  | string (value : String)
  | sequence
  | map
deriving DecidableEq, Repr

/-- The kind of a value. -/
def found : Json → Found
  | .null => .null
  | .bool b => .bool b
  | .number n => .number n
  | .string s => .string s
  | .array _ => .sequence
  | .object _ => .map

namespace Found

/-- The kind in words. -/
def message : Found → String
  | null => "null"
  | bool b => "boolean `" ++ (if b then "true" else "false") ++ "`"
  | number (.integer i) => "integer `" ++ String.ofList (integerText i) ++ "`"
  | number (.double d) => "floating point `" ++ String.ofList d.text ++ "`"
  | string s => "string " ++ Text.quoted s
  | sequence => "sequence"
  | map => "map"

end Found

/-- Why a value is not of a type. -/
inductive DecodeError where
  | invalidType (found : Found) (expected : String)
  | invalidValue (found : Found) (expected : String)
  | invalidLength (length : Nat) (expected : String)
  | missingField (name : String)
  | unknownVariant (name : String) (known : List String)
  | unknownCode (code : Nat) (known : List Nat)
  /-- None of the alternatives of a type fits. -/
  | noAlternative (typeName : String)
deriving DecidableEq, Repr

namespace DecodeError

/-- A name between backquotes. -/
def ticked (name : String) : String :=
  "`" ++ name ++ "`"

/-- The names that could have stood in place of an unknown one. -/
def oneOf : List String → String
  | [] => "there are no variants"
  | [a] => "expected " ++ ticked a
  | [a, b] => "expected " ++ ticked a ++ " or " ++ ticked b
  | names => "expected one of " ++ ", ".intercalate (names.map ticked)

/-- The error in words. -/
def message : DecodeError → String
  | invalidType found expected => "invalid type: " ++ found.message ++ ", expected " ++ expected
  | invalidValue found expected => "invalid value: " ++ found.message ++ ", expected " ++ expected
  | invalidLength length expected =>
    "invalid length " ++ length.repr ++ ", expected " ++ expected
  | missingField name => "missing field " ++ ticked name
  | unknownVariant name known => "unknown variant " ++ ticked name ++ ", " ++ oneOf known
  | unknownCode code known =>
    "invalid value: " ++ code.repr ++ ", expected one of: " ++
      ", ".intercalate (known.map Nat.repr)
  | noAlternative typeName =>
    "data did not match any variant of untagged enum " ++ typeName

end DecodeError

/-- A way to read values of a type. -/
abbrev Decoder (α : Type) := Json → Except DecodeError α

namespace Decoder

variable {α σ : Type}

/-- A text; `expected` says what it is for. -/
def textFor (expected : String) : Decoder String
  | .string s => .ok s
  | value => .error (.invalidType value.found expected)

/-- A text. -/
def string : Decoder String := textFor "a string"

/-- A text that is a path. -/
def path : Decoder String := textFor "path string"

/-- A truth value. -/
def bool : Decoder Bool
  | .bool b => .ok b
  | value => .error (.invalidType value.found "a boolean")

/-- An integer from `low` to `high`. -/
def integer (low high : Int) (expected : String) : Decoder Int
  | .number (.integer i) =>
    if low ≤ i ∧ i ≤ high then .ok i
    else .error (.invalidValue (.number (.integer i)) expected)
  | value => .error (.invalidType value.found expected)

/-- A natural number of 32 bits. -/
def nat32 : Decoder Nat := fun value =>
  (integer 0 4294967295 "u32" value).map Int.toNat

/-- A natural number of 8 bits. -/
def nat8 : Decoder Nat := fun value =>
  (integer 0 255 "u8" value).map Int.toNat

/-- An integer of 32 bits. -/
def int32 : Decoder Int :=
  integer (-2147483648) 2147483647 "i32"

/-- Any value at all. -/
def any : Decoder Json := .ok

/-- A value, or null for none. -/
def option (item : Decoder α) : Decoder (Option α)
  | .null => .ok none
  | value => (item value).map some

/-- The items of an array one after another. -/
def items (item : Decoder α) : List Json → Except DecodeError (List α)
  | [] => .ok []
  | value :: values =>
    match item value with
    | .error e => .error e
    | .ok a => (items item values).map (a :: ·)

/-- An array. -/
def list (item : Decoder α) : Decoder (List α)
  | .array values => items item values
  | value => .error (.invalidType value.found "a sequence")

/-- The value with this name. -/
def named (known : List (String × α)) (name : String) : Except DecodeError α :=
  match known.lookup name with
  | some a => .ok a
  | none => .error (.unknownVariant name (known.map Prod.fst))

/-- One of some values by its name, alone or as the only field of an object. -/
def variant (known : List (String × α)) : Decoder α
  | .string name => named known name
  | .object [(name, value)] =>
    match named known name with
    | .error e => .error e
    | .ok a =>
      match value with
      | .null => .ok a
      | value => .error (.invalidType value.found "unit")
  | .object _ => .error (.invalidValue .map "map with a single key")
  | value => .error (.invalidType value.found "string or map")

/-- One of some values by its code. -/
def coded (known : List (Nat × α)) : Decoder α := fun value =>
  match nat8 value with
  | .error e => .error e
  | .ok n =>
    match known.lookup n with
    | some a => .ok a
    | none => .error (.unknownCode n (known.map Prod.fst))

/-! ### Records -/

/-- What it means for a field that it is not there. -/
inductive Presence where
  /-- It has to be there. -/
  | required
  /-- An object can do without it, an array cannot. -/
  | optional
  /-- It can be left out. -/
  | defaulted
deriving DecidableEq, Repr

/-- A field of the record `σ`: its name, and how a value for it is put into the record. -/
structure Slot (σ : Type) where
  key : String
  presence : Presence
  fill : σ → Json → Except DecodeError σ

/-- A field that is read by `item` and put into the record by `set`. -/
def slot (key : String) (presence : Presence) (item : Decoder α) (set : σ → α → σ) : Slot σ where
  key
  presence
  fill record value := (item value).map (set record)

/-- Fill a record from the fields of an object. -/
def fillFields (slots : List (Slot σ)) :
    List (String × Json) → σ → Except DecodeError σ
  | [], record => .ok record
  | (key, value) :: fields, record =>
    match slots.find? fun s => s.key = key with
    | none => fillFields slots fields record
    | some s =>
      match s.fill record value with
      | .error e => .error e
      | .ok record => fillFields slots fields record

/-- The first field that has to be there and is not. -/
def missing? (slots : List (Slot σ)) (fields : List (String × Json)) : Option String :=
  (slots.find? fun s => s.presence = .required && (fields.lookup s.key).isNone).map Slot.key

/-- Fill a record from the items of an array, where `index` fields are behind; `short` is what an
array without a field fails to be. -/
def fillItems (short : String) :
    List (Slot σ) → Nat → List Json → σ → Except DecodeError σ
  | [], index, values, record =>
    if values.isEmpty then .ok record
    else .error (.invalidLength (index + values.length) "fewer elements in array")
  | s :: slots, index, [], record =>
    if s.presence = .defaulted then fillItems short slots (index + 1) [] record
    else .error (.invalidLength index short)
  | s :: slots, index, value :: values, record =>
    match s.fill record value with
    | .error e => .error e
    | .ok record => fillItems short slots (index + 1) values record

/-- A record by the name of its type, its fields, and the values of fields that are left out. -/
def record (name : String) (slots : List (Slot σ)) (start : σ) : Decoder σ
  | .object fields =>
    match fillFields slots fields start with
    | .error e => .error e
    | .ok record =>
      match missing? slots fields with
      | some key => .error (.missingField key)
      | none => .ok record
  | .array values =>
    let count := slots.length
    let short := "struct " ++ name ++ " with " ++ count.repr ++
      (if count = 1 then " element" else " elements")
    fillItems short slots 0 values start
  | value => .error (.invalidType value.found ("struct " ++ name))

end Decoder

/-- A field of an object, left out where there is no value. -/
def present {α : Type} (name : String) (f : α → Json) : Option α → List (String × Json)
  | some a => [(name, f a)]
  | none => []

end VServer.Json
