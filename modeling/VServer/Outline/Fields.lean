/-
Fields of a struct.

A line of a struct is an access section such as `pub mut:`, an attribute, a field with its type,
or an embedded type.  The type of a field runs to the end of the line, to a default value or to an
attribute, which is a square bracket behind a blank.
-/
import VServer.Table
import VServer.TypeText
import VServer.Outline.Group
import VServer.Outline.Name

namespace VServer.Outline

/-- Where the type of a field ends, and the tokens behind it. -/
structure TypeExtent where
  faults : List Fault
  stop : Nat
  rest : List Token
deriving DecidableEq, Repr

/-- Follow the type of a field for at most `fuel` steps.  `begun` says whether a token of it has
been read; the last one ends at `stop`. -/
def typeExtentIn (fuel : Nat) (begun : Bool) (stop : Nat) (ts : List Token) : TypeExtent :=
  match fuel, ts with
  | 0, ts => ⟨[], stop, ts⟩
  | _ + 1, [] => ⟨[], stop, []⟩
  | fuel + 1, t :: ts =>
    if t.kind = .opener .square ∧ begun = true ∧ stop < t.span.start then ⟨[], stop, t :: ts⟩
    else
      match t.kind with
      | .newline => ⟨[], stop, t :: ts⟩
      | .equals => ⟨[], stop, t :: ts⟩
      | .closer _ => ⟨[], stop, t :: ts⟩
      | .opener b =>
        let group := skipGroup t.span b ts
        let tail := typeExtentIn fuel true group.stop group.rest
        { tail with faults := group.faults ++ tail.faults }
      | _ => typeExtentIn fuel true t.span.stop ts

/-- Follow the type of a field that starts at byte `start`. -/
def typeExtent (start : Nat) (ts : List Token) : TypeExtent :=
  typeExtentIn ts.length false start ts

/-- What a line of a struct gives: a field, if it is one, the types it mentions, and the tokens
behind it. -/
structure FieldStep where
  field : Option (Field Text.Span)
  mentions : List String
  faults : List Fault
  rest : List Token
deriving DecidableEq, Repr

/-- A field with a type that starts at byte `start`, behind the name at `name`. -/
def readTypedField (ctx : Context) (name : Text.Span) (start : Nat) (ts : List Token) :
    FieldStep :=
  let extent := typeExtent start ts
  let tail := skipFieldRest extent.rest
  let typeText := Text.trim (ctx.slice ⟨start, extent.stop⟩)
  { field := some ⟨ctx.sliceString name, String.ofList typeText, name⟩
    mentions := (TypeText.base? typeText).toList.map (qualifyType ctx.moduleName)
    faults := extent.faults ++ tail.faults
    rest := tail.rest }

/-- A field or an embedded type, behind its first word. -/
def readField (ctx : Context) (name : Text.Span) (ts : List Token) : FieldStep :=
  let embedded : FieldStep := ⟨none, [qualifyType ctx.moduleName (ctx.slice name)], [], ts⟩
  match ts with
  | [] => embedded
  | t :: _ =>
    match t.kind with
    | .newline => embedded
    | .closer .brace => embedded
    | .dot =>
      let tail := skipFieldRest ts
      ⟨none, [], tail.faults, tail.rest⟩
    | _ => readTypedField ctx name t.span.start ts

/-- Whether a token is part of the head of an access section. -/
def isAccessWord (ctx : Context) (t : Token) : Bool :=
  t.kind = .keyword .pubKw || t.kind = .keyword .mutKw ||
    (t.kind = .ident && ctx.slice t.span = "__global".toList)

/-- The tokens behind the colon of an access section, if these are its words; `begun` says whether
one of them has been read. -/
def accessSection? (ctx : Context) (begun : Bool) : List Token → Option (List Token)
  | [] => none
  | t :: ts =>
    if t.kind = .colon then if begun then some ts else none
    else if isAccessWord ctx t then accessSection? ctx true ts
    else none

/-- Pass over a group in square brackets behind its opening bracket, as a line of a struct. -/
def attributeStep (span : Text.Span) (ts : List Token) : FieldStep :=
  let group := skipGroup span .square ts
  ⟨none, [], group.faults, group.rest⟩

/-- A token that starts no line of a struct: report it and pass over the line. -/
def strayStep (t : Token) (ts : List Token) : FieldStep :=
  let tail := skipFieldRest (t :: ts)
  ⟨none, [], ⟨t.span, .notAField⟩ :: tail.faults, tail.rest⟩

/-- A line of a struct that is no access section and not its end. -/
def readLine (ctx : Context) (t : Token) (ts : List Token) : FieldStep :=
  if t.kind.isName then readField ctx t.span ts
  else
    match t.kind, ts with
    | .opener .square, ts => attributeStep t.span ts
    | .atSign, u :: us =>
      if u.kind = .opener .square then attributeStep u.span us else strayStep t ts
    | _, _ => strayStep t ts

/-- The fields of a struct, the types they mention, and the tokens behind the struct. -/
structure Body where
  fields : List (Field Text.Span)
  mentions : List String
  faults : List Fault
  rest : List Token
deriving DecidableEq, Repr

namespace Body

/-- Put what one line gives in front. -/
def prepend (step : FieldStep) (b : Body) : Body :=
  { b with
    fields := step.field.toList ++ b.fields
    mentions := step.mentions ++ b.mentions
    faults := step.faults ++ b.faults }

end Body

/-- The lines of a struct, in at most `fuel` steps; `unclosed` is the fault of a struct without
end. -/
def readBodyIn (ctx : Context) (unclosed : Fault) (fuel : Nat) (ts : List Token) : Body :=
  match fuel, ts with
  | 0, ts => ⟨[], [], [], ts⟩
  | _ + 1, [] => ⟨[], [], [unclosed], []⟩
  | fuel + 1, t :: ts =>
    if t.kind = .newline then readBodyIn ctx unclosed fuel ts
    else if t.kind = .closer .brace then ⟨[], [], [], ts⟩
    else
      match accessSection? ctx false (t :: ts) with
      | some rest => readBodyIn ctx unclosed fuel rest
      | none =>
        let step := readLine ctx t ts
        (readBodyIn ctx unclosed fuel step.rest).prepend step

/-- The lines of a struct behind its opening brace, which stands at `span`. -/
def readBody (ctx : Context) (span : Text.Span) (ts : List Token) : Body :=
  readBodyIn ctx ⟨span, .unclosed .brace⟩ (ts.length + 1) ts

end VServer.Outline
