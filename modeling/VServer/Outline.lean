/-
The outline of a source file.

Reading goes from statement to statement.  Functions and structs are read as far as their names
and fields; what has no place in an outline is passed over with its brackets balanced.  Every step
uses up at least one token, so as many steps as there are tokens bring the reader to the end.

Reading does not look at any table.  It yields the registrations that a table would take, in the
order in which they are met.
-/
import VServer.Token.Scan
import VServer.Outline.Fields

namespace VServer.Outline

/-- How many functions and structs have been read. -/
structure Tally where
  functions : Nat := 0
  structs : Nat := 0
deriving DecidableEq, Repr

namespace Tally

/-- What was read first and what was read behind it. -/
def add (s t : Tally) : Tally :=
  ⟨s.functions + t.functions, s.structs + t.structs⟩

@[simp] theorem zero_add (t : Tally) : add {} t = t := by
  simp [add]

@[simp] theorem add_zero (t : Tally) : t.add {} = t := rfl

theorem add_assoc (s t u : Tally) : (s.add t).add u = s.add (t.add u) := by
  simp [add, Nat.add_assoc]

end Tally

/-- What one step through a file gives.  An attribute is a step without a statement.  A function
or a struct is counted as soon as its name has been read. -/
structure Step where
  statement : Option (Statement Text.Span)
  registrations : List Registration
  faults : List Fault
  moduleName : String
  rest : List Token
  tally : Tally := {}
deriving DecidableEq, Repr

/-- A statement that is passed over. -/
def otherStep (ctx : Context) (faults : List Fault) (ts : List Token) : Step :=
  let tail := skipStatement ts
  ⟨some .other, [], faults ++ tail.faults, ctx.moduleName, tail.rest, {}⟩

/-- An attribute at the top of a file, behind its opening bracket. -/
def attributeStatement (ctx : Context) (span : Text.Span) (ts : List Token) : Step :=
  let group := skipGroup span .square ts
  ⟨none, [], group.faults, ctx.moduleName, group.rest, {}⟩

/-- A module line behind its first word. -/
def readModule (ctx : Context) (ts : List Token) : Step :=
  let tail := skipStatement ts
  match ts with
  | t :: _ =>
    if t.kind = .ident then
      ⟨some .other, [], tail.faults, ctx.sliceString t.span, tail.rest, {}⟩
    else
      ⟨some .other, [], ⟨t.span, .noModuleName⟩ :: tail.faults, ctx.moduleName, tail.rest, {}⟩
  | [] =>
    ⟨some .other, [], ⟨ctx.endSpan, .noModuleName⟩ :: tail.faults, ctx.moduleName, tail.rest, {}⟩

/-- A function behind the word that starts it. -/
def readFunction (ctx : Context) (isPublic : Bool) (ts : List Token) : Step :=
  let (isMethod, receiver) := skipOptional .paren ts
  match readName ctx isMethod receiver.rest with
  | (none, rest) =>
    otherStep ctx (receiver.faults ++ [⟨here ctx rest, .noFunctionName⟩]) rest
  | (some declared, rest) =>
    let generics := (skipOptional .square rest).2
    let tail := skipSignature generics.rest
    let name := qualifyIn declared.language ctx.moduleName (ctx.sliceString declared.span)
    { statement := some (.function ⟨name, isPublic, isMethod, declared.language, declared.span⟩)
      registrations := if isMethod then [] else [.function name]
      faults := receiver.faults ++ generics.faults ++ tail.faults
      moduleName := ctx.moduleName
      rest := tail.rest
      tally := { functions := 1 } }

/-- The body of a struct, if one stands here; otherwise the line is passed over. -/
def readBody? (ctx : Context) (ts : List Token) : Body :=
  match ts with
  | t :: rest =>
    if t.kind = .opener .brace then readBody ctx t.span rest
    else
      let tail := skipStatement ts
      ⟨[], [], tail.faults, tail.rest⟩
  | [] => ⟨[], [], [], []⟩

/-- A struct or a union behind the word that starts it. -/
def readStruct (ctx : Context) (isPublic isUnion : Bool) (ts : List Token) : Step :=
  match readName ctx false ts with
  | (none, rest) => otherStep ctx [⟨here ctx rest, .noStructName⟩] rest
  | (some declared, rest) =>
    let generics := (skipOptional .square rest).2
    let body := readBody? ctx generics.rest
    let name := qualifyIn declared.language ctx.moduleName (ctx.sliceString declared.span)
    { statement := some
        (.struct ⟨name, isPublic, isUnion, declared.language, declared.span, body.fields⟩)
      registrations := .struct name :: body.mentions.map .mention
      faults := generics.faults ++ body.faults
      moduleName := ctx.moduleName
      rest := body.rest
      tally := { structs := 1 } }

/-- A statement behind the word `pub`. -/
def readPublic (ctx : Context) (ts : List Token) : Step :=
  match ts with
  | t :: rest =>
    match t.kind with
    | .keyword .fnKw => readFunction ctx true rest
    | .keyword .structKw => readStruct ctx true false rest
    | .keyword .unionKw => readStruct ctx true true rest
    | _ => otherStep ctx [] ts
  | [] => otherStep ctx [] []

/-- The statement that starts with the token `t`. -/
def readStatement (ctx : Context) (t : Token) (ts : List Token) : Step :=
  match t.kind with
  | .keyword .moduleKw => readModule ctx ts
  | .opener .square => attributeStatement ctx t.span ts
  | .atSign =>
    match ts with
    | u :: us =>
      if u.kind = .opener .square then attributeStatement ctx u.span us
      else otherStep ctx [] (t :: ts)
    | [] => otherStep ctx [] (t :: ts)
  | .keyword .pubKw => readPublic ctx ts
  | .keyword .fnKw => readFunction ctx false ts
  | .keyword .structKw => readStruct ctx false false ts
  | .keyword .unionKw => readStruct ctx false true ts
  | _ => otherStep ctx [] (t :: ts)

end Outline

/-- The statements of a file, the registrations and faults that reading it yields, the module that
it ends in, and how many functions and structs were counted on the way. -/
structure Outline where
  statements : List (Statement Text.Span)
  registrations : List Registration
  faults : List Fault
  moduleName : String
  tally : Outline.Tally := {}
deriving DecidableEq, Repr

namespace Outline

/-- Put what one step gives in front. -/
def prepend (step : Step) (o : Outline) : Outline :=
  { o with
    statements := step.statement.toList ++ o.statements
    registrations := step.registrations ++ o.registrations
    faults := step.faults ++ o.faults
    tally := step.tally.add o.tally }

/-- Read tokens from inside the module `moduleName`, in at most `fuel` steps. -/
def readFrom (text : List Char) (fuel : Nat) (moduleName : String) (ts : List Token) : Outline :=
  match fuel, ts with
  | 0, _ => ⟨[], [], [], moduleName, {}⟩
  | _ + 1, [] => ⟨[], [], [], moduleName, {}⟩
  | fuel + 1, t :: ts =>
    if t.kind = .newline then readFrom text fuel moduleName ts
    else
      let step := readStatement ⟨text, moduleName⟩ t ts
      (readFrom text fuel step.moduleName step.rest).prepend step

/-- The faults of text that starts no token. -/
def strayFaults (text : List Char) (lexemes : List Lexeme) : List Fault :=
  (lexemes.filter Lexeme.isStray).map fun l => ⟨l.span, .strayText (Text.sliceString text l.span)⟩

/-- The outline of a text that starts inside the module `moduleName`.  Faults of stray text come
before all others. -/
def ofTextIn (moduleName : String) (text : List Char) : Outline :=
  let lexemes := Token.scan text
  let tokens := lexemes.filterMap Lexeme.token?
  let outline := readFrom text tokens.length moduleName tokens
  { outline with faults := strayFaults text lexemes ++ outline.faults }

/-- The outline of a file. -/
def ofText (text : List Char) : Outline :=
  ofTextIn "" text

end Outline

end VServer
