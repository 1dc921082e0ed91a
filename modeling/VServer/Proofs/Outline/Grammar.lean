/-
Files of declarations, as they are written.

An item is a module line, a function, a struct or a statement that has no place in an outline.
Each is given with all its words, so a file can be printed, and each says what it declares, which
is told by its parts alone and not by reading its text.  Between words there may be any blanks,
and inside brackets anything that is balanced: other declarations, newlines, quoted text.

A place is an offset in the printed text: what stands in front of a word is printed in front of it.

The grammar is a second description of the language, which goes the other way: from the parts of a
declaration to its text.  It runs no reader.  Where something cannot be written in a place, such as
the end of a line outside all brackets of a type, the structure has a field that says so, and a
file that would be taken for another one cannot be built.
-/
import VServer.SourceFile
import VServer.Proofs.Outline.Balanced
import VServer.Proofs.Outline.Tally

namespace VServer

open Token (Word Gap print bare)
open Text (Span byteSize)

namespace Token.Word

/-- A newline. -/
def newline (gap : Gap) : Word := ⟨gap, .newline, ['\n'], .newline⟩

/-- A dot. -/
def dot (gap : Gap) : Word := ⟨gap, .dot, ['.'], .mark rfl⟩

/-- A colon. -/
def colon (gap : Gap) : Word := ⟨gap, .colon, [':'], .mark rfl⟩

/-- An identifier. -/
def ident (gap : Gap) (c : Char) (cs : List Char) (hc : Token.isWordStart c = true)
    (hcs : ∀ d ∈ cs, Token.isWordPart d = true) (hfree : Keyword.ofWord? (c :: cs) = none) : Word :=
  ⟨gap, .ident, c :: cs, .ident hc hcs hfree⟩

theorem isWordPart_of_mem_nil : ∀ d ∈ ([] : List Char), Token.isWordPart d = true :=
  fun _ hd => absurd hd List.not_mem_nil

/-- A keyword. -/
def keyword (gap : Gap) : Keyword → Word
  | .moduleKw => ⟨gap, .keyword .moduleKw, ['m', 'o', 'd', 'u', 'l', 'e'], .keyword rfl⟩
  | .importKw => ⟨gap, .keyword .importKw, ['i', 'm', 'p', 'o', 'r', 't'], .keyword rfl⟩
  | .pubKw => ⟨gap, .keyword .pubKw, ['p', 'u', 'b'], .keyword rfl⟩
  | .mutKw => ⟨gap, .keyword .mutKw, ['m', 'u', 't'], .keyword rfl⟩
  | .fnKw => ⟨gap, .keyword .fnKw, ['f', 'n'], .keyword rfl⟩
  | .structKw => ⟨gap, .keyword .structKw, ['s', 't', 'r', 'u', 'c', 't'], .keyword rfl⟩
  | .unionKw => ⟨gap, .keyword .unionKw, ['u', 'n', 'i', 'o', 'n'], .keyword rfl⟩

@[simp] theorem kind_keyword (gap : Gap) (word : Keyword) :
    (keyword gap word).kind = .keyword word := by
  cases word <;> rfl

end Token.Word

namespace Grammar

open Outline (Balanced Group GoesOnType)

/-! ### Newlines -/

/-- Newlines, of which the blanks in front are given. -/
def newlines (ends : List Gap) : List Word :=
  ends.map Word.newline

/-- All entries but the last one end with a newline at least. -/
def Separated {α : Type} (entries : List (α × List Gap)) : Prop :=
  ∀ e ∈ entries.dropLast, e.2 ≠ []

/-! ### Names -/

/-- The language in front of a foreign name, and a dot. -/
inductive Foreign where
  | c (before dot : Gap)
  | js (before dot : Gap)

namespace Foreign

/-- The language of the name. -/
def language : Foreign → Language
  | c _ _ => .c
  | js _ _ => .js

/-- The words in front of the name. -/
def words : Foreign → List Word
  | c before dot => [.ident before 'C' [] rfl Word.isWordPart_of_mem_nil rfl, .dot dot]
  | js before dot => [.ident before 'J' ['S'] rfl (List.all_eq_true.mp rfl) rfl, .dot dot]

end Foreign

/-- The name of a declaration: an identifier, with or without a foreign language in front. -/
structure Name where
  foreign : Option Foreign
  word : Word
  isIdent : word.kind = .ident

namespace Name

/-- The words in front of the identifier. -/
def front (name : Name) : List Word :=
  name.foreign.elim [] Foreign.words

/-- All words. -/
def words (name : Name) : List Word :=
  name.front ++ [name.word]

/-- The language of the name. -/
def language (name : Name) : Language :=
  name.foreign.elim .v Foreign.language

/-- The name as it is known, inside the module `moduleName`. -/
def known (name : Name) (moduleName : String) : String :=
  Outline.qualifyIn name.language moduleName (String.ofList name.word.text)

/-- The place of the identifier. -/
def place (name : Name) (offset : Nat) : Span :=
  name.word.span (offset + byteSize (print name.front))

end Name

/-! ### Functions -/

/-- The word `pub` behind the given blanks, or nothing. -/
def publicWords (publicGap : Option Gap) : List Word :=
  publicGap.elim [] fun gap => [.keyword gap .pubKw]

/-- The words of a group that may be missing. -/
def groupWords {b : Bracket} (g : Option (Group b)) : List Word :=
  g.elim [] Group.words

/-- A function, with a receiver if it is a method, and with a body or without. -/
structure FunctionItem where
  publicGap : Option Gap
  fn : Gap
  receiver : Option (Group .paren)
  name : Name
  generics : Option (Group .square)
  parameters : Group .paren
  result : Balanced
  /-- The result ends where a body starts, and with the line. -/
  resultLine : ∀ w ∈ result.heads, w.kind ≠ .newline ∧ w.kind ≠ .opener .brace
  body : Option (Group .brace)

namespace FunctionItem

/-- The words through the one that starts it. -/
def start (f : FunctionItem) : List Word :=
  publicWords f.publicGap ++ [.keyword f.fn .fnKw]

/-- The words behind that. -/
def rear (f : FunctionItem) : List Word :=
  groupWords f.receiver ++ (f.name.words ++ (groupWords f.generics ++
    (f.parameters.words ++ (f.result.words ++ groupWords f.body))))

/-- All words. -/
def words (f : FunctionItem) : List Word :=
  f.start ++ f.rear

/-- What is declared. -/
def declared (f : FunctionItem) (moduleName : String) (offset : Nat) : Function Span where
  name := f.name.known moduleName
  isPublic := f.publicGap.isSome
  isMethod := f.receiver.isSome
  language := f.name.language
  place := f.name.place (offset + byteSize (print (f.start ++ groupWords f.receiver)))

end FunctionItem

/-! ### Structs

A field has a type and a tail.  Where the one ends and the other starts is a matter of blanks,
since attributes and array types both begin with a square bracket, and the fields of `FieldLine`
draw the line where the reader draws it.
-/

/-- A field: a name, a type, and behind them a default value or attributes. -/
structure FieldLine where
  name : Word
  isIdent : name.kind = .ident
  notAccess : name.text ≠ "__global".toList
  type : Balanced
  filled : type.heads ≠ []
  /-- A dot behind the first word would make an embedded type of it. -/
  notEmbedded : ∀ w ∈ type.heads.head?, w.kind ≠ .dot
  typeLine : ∀ w ∈ type.heads, w.kind ≠ .newline ∧ w.kind ≠ .equals
  /-- Square brackets behind a blank are attributes and no part of the type. -/
  typeGoesOn : ∀ w ∈ type.heads.tail, GoesOnType w
  tail : Balanced
  tailStart : ∀ w ∈ tail.heads.head?,
    w.kind = .equals ∨ w.kind = .opener .square ∧ w.gap.chars ≠ []
  tailLine : ∀ w ∈ tail.heads, w.kind ≠ .newline

namespace FieldLine

/-- All words. -/
def words (f : FieldLine) : List Word :=
  f.name :: (f.type.words ++ f.tail.words)

/-- What is declared: the name, and the type as it is written. -/
def declared (f : FieldLine) (offset : Nat) : Field Span where
  name := String.ofList f.name.text
  typeText := String.ofList (bare f.type.words)
  place := f.name.span offset

end FieldLine

/-- A line of a struct. -/
inductive Line where
  /-- Words such as `pub mut` and a colon. -/
  | access (first : Word) (more : List Word) (colon : Gap)
      (isAccess : ∀ w ∈ first :: more, w.kind = .keyword .pubKw ∨ w.kind = .keyword .mutKw)
  | field (f : FieldLine)

namespace Line

/-- All words. -/
def words : Line → List Word
  | access first more colon _ => first :: (more ++ [.colon colon])
  | field f => f.words

/-- The field that is declared. -/
def declared (offset : Nat) : Line → Option (Field Span)
  | access .. => none
  | field f => some (f.declared offset)

end Line

/-- The words of lines, with the newlines behind them. -/
def linesWords (lines : List (Line × List Gap)) : List Word :=
  lines.flatMap fun l => l.1.words ++ newlines l.2

/-- The fields of lines that start at byte `offset`. -/
def fieldsFrom (offset : Nat) : List (Line × List Gap) → List (Field Span)
  | [] => []
  | (line, ends) :: later =>
    (line.declared offset).toList
      ++ fieldsFrom (offset + byteSize (print (line.words ++ newlines ends))) later

/-- A struct or a union. -/
structure StructItem where
  publicGap : Option Gap
  isUnion : Bool
  keyword : Gap
  name : Name
  generics : Option (Group .square)
  opening : Gap
  lead : List Gap
  lines : List (Line × List Gap)
  separated : Separated lines
  closing : Gap

namespace StructItem

/-- The words through the one that starts it. -/
def start (s : StructItem) : List Word :=
  publicWords s.publicGap ++ [.keyword s.keyword (if s.isUnion then .unionKw else .structKw)]

/-- The words behind that, up to the first line. -/
def heading (s : StructItem) : List Word :=
  s.name.words ++ (groupWords s.generics ++ .opener s.opening .brace :: newlines s.lead)

/-- All words behind the one that starts it. -/
def rear (s : StructItem) : List Word :=
  s.heading ++ (linesWords s.lines ++ [.closer s.closing .brace])

/-- All words. -/
def words (s : StructItem) : List Word :=
  s.start ++ s.rear

/-- What is declared. -/
def declared (s : StructItem) (moduleName : String) (offset : Nat) : Struct Span where
  name := s.name.known moduleName
  isPublic := s.publicGap.isSome
  isUnion := s.isUnion
  language := s.name.language
  place := s.name.place (offset + byteSize (print s.start))
  fields := fieldsFrom (offset + byteSize (print (s.start ++ s.heading))) s.lines

end StructItem

/-! ### Items

What an item declares is told by its parts, the module it stands in and the byte it starts at.  A
module line declares nothing itself and names the module for the items behind it.
-/

/-- Whether a statement has no place in an outline, by the kinds of its first two tokens: it is no
module line, no declaration and no attribute. -/
def isPassedOver (first : Kind) (second? : Option Kind) : Bool :=
  match first with
  | .keyword .moduleKw => false
  | .keyword .fnKw => false
  | .keyword .structKw => false
  | .keyword .unionKw => false
  | .opener .square => false
  | .atSign => second? ≠ some (.opener .square)
  | .keyword .pubKw =>
    second? ≠ some (.keyword .fnKw) ∧ second? ≠ some (.keyword .structKw) ∧
      second? ≠ some (.keyword .unionKw)
  | _ => true

/-- A module line. -/
structure ModuleItem where
  keyword : Gap
  name : Word
  isIdent : name.kind = .ident

/-- A statement that is passed over. -/
structure OtherItem where
  content : Balanced
  oneLine : ∀ w ∈ content.heads, w.kind ≠ .newline
  passedOver : ∃ w ws, content.words = w :: ws ∧ isPassedOver w.kind (ws.head?.map Word.kind) = true

/-- An item of a file. -/
inductive Item where
  | module (m : ModuleItem)
  | function (f : FunctionItem)
  | struct (s : StructItem)
  | other (o : OtherItem)

namespace Item

/-- All words. -/
def words : Item → List Word
  | module m => [.keyword m.keyword .moduleKw, m.name]
  | function f => f.words
  | struct s => s.words
  | other o => o.content.words

/-- The module that the items behind this one are in. -/
def moduleBehind (moduleName : String) : Item → String
  | module m => String.ofList m.name.text
  | _ => moduleName

/-- The statement that an item is. -/
def statement (moduleName : String) (offset : Nat) : Item → Statement Span
  | function f => .function (f.declared moduleName offset)
  | struct s => .struct (s.declared moduleName offset)
  | _ => .other

end Item

/-- What a statement without embedded types registers. -/
def registrationsOf (moduleName : String) : Statement Span → List Registration
  | .function d => if d.isMethod then [] else [.function d.name]
  | .struct d =>
    .struct d.name :: (d.fields.flatMap fun f =>
      (TypeText.base? f.typeText.toList).toList.map fun base =>
        .mention (Outline.qualifyType moduleName base))
  | .other => []

/-- The words of items, with the newlines behind them. -/
def itemsWords (items : List (Item × List Gap)) : List Word :=
  items.flatMap fun i => i.1.words ++ newlines i.2

/-- The outline of items that start at byte `offset`, inside the module `moduleName`: each is one
statement, and none has a fault. -/
def outlineOf (moduleName : String) (offset : Nat) : List (Item × List Gap) → Outline
  | [] => ⟨[], [], [], moduleName, {}⟩
  | (item, ends) :: later =>
    let statement := item.statement moduleName offset
    let tail := outlineOf (item.moduleBehind moduleName)
      (offset + byteSize (print (item.words ++ newlines ends))) later
    { statements := statement :: tail.statements
      registrations := registrationsOf moduleName statement ++ tail.registrations
      faults := []
      moduleName := tail.moduleName
      tally := (Outline.Tally.ofStatement statement).add tail.tally }

/-- A file: items with newlines between them, laid out so that no word runs into the next. -/
structure File where
  lead : List Gap
  items : List (Item × List Gap)
  separated : Separated items
  behind : Gap
  laid : Token.Laid (newlines lead ++ itemsWords items)

namespace File

/-- The text of a file. -/
def text (file : File) : List Char :=
  print (newlines file.lead ++ itemsWords file.items) ++ file.behind.chars

/-- The outline of a file, told by its items. -/
def outline (file : File) : Outline :=
  outlineOf "" (byteSize (print (newlines file.lead))) file.items

end File

end Grammar

end VServer
