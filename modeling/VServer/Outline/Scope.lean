/-
Names in a module.

A declaration is known by its name in front of which the name of its module stands.  The modules
`builtin` and `main`, and files without a module line, add nothing.  Foreign declarations carry
the name of their language instead.

A type that is mentioned is treated in another way than one that is declared.  A dotted name is
taken as it is, and of the others only those with a capital letter in front belong to the module,
since the built-in types have small letters.
-/
import VServer.Text.Span
import VServer.Declaration

namespace VServer.Outline

/-- A name as it is known outside the module. -/
def qualify (moduleName name : String) : String :=
  if moduleName = "" || moduleName = "builtin" || moduleName = "main" then name
  else moduleName ++ "." ++ name

/-- The known name of a declaration in some language. -/
def qualifyIn (language : Language) (moduleName name : String) : String :=
  match language.qualifier? with
  | some foreign => foreign ++ "." ++ name
  | none => qualify moduleName name

/-- The known name of a type that is mentioned.  A dotted name is complete; of the others only
those with a capital in front belong to the module. -/
def qualifyType (moduleName : String) (name : List Char) : String :=
  if name.contains '.' then String.ofList name
  else if name.head?.any Char.isUpper then qualify moduleName (String.ofList name)
  else String.ofList name

/-- What the reader of a file knows at some point: the text and the module it is in. -/
structure Context where
  text : List Char
  moduleName : String

namespace Context

/-- The text of a span. -/
def slice (ctx : Context) (span : Text.Span) : List Char :=
  Text.slice ctx.text span

/-- The text of a span as a string. -/
def sliceString (ctx : Context) (span : Text.Span) : String :=
  Text.sliceString ctx.text span

/-- The empty span at the end of the text. -/
def endSpan (ctx : Context) : Text.Span :=
  ⟨Text.byteSize ctx.text, Text.byteSize ctx.text⟩

end Context

end VServer.Outline
