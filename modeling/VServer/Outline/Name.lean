/-
Names of declarations.

A name is one word.  A foreign name is the name of the language, a dot, and words with dots
between them; a method may also be named by operator marks.

What is read is the place of a name and its language.  Which module the name belongs to is not
decided here.
-/
import VServer.Token
import VServer.Outline.Scope

namespace VServer.Outline

/-- A name as it is written, without the language in front of it. -/
structure DeclaredName where
  language : Language
  span : Text.Span
deriving DecidableEq, Repr

/-- The end of a dotted name whose last word so far ends at `stop`, and the tokens behind it. -/
def dottedEnd (stop : Nat) : List Token → Nat × List Token
  | d :: n :: ts =>
    if d.kind = .dot ∧ n.kind.isName then dottedEnd n.span.stop ts else (stop, d :: n :: ts)
  | ts => (stop, ts)

/-- A foreign name behind its language and the dot. -/
def readForeignName (language : Language) (ts : List Token) :
    Option DeclaredName × List Token :=
  match ts with
  | t :: rest =>
    if t.kind.isName then
      let (stop, rest) := dottedEnd t.span.stop rest
      (some ⟨language, ⟨t.span.start, stop⟩⟩, rest)
    else (none, ts)
  | [] => (none, [])

/-- The end of a run of operator marks of which the last one so far ends at `stop`, and the
tokens behind it. -/
def operatorEnd (stop : Nat) : List Token → Nat × List Token
  | [] => (stop, [])
  | t :: ts => if t.kind.isOperatorPart then operatorEnd t.span.stop ts else (stop, t :: ts)

/-- The name that stands here, and the tokens behind it. -/
def readName (ctx : Context) (allowOperator : Bool) (ts : List Token) :
    Option DeclaredName × List Token :=
  match ts with
  | [] => (none, [])
  | t :: rest =>
    if allowOperator && t.kind.isOperatorPart then
      let (stop, rest) := operatorEnd t.span.stop rest
      (some ⟨.v, ⟨t.span.start, stop⟩⟩, rest)
    else if t.kind.isName then
      match Language.ofQualifier? (ctx.slice t.span), rest with
      | some language, d :: after =>
        if d.kind = .dot then readForeignName language after
        else (some ⟨.v, t.span⟩, rest)
      | _, _ => (some ⟨.v, t.span⟩, rest)
    else (none, ts)

/-- The place of the next token, or the end of the text. -/
def here (ctx : Context) : List Token → Text.Span
  | t :: _ => t.span
  | [] => ctx.endSpan

end VServer.Outline
