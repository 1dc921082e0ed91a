/-
The type at the heart of a written type.

`&[]Foo` and `map[string]Foo` are about `Foo`: the last run of letters, digits, underscores and
dots.  A function type has no heart, and a run that starts with a digit is no name.

Nothing about the prefixes of types is known here.  Whatever stands in front of the heart ends with
a character that is in no name, so it is enough to look from behind.
-/
import VServer.Text.Blank
import VServer.Text.Letter

namespace VServer.TypeText

/-- Characters of a name, of any script. -/
def isNamePart (c : Char) : Bool :=
  Text.isAlphanumeric c || c = '_'

/-- Characters of a name with dots in it. -/
def isDottedNamePart (c : Char) : Bool :=
  isNamePart c || c = '.'

/-- Whether a text is the type of a function: the word `fn` and what follows a word. -/
def isFunctionType (cs : List Char) : Bool :=
  match cs with
  | 'f' :: 'n' :: rest => !(rest.head?.any isNamePart)
  | _ => false

/-- The last run of characters that make up dotted names. -/
def lastName (cs : List Char) : List Char :=
  (cs.reverse.takeWhile isDottedNamePart).reverse

/-- The named type at the heart of a written type. -/
def base? (text : List Char) : Option (List Char) :=
  let trimmed := Text.trim text
  if isFunctionType trimmed then none
  else
    match lastName trimmed with
    | [] => none
    | c :: cs => if c.isDigit then none else some (c :: cs)

end VServer.TypeText
