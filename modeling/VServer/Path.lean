/-
Paths as texts.

A path is cut at its slashes.  Empty segments and dots say nothing and are passed over, so a
trailing slash or `/.` does not change which name a path ends in.  Joining appends a segment, or
replaces everything if the second path is absolute.
-/

namespace VServer.Path

/-- The parts of a text between the occurrences of a character. -/
def splitOnChar (sep : Char) : List Char → List (List Char)
  | [] => [[]]
  | c :: cs =>
    if c = sep then [] :: splitOnChar sep cs
    else
      match splitOnChar sep cs with
      | [] => [[c]]
      | part :: parts => (c :: part) :: parts

/-- Whether a path starts at the root. -/
def isAbsolute (path : String) : Bool :=
  path.toList.head? == some '/'

/-- The segments of a path, dots and empty ones left out. -/
def segments (path : String) : List String :=
  ((splitOnChar '/' path.toList).map String.ofList).filter fun s => s != "" && s != "."

/-- The first path followed by the second one; an absolute second path stands alone. -/
def join (base path : String) : String :=
  if isAbsolute path || base.isEmpty then path
  else if base.toList.getLast? == some '/' then base ++ path
  else base ++ "/" ++ path

/-- The name that a path ends in; the parent directory has none. -/
def fileName? (path : String) : Option String :=
  match (segments path).getLast? with
  | some name => if name = ".." then none else some name
  | none => none

/-- Cut a text at the last occurrence of a character. -/
def splitAtLast? (sep : Char) (cs : List Char) : Option (List Char × List Char) :=
  let after := (cs.reverse.takeWhile (· != sep)).reverse
  match cs.reverse.dropWhile (· != sep) with
  | [] => none
  | _ :: before => some (before.reverse, after)

/-- A file name without its extension, and the extension.  A dot in front belongs to the name. -/
def splitExtension (name : String) : String × Option String :=
  match splitAtLast? '.' name.toList with
  | none => (name, none)
  | some ([], _) => (name, none)
  | some (stem, ext) => (String.ofList stem, some (String.ofList ext))

/-- The directory that a path lies in; the root and the empty path lie in none. -/
def parent? (path : String) : Option String :=
  let rooted := isAbsolute path
  let lead := if !rooted && (splitOnChar '/' path.toList).head? == some ['.'] then ["."] else []
  let parts := lead ++ segments path
  if parts.isEmpty then none
  else
    let kept := "/".intercalate parts.dropLast
    some (if rooted then "/" ++ kept else kept)

end VServer.Path
