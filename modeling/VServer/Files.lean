/-
A tree of files as a value.

Every directory, file and link is known by its place: the names on the way to it from the root.
Paths are followed from the root or from the working directory, through links and parents, until
a place is reached or the way ends in an error.  Operations that change the tree return the new
one.
-/
import VServer.Entry
import VServer.Text.Utf8
import VServer.Path

namespace VServer

open Text (Bytes)

/-- The names on the way from the root. -/
abbrev Place := List String

/-- What stands at a place. -/
inductive Node where
  | directory
  | file (content : Bytes) (executable : Bool)
  | link (target : String)
deriving DecidableEq, Repr

/-- Why something cannot be done with a path. -/
inductive FileError where
  | notFound
  | notDirectory
  | isDirectory
  | alreadyExists
  | tooManyLinks
  | nameTooLong
  /-- The path holds the null character. -/
  | nullCharacter
  /-- The bytes of the file are no text. -/
  | notText
deriving DecidableEq, Repr

namespace FileError

/-- The error in words. -/
def message : FileError → String
  | notFound => "No such file or directory (os error 2)"
  | notDirectory => "Not a directory (os error 20)"
  | isDirectory => "Is a directory (os error 21)"
  | alreadyExists => "File exists (os error 17)"
  | tooManyLinks => "Too many levels of symbolic links (os error 40)"
  | nameTooLong => "File name too long (os error 36)"
  | nullCharacter => "file name contained an unexpected NUL byte"
  | notText => "stream did not contain valid UTF-8"

end FileError

/-- A tree of files and a working directory.  A node has no owner and no rights but that of a file
to be run, so nothing is ever refused, and a disk is never full or broken: the errors are those
that the shape of the tree gives rise to. -/
structure Files where
  cwd : String := "/"
  nodes : List (Place × Node) := []
deriving Repr

namespace Files

/-- What stands at a place; the root is a directory. -/
def node? (files : Files) (place : Place) : Option Node :=
  if place.isEmpty then some .directory else files.nodes.lookup place

/-- The tree with a node at a place. -/
def put (files : Files) (place : Place) (node : Node) : Files :=
  { files with nodes := replaceEntry place node files.nodes }

/-- The tree without what stands at a place. -/
def erase (files : Files) (place : Place) : Files :=
  { files with nodes := files.nodes.filter fun n => n.1 != place }

/-! ### Following a path

A path is a list of steps.  A slash at its end is an empty step, which asks for a directory, as a
dot does.  All links on a way count towards one limit, also those behind the last step.
-/

/-- The names between the slashes of a path. -/
def names (path : String) : List String :=
  ((Path.splitOnChar '/' path.toList).map String.ofList).filter (· != "")

/-- Whether a path ends in a slash. -/
def endsInSlash (path : String) : Bool :=
  path.toList.getLast? == some '/'

/-- The steps of a path. -/
def steps (path : String) : List String :=
  if endsInSlash path then names path ++ [""] else names path

/-- Where a path starts. -/
def startOf (files : Files) (path : String) : Place :=
  if Path.isAbsolute path then [] else Path.segments files.cwd

/-- What a way is followed for. -/
inductive Aim where
  /-- To find what is there. -/
  | find
  /-- To find a file, or the place where it can be made. -/
  | create
deriving DecidableEq, Repr

/-- How many bytes a name may have. -/
def nameLimit : Nat := 255

/-- How many bytes a path may have. -/
def pathLimit : Nat := 4095

/-- How many links are followed. -/
def linkLimit : Nat := 40

/-- Follow steps from a place.  At a link, `follow` goes on with the steps of the link and those
that are left. -/
def walkWith (files : Files) (aim : Aim)
    (follow : Place → List String → Except FileError Place) :
    Place → List String → Except FileError Place
  | place, [] => .ok place
  | place, step :: rest =>
    match files.node? place with
    | none => .error .notFound
    | some .directory =>
      if step = "" || step = "." then walkWith files aim follow place rest
      else if step = ".." then walkWith files aim follow place.dropLast rest
      -- No file is made under a name with a slash behind it, whatever stands there.
      else if aim = .create && rest = [""] then .error .isDirectory
      else if nameLimit < step.utf8ByteSize then .error .nameTooLong
      else
        match files.node? (place ++ [step]) with
        | none =>
          if aim = .create && rest.isEmpty then .ok (place ++ [step]) else .error .notFound
        | some (.link target) =>
          follow (if Path.isAbsolute target then [] else place) (steps target ++ rest)
        | some _ => walkWith files aim follow (place ++ [step]) rest
    | some _ => .error .notDirectory

/-- Follow steps from a place through at most `links` links. -/
def walk (files : Files) (aim : Aim) : Nat → Place → List String → Except FileError Place
  | 0 => files.walkWith aim fun _ _ => .error .tooManyLinks
  | links + 1 => files.walkWith aim (walk files aim links)

/-- Refuse a text that is no path, whatever the tree holds. -/
def checkPath (path : String) : Except FileError Unit :=
  if path.toList.contains '\x00' then .error .nullCharacter
  else if path.isEmpty then .error .notFound
  else if pathLimit < path.utf8ByteSize then .error .nameTooLong
  else .ok ()

/-- The place that a path leads to. -/
def locate (files : Files) (aim : Aim) (path : String) : Except FileError Place := do
  checkPath path
  files.walk aim linkLimit (files.startOf path) (steps path)

/-- The place of what a path leads to. -/
def resolve (files : Files) (path : String) : Except FileError Place :=
  files.locate .find path

/-- Whether something stands at a path. -/
def pathExists (files : Files) (path : String) : Bool :=
  match files.resolve path with
  | .ok _ => true
  | .error _ => false

/-- What a path leads to. -/
def nodeAt? (files : Files) (path : String) : Option Node :=
  match files.resolve path with
  | .ok place => files.node? place
  | .error _ => none

/-- Whether a path leads to a directory. -/
def isDirectory (files : Files) (path : String) : Bool :=
  files.nodeAt? path == some .directory

/-- The bytes of a file. -/
def readBytes (files : Files) (path : String) : Except FileError Bytes :=
  match files.resolve path with
  | .error e => .error e
  | .ok place =>
    match files.node? place with
    | some (.file content _) => .ok content
    | some .directory => .error .isDirectory
    | _ => .error .notFound

/-- The text of a file. -/
def readText (files : Files) (path : String) : Except FileError (List Char) :=
  match files.readBytes path with
  | .error e => .error e
  | .ok bytes => (Text.decode bytes).mapError fun _ => .notText

/-- The names of the regular files in a directory, in order.  What is no directory has none. -/
def regularFiles (files : Files) (path : String) : Except FileError (List String) :=
  match files.resolve path with
  | .error e => .error e
  | .ok place =>
    if files.node? place = some .directory then
      let names := files.nodes.filterMap fun n =>
        match n.2 with
        | .file _ _ =>
          if n.1.length = place.length + 1 && n.1.dropLast == place then n.1.getLast? else none
        | _ => none
      .ok (names.mergeSort fun a b => decide (a ≤ b))
    else .ok []

/-! ### Changing the tree -/

/-- The place at which the last name of a path stands, in the directory that the steps before it
lead to.  A path that ends in no name has none. -/
def entryOf (files : Files) (path : String) : Except FileError (Option Place) := do
  checkPath path
  match (names path).getLast? with
  | none => .ok none
  | some last =>
    let parent ← files.walk .find linkLimit (files.startOf path) ((names path).dropLast ++ [""])
    if last = "." || last = ".." then .ok none
    else if nameLimit < last.utf8ByteSize then .error .nameTooLong
    else .ok (some (parent ++ [last]))

/-- Make one directory. -/
def makeDirectory (files : Files) (path : String) : Except FileError Files := do
  match ← files.entryOf path with
  | none => .error .alreadyExists
  | some place =>
    match files.node? place with
    | some _ => .error .alreadyExists
    | none => .ok (files.put place .directory)

/-- Make a directory and those above it, in at most `fuel` steps.  What was made stays where a
later step fails. -/
def makeDirectoriesIn (fuel : Nat) (files : Files) (path : String) : Files × Option FileError :=
  match fuel with
  | 0 => (files, some .notFound)
  | fuel + 1 =>
    match Path.parent? path with
    | none => (files, none)
    | some parent =>
      match files.makeDirectory path with
      | .ok files => (files, none)
      | .error .notFound =>
        match makeDirectoriesIn fuel files parent with
        | (files, some e) => (files, some e)
        | (files, none) =>
          match files.makeDirectory path with
          | .ok files => (files, none)
          | .error e => (files, if files.isDirectory path then none else some e)
      | .error e => (files, if files.isDirectory path then none else some e)

/-- Make a directory and those above it. -/
def makeDirectories (files : Files) (path : String) : Files × Option FileError :=
  makeDirectoriesIn (path.length + 1) files path

/-- Open a file to write at its end; a file that is missing is made. -/
def openAtEnd (files : Files) (path : String) : Except FileError (Files × Place) := do
  let place ← files.locate .create path
  match files.node? place with
  | none => .ok (files.put place (.file [] false), place)
  | some (.file _ _) => .ok (files, place)
  | some _ => .error .isDirectory

/-- Write bytes at the end of the file at a place, if it is still there. -/
def append (files : Files) (place : Place) (bytes : Bytes) : Files :=
  match files.node? place with
  | some (.file content executable) => files.put place (.file (content ++ bytes) executable)
  | _ => files

/-- Remove a file or a link. -/
def removeFile (files : Files) (path : String) : Except FileError Files := do
  match ← files.entryOf path with
  | none => .error .isDirectory
  | some place =>
    match files.node? place with
    | none => .error .notFound
    | some .directory => .error .isDirectory
    | some _ => if endsInSlash path then .error .notDirectory else .ok (files.erase place)

end Files

end VServer
