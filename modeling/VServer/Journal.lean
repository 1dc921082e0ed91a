/-
The journal of a session.

Lines are written to a file while one is attached.  A journal also remembers all that it was told.
Attaching a file makes the directories above it; where that fails, or the file cannot be opened,
the journal goes on with the file it had.

What a journal was told is remembered whether a file is attached or not, so a session can be asked
what happened in it.  The tree of files belongs to the journal, since the journal is the only part
of a session that writes to it.
-/
import VServer.Files
import VServer.Protocol.Params

namespace VServer

/-- How grave a line is. -/
inductive JournalLevel where
  | info
  | error
deriving DecidableEq, Repr

namespace JournalLevel

/-- The name of a level. -/
def name : JournalLevel → String
  | info => "info"
  | error => "error"

end JournalLevel

/-- Something a journal was told. -/
inductive JournalEvent where
  /-- To write to a file from now on, and whether that was possible. -/
  | path (path : String) (attached : Bool)
  | line (level : JournalLevel) (text : String)
  | close
deriving DecidableEq, Repr

/-- A journal, with the tree of files that it writes to. -/
structure Journal where
  disk : Files
  /-- The file that is attached. -/
  target : Option Place := none
  /-- The path of the file that was attached last. -/
  path : Option String := none
  history : List JournalEvent := []

namespace Journal

/-- Whether lines go to a file. -/
def isFileBacked (j : Journal) : Bool :=
  j.target.isSome

/-- Remember an event. -/
def remember (j : Journal) (e : JournalEvent) : Journal :=
  { j with history := j.history ++ [e] }

/-- The bytes of a line. -/
def lineBytes (level : JournalLevel) (text : String) : Text.Bytes :=
  Text.encodeString ("[" ++ level.name ++ "] " ++ text ++ "\n")

/-- Write a line. -/
def write (j : Journal) (level : JournalLevel) (text : String) : Journal :=
  let disk :=
    match j.target with
    | some place => j.disk.append place (lineBytes level text)
    | none => j.disk
  { j with disk }.remember (.line level text)

/-- Make the directories above a path. -/
def prepare (disk : Files) (path : String) : Files × Option FileError :=
  match Path.parent? path with
  | none => (disk, none)
  | some parent => if parent.isEmpty then (disk, none) else disk.makeDirectories parent

/-- Open the file that a path leads to, with the directories above it. -/
def openFile (disk : Files) (path : String) : Files × Except FileError Place :=
  match prepare disk path with
  | (disk, some e) => (disk, .error e)
  | (disk, none) =>
    match disk.openAtEnd path with
    | .error e => (disk, .error e)
    | .ok (disk, place) => (disk, .ok place)

/-- Attach a file. -/
def attach (j : Journal) (path : String) : Journal × Except FileError Unit :=
  match openFile j.disk path with
  | (disk, .error e) => ({ j with disk }.remember (.path path false), .error e)
  | (disk, .ok place) =>
    ({ j with disk, target := some place, path := some path }.remember (.path path true), .ok ())

/-- Let go of the file. -/
def close (j : Journal) : Journal :=
  { j with target := none }.remember .close

/-- Remove a file, if that is possible. -/
def discard (j : Journal) (path : String) : Journal :=
  match j.disk.removeFile path with
  | .ok disk => { j with disk }
  | .error _ => j

/-- Whether a session keeps a journal file. -/
def wantsFile (debug : Bool) (trace : TraceLevel) : Bool :=
  debug || trace = .verbose

/-- The version of the server. -/
def serverVersion : String := "0.1.0"

/-- The system that the server runs on. -/
def hostOs : String := "linux"

/-- The line that tells the version of the server. -/
def versionLine : String :=
  "VLS Version: " ++ serverVersion ++ ", OS: " ++ hostOs ++ " 64-bit"

/-- The line that tells who the client is. -/
def clientLine (client : Option ClientInfo) : String :=
  match client with
  | none => "Client / Editor: Unknown"
  | some info =>
    if info.name.isEmpty then "Client / Editor: Unknown"
    else
      match info.version with
      | some version => "Client / Editor: " ++ info.name ++ " " ++ version
      | none => "Client / Editor: " ++ info.name

/-- Attach a new file, if the session keeps one, and tell whether that was possible. -/
def attachNew (j : Journal) (debug : Bool) (trace : TraceLevel) (path : String) : Journal × Bool :=
  if wantsFile debug trace then
    match (j.discard path).attach path with
    | (j, .ok _) => (j, true)
    | (j, .error _) => (j, false)
  else (j, false)

/-- Start the journal of a session: with a new file, if the session keeps one, and with the lines
that tell who talks to whom.  The truth value tells whether a file was attached. -/
def start (j : Journal) (debug : Bool) (trace : TraceLevel) (path : String)
    (client : Option ClientInfo) : Journal × Bool :=
  let (j, attached) := j.attachNew debug trace path
  ((j.write .info versionLine).write .info (clientLine client), attached)

end Journal

end VServer
