/-
The program.

It looks at the files that matter, serves standard input until the session ends, and writes
standard output and the journal.  What is decided is decided elsewhere: the server works on a
tree of files that is a value, and the changes of that tree are made on the disk after each step.

Reading from a stream is the one thing that cannot be done by a function on all of its bytes,
because the client waits for an answer before it goes on.  So no more is fetched than the next
message wants, which is decided by `Frame.wants`, and the server is then given what was fetched, a
turn at a time.
-/
import VServer.Program
import VServer.Files.Change

namespace VServer.Main

open Text (Bytes)

/-! ### Looking at the disk -/

/-- The path of a place. -/
def pathOf (place : Place) : String :=
  "/" ++ "/".intercalate place

/-- Follow steps from a place on the disk, and note what stands on the way.  The rights of a file
are not seen here, so each one counts as a program. -/
partial def look (files : Files) (place : Place) : List String → IO Files
  | [] => return files
  | "" :: steps => look files place steps
  | "." :: steps => look files place steps
  | ".." :: steps => look files place.dropLast steps
  | step :: steps => do
    let next := place ++ [step]
    try
      let found ← (System.mkFilePath [pathOf next]).symlinkMetadata
      match found.type with
      | .dir => look (files.put next .directory) next steps
      | .symlink => do
        let target := (← IO.FS.realPath (pathOf next)).toString
        let files ← look (files.put next (.link target)) [] (Path.segments target)
        look files (Path.segments target) steps
      | .file => do
        let content := (← IO.FS.readBinFile (pathOf next)).toList
        return files.put next (.file content true)
      | .other => return files
    catch _ => return files

/-- Note what a path leads to. -/
def lookAt (files : Files) (path : String) : IO Files :=
  look files (files.startOf path) (Files.steps path)

/-- Note what lies in a directory. -/
def lookInside (files : Files) (directory : String) : IO Files := do
  try
    let entries ← (System.mkFilePath [Path.join files.cwd directory]).readDir
    entries.foldlM (fun files entry => lookAt files (Path.join directory entry.fileName))
      (← lookAt files directory)
  catch _ => return files

/-- Make a change on the disk. -/
def make : Change → IO Unit
  | .makeDirectory place => IO.FS.createDirAll (pathOf place)
  | .write place content => IO.FS.writeBinFile (pathOf place) ⟨content.toArray⟩
  | .append place bytes =>
    IO.FS.withFile (pathOf place) .append fun handle => handle.write ⟨bytes.toArray⟩
  | .remove place => IO.FS.removeFile (pathOf place)

/-- Make the changes that lead from one tree to another, as far as that is possible. -/
def makeChanges (before after : Files) : IO Unit :=
  (Files.changes before after).forM fun change => try make change catch _ => return

/-! ### Serving the standard streams -/

/-- Read the rest of a line, where the bytes read last come first. -/
partial def readLine (input : IO.FS.Stream) (newestFirst : Bytes) : IO Bytes := do
  match (← input.read 1).toList with
  | [] => return newestFirst.reverse
  | bytes =>
    if bytes = [10] then return (10 :: newestFirst).reverse
    readLine input (bytes ++ newestFirst)

/-- Read a given number of bytes. -/
partial def readBytes (input : IO.FS.Stream) (count : Nat) (read : ByteArray) : IO ByteArray := do
  if count ≤ read.size then return read
  let bytes ← input.read (count - read.size).toUSize
  if bytes.isEmpty then return read
  readBytes input count (read ++ bytes)

/-- Fetch what the next message wants, and no more than that: the client may wait for an answer
before it sends anything else.  At the end of the stream the message gets what there is. -/
partial def fetch (input : IO.FS.Stream) (fetched : Bytes) : IO Bytes := do
  match Frame.wants fetched with
  | .nothing => return fetched
  | .line =>
    let line ← readLine input []
    if line.isEmpty then return fetched
    fetch input (fetched ++ line)
  | .bytes count => return fetched ++ (← readBytes input count .empty).toList

/-- Serve until the session ends, where `fetched` has been fetched already; the code to exit
with. -/
partial def serve (input output : IO.FS.Stream) (session : Session) (fetched : Bytes) :
    IO Nat := do
  let (out, rest) := Server.turn session (← fetch input fetched)
  makeChanges session.journal.disk out.session.journal.disk
  output.write ⟨out.output.toArray⟩
  output.flush
  match out.code with
  | some code => return code
  | none => serve input output out.session rest

/-- The variables that matter. -/
def variableNames : List String :=
  ["HOME", "PATH", "TMPDIR", "XDG_CONFIG_HOME", "VLS_DEBUG", "VROOT", "VLS_LOG_PATH"]

/-- The environment of the process. -/
def environment : IO Environment := do
  let found ← variableNames.mapM fun name => do
    return (← IO.getEnv name).map fun value => (name, value)
  return ⟨found.filterMap id⟩

/-- A session for some settings, with the files that it may need. -/
def openSession (settings : Settings) (env : Environment) (disk : Files) : IO Session := do
  let disk ← (programPaths env).foldlM lookAt disk
  let disk ← lookAt disk (settings.journalPath env)
  match (Session.new settings env disk).indexer.directory with
  | .error _ => return Session.new settings env disk
  | .ok directory => return Session.new settings env (← lookInside disk directory)

/-- Run the program; the code to exit with. -/
def run (words : List String) : IO Nat := do
  let env ← environment
  let cwd := (← IO.currentDir).toString
  let input ← IO.getStdin
  let output ← IO.getStdout
  let disk ← lookAt { cwd } "."
  let disk ← look disk [] (Path.segments cwd)
  let disk ← (Program.configPaths words env).foldlM lookAt disk
  match Program.settings words env disk with
  | .error (code, text) => do
    output.putStr text
    output.flush
    return code
  | .ok settings => serve input output (← openSession settings env disk) []

end VServer.Main

/-- Run the program. -/
def main (words : List String) : IO UInt32 := do
  return (← VServer.Main.run words).toUInt32
