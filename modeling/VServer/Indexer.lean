/-
The index of the built-in module.

The files of `vlib/builtin` that belong to the build are read one after another, and the places
of public functions, of structs and of their fields are written to the index in that order.  Each
fault is handed on before the next file is read, since what takes it may write to a file that is
itself still to be read.

Where V is installed is told by the settings, and otherwise by the program `v` on the search path.
A module that cannot be found or listed is an error of the whole run; a file that cannot be read is
a fault, and the run goes on behind it.
-/
import VServer.SourceFile
import VServer.Build
import VServer.Files
import VServer.Symbol
import VServer.Settings

namespace VServer

/-! ### Reading files -/

/-- Something that holds a tree of files and takes the faults of files. -/
structure Watcher (σ : Type) where
  disk : σ → Files
  report : σ → FaultReport → σ

/-- What reading files comes to: the trees of those that could be read, the state of the watcher
and what the files were read against. -/
structure FilesRead (σ : Type) where
  trees : List SyntaxTree
  watcher : σ
  reading : Reading

namespace SourceFile

/-- The scope behind a file that could not be read. -/
def countFault (scope : Scope) : Scope :=
  { scope with statistics := { scope.statistics with faults := scope.statistics.faults + 1 } }

/-- Read one file from the disk.  A file that cannot be read is a fault and no tree. -/
def readPath {σ : Type} (w : Watcher σ) (path : String) (state : σ) (r : Reading) :
    Option SyntaxTree × σ × Reading :=
  match (w.disk state).readText path with
  | .ok text =>
    let (tree, reports, r) := read (w.disk state).cwd path text r
    (some tree, reports.foldl w.report state, r)
  | .error e =>
    (none, w.report state ⟨path, Range.zero, .unreadable e.message⟩,
      { r with scope := countFault r.scope })

/-- Read files one after another. -/
def readPaths {σ : Type} (w : Watcher σ) : List String → σ → Reading → FilesRead σ
  | [], state, r => ⟨[], state, r⟩
  | path :: paths, state, r =>
    let (tree, state, r) := readPath w path state r
    let rest := readPaths w paths state r
    { rest with trees := tree.toList ++ rest.trees }

end SourceFile

/-! ### Symbols of a file -/

/-- A place to be written to the index under a name. -/
structure SymbolWrite where
  name : String
  entry : SymbolEntry
deriving DecidableEq, Repr

namespace SyntaxTree

/-- The writes of a statement. -/
def writesOf (uri : String) : Statement Range → List SymbolWrite
  | .function d => if d.isPublic && !d.isMethod then [⟨d.name, ⟨uri, d.place⟩⟩] else []
  | .struct d =>
    if d.language = .v then
      ⟨d.name, ⟨uri, d.place⟩⟩ ::
        d.fields.map fun f => ⟨SymbolIndex.fieldName d.name f.name, ⟨uri, f.place⟩⟩
    else []
  | .other => []

/-- The writes of a file. -/
def writes (tree : SyntaxTree) : List SymbolWrite :=
  tree.statements.flatMap (writesOf tree.uri)

/-- The names of the public functions of a file. -/
def publicFunctions (tree : SyntaxTree) : List String :=
  (functionsOf tree.statements).filterMap fun d =>
    if d.isPublic && !d.isMethod then some d.name else none

end SyntaxTree

namespace SymbolIndex

/-- Write places one after another. -/
def writeAll (index : SymbolIndex) (ws : List SymbolWrite) : SymbolIndex :=
  ws.foldl (fun m w => NameMap.insert m w.name w.entry) index

end SymbolIndex

/-! ### The indexer -/

/-- How far the indexer has come. -/
inductive IndexState where
  | notStarted
  | running
  | completed
  | aborted
deriving DecidableEq, Repr

/-- What a run of the indexer came to. -/
structure IndexReport where
  state : IndexState
  files : Nat
  /-- Number of writes, those that replaced an entry included. -/
  symbols : Nat
  faults : Nat
deriving DecidableEq, Repr

namespace IndexReport

/-- The report of a run that found no files to read. -/
def aborted : IndexReport := ⟨.aborted, 0, 0, 0⟩

end IndexReport

/-- Why a run found no files to read. -/
inductive IndexError where
  | vrootUnknown
  | unlistable (path : String) (error : FileError)
deriving DecidableEq, Repr

namespace IndexError

/-- The error in words. -/
def message : IndexError → String
  | vrootUnknown =>
    "Cannot locate the V installation. Set `vroot` in the config, pass --vroot or export VROOT"
  | unlistable path e =>
    "Failed to list builtin module at " ++ path ++ ": IO error for operation on " ++ path ++
      ": " ++ e.message

end IndexError

/-- An indexer of the built-in module. -/
structure Indexer where
  mode : IndexingMode
  target : BuildTarget
  vroot : Option String
  state : IndexState := .notStarted
deriving DecidableEq, Repr

/-- What the indexer fills. -/
structure IndexData where
  table : Table := Table.initial
  index : SymbolIndex := NameMap.empty
  names : List String := []

/-- What a run of the indexer leaves. -/
structure IndexRun (σ : Type) where
  result : Except IndexError IndexReport
  indexer : Indexer
  data : IndexData
  watcher : σ

/-- A directory of the search path.  A first name that is a tilde stands for the home directory. -/
def expandHome (env : Environment) (dir : String) : String :=
  match Path.splitOnChar '/' dir.toList with
  | ['~'] :: _ => ((Path.segments dir).drop 1).foldl Path.join (env.home?.getD "")
  | _ => dir

/-- The paths at which the program `v` is looked for. -/
def programPaths (env : Environment) : List String :=
  match env.get? "PATH" with
  | none => []
  | some search =>
    (Path.splitOnChar ':' search.toList).map fun dir =>
      Path.join (expandHome env (String.ofList dir)) "v"

/-- Whether a path leads to a file that can be run. -/
def isProgram (files : Files) (path : String) : Bool :=
  match files.nodeAt? path with
  | some (.file _ executable) => executable
  | _ => false

/-- The directory of the program `v` on the search path, links to it followed. -/
def installedRoot? (files : Files) (env : Environment) : Option String :=
  match (programPaths env).find? (isProgram files) with
  | none => none
  | some path =>
    match files.resolve path with
    | .error _ => none
    | .ok place => some ("/" ++ "/".intercalate place.dropLast)

/-- The directory that V is installed in: as it is set, or where the program `v` is. -/
def resolveRoot? (configured : Option String) (files : Files) (env : Environment) :
    Option String :=
  match configured with
  | some root => some root
  | none => installedRoot? files env

namespace Indexer

/-- The indexer for some settings. -/
def ofSettings (s : Settings) (files : Files) (hostOs : String) (env : Environment) : Indexer where
  mode := s.indexing
  target := BuildTarget.ofOs (s.targetOs.getD hostOs)
  vroot := resolveRoot? s.vroot files env

/-- The directory of the built-in module. -/
def directory (ix : Indexer) : Except IndexError String :=
  match ix.vroot with
  | none => .error .vrootUnknown
  | some root => .ok (Path.join (Path.join root "vlib") "builtin")

/-- The paths of the files of the built-in module, in order of their names. -/
def listFiles (ix : Indexer) (files : Files) : Except IndexError (List String) :=
  match ix.directory with
  | .error e => .error e
  | .ok dir =>
    match files.regularFiles dir with
    | .error e => .error (.unlistable dir e)
    | .ok names => .ok (names.map (Path.join dir))

/-- Read the built-in module, and write its symbols to the index if the mode says so. -/
def run {σ : Type} (ix : Indexer) (w : Watcher σ) (data : IndexData) (state : σ) : IndexRun σ :=
  match ix.listFiles (w.disk state) with
  | .error e => ⟨.error e, { ix with state := .aborted }, data, state⟩
  | .ok paths =>
    let out := SourceFile.readPaths w (ix.target.select paths) state { table := data.table }
    let collected := if ix.mode = .production then out.trees else []
    let writes := collected.flatMap SyntaxTree.writes
    let report : IndexReport :=
      { state := .completed, files := out.trees.length, symbols := writes.length
        faults := out.reading.scope.statistics.faults }
    { result := .ok report
      indexer := { ix with state := .completed }
      data :=
        { table := out.reading.table
          index := SymbolIndex.writeAll data.index writes
          names := data.names ++ collected.flatMap SyntaxTree.publicFunctions }
      watcher := out.watcher }

end Indexer

end VServer
