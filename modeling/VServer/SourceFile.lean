/-
Files read against a table.

A source file becomes a tree of statements with ranges, a list of faults, and a change of the
table and of the running statistics.

Only the text of the file decides about its tree and its faults.  The table and the statistics are
handed on from one file to the next, and nothing in them is looked at while a file is read.
-/
import VServer.Outline
import VServer.LineIndex
import VServer.Uri

namespace VServer

/-- How much has been read. -/
structure Statistics where
  files : Nat := 0
  functions : Nat := 0
  structs : Nat := 0
  faults : Nat := 0
deriving DecidableEq, Repr, Inhabited

/-- The module of the last file, and statistics over all files. -/
structure Scope where
  moduleName : String := ""
  statistics : Statistics := {}
deriving DecidableEq, Repr, Inhabited

/-- The statements of one file. -/
structure SyntaxTree where
  path : String
  uri : String
  moduleName : String
  statements : List (Statement Range)
deriving DecidableEq, Repr

/-- What files are read against. -/
structure Reading where
  table : Table := Table.initial
  scope : Scope := {}

namespace SourceFile

/-- The faults of an outline as they are reported. -/
def reports (path : String) (text : List Char) (faults : List Fault) : List FaultReport :=
  let index := LineIndex.ofText text
  faults.map fun f => ⟨path, index.range text f.span, f.cause⟩

/-- The tree of an outline. -/
def tree (cwd path : String) (text : List Char) (outline : Outline) : SyntaxTree :=
  let index := LineIndex.ofText text
  { path, uri := fileUri cwd path, moduleName := outline.moduleName
    statements := outline.statements.map (Statement.mapPlace (index.range text)) }

/-- The scope behind a file. -/
def scopeAfter (scope : Scope) (outline : Outline) : Scope where
  moduleName := outline.moduleName
  statistics :=
    { files := scope.statistics.files + 1
      functions := scope.statistics.functions + outline.tally.functions
      structs := scope.statistics.structs + outline.tally.structs
      faults := scope.statistics.faults + outline.faults.length }

/-- Read the text of a file. -/
def read (cwd path : String) (text : List Char) (r : Reading) :
    SyntaxTree × List FaultReport × Reading :=
  let outline := Outline.ofText text
  (tree cwd path text outline, reports path text outline.faults,
    { table := r.table.registerAll outline.registrations
      scope := scopeAfter r.scope outline })

end SourceFile

end VServer
