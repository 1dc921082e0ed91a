/-
What a run of the indexer leaves in the index.

A run reads files one after another and writes the places of their declarations in the order in
which they are met, so the index holds under each name the last place that was written under it.
The statement needs three things that the run does not keep: which files were read, which writes
they gave, and which write under a name was the last.  `Sources`, `Declares` and `IsLast` say
these without the run.

Reading a file may report faults, and what takes a fault may change the disk that the next file is
read from.  So `Sources` follows the state of the watcher; where reports leave the disk alone, the
files read are just those that can be read (`sources_of_quiet`).

The names of a directory are listed in order, and a directory that cannot be found or listed ends
the run before anything is read; `run_writes` says both, with what is counted and reported.
-/
import VServer.Indexer
import VServer.Proofs.SourceFile.Order
import Mathlib.Data.List.Sort
import Mathlib.Order.Basic

namespace VServer

/-! ### The last write wins

The index keeps one entry for each name.  A name that nothing is written under keeps its entry, and
another one has the entry of the write that no later one under the same name follows.
-/

/-- Of the members with some property there is a last one. -/
theorem exists_last {α : Type} {p : α → Prop} {l : List α} (h : ∃ a ∈ l, p a) :
    ∃ before a behind, l = before ++ a :: behind ∧ p a ∧ ∀ b ∈ behind, ¬ p b := by
  induction l with
  | nil => obtain ⟨a, ha, -⟩ := h; cases ha
  | cons first l ih =>
      by_cases hlater : ∃ a ∈ l, p a
      · obtain ⟨before, a, behind, hsplit, ha, hbehind⟩ := ih hlater
        exact ⟨first :: before, a, behind, by rw [hsplit, List.cons_append], ha, hbehind⟩
      · obtain ⟨a, hmem, ha⟩ := h
        rcases List.mem_cons.mp hmem with rfl | hmem
        · exact ⟨[], a, l, rfl, ha, fun b hb hpb => hlater ⟨b, hb, hpb⟩⟩
        · exact absurd ⟨a, hmem, ha⟩ hlater

/-- The write is the last one under its name. -/
def SymbolWrite.IsLast (ws : List SymbolWrite) (write : SymbolWrite) : Prop :=
  ∃ before behind, ws = before ++ write :: behind ∧ ∀ later ∈ behind, later.name ≠ write.name

namespace SymbolIndex

theorem get?_writeAll_of_notMem (k : String) (ws : List SymbolWrite) :
    ∀ index : SymbolIndex, (∀ write ∈ ws, write.name ≠ k) →
      NameMap.get? (writeAll index ws) k = NameMap.get? index k := by
  induction ws with
  | nil => intro index _; rfl
  | cons write ws ih =>
      intro index h
      have hne : k ≠ write.name := (h write List.mem_cons_self).symm
      show NameMap.get? (writeAll (index.insert write.name write.entry) ws) k = _
      rw [ih _ fun later hlater => h later (List.mem_cons_of_mem write hlater),
        NameMap.get?_insert, if_neg hne]

theorem get?_writeAll_of_isLast {ws : List SymbolWrite} {write : SymbolWrite}
    (h : write.IsLast ws) (index : SymbolIndex) :
    NameMap.get? (writeAll index ws) write.name = some write.entry := by
  obtain ⟨before, behind, rfl, hbehind⟩ := h
  have hwrites : writeAll index (before ++ write :: behind)
      = writeAll ((writeAll index before).insert write.name write.entry) behind := by
    simp [writeAll]
  rw [hwrites, get?_writeAll_of_notMem _ behind _ hbehind, NameMap.get?_insert, if_pos rfl]

end SymbolIndex

/-! ### What a file declares -/

/-- The writes that statements of the file `uri` give, in order, and the public functions among
them. -/
inductive Declares (uri : String) : List (Statement Range) → List SymbolWrite → List String → Prop
  | done : Declares uri [] [] []
  | publicFunction {d : Function Range} {sts : List (Statement Range)} {ws : List SymbolWrite}
      {names : List String} (hpublic : d.isPublic = true) (hfree : d.isMethod = false)
      (later : Declares uri sts ws names) :
      Declares uri (.function d :: sts) (⟨d.name, ⟨uri, d.place⟩⟩ :: ws) (d.name :: names)
  | otherFunction {d : Function Range} {sts : List (Statement Range)} {ws : List SymbolWrite}
      {names : List String} (hother : d.isPublic = false ∨ d.isMethod = true)
      (later : Declares uri sts ws names) : Declares uri (.function d :: sts) ws names
  | struct {d : Struct Range} {sts : List (Statement Range)} {ws : List SymbolWrite}
      {names : List String} (hown : d.language = .v) (later : Declares uri sts ws names) :
      Declares uri (.struct d :: sts)
        (⟨d.name, ⟨uri, d.place⟩⟩ ::
          d.fields.map (fun f => ⟨d.name ++ "." ++ f.name, ⟨uri, f.place⟩⟩) ++ ws) names
  | foreignStruct {d : Struct Range} {sts : List (Statement Range)} {ws : List SymbolWrite}
      {names : List String} (hforeign : d.language ≠ .v) (later : Declares uri sts ws names) :
      Declares uri (.struct d :: sts) ws names
  | other {sts : List (Statement Range)} {ws : List SymbolWrite} {names : List String}
      (later : Declares uri sts ws names) : Declares uri (.other :: sts) ws names

theorem declares_statements (uri : String) (sts : List (Statement Range)) :
    Declares uri sts (sts.flatMap (SyntaxTree.writesOf uri))
      ((functionsOf sts).filterMap fun d =>
        if d.isPublic && !d.isMethod then some d.name else none) := by
  induction sts with
  | nil => exact .done
  | cons st sts ih =>
      rw [List.flatMap_cons]
      cases st with
      | other => exact .other ih
      | function d =>
          have hfunctions : functionsOf (.function d :: sts) = d :: functionsOf sts := rfl
          rw [hfunctions, List.filterMap_cons]
          by_cases hd : (d.isPublic && !d.isMethod) = true
          · have hboth : d.isPublic = true ∧ d.isMethod = false := by simpa using hd
            simp only [SyntaxTree.writesOf, hd, if_true]
            exact .publicFunction hboth.1 hboth.2 ih
          · have hother : d.isPublic = false ∨ d.isMethod = true := by
              simpa [Bool.and_eq_true, or_iff_not_imp_left] using hd
            simp only [SyntaxTree.writesOf, hd]
            exact .otherFunction hother ih
      | struct d =>
          by_cases hd : d.language = .v
          · simp only [SyntaxTree.writesOf, hd, if_true]
            exact .struct hd ih
          · simp only [SyntaxTree.writesOf, hd, if_false]
            exact .foreignStruct hd ih

/-- What files declare, one after another. -/
inductive DeclaresAll : List Source → List SymbolWrite → List String → Prop
  | done : DeclaresAll [] [] []
  | file {s : Source} {sources : List Source} {ws laterWs : List SymbolWrite}
      {names laterNames : List String} (first : Declares s.tree.uri s.tree.statements ws names)
      (later : DeclaresAll sources laterWs laterNames) :
      DeclaresAll (s :: sources) (ws ++ laterWs) (names ++ laterNames)

theorem declaresAll_trees (sources : List Source) :
    DeclaresAll sources ((sources.map Source.tree).flatMap SyntaxTree.writes)
      ((sources.map Source.tree).flatMap SyntaxTree.publicFunctions) := by
  induction sources with
  | nil => exact .done
  | cons s sources ih => exact .file (declares_statements s.tree.uri s.tree.statements) ih

/-! ### Which files are read

Paths are taken one after another, and the disk is that of the state at that moment.  So the
relation hands the state on: through the reports of the file if it can be read, and through the
report of the error if it cannot.
-/

/-- The files that are read when `paths` are read one after another from `state`. -/
inductive Sources {σ : Type} (w : Watcher σ) : σ → List String → List Source → Prop
  | done (state : σ) : Sources w state [] []
  | readable {state : σ} {path : String} {paths : List String} {text : List Char}
      {sources : List Source} (htext : (w.disk state).readText path = .ok text)
      (later : Sources w
        ((⟨(w.disk state).cwd, path, text⟩ : Source).faults.foldl w.report state) paths sources) :
      Sources w state (path :: paths) (⟨(w.disk state).cwd, path, text⟩ :: sources)
  | unreadable {state : σ} {path : String} {paths : List String} {e : FileError}
      {sources : List Source} (herror : (w.disk state).readText path = .error e)
      (later : Sources w (w.report state ⟨path, Range.zero, .unreadable e.message⟩) paths sources) :
      Sources w state (path :: paths) sources

theorem exists_sources {σ : Type} (w : Watcher σ) (paths : List String) :
    ∀ state : σ, ∃ sources, Sources w state paths sources := by
  induction paths with
  | nil => intro state; exact ⟨[], .done state⟩
  | cons path paths ih =>
      intro state
      cases htext : (w.disk state).readText path with
      | ok text =>
          obtain ⟨sources, hsources⟩ :=
            ih ((⟨(w.disk state).cwd, path, text⟩ : Source).faults.foldl w.report state)
          exact ⟨_, .readable htext hsources⟩
      | error e =>
          obtain ⟨sources, hsources⟩ := ih (w.report state ⟨path, Range.zero, .unreadable e.message⟩)
          exact ⟨sources, .unreadable htext hsources⟩

namespace SourceFile

/-- The trees are those of the files that are read, whatever they are read against. -/
theorem readPaths_trees {σ : Type} {w : Watcher σ} {state : σ} {paths : List String}
    {sources : List Source} (h : Sources w state paths sources) :
    ∀ r, (readPaths w paths state r).trees = sources.map Source.tree := by
  induction h with
  | done state => intro r; rfl
  | readable htext later ih =>
      intro r
      simp only [readPaths, readPath, htext]
      exact congrArg (List.cons _) (ih _)
  | unreadable herror later ih =>
      intro r
      simp only [readPaths, readPath, herror]
      exact ih _

theorem readPaths_sources {σ : Type} (w : Watcher σ) (paths : List String) (state : σ)
    (r : Reading) : ∃ sources, Sources w state paths sources ∧
      (readPaths w paths state r).trees = sources.map Source.tree := by
  obtain ⟨sources, hsources⟩ := exists_sources w paths state
  exact ⟨sources, hsources, readPaths_trees hsources r⟩

end SourceFile

/-- The file at a path, if it can be read. -/
def Files.source? (files : Files) (path : String) : Option Source :=
  match files.readText path with
  | .ok text => some ⟨files.cwd, path, text⟩
  | .error _ => none

/-- A watcher whose reports leave the disk as it is. -/
def Watcher.Quiet {σ : Type} (w : Watcher σ) : Prop :=
  ∀ state fault, w.disk (w.report state fault) = w.disk state

/-- A disk that reports leave as it is. -/
def Watcher.still : Watcher Files := ⟨id, fun files _ => files⟩

theorem Watcher.still_quiet : Watcher.still.Quiet := fun _ _ => rfl

theorem disk_foldl_report {σ : Type} {w : Watcher σ} (hquiet : w.Quiet)
    (faults : List FaultReport) : ∀ state, w.disk (faults.foldl w.report state) = w.disk state := by
  induction faults with
  | nil => intro state; rfl
  | cons fault faults ih => intro state; rw [List.foldl_cons, ih, hquiet]

/-- Where reports leave the disk alone, the files that can be read are read. -/
theorem sources_of_quiet {σ : Type} {w : Watcher σ} (hquiet : w.Quiet) {state : σ}
    {paths : List String} {sources : List Source} (h : Sources w state paths sources) :
    sources = paths.filterMap (w.disk state).source? := by
  induction h with
  | done state => rfl
  | readable htext later ih =>
      rw [disk_foldl_report hquiet] at ih
      rw [List.filterMap_cons, ← ih]
      simp [Files.source?, htext]
  | unreadable herror later ih =>
      rw [hquiet] at ih
      rw [List.filterMap_cons, ← ih]
      simp [Files.source?, herror]

/-! ### The run -/

theorem Files.regularFiles_sorted {files : Files} {path : String} {names : List String}
    (h : files.regularFiles path = .ok names) : names.Pairwise (· ≤ ·) := by
  unfold regularFiles at h
  split at h
  · cases h
  · split at h
    · cases h
      refine (List.pairwise_mergeSort ?_ ?_ _).imp (by simp)
      · intro a b c hab hbc
        simp only [decide_eq_true_eq] at hab hbc ⊢
        exact String.le_trans hab hbc
      · intro a b
        simpa using String.le_total a b
    · cases h
      exact List.Pairwise.nil

/-- What a run that writes to the index leaves, where `ws` are the writes of the files that were
read and `names` their public functions. -/
structure Collected {σ : Type} (data : IndexData) (ws : List SymbolWrite) (names : List String)
    (run : IndexRun σ) : Prop where
  last : ∀ write : SymbolWrite, write.IsLast ws → run.data.index.get? write.name = some write.entry
  kept : ∀ k, (∀ write ∈ ws, write.name ≠ k) → run.data.index.get? k = data.index.get? k
  names : run.data.names = data.names ++ names

/-- A run that found no files to read. -/
structure Aborted {σ : Type} (ix : Indexer) (data : IndexData) (state : σ) (e : IndexError)
    (run : IndexRun σ) : Prop where
  result : run.result = .error e
  indexer : run.indexer = { ix with state := .aborted }
  data : run.data = data
  watcher : run.watcher = state

namespace Indexer

theorem listFiles_ok {ix : Indexer} {files : Files} {dir : String} {names : List String}
    (hdir : ix.directory = .ok dir) (hlist : files.regularFiles dir = .ok names) :
    ix.listFiles files = .ok (names.map (Path.join dir)) := by
  simp [listFiles, hdir, hlist]

/-- A run over files that were read as `trees`, of which `collected` are written to the index. -/
theorem run_listed {σ : Type} (ix : Indexer) (w : Watcher σ) {state : σ} {paths : List String}
    (h : ix.listFiles (w.disk state) = .ok paths) (data : IndexData) :
    let out := SourceFile.readPaths w (ix.target.select paths) state { table := data.table }
    let collected := if ix.mode = .production then out.trees else []
    ix.run w data state =
      { result := .ok ⟨.completed, out.trees.length, (collected.flatMap SyntaxTree.writes).length,
          out.reading.scope.statistics.faults⟩
        indexer := { ix with state := .completed }
        data := ⟨out.reading.table,
          SymbolIndex.writeAll data.index (collected.flatMap SyntaxTree.writes),
          data.names ++ collected.flatMap SyntaxTree.publicFunctions⟩
        watcher := out.watcher } := by
  simp [run, h]

theorem run_aborted {σ : Type} {ix : Indexer} {w : Watcher σ} {state : σ} {e : IndexError}
    (h : ix.listFiles (w.disk state) = .error e) (data : IndexData) :
    Aborted ix data state e (ix.run w data state) := by
  have hrun : ix.run w data state = ⟨.error e, { ix with state := .aborted }, data, state⟩ := by
    simp [run, h]
  rw [hrun]
  exact ⟨rfl, rfl, rfl, rfl⟩

/--
**The index holds under each name the last place that was written under it.**

If the directory of the built-in module can be listed, its files are read in the order of their
names; a run in production mode leaves the last write of each name in the index, adds the public
functions to the names and counts files and writes, and a deterministic run differs from it in
nothing but that it writes nothing.  If the directory is not known or cannot be listed, a run
reports that and changes nothing.
-/
theorem run_writes {σ : Type} (ix : Indexer) (w : Watcher σ) (data : IndexData) (state : σ) :
    (∀ dir names, ix.directory = .ok dir → (w.disk state).regularFiles dir = .ok names →
      names.Pairwise (· ≤ ·) ∧
      ∃ sources ws publics report,
        Sources w state (ix.target.select (names.map (Path.join dir))) sources ∧
        (w.Quiet → sources
          = (ix.target.select (names.map (Path.join dir))).filterMap (w.disk state).source?) ∧
        DeclaresAll sources ws publics ∧
        report.state = .completed ∧ report.files = sources.length ∧ report.symbols = ws.length ∧
        let production := run { ix with mode := .production } w data state
        let dry := run { ix with mode := .deterministic } w data state
        Collected data ws publics production ∧
          production.result = .ok report ∧ dry.result = .ok { report with symbols := 0 } ∧
          dry.data = { data with table := production.data.table } ∧
          dry.watcher = production.watcher ∧
          production.indexer.state = .completed ∧ dry.indexer.state = .completed) ∧
    (ix.vroot = none → Aborted ix data state .vrootUnknown (ix.run w data state)) ∧
    (∀ dir e, ix.directory = .ok dir → (w.disk state).regularFiles dir = .error e →
      Aborted ix data state (.unlistable dir e) (ix.run w data state)) := by
  refine ⟨?_, ?_, ?_⟩
  · intro dir names hdir hlist
    refine ⟨Files.regularFiles_sorted hlist, ?_⟩
    obtain ⟨sources, hsources, htrees⟩ := SourceFile.readPaths_sources w
      (ix.target.select (names.map (Path.join dir))) state { table := data.table }
    set out := SourceFile.readPaths w (ix.target.select (names.map (Path.join dir))) state
      { table := data.table }
    have hcount : out.trees.length = sources.length := by rw [htrees, List.length_map]
    have hproduction := run_listed { ix with mode := .production } w
      (listFiles_ok hdir hlist) data
    have hdry := run_listed { ix with mode := .deterministic } w
      (listFiles_ok hdir hlist) data
    refine ⟨sources, _, _,
      ⟨.completed, sources.length, _, out.reading.scope.statistics.faults⟩, hsources,
      fun h => sources_of_quiet h hsources, declaresAll_trees sources, rfl, rfl, rfl, ?_⟩
    rw [← htrees, hproduction, hdry]
    refine ⟨⟨?_, ?_, rfl⟩, ?_, ?_, ?_, rfl, rfl, rfl⟩
    · intro write hlast
      exact SymbolIndex.get?_writeAll_of_isLast hlast data.index
    · intro k hk
      exact SymbolIndex.get?_writeAll_of_notMem k _ data.index hk
    · simp [hcount, out]
    · simp [hcount, out]
    · simp [SymbolIndex.writeAll]
  · intro hroot
    exact run_aborted (by simp [listFiles, directory, hroot]) data
  · intro dir e hdir hlist
    exact run_aborted (by simp [listFiles, hdir, hlist]) data

/-! ### A disk on which a name is declared twice -/

/-- An indexer of the files for Linux, with the installation at the root. -/
def onLinux : Indexer := ⟨.production, .ofOs "linux", some "/", .notStarted⟩

theorem onLinux_directory : onLinux.directory = .ok "/vlib/builtin" := by decide +kernel

/-- Two files that declare the same name, the second with a fault in it, and one between them that
cannot be read. -/
def sameNameFiles : Files where
  nodes := [(["vlib"], .directory), (["vlib", "builtin"], .directory),
    (["vlib", "builtin", "a.v"], .file (Text.encodeString "pub fn f()\npub fn g()") false),
    (["vlib", "builtin", "b.v"], .file [0xff] false),
    (["vlib", "builtin", "c.v"], .file (Text.encodeString "pub fn f() )") false)]

theorem regularFiles_sameNameFiles :
    sameNameFiles.regularFiles "/vlib/builtin" = .ok ["a.v", "b.v", "c.v"] := by
  have hplace : sameNameFiles.resolve "/vlib/builtin" = .ok ["vlib", "builtin"] := by
    decide +kernel
  rw [Files.regularFiles, hplace]
  exact congrArg Except.ok (List.mergeSort_of_pairwise (by decide +kernel))

theorem run_writes_same_name :
    onLinux.directory = .ok "/vlib/builtin" ∧
      sameNameFiles.regularFiles "/vlib/builtin" = .ok ["a.v", "b.v", "c.v"] ∧
      ∃ sources ws publics, sources.map Source.path = ["/vlib/builtin/a.v", "/vlib/builtin/c.v"] ∧
        DeclaresAll sources ws publics ∧
        Collected {} ws publics (onLinux.run .still {} sameNameFiles) := by
  refine ⟨onLinux_directory, regularFiles_sameNameFiles, ?_⟩
  obtain ⟨-, sources, ws, publics, report, -, hsources, hdeclares, -, -, -, hcollected, -⟩ :=
    (run_writes onLinux .still {} sameNameFiles).1 _ _ onLinux_directory regularFiles_sameNameFiles
  refine ⟨sources, ws, publics, ?_, hdeclares, hcollected⟩
  rw [hsources Watcher.still_quiet]
  decide +kernel

end Indexer

end VServer
