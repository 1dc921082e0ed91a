/-
The account of files read one after another.

A path whose file can be read gives a tree and the faults of the file; any other path gives no
tree and one fault, which says why.  `Passes` follows the paths in order and lists what each of
them came to, without any statistics.  The statistics are kept by the readers while they read, so
that they agree with such a list is something to prove: `readPaths_accounts`.

What takes the faults may change the disk that the next file is read from.  `Passes` follows that,
too.  Where reports leave the disk alone the paths do not depend on each other, and one that
cannot be read can be left out.

The readers have more to keep than a list of outcomes: trees, a table, statistics and the state of
whatever takes the faults.  `Accounted` says of one path what becomes of these, and `Accounts` says
it of a list of paths.  The second follows from the first by induction on the paths, and the parts
of the final statement are read off it.
-/
import VServer.Proofs.Indexer.Writes
import VServer.Proofs.Outline.Tally

namespace VServer

variable {σ : Type}

/-! ### Keeping the faults that are reported

Which faults were reported cannot be told from the state of a watcher, which may forget them.  So a
run is compared with one that does the same and also keeps what it reports.
-/

/-- The watcher that hands each fault on and also keeps it. -/
def Watcher.logged (w : Watcher σ) : Watcher (σ × List FaultReport) where
  disk s := w.disk s.1
  report s fault := (w.report s.1 fault, s.2 ++ [fault])

theorem Watcher.foldl_logged (w : Watcher σ) (faults : List FaultReport) :
    ∀ (state : σ) (log : List FaultReport),
      faults.foldl w.logged.report (state, log) = (faults.foldl w.report state, log ++ faults) := by
  induction faults with
  | nil => intro state log; simp
  | cons fault faults ih =>
      intro state log
      rw [List.foldl_cons, List.foldl_cons]
      show faults.foldl w.logged.report (w.report state fault, log ++ [fault]) = _
      rw [ih, List.append_assoc, List.singleton_append]

/-! ### What becomes of a path -/

/-- What becomes of a path while the disk holds `files`: a tree or none, and the faults that are
reported. -/
inductive Becomes (files : Files) (path : String) :
    Option SyntaxTree → List FaultReport → Prop
  | tree {text : List Char} (htext : files.readText path = .ok text)
      (hpath : ∀ fault ∈ (⟨files.cwd, path, text⟩ : Source).faults, fault.path = path) :
      Becomes files path (some (⟨files.cwd, path, text⟩ : Source).tree)
        (⟨files.cwd, path, text⟩ : Source).faults
  | fault {e : FileError} (herror : files.readText path = .error e) :
      Becomes files path none [⟨path, Range.zero, .unreadable e.message⟩]

/-- What becomes of paths, one after another. -/
inductive Passes (w : Watcher σ) :
    σ → List String → List (Option SyntaxTree × List FaultReport) → Prop
  | done (state : σ) : Passes w state [] []
  | next {state : σ} {path : String} {paths : List String} {tree : Option SyntaxTree}
      {faults : List FaultReport} {outcomes : List (Option SyntaxTree × List FaultReport)}
      (first : Becomes (w.disk state) path tree faults)
      (later : Passes w (faults.foldl w.report state) paths outcomes) :
      Passes w state (path :: paths) ((tree, faults) :: outcomes)

theorem Source.faults_path (s : Source) : ∀ fault ∈ s.faults, fault.path = s.path := by
  intro fault hfault
  obtain ⟨_, -, rfl⟩ := List.mem_map.mp hfault
  rfl

/-! ### What is counted -/

/-- What trees and faults add to the statistics. -/
def Statistics.counted (trees : List SyntaxTree) (faults : List FaultReport) : Statistics where
  files := trees.length
  functions := (trees.flatMap fun tree => functionsOf tree.statements).length
  structs := (trees.flatMap fun tree => structsOf tree.statements).length
  faults := faults.length

namespace Statistics

theorem add_assoc (s t u : Statistics) : (s.add t).add u = s.add (t.add u) := by
  simp [add, Nat.add_assoc]

theorem counted_append (trees trees' : List SyntaxTree) (faults faults' : List FaultReport) :
    counted (trees ++ trees') (faults ++ faults')
      = (counted trees faults).add (counted trees' faults') := by
  simp [counted, add]

/-- The statistics of a file are told by its tree and its faults. -/
theorem ofSource_eq (s : Source) : s.statistics = counted [s.tree] s.faults := by
  have htally := Outline.ofText_tally s.text
  have hfunctions : functionsOf s.tree.statements
      = (functionsOf (Outline.ofText s.text).statements).map _ := functionsOf_map_mapPlace _ _
  have hstructs : structsOf s.tree.statements
      = (structsOf (Outline.ofText s.text).statements).map _ := structsOf_map_mapPlace _ _
  have hfaults : s.faults.length = (Outline.ofText s.text).faults.length := List.length_map _
  simp [Source.statistics, SourceFile.read, SourceFile.scopeAfter, counted, htally,
    Outline.Tally.ofStatements, hfunctions, hstructs, hfaults]

end Statistics

namespace SourceFile

/-! ### One path -/

theorem readPath_tree {w : Watcher σ} {path : String} {state : σ} {text : List Char}
    (htext : (w.disk state).readText path = .ok text) (r : Reading) :
    readPath w path state r =
      let s : Source := ⟨(w.disk state).cwd, path, text⟩
      (some s.tree, s.faults.foldl w.report state, (read s.cwd s.path s.text r).2.2) := by
  simp only [readPath, htext]
  rfl

theorem readPath_fault {w : Watcher σ} {path : String} {state : σ} {e : FileError}
    (herror : (w.disk state).readText path = .error e) (r : Reading) :
    readPath w path state r =
      (none, w.report state ⟨path, Range.zero, .unreadable e.message⟩,
        { r with scope := countFault r.scope }) := by
  simp only [readPath, herror]

/-- What reading one path comes to, and what the same reading comes to where faults are kept. -/
structure Accounted (w : Watcher σ) (path : String) (state : σ) (r : Reading)
    (tree : Option SyntaxTree) (faults : List FaultReport) : Prop where
  becomes : Becomes (w.disk state) path tree faults
  tree_eq : (readPath w path state r).1 = tree
  state_eq : (readPath w path state r).2.1 = faults.foldl w.report state
  statistics : (readPath w path state r).2.2.scope.statistics
    = r.scope.statistics.add (.counted tree.toList faults)
  logged : ∀ log, readPath w.logged path (state, log) r
    = (tree, (faults.foldl w.report state, log ++ faults), (readPath w path state r).2.2)

theorem readPath_accounted (w : Watcher σ) (path : String) (state : σ) (r : Reading) :
    ∃ tree faults, Accounted w path state r tree faults := by
  cases htext : (w.disk state).readText path with
  | ok text =>
      set s : Source := ⟨(w.disk state).cwd, path, text⟩
      refine ⟨some s.tree, s.faults, .tree htext s.faults_path, ?_, ?_, ?_, ?_⟩
      · rw [readPath_tree htext]
      · rw [readPath_tree htext]
      · rw [readPath_tree htext]
        show (read s.cwd s.path s.text r).2.2.scope.statistics = _
        rw [read_statistics, Statistics.ofSource_eq]
        rfl
      · intro log
        rw [readPath_tree htext, @readPath_tree _ w.logged path (state, log) text htext]
        simp only [Watcher.foldl_logged]
        rfl
  | error e =>
      refine ⟨none, [⟨path, Range.zero, .unreadable e.message⟩], .fault htext, ?_, ?_, ?_, ?_⟩
      · rw [readPath_fault htext]
      · rw [readPath_fault htext]
        rfl
      · rw [readPath_fault htext]
        simp [countFault, Statistics.add, Statistics.counted]
      · intro log
        rw [readPath_fault htext, @readPath_fault _ w.logged path (state, log) e htext]
        rfl

/-! ### Paths one after another -/

/-- The account of a run over paths, where `outcomes` says what became of each. -/
structure Accounts (w : Watcher σ) (paths : List String) (state : σ) (r : Reading)
    (outcomes : List (Option SyntaxTree × List FaultReport)) : Prop where
  passes : Passes w state paths outcomes
  trees : (readPaths w paths state r).trees = outcomes.filterMap Prod.fst
  statistics : (readPaths w paths state r).reading.scope.statistics
    = r.scope.statistics.add
        (.counted (outcomes.filterMap Prod.fst) (outcomes.flatMap Prod.snd))
  logged : ∀ log, readPaths w.logged paths (state, log) r
    = { trees := (readPaths w paths state r).trees
        watcher := ((readPaths w paths state r).watcher, log ++ outcomes.flatMap Prod.snd)
        reading := (readPaths w paths state r).reading }

theorem readPaths_nil (w : Watcher σ) (state : σ) (r : Reading) :
    Accounts w [] state r [] where
  passes := .done state
  trees := rfl
  statistics := rfl
  logged log := by simp [readPaths]

theorem readPaths_cons {w : Watcher σ} {path : String} {paths : List String} {state : σ}
    {r : Reading} {tree : Option SyntaxTree} {faults : List FaultReport}
    {outcomes : List (Option SyntaxTree × List FaultReport)}
    (hfirst : Accounted w path state r tree faults)
    (hlater : Accounts w paths (faults.foldl w.report state) (readPath w path state r).2.2
      outcomes) :
    Accounts w (path :: paths) state r ((tree, faults) :: outcomes) := by
  have hread : readPaths w (path :: paths) state r =
      let rest := readPaths w paths (faults.foldl w.report state) (readPath w path state r).2.2
      { rest with trees := tree.toList ++ rest.trees } := by
    simp only [readPaths, hfirst.tree_eq, hfirst.state_eq]
  have htrees : tree.toList ++ outcomes.filterMap Prod.fst
      = ((tree, faults) :: outcomes).filterMap Prod.fst := by
    cases tree <;> simp
  refine ⟨.next hfirst.becomes hlater.passes, ?_, ?_, ?_⟩
  · rw [hread, ← htrees]
    simp only [hlater.trees]
  · rw [hread, ← htrees, List.flatMap_cons, Statistics.counted_append]
    simp only [hlater.statistics, hfirst.statistics, Statistics.add_assoc]
  · intro log
    rw [hread]
    simp only [readPaths, hfirst.logged, hlater.logged, List.flatMap_cons, List.append_assoc]

theorem exists_accounts (w : Watcher σ) (paths : List String) :
    ∀ (state : σ) (r : Reading), ∃ outcomes, Accounts w paths state r outcomes := by
  induction paths with
  | nil => intro state r; exact ⟨[], readPaths_nil w state r⟩
  | cons path paths ih =>
      intro state r
      obtain ⟨tree, faults, hfirst⟩ := readPath_accounted w path state r
      obtain ⟨outcomes, hlater⟩ := ih (faults.foldl w.report state) (readPath w path state r).2.2
      exact ⟨_, readPaths_cons hfirst hlater⟩

/-! ### Leaving out what cannot be read

A path that cannot be read leaves no tree and nothing in the table.  It leaves a fault, though, and
what is done with the fault may change the disk.  Only where that is not so can the path be left
out.
-/

/-- The table is left by the files that are read. -/
theorem readPaths_table {w : Watcher σ} {state : σ} {paths : List String} {sources : List Source}
    (h : Sources w state paths sources) :
    ∀ r : Reading, (readPaths w paths state r).reading.table
      = r.table.registerAll (registrations sources) := by
  induction h with
  | done state => intro r; rfl
  | @readable state path paths text sources htext later ih =>
      intro r
      have hcons : registrations (⟨(w.disk state).cwd, path, text⟩ :: sources)
          = (Outline.ofText text).registrations ++ registrations sources := List.flatMap_cons
      simp only [readPaths, readPath_tree htext]
      rw [ih, hcons, Table.registerAll_append]
      rfl
  | unreadable herror later ih =>
      intro r
      simp only [readPaths, readPath_fault herror]
      exact ih _

/-- Where reports leave the disk alone, the files that can be read tell the trees and the table. -/
theorem readPaths_quiet {w : Watcher σ} (hquiet : w.Quiet) (paths : List String) (state : σ)
    (r : Reading) :
    (readPaths w paths state r).trees
        = (paths.filterMap (w.disk state).source?).map Source.tree ∧
      (readPaths w paths state r).reading.table
        = r.table.registerAll (registrations (paths.filterMap (w.disk state).source?)) := by
  obtain ⟨sources, hsources, htrees⟩ := readPaths_sources w paths state r
  obtain rfl := sources_of_quiet hquiet hsources
  exact ⟨htrees, readPaths_table hsources r⟩

theorem path_of_source? {files : Files} {path : String} {s : Source}
    (h : files.source? path = some s) : s.path = path := by
  unfold Files.source? at h
  split at h
  · exact Option.some.inj h ▸ rfl
  · cases h

theorem paths_of_sources (files : Files) (paths : List String) :
    (paths.filterMap files.source?).map Source.path
      = paths.filter fun path => (files.source? path).isSome := by
  induction paths with
  | nil => rfl
  | cons path paths ih =>
      cases hsource : files.source? path with
      | none => simp [hsource, ih]
      | some s => simp [hsource, ih, path_of_source? hsource]

/--
**Trees, statistics and faults agree.**

Each path that can be read when its turn comes gives one tree, in order; each other one gives
exactly one fault, with that path and the range zero.  The statistics grow by the number of trees,
of functions and of structs in them, and of faults that were reported.  Where reports leave the
disk alone, the trees are those of the paths that can be read, and leaving out the other paths
changes neither the trees nor the table.
-/
theorem readPaths_accounts (w : Watcher σ) (paths : List String) (state : σ) (r : Reading) :
    let out := readPaths w paths state r
    (∃ outcomes reported, Passes w state paths outcomes ∧
      out.trees = outcomes.filterMap Prod.fst ∧ reported = outcomes.flatMap Prod.snd ∧
      readPaths w.logged paths (state, []) r = ⟨out.trees, (out.watcher, reported), out.reading⟩ ∧
      out.reading.scope.statistics =
        { files := r.scope.statistics.files + out.trees.length
          functions := r.scope.statistics.functions
            + (out.trees.flatMap fun tree => functionsOf tree.statements).length
          structs := r.scope.statistics.structs
            + (out.trees.flatMap fun tree => structsOf tree.statements).length
          faults := r.scope.statistics.faults + reported.length }) ∧
    (w.Quiet →
      let readable := paths.filter fun path => ((w.disk state).source? path).isSome
      out.trees.map SyntaxTree.path = readable ∧
      (readPaths w readable state r).trees = out.trees ∧
      (readPaths w readable state r).reading.table = out.reading.table) := by
  intro out
  refine ⟨?_, ?_⟩
  · obtain ⟨outcomes, haccounts⟩ := exists_accounts w paths state r
    refine ⟨outcomes, _, haccounts.passes, haccounts.trees, rfl, ?_, ?_⟩
    · rw [haccounts.logged, List.nil_append]
    · rw [haccounts.statistics, ← haccounts.trees]
      rfl
  · intro hquiet readable
    have hkept : readable.filterMap (w.disk state).source?
        = paths.filterMap (w.disk state).source? := by
      rw [List.filterMap_filter]
      refine List.filterMap_congr fun path _ => ?_
      cases (w.disk state).source? path <;> simp
    obtain ⟨htrees, htable⟩ := readPaths_quiet hquiet paths state r
    obtain ⟨htrees', htable'⟩ := readPaths_quiet hquiet readable state r
    rw [hkept] at htrees' htable'
    refine ⟨?_, htrees'.trans htrees.symm, htable'.trans htable.symm⟩
    show (readPaths w paths state r).trees.map SyntaxTree.path = readable
    rw [htrees, List.map_map]
    exact paths_of_sources (w.disk state) paths

/-- A file, a directory and bytes that are no text. -/
def mixedFiles : Files where
  nodes := [(["a.v"], .file (Text.encodeString "struct S \x7b\n\tx T\nfn (") false),
    (["d"], .directory), (["b.v"], .file [0xff] false)]

/-- Of four paths one can be read; its struct, the line behind the field in it and a bracket on
that line are faults, too. -/
theorem readPaths_accounts_mixedFiles :
    let out := readPaths .still ["/none", "/a.v", "/d", "/b.v"] mixedFiles {}
    Watcher.still.Quiet ∧ out.trees.map SyntaxTree.path = ["/a.v"] ∧
      out.reading.scope.statistics = ⟨1, 0, 1, 6⟩ ∧
      (readPaths .still ["/a.v"] mixedFiles {}).reading.table = out.reading.table := by
  intro out
  have hreadable : (["/none", "/a.v", "/d", "/b.v"].filter fun path =>
      ((Watcher.still.disk mixedFiles).source? path).isSome) = ["/a.v"] := by
    decide +kernel
  have haccounts :=
    (readPaths_accounts .still ["/none", "/a.v", "/d", "/b.v"] mixedFiles {}).2 Watcher.still_quiet
  rw [hreadable] at haccounts
  exact ⟨Watcher.still_quiet, haccounts.1, by decide +kernel, haccounts.2.2⟩

end SourceFile

end VServer
