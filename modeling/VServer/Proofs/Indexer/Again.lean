/-
A second run of the indexer.

A run over files that have not changed reads the same trees and reports the same faults as the run
before it, since neither depends on the table or on the index.  So it makes the same registrations
and the same writes once more.  A registration that is made twice leaves what it left the first
time, and of the writes under a name the last one counts, which is the same one.  Only the list of
names tells that there were two runs.

That both runs read the same files takes an argument of its own, since faults are reported while
files are read, and whoever takes a report could change the disk.  The hypotheses are that neither
watcher does so and that the second one starts from the disk of the first.  Then what becomes of
each path is told by the disk (`passes_unique`), and both runs find the same disk.  `Leaves` is
what a run comes to, told by the outcomes of its files, and the two runs have the same outcomes.
-/
import VServer.Proofs.SourceFile.Paths

namespace VServer

variable {σ τ : Type}

/-! ### The same once more

Neither a table nor an index sees that it is given the same list again.  For the table each single
registration has no effect the second time; for the index the entry of a name is decided by the
last write under it, and in a list that is written twice that is the last one of the list.
-/

namespace Table

theorem registerAll_again (t : Table) (rs : List Registration) :
    (t.registerAll rs).registerAll rs = t.registerAll rs := by
  rw [← registerAll_append]
  refine registerAll_congr t fun r => ?_
  rw [List.mem_append, or_self]

end Table

/-- A name under which something is written is written for the last time somewhere. -/
theorem SymbolWrite.exists_isLast {k : String} {ws : List SymbolWrite}
    (h : ∃ write ∈ ws, write.name = k) :
    ∃ write : SymbolWrite, write.IsLast ws ∧ write.name = k := by
  obtain ⟨before, write, behind, hsplit, rfl, hbehind⟩ := exists_last h
  exact ⟨write, ⟨before, behind, hsplit, hbehind⟩, rfl⟩

namespace SymbolIndex

theorem writeAll_again (index : SymbolIndex) (ws : List SymbolWrite) :
    writeAll (writeAll index ws) ws = writeAll index ws := by
  refine NameMap.ext_get? fun k => ?_
  by_cases hwritten : ∃ write ∈ ws, write.name = k
  · obtain ⟨write, hlast, rfl⟩ := SymbolWrite.exists_isLast hwritten
    rw [get?_writeAll_of_isLast hlast, get?_writeAll_of_isLast hlast]
  · refine get?_writeAll_of_notMem k ws _ fun write hwrite hname => ?_
    exact hwritten ⟨write, hwrite, hname⟩

end SymbolIndex

/-! ### The same files -/

theorem becomes_unique {files : Files} {path : String} {tree tree' : Option SyntaxTree}
    {faults faults' : List FaultReport} (h : Becomes files path tree faults)
    (h' : Becomes files path tree' faults') : tree = tree' ∧ faults = faults' := by
  cases h with
  | tree htext hpath =>
      cases h' with
      | tree htext' hpath' =>
          obtain rfl := Except.ok.inj (htext.symm.trans htext')
          exact ⟨rfl, rfl⟩
      | fault herror => cases htext.symm.trans herror
  | fault herror =>
      cases h' with
      | tree htext hpath => cases htext.symm.trans herror
      | fault herror' =>
          obtain rfl := Except.error.inj (herror.symm.trans herror')
          exact ⟨rfl, rfl⟩

/-- Where reports leave the disk alone, what becomes of paths is told by the disk. -/
theorem passes_unique {w : Watcher σ} {w' : Watcher τ} (hquiet : w.Quiet) (hquiet' : w'.Quiet)
    {state : σ} {paths : List String} {outcomes : List (Option SyntaxTree × List FaultReport)}
    (h : Passes w state paths outcomes) :
    ∀ {state' : τ} {outcomes' : List (Option SyntaxTree × List FaultReport)},
      w'.disk state' = w.disk state → Passes w' state' paths outcomes' → outcomes = outcomes' := by
  induction h with
  | done state =>
      intro state' outcomes' _ h'
      cases h'
      rfl
  | next first later ih =>
      intro state' outcomes' hdisk h'
      cases h' with
      | next first' later' =>
          rw [hdisk] at first'
          obtain ⟨rfl, rfl⟩ := becomes_unique first first'
          rw [ih (by rw [disk_foldl_report hquiet', disk_foldl_report hquiet, hdisk]) later']

namespace Indexer

/-- The trees whose symbols are written to the index. -/
def collected (ix : Indexer) (outcomes : List (Option SyntaxTree × List FaultReport)) :
    List SyntaxTree :=
  if ix.mode = .production then outcomes.filterMap Prod.fst else []

/-- What a run comes to, told by what became of the files and by what they registered. -/
structure Leaves (ix : Indexer) (data : IndexData)
    (outcomes : List (Option SyntaxTree × List FaultReport)) (rs : List Registration)
    (run : IndexRun σ) : Prop where
  result : run.result = .ok
    { state := .completed
      files := (outcomes.filterMap Prod.fst).length
      symbols := ((ix.collected outcomes).flatMap SyntaxTree.writes).length
      faults := (outcomes.flatMap Prod.snd).length }
  indexer : run.indexer = { ix with state := .completed }
  table : run.data.table = data.table.registerAll rs
  index : run.data.index
    = SymbolIndex.writeAll data.index ((ix.collected outcomes).flatMap SyntaxTree.writes)
  names : run.data.names
    = data.names ++ (ix.collected outcomes).flatMap SyntaxTree.publicFunctions

theorem run_leaves {ix : Indexer} {w : Watcher σ} (hquiet : w.Quiet) {state : σ}
    {paths : List String} (hlist : ix.listFiles (w.disk state) = .ok paths) (data : IndexData) :
    ∃ outcomes, Passes w state (ix.target.select paths) outcomes ∧
      ix.Leaves data outcomes
        (SourceFile.registrations ((ix.target.select paths).filterMap (w.disk state).source?))
        (ix.run w data state) ∧
      (ix.run w.logged data (state, [])).watcher.2 = outcomes.flatMap Prod.snd := by
  obtain ⟨outcomes, haccounts⟩ := SourceFile.exists_accounts w (ix.target.select paths) state
    { table := data.table }
  have htable := (SourceFile.readPaths_quiet hquiet (ix.target.select paths) state
    { table := data.table }).2
  have hlogged : ix.listFiles (w.logged.disk (state, [])) = .ok paths := hlist
  refine ⟨outcomes, haccounts.passes, ?_, ?_⟩
  · rw [run_listed ix w hlist data]
    simp only [haccounts.trees]
    refine ⟨?_, rfl, htable, rfl, rfl⟩
    simp [haccounts.statistics, Statistics.add, Statistics.counted, collected]
  · rw [run_listed ix w.logged hlogged data]
    simp only [haccounts.logged, List.nil_append]

/-- What a run comes to does not depend on how the last one ended. -/
theorem Leaves.of_completed {ix ix' : Indexer} (hix : ix' = { ix with state := .completed })
    {data : IndexData} {outcomes : List (Option SyntaxTree × List FaultReport)}
    {rs : List Registration} {run : IndexRun σ} (h : ix'.Leaves data outcomes rs run) :
    ix.Leaves data outcomes rs run := by
  subst hix
  exact ⟨h.result, h.indexer, h.table, h.index, h.names⟩

/-- A run that ends with a report has found files to read. -/
theorem listFiles_of_report {ix : Indexer} {w : Watcher σ} {data : IndexData} {state : σ}
    {report : IndexReport} (h : (ix.run w data state).result = .ok report) :
    ∃ paths, ix.listFiles (w.disk state) = .ok paths := by
  cases hlist : ix.listFiles (w.disk state) with
  | ok paths => exact ⟨paths, rfl⟩
  | error e =>
      rw [(run_aborted hlist data).result] at h
      cases h

/--
**A second run over the same files changes nothing but the list of names.**

The index and the table stay as the first run left them, whatever they held before it.  Both runs
come to the same report and report the same faults, and both append the same names.
-/
theorem run_again {ix : Indexer} {w : Watcher σ} {w' : Watcher τ} (hquiet : w.Quiet)
    (hquiet' : w'.Quiet) {state : σ} {state' : τ} (hdisk : w'.disk state' = w.disk state)
    (data : IndexData) {report : IndexReport}
    (hreport : (ix.run w data state).result = .ok report) :
    let first := ix.run w data state
    let second := first.indexer.run w' first.data state'
    second.result = .ok report ∧
    second.data.index = first.data.index ∧ second.data.table = first.data.table ∧
    (first.indexer.run w'.logged first.data (state', [])).watcher.2
      = (ix.run w.logged data (state, [])).watcher.2 ∧
    first.indexer.state = .completed ∧ second.indexer.state = .completed ∧
    ∃ added, first.data.names = data.names ++ added ∧
      second.data.names = first.data.names ++ added := by
  intro first second
  obtain ⟨paths, hlist⟩ := listFiles_of_report hreport
  obtain ⟨outcomes, hpasses, hfirst, hreported⟩ := run_leaves hquiet hlist data
  have hindexer : first.indexer = { ix with state := .completed } := hfirst.indexer
  have hlist' : first.indexer.listFiles (w'.disk state') = .ok paths := by
    rw [hindexer, hdisk]
    exact hlist
  obtain ⟨outcomes', hpasses', hsecond, hreported'⟩ := run_leaves hquiet' hlist' first.data
  have htarget : first.indexer.target = ix.target := by rw [hindexer]
  rw [htarget] at hpasses' hsecond
  obtain rfl := passes_unique hquiet hquiet' hpasses hdisk hpasses'
  rw [hdisk] at hsecond
  replace hsecond := hsecond.of_completed hindexer
  refine ⟨?_, ?_, ?_, ?_, ?_, ?_, ?_⟩
  · exact hsecond.result.trans (hfirst.result.symm.trans hreport)
  · rw [hsecond.index, hfirst.index]
    exact SymbolIndex.writeAll_again data.index _
  · rw [hsecond.table, hfirst.table]
    exact Table.registerAll_again data.table _
  · exact hreported'.trans hreported.symm
  · rw [hindexer]
  · exact congrArg Indexer.state hsecond.indexer
  · exact ⟨_, hfirst.names, hsecond.names⟩

/-- A name is declared twice, and the list of names is not empty at first. -/
theorem run_again_same_name :
    let data : IndexData := { names := ["f"] }
    Watcher.still.Quiet ∧ ∃ report added,
      (onLinux.run .still data sameNameFiles).result = .ok report ∧
      let first := onLinux.run .still data sameNameFiles
      let second := first.indexer.run .still first.data sameNameFiles
      second.result = .ok report ∧ second.data.index = first.data.index ∧
        first.data.names = "f" :: added ∧ second.data.names = "f" :: added ++ added := by
  intro data
  have hquiet := Watcher.still_quiet
  have hfiles : onLinux.listFiles (Watcher.still.disk sameNameFiles) = .ok _ :=
    listFiles_ok onLinux_directory regularFiles_sameNameFiles
  obtain ⟨_, _, hfirst, _⟩ := run_leaves hquiet hfiles data
  obtain ⟨hresult, hindex, -, -, -, -, added, hnames, hnames'⟩ :=
    run_again hquiet hquiet rfl data hfirst.result
  exact ⟨hquiet, _, added, hfirst.result, hresult, hindex, hnames, by rw [hnames', hnames]; rfl⟩

end Indexer

end VServer
