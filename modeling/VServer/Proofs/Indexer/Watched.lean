/-
The indexer sees of its watcher only the files.

A watcher passes a state along while files are read, and that state holds the files and takes the
faults.  If two states hold the same files, and go on to do so whatever faults they take, then
reading from the one and from the other comes to the same.

A session reports faults to its journal and to the editor, and none of that may decide what the
index holds.  `SameFiles` is the relation between states that carries this: the files are the same,
and they stay the same whatever is reported.  One file, a list of files and a whole run are the
three steps, and each of them hands the relation on to the next.
-/
import VServer.Indexer

namespace VServer

variable {σ : Type}

/-- States that hold the same files, also behind every fault. -/
structure Watcher.SameFiles (w : Watcher σ) (alike : σ → σ → Prop) : Prop where
  disk : ∀ a b, alike a b → w.disk b = w.disk a
  report : ∀ a b fault, alike a b → alike (w.report a fault) (w.report b fault)

namespace Watcher.SameFiles

variable {w : Watcher σ} {alike : σ → σ → Prop}

theorem foldl_report (hw : w.SameFiles alike) (faults : List FaultReport) :
    ∀ a b : σ, alike a b → alike (faults.foldl w.report a) (faults.foldl w.report b) := by
  induction faults with
  | nil => intro a b h; exact h
  | cons fault faults ih => intro a b h; exact ih _ _ (hw.report a b fault h)

theorem readPath (hw : w.SameFiles alike) (path : String) {a b : σ} (h : alike a b)
    (r : Reading) :
    (SourceFile.readPath w path b r).1 = (SourceFile.readPath w path a r).1 ∧
    alike (SourceFile.readPath w path a r).2.1 (SourceFile.readPath w path b r).2.1 ∧
    (SourceFile.readPath w path b r).2.2 = (SourceFile.readPath w path a r).2.2 := by
  unfold SourceFile.readPath
  rw [hw.disk a b h]
  split
  · exact ⟨rfl, hw.foldl_report _ a b h, rfl⟩
  · exact ⟨rfl, hw.report a b _ h, rfl⟩

theorem readPaths (hw : w.SameFiles alike) (paths : List String) :
    ∀ (a b : σ) (r : Reading), alike a b →
      (SourceFile.readPaths w paths b r).trees = (SourceFile.readPaths w paths a r).trees ∧
      alike (SourceFile.readPaths w paths a r).watcher (SourceFile.readPaths w paths b r).watcher ∧
      (SourceFile.readPaths w paths b r).reading = (SourceFile.readPaths w paths a r).reading := by
  induction paths with
  | nil => intro a b r h; exact ⟨rfl, h, rfl⟩
  | cons path paths ih =>
      intro a b r h
      obtain ⟨htree, hstate, hreading⟩ := hw.readPath path h r
      obtain ⟨htrees, hlast, hend⟩ := ih _ _ (SourceFile.readPath w path a r).2.2 hstate
      unfold SourceFile.readPaths
      dsimp only
      rw [htree, hreading, htrees]
      exact ⟨rfl, hlast, hend⟩

/-- **A run of the indexer does not see which of two states it is given.** -/
theorem run (hw : w.SameFiles alike) (ix : Indexer) (data : IndexData) {a b : σ}
    (h : alike a b) :
    (ix.run w data b).result = (ix.run w data a).result ∧
    (ix.run w data b).indexer = (ix.run w data a).indexer ∧
    (ix.run w data b).data = (ix.run w data a).data ∧
    alike (ix.run w data a).watcher (ix.run w data b).watcher := by
  unfold Indexer.run
  rw [hw.disk a b h]
  split
  · exact ⟨rfl, rfl, rfl, h⟩
  · rename_i paths _
    obtain ⟨htrees, hstate, hreading⟩ :=
      hw.readPaths (ix.target.select paths) a b { table := data.table } h
    dsimp only
    rw [htrees, hreading]
    exact ⟨rfl, rfl, rfl, hstate⟩

end Watcher.SameFiles

end VServer
