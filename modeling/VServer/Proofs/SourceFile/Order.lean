/-
Files read one after another.

Reading a file looks at its text only, so its tree and its faults are those it has on its own.
What it leaves behind is a list of registrations and four numbers.  The table does not tell in
which order registrations were made, and the numbers are added up, so files may be read in any
order: `readAll_perm`.  What the table knows in the end is said by the trees, up to embedded
types, which leave no trace in a tree.

That a file does not depend on those before it is the easy half: what is handed on from file to
file is a table and numbers, and the reader of a text looks at neither.  The other half is that
what is handed on comes out the same in any order.  A mention and a declaration of one name do not
come in a fixed order, but the declaration counts wherever it stands, so a table can be told by
which registrations there were.
-/
import VServer.Proofs.Table.Register
import VServer.Proofs.Outline.Registered
import Mathlib.Data.List.Perm.Basic

namespace VServer

/-! ### Declarations are kept when places are mapped -/

theorem functionsOf_map_mapPlace {α β : Type} (f : α → β) (statements : List (Statement α)) :
    functionsOf (statements.map (Statement.mapPlace f))
      = (functionsOf statements).map (Function.mapPlace f) := by
  rw [functionsOf, functionsOf, List.filterMap_map, List.map_filterMap]
  congr 1
  funext st
  cases st <;> rfl

theorem structsOf_map_mapPlace {α β : Type} (f : α → β) (statements : List (Statement α)) :
    structsOf (statements.map (Statement.mapPlace f))
      = (structsOf statements).map (Struct.mapPlace f) := by
  rw [structsOf, structsOf, List.filterMap_map, List.map_filterMap]
  congr 1
  funext st
  cases st <;> rfl

/-- A file that can be read. -/
structure Source where
  cwd : String
  path : String
  text : List Char

namespace Source

/-- The tree of a file, read on its own. -/
def tree (s : Source) : SyntaxTree :=
  (SourceFile.read s.cwd s.path s.text {}).1

/-- The faults of a file, read on its own. -/
def faults (s : Source) : List FaultReport :=
  (SourceFile.read s.cwd s.path s.text {}).2.1

/-- The statistics of a file, read on its own. -/
def statistics (s : Source) : Statistics :=
  (SourceFile.read s.cwd s.path s.text {}).2.2.scope.statistics

/-- A function that is no method is declared under this name. -/
def DeclaresFunction (s : Source) (n : String) : Prop :=
  ∃ d ∈ functionsOf s.tree.statements, d.isMethod = false ∧ d.name = n

/-- A struct is declared under this name. -/
def DeclaresStruct (s : Source) (n : String) : Prop :=
  ∃ d ∈ structsOf s.tree.statements, d.name = n

theorem declaresFunction_iff (s : Source) (n : String) :
    s.DeclaresFunction n ↔ Outline.DeclaresIn s.text (.function n) := by
  have htree : functionsOf s.tree.statements
      = (functionsOf (Outline.ofText s.text).statements).map
          (Function.mapPlace ((LineIndex.ofText s.text).range s.text)) :=
    functionsOf_map_mapPlace _ _
  simp only [DeclaresFunction, Outline.DeclaresIn, htree, List.mem_map, exists_exists_and_eq_and]
  rfl

theorem declaresStruct_iff (s : Source) (n : String) :
    s.DeclaresStruct n ↔ Outline.DeclaresIn s.text (.struct n) := by
  have htree : structsOf s.tree.statements
      = (structsOf (Outline.ofText s.text).statements).map
          (Struct.mapPlace ((LineIndex.ofText s.text).range s.text)) :=
    structsOf_map_mapPlace _ _
  simp only [DeclaresStruct, Outline.DeclaresIn, htree, List.mem_map, exists_exists_and_eq_and]
  rfl

end Source

namespace Statistics

/-- Statistics over more files. -/
def add (s t : Statistics) : Statistics :=
  ⟨s.files + t.files, s.functions + t.functions, s.structs + t.structs, s.faults + t.faults⟩

instance : RightCommutative add :=
  ⟨fun s t u => by simp [add, Nat.add_right_comm]⟩

end Statistics

namespace SourceFile

/-- Read files one after another; each gives a tree and its faults. -/
def readAll : List Source → Reading → List (SyntaxTree × List FaultReport) × Reading
  | [], r => ([], r)
  | s :: sources, r =>
    let (tree, reports, r) := read s.cwd s.path s.text r
    let (later, r) := readAll sources r
    ((tree, reports) :: later, r)

/-- The registrations of files, in the order in which they are met. -/
def registrations (sources : List Source) : List Registration :=
  sources.flatMap fun s => (Outline.ofText s.text).registrations

/-! ### What is left behind -/

theorem readAll_results (sources : List Source) :
    ∀ r, (readAll sources r).1 = sources.map fun s => (s.tree, s.faults) := by
  induction sources with
  | nil => intro r; rfl
  | cons s sources ih =>
      intro r
      rw [List.map_cons, ← ih (read s.cwd s.path s.text r).2.2]
      rfl

theorem readAll_table (sources : List Source) :
    ∀ r, (readAll sources r).2.table = r.table.registerAll (registrations sources) := by
  induction sources with
  | nil => intro r; rfl
  | cons s sources ih =>
      intro r
      have hcons : registrations (s :: sources)
          = (Outline.ofText s.text).registrations ++ registrations sources := List.flatMap_cons
      show (readAll sources (read s.cwd s.path s.text r).2.2).2.table = _
      rw [ih, hcons, Table.registerAll_append]
      rfl

/-- A file adds the statistics it has on its own. -/
theorem read_statistics (s : Source) (r : Reading) :
    (read s.cwd s.path s.text r).2.2.scope.statistics = r.scope.statistics.add s.statistics := by
  simp [read, scopeAfter, Source.statistics, Statistics.add]

theorem readAll_statistics (sources : List Source) :
    ∀ r, (readAll sources r).2.scope.statistics
      = (sources.map Source.statistics).foldl Statistics.add r.scope.statistics := by
  induction sources with
  | nil => intro r; rfl
  | cons s sources ih =>
      intro r
      show (readAll sources (read s.cwd s.path s.text r).2.2).2.scope.statistics = _
      rw [ih, read_statistics]
      rfl

/-! ### What the table knows in the end

A table that knew something before the files were read goes on knowing it, unless one of them
declares a struct of that name.  What is new is told by the declarations in the trees, and for
types that no file declares by the mentions in the texts.
-/

/-- What a table `after` knows that was `before` when the files were still to be read. -/
structure Settles (sources : List Source) (before after : Table) : Prop where
  function_iff : ∀ n, after.hasFunction n = true ↔
    before.hasFunction n = true ∨ ∃ s ∈ sources, s.DeclaresFunction n
  struct_iff : ∀ n, after.typeKind n = some .struct ↔
    before.typeKind n = some .struct ∨ ∃ s ∈ sources, s.DeclaresStruct n
  /-- A type that no file declares stays what it was. -/
  kept : ∀ n kind, (¬∃ s ∈ sources, s.DeclaresStruct n) → before.typeKind n = some kind →
    after.typeKind n = some kind
  placeholder_iff : ∀ n, (¬∃ s ∈ sources, s.DeclaresStruct n) → before.typeKind n = none →
    (after.typeKind n = some .placeholder ↔ ∃ s ∈ sources, Outline.Mentions s.text n)
  unknown : ∀ n, (¬∃ s ∈ sources, s.DeclaresStruct n) → before.typeKind n = none →
    (¬∃ s ∈ sources, Outline.Mentions s.text n) → after.typeKind n = none

theorem function_mem_registrations (sources : List Source) (n : String) :
    .function n ∈ registrations sources ↔ ∃ s ∈ sources, s.DeclaresFunction n := by
  simp only [registrations, List.mem_flatMap, Outline.mem_registrations,
    Source.declaresFunction_iff]

theorem struct_mem_registrations (sources : List Source) (n : String) :
    .struct n ∈ registrations sources ↔ ∃ s ∈ sources, s.DeclaresStruct n := by
  simp only [registrations, List.mem_flatMap, Outline.mem_registrations,
    Source.declaresStruct_iff]

theorem mention_mem_registrations (sources : List Source) (n : String) :
    .mention n ∈ registrations sources ↔ ∃ s ∈ sources, Outline.Mentions s.text n := by
  simp only [registrations, List.mem_flatMap, Outline.mem_registrations, Outline.DeclaresIn]

theorem readAll_settles (sources : List Source) (r : Reading) :
    Settles sources r.table (readAll sources r).2.table := by
  rw [readAll_table]
  have hkind : ∀ n, (¬∃ s ∈ sources, s.DeclaresStruct n) →
      (r.table.registerAll (registrations sources)).typeKind n
        = (r.table.typeKind n).or
            (if .mention n ∈ registrations sources then some .placeholder else none) := by
    intro n hn
    rw [Table.typeKind_registerAll, if_neg ((struct_mem_registrations sources n).not.mpr hn)]
  refine ⟨fun n => ?_, fun n => ?_, fun n kind hn hbefore => ?_, fun n hn hbefore => ?_,
    fun n hn hbefore hmentions => ?_⟩
  · rw [Table.hasFunction_registerAll, function_mem_registrations]
  · by_cases hn : ∃ s ∈ sources, s.DeclaresStruct n
    · rw [Table.typeKind_registerAll, if_pos ((struct_mem_registrations sources n).mpr hn)]
      simp [hn]
    · rw [hkind n hn]
      cases r.table.typeKind n with
      | none => by_cases hm : .mention n ∈ registrations sources <;> simp [hm, hn]
      | some kind => simp [hn]
  · rw [hkind n hn, hbefore, Option.some_or]
  · rw [hkind n hn, hbefore, Option.none_or, ← mention_mem_registrations]
    by_cases hm : .mention n ∈ registrations sources <;> simp [hm]
  · rw [hkind n hn, hbefore, Option.none_or,
      if_neg ((mention_mem_registrations sources n).not.mpr hmentions)]

/--
**Files may be read in any order.**

Every file gives the tree and the faults that it gives on its own, whatever was read before it;
and the table and the statistics in the end are the same for every order.  The table is told by
the trees and the mentioned types, so that no struct of any file is left a placeholder.
-/
theorem readAll_perm (r : Reading) {sources sources' : List Source}
    (h : sources.Perm sources') :
    ((readAll sources r).1 = sources.map (fun s => (s.tree, s.faults)) ∧
      (readAll sources' r).1 = sources'.map fun s => (s.tree, s.faults)) ∧
    (readAll sources' r).2.table = (readAll sources r).2.table ∧
    (readAll sources' r).2.scope.statistics = (readAll sources r).2.scope.statistics ∧
    Settles sources r.table (readAll sources r).2.table ∧
    ∀ s ∈ sources, ∀ d ∈ structsOf s.tree.statements,
      (readAll sources' r).2.table.typeKind d.name = some .struct := by
  have htable : (readAll sources' r).2.table = (readAll sources r).2.table := by
    rw [readAll_table, readAll_table]
    refine Table.registerAll_congr _ fun registration => ?_
    exact (h.flatMap_right _).mem_iff.symm
  have hsettles := readAll_settles sources r
  refine ⟨⟨readAll_results sources r, readAll_results sources' r⟩, htable, ?_, hsettles, ?_⟩
  · rw [readAll_statistics, readAll_statistics]
    exact ((h.map _).foldl_eq _).symm
  · intro s hs d hd
    rw [htable]
    exact (hsettles.struct_iff d.name).mpr (.inr ⟨s, hs, d, hd, rfl⟩)

/-- A struct that is mentioned in one file and declared in another. -/
def mentioning : Source :=
  ⟨"/", "a.v", "module m\nstruct A \x7b\n\tB\n\tnext &B\n\x7d\n".toList⟩

/-- The file that declares it. -/
def declaring : Source :=
  ⟨"/", "b.v", "module m\npub struct B \x7b\n\x7d\nfn f() \x7b\x7d\n".toList⟩

theorem readAll_mentioning_declaring :
    [mentioning, declaring].Perm [declaring, mentioning] ∧
    (readAll [declaring, mentioning] {}).2.table = (readAll [mentioning, declaring] {}).2.table ∧
    Settles [mentioning, declaring] Table.initial (readAll [mentioning, declaring] {}).2.table ∧
    (readAll [mentioning] {}).2.table.typeKind "m.B" = some .placeholder ∧
    (readAll [mentioning, declaring] {}).2.table.typeKind "m.B" = some .struct := by
  have hperm : [mentioning, declaring].Perm [declaring, mentioning] := List.Perm.swap _ _ _
  obtain ⟨-, htable, -, hsettles, -⟩ := readAll_perm {} hperm
  exact ⟨hperm, htable, hsettles, by decide +kernel, by decide +kernel⟩

end SourceFile

end VServer
