/-
Which files a selection keeps.

A file is kept for its own name, or it stands in for the files of a base that are for one system
and is kept where none of these is.  A base is found in two ways.  For a file that stands in, only
the backend of the target is taken off its name, and a name with a switch has no base.  For a file
of a system any backend is taken off, and switches are not looked at.  The two ways agree where it
matters (`mem_coveredBases_iff`): no file with another backend is kept, and under a name with a
switch no file stands in.

Which bases are covered is told by the files that are kept for their own name.  A selection drops
none of these, so selecting again, or in another order, covers the same bases.

From this the two results follow.  A file that stands in for a base is kept exactly where no file
of that base for the system is (`select_stands_in`), which says of each base that one of the two is
there but never both.  And to select is to filter by a set of bases that neither the order of the
list nor an earlier selection changes (`select_stable`).
-/
import VServer.Proofs.Build.Name
import Mathlib.Data.List.FinRange

namespace VServer.BuildTarget

variable {target : BuildTarget} {path : String} {base : List Char} {paths : List String}

/-! ### The two kinds of files of a base -/

/-- The path names a file that stands in for those of a base. -/
def StandsIn (target : BuildTarget) (path : String) (base : List Char) : Prop :=
  target.Named path (base ++ "_default".toList) ∧ Unswitched (base ++ "_default".toList)

/-- The path names a file of a base that is for the system of the target. -/
def ForSystem (target : BuildTarget) (path : String) (base : List Char) : Prop :=
  ∃ os ∈ osNames, target.matchesOs os = true ∧ target.Named path (base ++ '_' :: os.toList)

theorem classify_eq_fallback_iff :
    target.classify path = .fallback base ↔ target.StandsIn path base := by
  constructor
  · intro h
    obtain ⟨plain, hnamed, hplain, -⟩ :=
      named_of_classify (show target.classify path ≠ .excluded by simp [h])
    obtain ⟨hswitch, rfl⟩ := classifyPlain_eq_fallback_iff.mp (hplain.symm.trans h)
    exact ⟨hnamed, hswitch⟩
  · rintro ⟨hnamed, hswitch⟩
    exact (hnamed.classify isWord_default).1.trans
      (classifyPlain_eq_fallback_iff.mpr ⟨hswitch, rfl⟩)

/-- A file for a system stands in for nothing, and its base is found. -/
theorem ForSystem.classify (h : target.ForSystem path base) :
    (∀ base', target.classify path ≠ .fallback base') ∧ osBase? path = some base := by
  obtain ⟨os, hos, -, hnamed⟩ := h
  obtain ⟨hclass, hbase⟩ := hnamed.classify (isWord_osName hos)
  refine ⟨?_, by rw [hbase, osCut?_eq_some_iff.mpr ⟨hos, rfl⟩]; rfl⟩
  intro base' hfallback
  have hsplit := (classifyPlain_eq_fallback_iff.mp (hclass.symm.trans hfallback)).2
  have hnone := before?_default base (isWord_osName hos).underscore (ne_default_of_mem hos)
  rw [before?_eq_some_iff.mpr hsplit] at hnone
  cases hnone

/-- A file that is kept for its own name covers a base only if it is for the system: with a switch
in its name no file stands in for the base. -/
theorem forSystem_of_included (hswitch : Unswitched (base ++ "_default".toList))
    (hincluded : target.classify path = .included) (hbase : osBase? path = some base) :
    target.ForSystem path base := by
  obtain ⟨plain, hnamed, hplain, hcut⟩ :=
    named_of_classify (show target.classify path ≠ .excluded by simp [hincluded])
  rw [hcut] at hbase
  obtain ⟨⟨base', os⟩, hos, rfl⟩ := Option.map_eq_some_iff.mp hbase
  obtain ⟨hmem, rfl⟩ := osCut?_eq_some_iff.mp hos
  refine ⟨os, hmem, ?_, hnamed⟩
  have hsystem := classifyPlain_system target hmem
    (hswitch.other (isWord_osName hmem).underscore)
  rw [← hplain, hincluded] at hsystem
  by_contra hother
  rw [if_neg hother] at hsystem
  cases hsystem

/-! ### Covered bases

A base is covered by a file that is kept for its own name and whose name has that base.  The lemma
behind this section is that covering and being for the system are the same thing, for every base
that a file can stand in for; all the rest is membership in a filtered list.
-/

theorem mem_coveredBases_iff (hswitch : Unswitched (base ++ "_default".toList)) :
    base ∈ target.coveredBases paths ↔
      ∃ path ∈ paths, target.classify path = .included ∧ target.ForSystem path base := by
  simp only [coveredBases, List.mem_filterMap, List.mem_filter, beq_iff_eq]
  constructor
  · rintro ⟨path, ⟨hpath, hincluded⟩, hbase⟩
    exact ⟨path, hpath, hincluded, forSystem_of_included hswitch hincluded hbase⟩
  · rintro ⟨path, hpath, hincluded, hsystem⟩
    exact ⟨path, ⟨hpath, hincluded⟩, hsystem.classify.2⟩

theorem mem_select_iff :
    path ∈ target.select paths ↔
      path ∈ paths ∧ target.isSelected (target.coveredBases paths) path = true :=
  List.mem_filter

/-- The files for the system that are kept are kept for their own name. -/
theorem ForSystem.mem_select_iff (h : target.ForSystem path base) :
    path ∈ target.select paths ↔ path ∈ paths ∧ target.classify path = .included := by
  rw [BuildTarget.mem_select_iff, isSelected]
  cases hclass : target.classify path with
  | excluded => simp
  | included => simp
  | fallback base' => exact absurd hclass (h.classify.1 base')

theorem StandsIn.mem_select_iff (h : target.StandsIn path base) (hpath : path ∈ paths) :
    path ∈ target.select paths ↔
      ¬ ∃ other ∈ target.select paths, target.ForSystem other base := by
  have hselected : target.isSelected (target.coveredBases paths) path
      = !(target.coveredBases paths).contains base := by
    rw [isSelected, classify_eq_fallback_iff.mpr h]
  have hcovered : base ∈ target.coveredBases paths ↔
      ∃ other ∈ target.select paths, target.ForSystem other base := by
    rw [mem_coveredBases_iff h.2]
    constructor
    · rintro ⟨other, hother, hincluded, hsystem⟩
      exact ⟨other, hsystem.mem_select_iff.mpr ⟨hother, hincluded⟩, hsystem⟩
    · rintro ⟨other, hother, hsystem⟩
      obtain ⟨hmem, hincluded⟩ := hsystem.mem_select_iff.mp hother
      exact ⟨other, hmem, hincluded, hsystem⟩
  rw [BuildTarget.mem_select_iff, hselected, ← hcovered]
  simp [hpath]

theorem mem_select_iff_mayInclude (h : ∀ base, ¬ target.StandsIn path base)
    (hpath : path ∈ paths) : path ∈ target.select paths ↔ target.mayInclude path = true := by
  rw [BuildTarget.mem_select_iff, isSelected, mayInclude]
  cases hclass : target.classify path with
  | excluded => simp
  | included => simpa using hpath
  | fallback base => exact absurd (classify_eq_fallback_iff.mp hclass) (h base)

/-- A selection keeps a path wherever it stands in the list, or nowhere. -/
theorem select_eq_filter (target : BuildTarget) (paths : List String) :
    target.select paths = paths.filter (· ∈ target.select paths) := by
  refine List.filter_congr fun path hpath => ?_
  simp only [mem_select_iff, hpath, true_and, Bool.decide_eq_true]

/--
**A file that stands in is kept exactly where no file for the system is.**

The selection is the list without the paths that are not kept.  A path that does not stand in for
others is kept if its name allows it.  A path that stands in for a base is kept if no path is kept
that names a file of this base for the system.  So of each base that has a file to stand in,
either that file is kept or one for the system, and never both.
-/
theorem select_stands_in (target : BuildTarget) (paths : List String) :
    let kept := target.select paths
    kept = paths.filter (· ∈ kept) ∧
    (∀ path ∈ paths, (∀ base, ¬ target.StandsIn path base) →
      (path ∈ kept ↔ target.mayInclude path = true)) ∧
    (∀ path ∈ paths, ∀ base, target.StandsIn path base →
      (path ∈ kept ↔ ¬ ∃ other ∈ kept, target.ForSystem other base)) ∧
    ∀ base,
      ¬ ((∃ path ∈ kept, target.StandsIn path base) ∧ ∃ path ∈ kept, target.ForSystem path base) ∧
      ((∃ path ∈ paths, target.StandsIn path base) →
        (∃ path ∈ kept, target.StandsIn path base) ∨ ∃ path ∈ kept, target.ForSystem path base) := by
  intro kept
  refine ⟨select_eq_filter target paths, fun path hpath h => mem_select_iff_mayInclude h hpath,
    fun path hpath base h => h.mem_select_iff hpath, fun base => ⟨?_, ?_⟩⟩
  · rintro ⟨⟨path, hkept, hstands⟩, hsystem⟩
    exact (hstands.mem_select_iff (mem_select_iff.mp hkept).1).mp hkept hsystem
  · rintro ⟨path, hpath, hstands⟩
    by_cases hsystem : ∃ path ∈ kept, target.ForSystem path base
    · exact .inr hsystem
    · exact .inl ⟨path, (hstands.mem_select_iff hpath).mpr hsystem, hstands⟩

/-- Files that stand in for a base with a file for the system, and for one without. -/
def mixedPaths : List String :=
  ["lib/a_default.c.v", "lib/a_nix.v", "lib/b_default.v", "lib/b_windows.v", "lib/c_test.v"]

theorem select_stands_in_mixedPaths :
    let target : BuildTarget := { os := "linux" }
    let kept := target.select mixedPaths
    target.StandsIn "lib/a_default.c.v" "a".toList ∧ "lib/a_default.c.v" ∉ kept ∧
      (∃ path ∈ kept, target.ForSystem path "a".toList) ∧
    target.StandsIn "lib/b_default.v" "b".toList ∧ "lib/b_default.v" ∈ kept ∧
      (¬ ∃ path ∈ kept, target.ForSystem path "b".toList) ∧
    "lib/b_windows.v" ∉ kept ∧ target.mayInclude "lib/b_windows.v" = false := by
  intro target kept
  have ha : target.StandsIn "lib/a_default.c.v" "a".toList :=
    classify_eq_fallback_iff.mp (by decide +kernel)
  have hb : target.StandsIn "lib/b_default.v" "b".toList :=
    classify_eq_fallback_iff.mp (by decide +kernel)
  have hwindows : ∀ base, ¬ target.StandsIn "lib/b_windows.v" base := by
    intro base h
    have hclass : target.classify "lib/b_windows.v" = .excluded := by decide +kernel
    cases hclass.symm.trans (classify_eq_fallback_iff.mpr h)
  have hkept : kept = ["lib/a_nix.v", "lib/b_default.v"] := by decide +kernel
  obtain ⟨-, hown, hstands, -⟩ := select_stands_in target mixedPaths
  have hown := hown _ (by decide) hwindows
  have hstandsA := hstands _ (by decide) _ ha
  have hstandsB := hstands _ (by decide) _ hb
  rw [show target.select mixedPaths = kept from rfl, hkept] at hown hstandsA hstandsB
  rw [hkept]
  exact ⟨ha, by decide, not_not.mp fun h => absurd (hstandsA.mpr h) (by decide), hb, by decide,
    hstandsB.mp (by decide), by decide, by simpa using hown⟩

/-! ### Selecting again, and in another order -/

/-- Files that are kept for their own name are never dropped. -/
theorem coveredBases_select (target : BuildTarget) (paths : List String) :
    target.coveredBases (target.select paths) = target.coveredBases paths := by
  unfold coveredBases select
  rw [List.filter_filter]
  congr 1
  refine List.filter_congr fun path _ => ?_
  cases hclass : target.classify path <;> simp [isSelected, hclass]

theorem select_select (target : BuildTarget) (paths : List String) :
    target.select (target.select paths) = target.select paths := by
  rw [select, coveredBases_select]
  exact List.filter_eq_self.mpr fun path hpath => (mem_select_iff.mp hpath).2

/-- Whether a path is kept does not depend on the order of the list. -/
theorem select_perm {others : List String} (h : others.Perm paths) :
    target.select others = others.filter (· ∈ target.select paths) := by
  have hcovered : ∀ base, base ∈ target.coveredBases others ↔ base ∈ target.coveredBases paths :=
    fun base => ((h.filter _).filterMap _).mem_iff
  refine List.filter_congr fun path hpath => ?_
  have hselected : target.isSelected (target.coveredBases others) path
      = target.isSelected (target.coveredBases paths) path := by
    cases hclass : target.classify path with
    | excluded => simp [isSelected, hclass]
    | included => simp [isSelected, hclass]
    | fallback base => simp [isSelected, hclass, hcovered base]
  simp only [hselected, mem_select_iff, h.mem_iff.mp hpath, true_and, Bool.decide_eq_true]

/-- Where the list is rearranged, the paths that are kept move with it. -/
theorem select_rearranged (target : BuildTarget) (paths : List String)
    (σ : Equiv.Perm (Fin paths.length)) :
    target.select (List.ofFn (paths.get ∘ σ))
      = ((List.finRange paths.length).filter fun i => paths.get (σ i) ∈ target.select paths).map
          (paths.get ∘ σ) := by
  have hperm : (List.ofFn (paths.get ∘ σ)).Perm paths := by
    have hcomp := Equiv.Perm.ofFn_comp_perm σ paths.get
    rwa [List.ofFn_get] at hcomp
  rw [select_perm hperm, List.ofFn_eq_map, List.filter_map]
  rfl

/--
**Selecting again changes nothing, and selecting in another order moves what is kept.**

The selection is told by the positions that are kept.  Where the list is rearranged, the paths at
these positions are kept in their new order, and no others.
-/
theorem select_stable (target : BuildTarget) (paths : List String) :
    target.select (target.select paths) = target.select paths ∧
    ∃ kept : Fin paths.length → Bool,
      target.select paths = ((List.finRange paths.length).filter kept).map paths.get ∧
      ∀ σ : Equiv.Perm (Fin paths.length),
        target.select (List.ofFn (paths.get ∘ σ))
          = ((List.finRange paths.length).filter (kept ∘ σ)).map (paths.get ∘ σ) := by
  refine ⟨select_select target paths, fun i => paths.get i ∈ target.select paths, ?_,
    select_rearranged target paths⟩
  have hself := select_rearranged target paths (Equiv.refl _)
  rwa [Equiv.coe_refl, Function.comp_id, List.ofFn_get] at hself

end VServer.BuildTarget
