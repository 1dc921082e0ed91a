/-
What the parts of a file name say.

The name of a source file has up to three parts behind its base: a word behind the last underscore,
a backend behind the last dot, and the extension.  The rules of selection look for these parts from
behind.  A name that ends in an underscore and a word without dots has no backend, so taking a
backend away never uncovers another one; and a switch ends in an underscore, so putting another
word behind the last underscore neither makes one nor breaks one.

The lemmas say of each cut of a name when it is found and what it leaves, so that what follows
never looks into the functions that cut: `osCut?` finds a base and a system exactly if the name is
made of the two, `sourceStem?` a stem exactly if the name is the stem with the extension.  `Named`
is the view of a path that selection works with: its name reads `plain`, with or without the
backend of the target behind it.

The last section compares the two spellings.  The rules see no difference between them but one: the
rule for tests looks at the end of the whole stem, so a backend in the name hides it, and a test
that names its backend is kept like any other file (`classify_spellings`).
-/
import VServer.Build
import VServer.Proofs.Path.Name
import Mathlib.Data.List.Infix

namespace VServer

/-! ### Cuts -/

/-- A text has no cut exactly if the separator does not occur in it. -/
theorem lastCut?_eq_none_iff {sep cs : List Char} :
    lastCut? sep cs = none ↔ ¬ sep <:+: cs := by
  induction cs with
  | nil =>
      simp only [lastCut?, List.infix_nil, List.isEmpty_iff]
      split <;> simp_all
  | cons c cs ih =>
      rw [lastCut?, List.infix_cons_iff, not_or, ← ih]
      cases lastCut? sep cs with
      | some cut => simp
      | none => simp [← List.isPrefixOf_iff_prefix]

theorem before?_eq_some_iff {ending text base : List Char} :
    before? ending text = some base ↔ text = base ++ ending := by
  unfold before?
  constructor
  · intro h
    split at h
    · rename_i hsuffix
      obtain ⟨front, rfl⟩ := List.isSuffixOf_iff_suffix.mp hsuffix
      simpa [List.length_append] using h
    · cases h
  · rintro rfl
    rw [if_pos (List.isSuffixOf_iff_suffix.mpr (List.suffix_append base ending))]
    simp

/-! ### Words -/

/-- A word that can stand behind the last underscore of a name, other than that of tests. -/
@[mk_iff]
structure IsWord (word : List Char) : Prop where
  dot : '.' ∉ word
  underscore : '_' ∉ word
  test : word ≠ "test".toList

theorem isWord_default : IsWord "default".toList := by
  simp [isWord_iff]

theorem isWord_osName {os : String} (h : os ∈ osNames) : IsWord os.toList := by
  have hall : ∀ os ∈ osNames, IsWord os.toList := by simp [osNames, isWord_iff]
  exact hall os h

/-- The word behind the last underscore of a name is the only one. -/
theorem word_unique {base word base' word' : List Char} (hword : '_' ∉ word) (hword' : '_' ∉ word')
    (h : base ++ '_' :: word = base' ++ '_' :: word') : base = base' ∧ word = word' := by
  have hcut := Path.splitAtLast?_append '_' base hword
  rw [h, Path.splitAtLast?_append '_' base' hword'] at hcut
  obtain ⟨rfl, rfl⟩ := Prod.mk.inj (Option.some.inj hcut)
  exact ⟨rfl, rfl⟩

theorem osCut?_eq_some_iff {stem base : List Char} {os : String} :
    osCut? stem = some (base, os) ↔ os ∈ osNames ∧ stem = base ++ '_' :: os.toList := by
  unfold osCut?
  constructor
  · intro h
    rcases Path.splitAtLast?_cases '_' stem with ⟨-, hnone⟩ | ⟨before, after, hstem, -, hsome⟩
    · rw [hnone] at h
      cases h
    · rw [hsome] at h
      simp only at h
      split at h
      · rename_i hos
        obtain ⟨rfl, rfl⟩ := Prod.mk.inj (Option.some.inj h)
        exact ⟨by simpa using hos, by rw [hstem, String.toList_ofList]⟩
      · cases h
  · rintro ⟨hos, rfl⟩
    rw [Path.splitAtLast?_append '_' base (isWord_osName hos).underscore]
    simp [hos]

/-! ### Backends

A backend is the part behind the last dot, if that part is the name of one.  Names of backends have
no dot and no underscore in them, so the cut is unique, and a name that ends in an underscore and a
word without a dot is `Bare` whatever stands in front of the word.
-/

namespace Backend

/-- Names of backends are made of small letters. -/
theorem notMem_name (b : Backend) {c : Char} (hc : c.isLower = false) : c ∉ b.name.toList := by
  have hall : b.name.toList.all Char.isLower = true := by cases b <;> simp [name]
  intro hmem
  rw [List.all_eq_true.mp hall c hmem] at hc
  cases hc

theorem ofName?_name (b : Backend) : ofName? b.name.toList = some b := by
  cases b <;> simp [ofName?, name]

theorem name_of_ofName? {name : List Char} {b : Backend} (h : ofName? name = some b) :
    name = b.name.toList := by
  have hfound := List.find?_some h
  exact (beq_iff_eq.mp hfound).symm

end Backend

/-- No backend stands at the end of the name. -/
def Bare (stem : List Char) : Prop :=
  ∀ (plain : List Char) (b : Backend), stem ≠ plain ++ '.' :: b.name.toList

theorem bare_of_notMem {stem : List Char} (h : '.' ∉ stem) : Bare stem := by
  rintro plain b rfl
  simp at h

theorem bare_word (base word : List Char) (h : '.' ∉ word) : Bare (base ++ '_' :: word) := by
  intro plain b heq
  -- One of the last parts lies in the other, and neither has the mark of the other in it.
  rcases List.append_eq_append_iff.mp heq with ⟨more, -, hmore⟩ | ⟨more, -, hmore⟩
  · have hdot : '.' ∈ '_' :: word := by simp [hmore]
    simp [h] at hdot
  · have hunderscore : '_' ∈ '.' :: b.name.toList := by simp [hmore]
    simp [b.notMem_name (c := '_') rfl] at hunderscore

theorem bare_or_backend (stem : List Char) :
    Bare stem ∨ ∃ (plain : List Char) (b : Backend), stem = plain ++ '.' :: b.name.toList := by
  by_cases h : ∃ (plain : List Char) (b : Backend), stem = plain ++ '.' :: b.name.toList
  · exact .inr h
  · exact .inl fun plain b heq => h ⟨plain, b, heq⟩

/-- The part behind the last dot of a bare name is no backend. -/
theorem Bare.ofName? {plain backend : List Char} (h : Bare (plain ++ '.' :: backend)) :
    Backend.ofName? backend = none := by
  cases hname : Backend.ofName? backend with
  | none => rfl
  | some b => exact absurd (by rw [Backend.name_of_ofName? hname]) (h plain b)

/-! ### Switches

A switch is looked for anywhere in the name.  Both of them end in an underscore, so one that occurs
in a base with a word behind it occurs in front of the word already.
-/

/-- The name depends on no switch. -/
structure Unswitched (plain : List Char) : Prop where
  on : ¬ "_d_".toList <:+: plain
  off : ¬ "_notd_".toList <:+: plain

/-- What ends in an underscore lies in front of a word that has none. -/
theorem infix_of_underscore (front : List Char) {base word : List Char} (hword : '_' ∉ word)
    (h : front ++ ['_'] <:+: base ++ '_' :: word) : front ++ ['_'] <:+: base ++ ['_'] := by
  obtain ⟨before, behind, heq⟩ := h
  have hcut : (before ++ front) ++ '_' :: behind = base ++ '_' :: word := by
    rw [← heq]
    simp
  rcases List.append_eq_append_iff.mp hcut with ⟨more, rfl, hmore⟩ | ⟨more, hfront, hmore⟩
  · -- The switch ends at the last underscore or at one in the base.
    cases more with
    | nil => exact ⟨before, [], by simp⟩
    | cons c more =>
        obtain ⟨rfl, -⟩ := List.cons.inj hmore
        exact ⟨before, more ++ ['_'], by simp⟩
  · cases more with
    | nil => exact ⟨before, [], by rw [← List.append_nil base, ← hfront]; simp⟩
    | cons c more =>
        obtain ⟨-, hbehind⟩ := List.cons.inj hmore
        exact absurd (by simp [hbehind]) hword

/-- A switch does not depend on the word behind the last underscore. -/
theorem Unswitched.other {base word : List Char} (h : Unswitched (base ++ '_' :: word))
    {other : List Char} (hother : '_' ∉ other) : Unswitched (base ++ '_' :: other) := by
  have hfront : base ++ ['_'] <:+: base ++ '_' :: word := ⟨[], word, by simp⟩
  exact ⟨fun hon => h.on ((infix_of_underscore "_d".toList hother hon).trans hfront),
    fun hoff => h.off ((infix_of_underscore "_notd".toList hother hoff).trans hfront)⟩

/-! ### Tests -/

theorem test_eq : "_test".toList = '_' :: "test".toList := by
  simp

theorem IsWord.not_test {word : List Char} (h : IsWord word) (base : List Char) :
    ¬ "_test".toList <:+ base ++ '_' :: word := by
  rw [test_eq]
  rintro ⟨front, heq⟩
  exact h.test (word_unique (by simp) h.underscore heq).2.symm

/-- A name with a backend is no name of a test. -/
theorem not_test_backend (plain : List Char) (b : Backend) :
    ¬ "_test".toList <:+ plain ++ '.' :: b.name.toList := by
  rw [test_eq]
  rintro ⟨front, heq⟩
  exact bare_word front "test".toList (by simp) plain b heq

/-! ### Classes -/

/-- The stem of a source file is its name without the extension. -/
theorem sourceStem?_eq_some_iff {path : String} {stem : List Char} :
    sourceStem? path = some stem ↔
      stem ≠ [] ∧ Path.fileName? path = some (String.ofList (stem ++ ".v".toList)) := by
  unfold sourceStem?
  cases hname : Path.fileName? path with
  | none => simp
  | some name =>
      constructor
      · intro h
        simp only at h
        split at h
        · rename_i stem' hsplit
          obtain ⟨hne, hname'⟩ := Path.eq_append_of_splitExtension hsplit
          obtain rfl := Option.some.inj h
          exact ⟨hne, by rw [hname']; rfl⟩
        · cases h
      · rintro ⟨hne, heq⟩
        have hsplit := Path.splitExtension_append hne "v".toList (by simp)
        rw [String.ofList_toList] at hsplit
        obtain rfl := Option.some.inj heq
        have hname' : stem ++ ".v".toList = stem ++ '.' :: "v".toList := rfl
        simp only [hname', hsplit, String.toList_ofList]

namespace BuildTarget

variable (target : BuildTarget)

theorem classifyStem_test {stem : List Char} (htest : "_test".toList <:+ stem) :
    target.classifyStem stem = .excluded := by
  simp only [classifyStem, List.isSuffixOf_iff_suffix.mpr htest, if_true]

theorem classifyStem_bare {stem : List Char} (hbare : Bare stem)
    (htest : ¬ "_test".toList <:+ stem) : target.classifyStem stem = target.classifyPlain stem := by
  unfold classifyStem
  rw [if_neg (by rwa [List.isSuffixOf_iff_suffix])]
  rcases Path.splitAtLast?_cases '.' stem with ⟨-, hnone⟩ | ⟨plain, backend, rfl, -, hsome⟩
  · rw [hnone]
  · simp only [hsome, hbare.ofName?]

theorem classifyStem_backend (plain : List Char) (b : Backend) :
    target.classifyStem (plain ++ '.' :: b.name.toList)
      = if b = target.backend then target.classifyPlain plain else .excluded := by
  unfold classifyStem
  rw [if_neg (by rw [List.isSuffixOf_iff_suffix]; exact not_test_backend plain b),
    Path.splitAtLast?_append '.' plain (b.notMem_name rfl)]
  simp only [b.ofName?_name]

theorem osBase?_bare {path : String} {stem : List Char} (hstem : sourceStem? path = some stem)
    (hbare : Bare stem) : osBase? path = (osCut? stem).map Prod.fst := by
  unfold osBase?
  rw [hstem]
  rcases Path.splitAtLast?_cases '.' stem with ⟨-, hnone⟩ | ⟨plain, backend, rfl, -, hsome⟩
  · simp only [hnone]
  · simp [hsome, hbare.ofName?]

theorem osBase?_backend {path : String} {plain : List Char} {b : Backend}
    (hstem : sourceStem? path = some (plain ++ '.' :: b.name.toList)) :
    osBase? path = (osCut? plain).map Prod.fst := by
  unfold osBase?
  rw [hstem]
  simp [Path.splitAtLast?_append '.' plain (b.notMem_name rfl), b.ofName?_name]

/-! ### Names without their backend -/

/-- The path ends in the name of a source file that reads `plain`, with or without the backend of
the target. -/
def Named (path : String) (plain : List Char) : Prop :=
  Path.fileName? path = some (String.ofList (plain ++ ".v".toList)) ∨
    Path.fileName? path
      = some (String.ofList (plain ++ '.' :: target.backend.name.toList ++ ".v".toList))

variable {target}

theorem Named.sourceStem? {path : String} {plain : List Char} (h : target.Named path plain)
    (hplain : plain ≠ []) :
    sourceStem? path = some plain ∨
      sourceStem? path = some (plain ++ '.' :: target.backend.name.toList) := by
  rcases h with hname | hname
  · exact .inl (sourceStem?_eq_some_iff.mpr ⟨hplain, hname⟩)
  · exact .inr (sourceStem?_eq_some_iff.mpr ⟨by simp, hname⟩)

/-- A name that ends in a word says what the word says, with or without the backend. -/
theorem Named.classify {path : String} {base word : List Char}
    (h : target.Named path (base ++ '_' :: word)) (hword : IsWord word) :
    target.classify path = target.classifyPlain (base ++ '_' :: word) ∧
      osBase? path = (osCut? (base ++ '_' :: word)).map Prod.fst := by
  have hbare := bare_word base word hword.dot
  unfold BuildTarget.classify
  rcases h.sourceStem? (by simp) with hstem | hstem
  · rw [osBase?_bare hstem hbare, hstem]
    exact ⟨classifyStem_bare target hbare (hword.not_test base), rfl⟩
  · rw [osBase?_backend hstem, hstem]
    simp only [classifyStem_backend, if_true, and_self]

/-- A file that is not excluded has no backend in its name, or that of the target. -/
theorem named_of_classify {path : String} (h : target.classify path ≠ .excluded) :
    ∃ plain, target.Named path plain ∧ target.classify path = target.classifyPlain plain ∧
      osBase? path = (osCut? plain).map Prod.fst := by
  unfold BuildTarget.classify at h ⊢
  cases hstem : sourceStem? path with
  | none => rw [hstem] at h; exact absurd rfl h
  | some stem =>
      rw [hstem] at h
      have hname := (sourceStem?_eq_some_iff.mp hstem).2
      rcases bare_or_backend stem with hbare | ⟨plain, b, rfl⟩
      · have htest : ¬ "_test".toList <:+ stem := fun htest => h (classifyStem_test target htest)
        exact ⟨stem, .inl hname, classifyStem_bare target hbare htest, osBase?_bare hstem hbare⟩
      · simp only [classifyStem_backend] at h ⊢
        split at h
        · rename_i hb
          subst hb
          exact ⟨plain, .inr hname, if_pos rfl, osBase?_backend hstem⟩
        · exact absurd rfl h

/-! ### What a name without its backend says

The rules that are left ask for a switch, for the word of files that stand in, and for the word of
a system, in this order.  The words exclude each other, since none of them has an underscore in it
and the part behind the last underscore is unique.
-/

theorem classifyPlain_eq_fallback_iff {plain base : List Char} :
    target.classifyPlain plain = .fallback base ↔
      Unswitched plain ∧ plain = base ++ "_default".toList := by
  unfold classifyPlain
  constructor
  · intro h
    split at h
    · split at h <;> cases h
    rename_i hoff
    split at h
    · split at h <;> cases h
    rename_i hon
    split at h
    · rename_i hdefault
      cases h
      exact ⟨⟨lastCut?_eq_none_iff.mp hon, lastCut?_eq_none_iff.mp hoff⟩,
        before?_eq_some_iff.mp hdefault⟩
    · split at h
      · split at h <;> cases h
      · cases h
  · rintro ⟨hplain, rfl⟩
    simp only [lastCut?_eq_none_iff.mpr hplain.on, lastCut?_eq_none_iff.mpr hplain.off,
      before?_eq_some_iff.mpr rfl]

/-- A name ends in `_default` only if that is its word. -/
theorem before?_default (base : List Char) {word : List Char} (hword : '_' ∉ word)
    (hdefault : word ≠ "default".toList) :
    before? "_default".toList (base ++ '_' :: word) = none := by
  cases hbefore : before? "_default".toList (base ++ '_' :: word) with
  | none => rfl
  | some base' =>
      have hsame := word_unique hword isWord_default.underscore (before?_eq_some_iff.mp hbefore)
      exact absurd hsame.2 hdefault

theorem ne_default_of_mem {os : String} (hos : os ∈ osNames) : os.toList ≠ "default".toList := by
  intro heq
  obtain rfl := String.toList_inj.mp heq
  simp [osNames] at hos

/-- A name that depends on no switch and ends in the name of a system is for that system. -/
theorem classifyPlain_system (target : BuildTarget) {base : List Char} {os : String}
    (hos : os ∈ osNames) (h : Unswitched (base ++ '_' :: os.toList)) :
    target.classifyPlain (base ++ '_' :: os.toList)
      = if target.matchesOs os = true then .included else .excluded := by
  unfold classifyPlain
  simp only [lastCut?_eq_none_iff.mpr h.on, lastCut?_eq_none_iff.mpr h.off,
    before?_default base (isWord_osName hos).underscore (ne_default_of_mem hos),
    osCut?_eq_some_iff.mpr ⟨hos, rfl⟩]

/-- The rules for a name without its backend do not know tests. -/
theorem classifyPlain_test {plain : List Char} (htest : "_test".toList <:+ plain)
    (h : Unswitched plain) : target.classifyPlain plain = .included := by
  rw [test_eq] at htest
  obtain ⟨base, rfl⟩ := htest
  have hunderscore : '_' ∉ "test".toList := by simp
  have hcut : osCut? (base ++ '_' :: "test".toList) = none := by
    cases hos : osCut? (base ++ '_' :: "test".toList) with
    | none => rfl
    | some cut =>
        obtain ⟨hmem, heq⟩ := osCut?_eq_some_iff.mp hos
        have hword := (word_unique hunderscore (isWord_osName hmem).underscore heq).2
        exact absurd hword.symm (isWord_osName hmem).test
  unfold classifyPlain
  simp only [lastCut?_eq_none_iff.mpr h.on, lastCut?_eq_none_iff.mpr h.off,
    before?_default base hunderscore (by simp), hcut]

/-! ### The two spellings of a name -/

theorem isName_source {stem : List Char} (hslash : '/' ∉ stem) :
    Path.IsName (String.ofList (stem ++ ".v".toList)) := by
  have hlist : ∀ other : String, String.ofList (stem ++ ".v".toList) = other →
      stem ++ ".v".toList = other.toList :=
    fun _ heq => heq ▸ String.toList_ofList.symm
  refine ⟨?_, ?_, ?_, ?_⟩
  · rw [String.toList_ofList, List.mem_append, not_or]
    exact ⟨hslash, by simp⟩
  · intro heq
    simpa using congrArg List.length (hlist _ heq)
  · intro heq
    simpa using congrArg List.length (hlist _ heq)
  · intro heq
    simpa using congrArg List.getLast? (hlist _ heq)

theorem sourceStem?_join (dir : String) {stem : List Char} (hslash : '/' ∉ stem)
    (hempty : stem ≠ []) :
    sourceStem? (Path.join dir (String.ofList (stem ++ ".v".toList))) = some stem :=
  sourceStem?_eq_some_iff.mpr ⟨hempty, (isName_source hslash).fileName?_join dir⟩

/--
**The backend of the target can be left out of a name that is no name of a test.**

A test keeps out of a build only under the name without a backend.  With the backend in the name
the rule for tests does not see it, and the rules that are left take it for any other file.
-/
theorem classify_spellings (target : BuildTarget) (dir : String) {s : String} (hempty : s ≠ "")
    (hdot : '.' ∉ s.toList) (hslash : '/' ∉ s.toList) :
    let bare := target.classify (Path.join dir (s ++ ".v"))
    let spelled := target.classify (Path.join dir (s ++ "." ++ target.backend.name ++ ".v"))
    (¬ "_test".toList <:+ s.toList → spelled = bare) ∧
    ("_test".toList <:+ s.toList →
      bare = .excluded ∧ spelled = target.classifyPlain s.toList ∧
        (Unswitched s.toList → spelled = .included)) := by
  intro bare spelled
  have hne : s.toList ≠ [] := by simpa using hempty
  have hbare : bare = target.classifyStem s.toList := by
    have hname : s ++ ".v" = String.ofList (s.toList ++ ".v".toList) := by simp
    show target.classify _ = _
    rw [hname, BuildTarget.classify, sourceStem?_join dir hslash hne]
  have hspelled : spelled = target.classifyPlain s.toList := by
    have hname : s ++ "." ++ target.backend.name ++ ".v"
        = String.ofList (s.toList ++ '.' :: target.backend.name.toList ++ ".v".toList) := by
      rw [← String.toList_inj]
      simp
    have hslash' : '/' ∉ s.toList ++ '.' :: target.backend.name.toList := by
      simp [hslash, target.backend.notMem_name (c := '/') rfl]
    show target.classify _ = _
    rw [hname, BuildTarget.classify, sourceStem?_join dir hslash' (by simp)]
    simp only [classifyStem_backend, if_true]
  rw [hbare, hspelled]
  exact ⟨fun htest => (classifyStem_bare target (bare_of_notMem hdot) htest).symm,
    fun htest => ⟨classifyStem_test target htest, rfl, classifyPlain_test htest⟩⟩

/-- A file that stands in for others has the same base in both spellings, and a test is excluded in
one of them only. -/
theorem classify_spellings_default_test :
    let target : BuildTarget := { os := "linux", backend := .js }
    target.classify "lib/x_default.js.v" = target.classify "lib/x_default.v" ∧
      target.classify "lib/x_default.v" = .fallback "x".toList ∧
      target.classify "lib/x_test.v" = .excluded ∧
      target.classify "lib/x_test.js.v" = .included := by
  intro target
  have hnames : Path.join "lib" ("x_default" ++ ".v") = "lib/x_default.v" ∧
      Path.join "lib" ("x_default" ++ "." ++ target.backend.name ++ ".v")
        = "lib/x_default.js.v" ∧
      Path.join "lib" ("x_test" ++ ".v") = "lib/x_test.v" ∧
      Path.join "lib" ("x_test" ++ "." ++ target.backend.name ++ ".v") = "lib/x_test.js.v" := by
    decide +kernel
  obtain ⟨hbare, hspelled, hbareTest, hspelledTest⟩ := hnames
  have hdefault := (classify_spellings target "lib" (s := "x_default") (by decide)
    (by decide +kernel) (by decide +kernel)).1 (by decide +kernel)
  have htest := (classify_spellings target "lib" (s := "x_test") (by decide)
    (by decide +kernel) (by decide +kernel)).2 (by decide +kernel)
  rw [hbare, hspelled] at hdefault
  rw [hbareTest, hspelledTest] at htest
  exact ⟨hdefault, by decide +kernel, htest.1,
    htest.2.2 ⟨by decide +kernel, by decide +kernel⟩⟩

/-- The name of a test with the backend of the target in it is a name of the build. -/
theorem classify_spelled_test :
    let target : BuildTarget := { os := "linux" }
    target.classify "a_test.v" = .excluded ∧ target.classify "a_test.c.v" = .included := by
  decide +kernel

end BuildTarget

end VServer
