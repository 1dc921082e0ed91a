/-
Static methods in the index.

A static method is written `fn S.m(..)`.  Whoever reads its name stops at the dot, unless the word
in front of it is that of a foreign language.  So the method is known by the name of the struct
that it belongs to, and both are entered in the index under one name.

Which of them has the entry is told by the order of reading.  `Points` lists the points of all
files at which a statement starts; a struct keeps its entry if no public static method of it
stands behind its last declaration, and loses it to the last such method otherwise
(`run_places_struct`).

The conditions of that statement are about the source text: functions that start with the name are
written with a dot behind it, and where the name itself has a dot in it, no foreign function and no
field is known by it.  Under them, whatever is entered under the name is a struct or a static
method (`declares_of_write`), and the last one of these points decides.
-/
import VServer.Proofs.Indexer.Writes
import VServer.Proofs.Outline.StructLine

namespace VServer

open Outline (Visit Visits)

/-! ### The word that names a function

The name of a function is read up to the first token that cannot go on with it.  A dot goes on with
a name only behind the word of a foreign language, so of `S.m` the word `S` is the name, and the
rest is passed over on the way to the body.
-/

theorem Language.ofQualifier?_ne_v {name : List Char} {language : Language}
    (h : Language.ofQualifier? name = some language) : language ≠ .v := by
  unfold ofQualifier? at h
  split at h
  · cases h; decide
  · split at h
    · cases h; decide
    · cases h

namespace Outline

theorem readForeignName_language {language : Language} {ts rest : List Token}
    {declared : DeclaredName} (h : readForeignName language ts = (some declared, rest)) :
    declared.language = language := by
  unfold readForeignName at h
  split at h
  · split at h
    · cases h; rfl
    · cases h
  · cases h

/-- A name that is not foreign is one word.  If the word is that of a foreign language, no dot
stands behind it. -/
theorem readName_word {ctx : Context} {ts rest : List Token} {declared : DeclaredName}
    (h : readName ctx false ts = (some declared, rest)) :
    declared.language ≠ .v ∨
      ∃ word, ts = word :: rest ∧ word.kind.isName = true ∧ declared = ⟨.v, word.span⟩ ∧
        (Language.ofQualifier? (ctx.slice word.span) = none ∨ ∀ d ∈ rest.head?, d.kind ≠ .dot) := by
  cases ts with
  | nil => cases h
  | cons word ts =>
      simp only [readName, Bool.false_and, Bool.false_eq_true, if_false] at h
      by_cases hname : word.kind.isName = true
      · rw [if_pos hname] at h
        split at h
        · rename_i language d after hlanguage
          split at h
          · exact .inl (readForeignName_language h ▸ Language.ofQualifier?_ne_v hlanguage)
          · rename_i hdot
            cases h
            exact .inr ⟨word, rfl, hname, rfl, .inr (by simpa using hdot)⟩
        · rename_i hplain
          cases h
          refine .inr ⟨word, rfl, hname, rfl, ?_⟩
          cases hlanguage : Language.ofQualifier? (ctx.slice word.span) with
          | none => exact .inl rfl
          | some language =>
              cases rest with
              | nil => exact .inr (by simp)
              | cons d after => exact absurd rfl (hplain language d after hlanguage)
      · rw [if_neg hname] at h
        cases h

theorem skipOptional_none {b : Bracket} {ts : List Token} (h : (skipOptional b ts).1 = false) :
    (skipOptional b ts).2.rest = ts := by
  unfold skipOptional at h ⊢
  split
  · split
    · rename_i hkind
      simp [hkind] at h
    · rfl
  · rfl

theorem skipOptional_name (b : Bracket) {word : Token} (h : word.kind.isName = true)
    (ts : List Token) : skipOptional b (word :: ts) = (false, ⟨[], word :: ts⟩) := by
  have hkind : word.kind ≠ .opener b := by
    intro hopener
    rw [hopener] at h
    cases h
  simp [skipOptional, hkind]

/-- The name of a foreign declaration has a dot in it. -/
theorem dot_mem_qualifyIn {language : Language} (h : language ≠ .v) (moduleName name : String) :
    '.' ∈ (qualifyIn language moduleName name).toList := by
  cases language with
  | v => exact absurd rfl h
  | c => simp [qualifyIn, Language.qualifier?]
  | js => simp [qualifyIn, Language.qualifier?]

/-- A function that is no method is foreign and has a dot in its name, or it is named by one
word. -/
theorem readFunction_free {ctx : Context} {isPublic : Bool} {ts : List Token}
    {d : Function Text.Span} (h : (readFunction ctx isPublic ts).statement = some (.function d))
    (hfree : d.isMethod = false) :
    (d.language ≠ .v ∧ '.' ∈ d.name.toList) ∨
      ∃ word rest, ts = word :: rest ∧ word.kind.isName = true ∧
        d = ⟨qualify ctx.moduleName (ctx.sliceString word.span), isPublic, false, .v, word.span⟩ ∧
        (Language.ofQualifier? (ctx.slice word.span) = none ∨ ∀ d ∈ rest.head?, d.kind ≠ .dot) := by
  unfold readFunction at h
  simp only at h
  split at h
  · cases h
  · rename_i declared rest hname
    obtain rfl := Statement.function.inj (Option.some.inj h)
    simp only at hfree
    rw [hfree, skipOptional_none hfree] at hname
    rcases readName_word hname with hforeign | ⟨word, rfl, hword, rfl, hdot⟩
    · exact .inl ⟨hforeign, dot_mem_qualifyIn hforeign _ _⟩
    · exact .inr ⟨word, rest, rfl, hword, by rw [hfree]; rfl, hdot⟩

/-- **A static method is known by the name of its owner**, and its place is that of the owner's
name. -/
theorem readFunction_static (ctx : Context) {owner : Token} (howner : owner.kind.isName = true)
    (hforeign : Language.ofQualifier? (ctx.slice owner.span) = none) (isPublic : Bool)
    (dot : Token) (ts : List Token) :
    (readFunction ctx isPublic (owner :: dot :: ts)).statement = some (.function
      ⟨qualify ctx.moduleName (ctx.sliceString owner.span), isPublic, false, .v, owner.span⟩) := by
  have hname : readName ctx false (owner :: dot :: ts)
      = (some ⟨.v, owner.span⟩, dot :: ts) := by
    simp [readName, howner, hforeign]
  simp only [readFunction, skipOptional_name .paren howner, hname]
  rfl

namespace Visit

/-- The tokens behind the word `fn`, if a function starts here, and whether it is public. -/
def functionTokens? (v : Visit) : Option (Bool × List Token) :=
  match v.first.kind, v.behind with
  | .keyword .fnKw, ts => some (false, ts)
  | .keyword .pubKw, t :: ts => if t.kind = .keyword .fnKw then some (true, ts) else none
  | _, _ => none

theorem step_of_functionTokens? (text : List Char) {v : Visit} {isPublic : Bool}
    {ts : List Token} (h : v.functionTokens? = some (isPublic, ts)) :
    v.step text = readFunction ⟨text, v.moduleName⟩ isPublic ts := by
  rcases v with ⟨moduleName, first, behind⟩
  unfold functionTokens? at h
  split at h
  · rename_i hkind
    cases h
    simp only [step, readStatement, show first.kind = .keyword .fnKw from hkind]
  · rename_i t us hkind hbehind
    split at h
    · rename_i hfn
      cases h
      simp only [step, readStatement, show first.kind = .keyword .pubKw from hkind,
        show behind = t :: ts from hbehind, readPublic, hfn]
    · cases h
  · cases h

theorem exists_functionTokens? {text : List Char} {v : Visit} {d : Function Text.Span}
    (h : (v.step text).statement = some (.function d)) :
    ∃ isPublic ts, v.functionTokens? = some (isPublic, ts) := by
  rcases v with ⟨moduleName, first, behind⟩
  unfold step readStatement at h
  simp only at h
  split at h
  · unfold readModule at h
    split at h
    · split at h <;> cases h
    · cases h
  · cases h
  · split at h
    · split at h <;> cases h
    · cases h
  · rename_i hpub
    unfold readPublic at h
    split at h
    · rename_i t ts
      split at h
      · rename_i hfn
        exact ⟨true, ts, by simp [functionTokens?, hpub, hfn]⟩
      · exact absurd h (readStruct_statement_ne_function _ true false _ d)
      · exact absurd h (readStruct_statement_ne_function _ true true _ d)
      · cases h
    · cases h
  · rename_i hfn
    exact ⟨false, behind, by simp [functionTokens?, hfn]⟩
  · exact absurd h (readStruct_statement_ne_function _ false false _ d)
  · exact absurd h (readStruct_statement_ne_function _ false true _ d)
  · cases h

end Visit

end Outline

/-! ### What stands at a point

A point is a file with one of the visits of its outline.  The writes of a file are those of its
points, one after another, so what the index holds can be told by points alone, and no tree has to
be looked at.
-/

theorem SymbolIndex.fieldName_ne (structName field : String) :
    fieldName structName field ≠ structName := by
  intro h
  have hlength := congrArg String.length h
  simp only [fieldName, String.length_append] at hlength
  have hdot : ".".length = 1 := rfl
  omega

theorem SymbolIndex.dot_mem_fieldName (structName field : String) :
    '.' ∈ (fieldName structName field).toList := by
  simp [fieldName]

/-- A point of the reading of a file, at which a statement starts. -/
structure Point where
  source : Source
  visit : Visit

/-- The points of files that are read one after another. -/
inductive Points : List Source → List Point → Prop
  | done : Points [] []
  | file {s : Source} {sources : List Source} {visits : List Visit} {points : List Point}
      (first : Visits s.text "" (Token.ofText s.text) visits) (later : Points sources points) :
      Points (s :: sources) (visits.map (Point.mk s) ++ points)

theorem exists_points (sources : List Source) : ∃ points, Points sources points := by
  induction sources with
  | nil => exact ⟨[], .done⟩
  | cons s sources ih =>
      obtain ⟨points, hpoints⟩ := ih
      obtain ⟨visits, hvisits, -⟩ :=
        Outline.readFrom_visits s.text _ "" (Token.ofText s.text) (Nat.le_refl _)
      exact ⟨_, .file hvisits hpoints⟩

namespace Point

/-- What is read here. -/
def statement? (p : Point) : Option (Statement Text.Span) :=
  (p.visit.step p.source.text).statement

/-- A place in the file. -/
def entry (p : Point) (span : Text.Span) : SymbolEntry :=
  ⟨p.source.tree.uri, (LineIndex.ofText p.source.text).range p.source.text span⟩

/-- What is written to the index for the statement. -/
def writes (p : Point) : List SymbolWrite :=
  p.statement?.toList.flatMap fun st => SyntaxTree.writesOf p.source.tree.uri
    (st.mapPlace ((LineIndex.ofText p.source.text).range p.source.text))

/-- A struct that is known as `n` is declared here. -/
def DeclaresStruct (p : Point) (n : String) (place : SymbolEntry) : Prop :=
  ∃ d, p.statement? = some (.struct d) ∧ d.language = .v ∧ d.name = n ∧ place = p.entry d.place

/-- A function starts here, with a word that is known as `n` and the tokens `rest` behind it. -/
def StartsFunction (p : Point) (n : String) (isPublic : Bool) (word : Token)
    (rest : List Token) : Prop :=
  p.visit.functionTokens? = some (isPublic, word :: rest) ∧ word.kind.isName = true ∧
    Outline.qualify p.visit.moduleName (Text.sliceString p.source.text word.span) = n

/-- A function that starts with a word known as `n` has a dot behind that word. -/
def Dotted (p : Point) (n : String) : Prop :=
  ∀ isPublic word rest, p.StartsFunction n isPublic word rest → ∃ d ∈ rest.head?, d.kind = .dot

/-- A public function `fn S.m(..)` starts here, where `S` is known as `n` and stands at `place`. -/
def DeclaresStatic (p : Point) (n : String) (place : SymbolEntry) : Prop :=
  ∃ owner dot rest, p.StartsFunction n true owner (dot :: rest) ∧ dot.kind = .dot ∧
    Language.ofQualifier? (Text.slice p.source.text owner.span) = none ∧
    place = p.entry owner.span

/-- No foreign function and no field here is known as `n`. -/
def Clear (p : Point) (n : String) : Prop :=
  (∀ d, p.statement? = some (.function d) → d.language ≠ .v → d.name ≠ n) ∧
    ∀ d, p.statement? = some (.struct d) →
      ∀ f ∈ d.fields, SymbolIndex.fieldName d.name f.name ≠ n

theorem writes_struct {p : Point} {n : String} {place : SymbolEntry}
    (h : p.DeclaresStruct n place) :
    ∃ fields : List SymbolWrite, p.writes = ⟨n, place⟩ :: fields ∧
      ∀ write ∈ fields, write.name ≠ n := by
  obtain ⟨d, hd, hown, rfl, rfl⟩ := h
  refine ⟨d.fields.map fun f => ⟨SymbolIndex.fieldName d.name f.name, p.entry f.place⟩, ?_, ?_⟩
  · rw [writes, hd]
    simp [SyntaxTree.writesOf, Statement.mapPlace, Struct.mapPlace, Field.mapPlace, hown, entry]
  · intro write hwrite
    obtain ⟨f, -, rfl⟩ := List.mem_map.mp hwrite
    exact SymbolIndex.fieldName_ne d.name f.name

theorem DeclaresStruct.unique {p : Point} {n : String} {place place' : SymbolEntry}
    (h : p.DeclaresStruct n place) (h' : p.DeclaresStruct n place') : place = place' := by
  obtain ⟨d, hd, -, -, rfl⟩ := h
  obtain ⟨d', hd', -, -, rfl⟩ := h'
  obtain rfl : d = d' := Statement.struct.inj (Option.some.inj (hd.symm.trans hd'))
  rfl

/-- What is read at a static method is a function that is known by the name of the owner. -/
theorem statement?_static {p : Point} {n : String} {place : SymbolEntry}
    (h : p.DeclaresStatic n place) :
    ∃ span, p.statement? = some (.function ⟨n, true, false, .v, span⟩) ∧ place = p.entry span := by
  obtain ⟨owner, dot, rest, ⟨htokens, howner, rfl⟩, -, hforeign, rfl⟩ := h
  refine ⟨owner.span, ?_, rfl⟩
  rw [statement?, Visit.step_of_functionTokens? _ htokens]
  exact Outline.readFunction_static ⟨p.source.text, p.visit.moduleName⟩ howner hforeign true dot
    rest

theorem writes_static {p : Point} {n : String} {place : SymbolEntry}
    (h : p.DeclaresStatic n place) : p.writes = [⟨n, place⟩] := by
  obtain ⟨span, hstatement, rfl⟩ := statement?_static h
  rw [writes, hstatement]
  rfl

theorem not_struct_of_static {p : Point} {n : String} {place : SymbolEntry}
    (h : p.DeclaresStatic n place) (place' : SymbolEntry) : ¬ p.DeclaresStruct n place' := by
  rintro ⟨d, hd, -⟩
  obtain ⟨span, hstatement, -⟩ := statement?_static h
  cases hd.symm.trans hstatement

/-- A public function is a static method, if its name is taken neither by a plain function nor by a
foreign one. -/
theorem static_of_function {p : Point} {d : Function Text.Span}
    (hstatement : p.statement? = some (.function d)) (hpublic : d.isPublic = true)
    (hfree : d.isMethod = false) (hdotted : p.Dotted d.name)
    (hclear : '.' ∈ d.name.toList → p.Clear d.name) :
    p.DeclaresStatic d.name (p.entry d.place) := by
  obtain ⟨isPublic, ts, htokens⟩ := Visit.exists_functionTokens? hstatement
  have hread := hstatement
  rw [statement?, Visit.step_of_functionTokens? _ htokens] at hread
  rcases Outline.readFunction_free hread hfree with
    ⟨hforeign, hdot⟩ | ⟨word, rest, rfl, hword, rfl, hplain⟩
  · exact absurd rfl ((hclear hdot).1 d hstatement hforeign)
  · obtain rfl : isPublic = true := hpublic
    obtain ⟨dot, hhead, hdot⟩ := hdotted true word rest ⟨htokens, hword, rfl⟩
    obtain ⟨after, rfl⟩ := List.head?_eq_some_iff.mp hhead
    refine ⟨word, dot, after, ⟨htokens, hword, rfl⟩, hdot, ?_, rfl⟩
    rcases hplain with hplain | hplain
    · exact hplain
    · exact absurd hdot (hplain dot hhead)

/-- What is entered under a name that no plain function, foreign function or field has is a struct
or a static method. -/
theorem declares_of_write {p : Point} {n : String} (hdotted : p.Dotted n)
    (hclear : '.' ∈ n.toList → p.Clear n) {write : SymbolWrite} (hwrite : write ∈ p.writes)
    (hname : write.name = n) :
    p.DeclaresStruct n write.entry ∨ p.DeclaresStatic n write.entry := by
  subst hname
  cases hstatement : p.statement? with
  | none => simp [writes, hstatement] at hwrite
  | some st =>
      have hmem : write ∈ SyntaxTree.writesOf p.source.tree.uri
          (st.mapPlace ((LineIndex.ofText p.source.text).range p.source.text)) := by
        simpa [writes, hstatement] using hwrite
      cases st with
      | other => cases hmem
      | function d =>
          simp only [SyntaxTree.writesOf, Statement.mapPlace, Function.mapPlace] at hmem
          split at hmem
          · rename_i hentered
            obtain ⟨hpublic, hfree⟩ : d.isPublic = true ∧ d.isMethod = false := by
              simpa using hentered
            obtain rfl := List.mem_singleton.mp hmem
            exact .inr (static_of_function hstatement hpublic hfree hdotted hclear)
          · cases hmem
      | struct d =>
          simp only [SyntaxTree.writesOf, Statement.mapPlace, Struct.mapPlace] at hmem
          split at hmem
          · rename_i hown
            simp only [List.mem_cons, List.mem_map, exists_exists_and_eq_and] at hmem
            rcases hmem with rfl | ⟨f, hf, rfl⟩
            · exact .inl ⟨d, hstatement, hown, rfl, rfl⟩
            · have hdot := SymbolIndex.dot_mem_fieldName d.name f.name
              exact absurd rfl ((hclear hdot).2 d hstatement f hf)
          · cases hmem

end Point

theorem points_writes {sources : List Source} {points : List Point} (h : Points sources points) :
    (sources.map Source.tree).flatMap SyntaxTree.writes = points.flatMap Point.writes := by
  induction h with
  | done => rfl
  | @file s sources visits points first later ih =>
      have hstatements : s.tree.statements
          = (visits.filterMap fun v => (v.step s.text).statement).map
              (Statement.mapPlace ((LineIndex.ofText s.text).range s.text)) :=
        congrArg _ (Outline.outlineFrom_statements first)
      have hwrites : s.tree.writes = (visits.map (Point.mk s)).flatMap Point.writes := by
        rw [SyntaxTree.writes, hstatements, List.flatMap_map, List.filterMap_eq_flatMap_toList,
          List.flatMap_assoc, List.flatMap_map]
        rfl
      rw [List.map_cons, List.flatMap_cons, List.flatMap_append, ih, hwrites]

/-- The entry of a name is the one that is written at the last point that writes under it. -/
theorem isLast_of_point {points before behind : List Point} {p : Point}
    (hsplit : points = before ++ p :: behind) {n : String} {place : SymbolEntry}
    {others : List SymbolWrite} (hwrites : p.writes = ⟨n, place⟩ :: others)
    (hothers : ∀ write ∈ others, write.name ≠ n)
    (hbehind : ∀ q ∈ behind, ∀ write ∈ q.writes, write.name ≠ n) :
    SymbolWrite.IsLast (points.flatMap Point.writes) ⟨n, place⟩ := by
  refine ⟨before.flatMap Point.writes, others ++ behind.flatMap Point.writes, ?_, ?_⟩
  · simp [hsplit, hwrites]
  · intro later hlater
    rcases List.mem_append.mp hlater with hmem | hmem
    · exact hothers later hmem
    · obtain ⟨q, hq, hmem⟩ := List.mem_flatMap.mp hmem
      exact hbehind q hq later hmem

/-! ### A struct and a static method of it -/

/-- A struct, and a static method of it on the next line. -/
def ownerText : List Char :=
  "pub struct S \x7b\x7d\npub fn S.new() S \x7b return S\x7b\x7d \x7d\n".toList

/-- The file with this text in the built-in module. -/
def ownerSource : Source := ⟨"/", "/vlib/builtin/a.v", ownerText⟩

/-- The disk with this file. -/
def ownerFiles : Files where
  nodes := [(["vlib"], .directory), (["vlib", "builtin"], .directory),
    (["vlib", "builtin", "a.v"], .file (Text.encodeString (String.ofList ownerText)) false)]

/-- The point at which the struct starts. -/
def ownerPoint : Point :=
  ⟨ownerSource, "", ⟨.keyword .pubKw, ⟨0, 3⟩⟩,
    ⟨.keyword .structKw, ⟨4, 10⟩⟩ :: ⟨.ident, ⟨11, 12⟩⟩ :: (Token.ofText ownerText).drop 3⟩

/-- The point at which the static method starts. -/
def staticPoint : Point :=
  ⟨ownerSource, "", ⟨.keyword .pubKw, ⟨16, 19⟩⟩,
    ⟨.keyword .fnKw, ⟨20, 22⟩⟩ :: ⟨.ident, ⟨23, 24⟩⟩ :: ⟨.dot, ⟨24, 25⟩⟩ ::
      (Token.ofText ownerText).drop 10⟩

theorem ownerPoints : Points [ownerSource] [ownerPoint, staticPoint] := by
  have htokens : Token.ofText ownerText = ownerPoint.visit.first :: ownerPoint.visit.behind := by
    decide +kernel
  have hmodule : (ownerPoint.visit.step ownerText).moduleName = "" := by decide +kernel
  have hrest : (ownerPoint.visit.step ownerText).rest
      = ⟨.newline, ⟨15, 16⟩⟩ :: staticPoint.visit.first :: staticPoint.visit.behind := by
    decide +kernel
  have hrest' : (staticPoint.visit.step ownerText).rest = [⟨.newline, ⟨47, 48⟩⟩] := by
    decide +kernel
  have hvisits : Visits ownerText "" (Token.ofText ownerText)
      [ownerPoint.visit, staticPoint.visit] := by
    rw [htokens]
    refine .statement (by decide) ?_
    show Visits ownerText (ownerPoint.visit.step ownerText).moduleName
      (ownerPoint.visit.step ownerText).rest _
    rw [hmodule, hrest]
    refine .newline rfl (.statement (by decide) ?_)
    show Visits ownerText (staticPoint.visit.step ownerText).moduleName
      (staticPoint.visit.step ownerText).rest _
    rw [hrest']
    exact .newline rfl (.done _)
  have hpoints : Points [ownerSource]
      ([ownerPoint.visit, staticPoint.visit].map (Point.mk ownerSource) ++ []) :=
    .file hvisits .done
  exact hpoints

theorem ownerPoint_declares :
    ownerPoint.DeclaresStruct "S" ⟨"file:///vlib/builtin/a.v", ⟨⟨0, 11⟩, ⟨0, 12⟩⟩⟩ :=
  ⟨⟨"S", true, false, .v, ⟨11, 12⟩, []⟩, by decide +kernel⟩

theorem staticPoint_declares :
    staticPoint.DeclaresStatic "S" ⟨"file:///vlib/builtin/a.v", ⟨⟨1, 7⟩, ⟨1, 8⟩⟩⟩ :=
  ⟨_, _, _, ⟨rfl, rfl, by decide +kernel⟩, rfl, by decide +kernel, by decide +kernel⟩

theorem ownerPoints_dotted : ∀ p ∈ [ownerPoint, staticPoint], p.Dotted "S" := by
  intro p hp isPublic word rest hstarts
  obtain ⟨htokens, -, -⟩ := hstarts
  rcases List.mem_pair.mp hp with rfl | rfl
  · cases htokens
  · cases htokens
    exact ⟨_, rfl, rfl⟩

theorem ownerFiles_listed :
    Indexer.onLinux.listFiles ownerFiles = .ok ["/vlib/builtin/a.v"] ∧
      Sources .still ownerFiles (Indexer.onLinux.target.select ["/vlib/builtin/a.v"])
        [ownerSource] := by
  have hplace : ownerFiles.resolve "/vlib/builtin" = .ok ["vlib", "builtin"] := by decide +kernel
  have hlist : ownerFiles.regularFiles "/vlib/builtin" = .ok ["a.v"] := by
    rw [Files.regularFiles, hplace]
    exact congrArg Except.ok (List.mergeSort_of_pairwise (by decide +kernel))
  have htext : (Watcher.still.disk ownerFiles).readText "/vlib/builtin/a.v" = .ok ownerText := by
    decide +kernel
  have hselect : Indexer.onLinux.target.select ["/vlib/builtin/a.v"] = ["/vlib/builtin/a.v"] := by
    decide +kernel
  refine ⟨Indexer.listFiles_ok Indexer.onLinux_directory hlist, ?_⟩
  rw [hselect]
  exact .readable htext (.done _)

/-! ### The run -/

variable {σ : Type}

namespace Indexer

theorem run_index {ix : Indexer} (hmode : ix.mode = .production) {w : Watcher σ} {state : σ}
    {paths : List String} (hlist : ix.listFiles (w.disk state) = .ok paths) (data : IndexData)
    {sources : List Source} (hsources : Sources w state (ix.target.select paths) sources)
    {points : List Point} (hpoints : Points sources points) :
    (ix.run w data state).data.index
      = SymbolIndex.writeAll data.index (points.flatMap Point.writes) := by
  rw [run_listed ix w hlist data]
  simp only [hmode, if_true, SourceFile.readPaths_trees hsources, points_writes hpoints]

/--
**A struct is entered at its last declaration, unless a static method of it stands behind that.**

Take the points of the files that a run reads, and let all functions that start with the name of a
struct be written `fn S.m(..)`.  Then the entry of the name is the place of the last declaration of
the struct, if no public function `fn S.m(..)` is read behind it; otherwise it is the place of the
word `S` in the last such function.  A name with a module in front of it could also be that of a
foreign function or of a field, and must not be.
-/
theorem run_places_struct {ix : Indexer} (hmode : ix.mode = .production) {w : Watcher σ}
    {state : σ} {paths : List String} (hlist : ix.listFiles (w.disk state) = .ok paths)
    (data : IndexData) :
    (∃ sources points, Sources w state (ix.target.select paths) sources ∧
      Points sources points) ∧
    ∀ sources points n, Sources w state (ix.target.select paths) sources →
      Points sources points → (∃ p ∈ points, ∃ place, p.DeclaresStruct n place) →
      (∀ p ∈ points, p.Dotted n) → ('.' ∈ n.toList → ∀ p ∈ points, p.Clear n) →
      let index := (ix.run w data state).data.index
      ∃ before p behind place, points = before ++ p :: behind ∧ p.DeclaresStruct n place ∧
        (∀ q ∈ behind, ∀ e, ¬ q.DeclaresStruct n e) ∧
        ((∀ q ∈ behind, ∀ e, ¬ q.DeclaresStatic n e) → index.get? n = some place) ∧
        ∀ between q later e, behind = between ++ q :: later → q.DeclaresStatic n e →
          (∀ r ∈ later, ∀ e, ¬ r.DeclaresStatic n e) → index.get? n = some e := by
  constructor
  · obtain ⟨sources, hsources⟩ := exists_sources w (ix.target.select paths) state
    obtain ⟨points, hpoints⟩ := exists_points sources
    exact ⟨sources, points, hsources, hpoints⟩
  intro sources points n hsources hpoints hstruct hdotted hclear
  obtain ⟨before, p, behind, hsplit, ⟨place, hplace⟩, hlast⟩ := exists_last hstruct
  rw [run_index hmode hlist data hsources hpoints]
  -- Behind its last declaration, only a static method can be entered under the name.
  have hstatic : ∀ q ∈ behind, ∀ write ∈ q.writes, write.name = n →
      q.DeclaresStatic n write.entry := by
    intro q hq write hwrite hname
    have hmem : q ∈ points := by
      rw [hsplit]
      exact List.mem_append_right before (List.mem_cons_of_mem p hq)
    rcases Point.declares_of_write (hdotted q hmem) (fun hdot => hclear hdot q hmem) hwrite hname
      with h | h
    · exact absurd ⟨_, h⟩ (hlast q hq)
    · exact h
  refine ⟨before, p, behind, place, hsplit, hplace, fun q hq e he => hlast q hq ⟨e, he⟩, ?_, ?_⟩
  · intro hnone
    obtain ⟨fields, hwrites, hfields⟩ := Point.writes_struct hplace
    refine SymbolIndex.get?_writeAll_of_isLast (isLast_of_point hsplit hwrites hfields ?_) _
    intro q hq write hwrite hname
    exact hnone q hq write.entry (hstatic q hq write hwrite hname)
  · intro between q later e hbehind hq hnone
    have hsplit' : points = (before ++ p :: between) ++ q :: later := by
      rw [hsplit, hbehind, List.append_assoc, List.cons_append]
    refine SymbolIndex.get?_writeAll_of_isLast
      (isLast_of_point hsplit' (Point.writes_static hq) (by simp) ?_) _
    intro r hr write hwrite hname
    refine hnone r hr write.entry (hstatic r ?_ write hwrite hname)
    rw [hbehind]
    exact List.mem_append_right between (List.mem_cons_of_mem q hr)

/-- The entry of the struct `S` is the word `S` in its static method. -/
theorem run_places_struct_owner :
    (∀ p ∈ [ownerPoint, staticPoint], p.Dotted "S") ∧
      (Indexer.onLinux.run .still {} ownerFiles).data.index.get? "S"
        = some ⟨"file:///vlib/builtin/a.v", ⟨⟨1, 7⟩, ⟨1, 8⟩⟩⟩ := by
  obtain ⟨hlist, hsources⟩ := ownerFiles_listed
  obtain ⟨before, p, behind, place, hsplit, hp, hlast, -, hstatic⟩ :=
    (run_places_struct rfl hlist {}).2 _ _ "S" hsources ownerPoints
      ⟨ownerPoint, List.mem_cons_self, _, ownerPoint_declares⟩ ownerPoints_dotted
      (fun hdot => absurd hdot (by decide))
  refine ⟨ownerPoints_dotted, ?_⟩
  -- Only the first of the two points declares a struct.
  cases before with
  | nil =>
      obtain ⟨rfl, rfl⟩ := List.cons.inj hsplit
      exact hstatic [] staticPoint [] _ rfl staticPoint_declares (by simp)
  | cons first before =>
      have hmem : p ∈ [staticPoint] := by
        rw [(List.cons.inj hsplit).2]
        exact List.mem_append_right before List.mem_cons_self
      obtain rfl := List.mem_singleton.mp hmem
      exact absurd hp (Point.not_struct_of_static staticPoint_declares place)

/-- A struct whose entry is not the place of any declaration of it, though every function that
starts with its name is written `fn S.m(..)`. -/
theorem run_static_displaces :
    Sources .still ownerFiles (Indexer.onLinux.target.select ["/vlib/builtin/a.v"])
        [ownerSource] ∧
      Points [ownerSource] [ownerPoint, staticPoint] ∧
      ownerPoint.DeclaresStruct "S" ⟨"file:///vlib/builtin/a.v", ⟨⟨0, 11⟩, ⟨0, 12⟩⟩⟩ ∧
      (∀ p ∈ [ownerPoint, staticPoint], p.Dotted "S") ∧
      ∀ p ∈ [ownerPoint, staticPoint], ∀ place, p.DeclaresStruct "S" place →
        (Indexer.onLinux.run .still {} ownerFiles).data.index.get? "S" ≠ some place := by
  obtain ⟨hlist, hsources⟩ := ownerFiles_listed
  refine ⟨hsources, ownerPoints, ownerPoint_declares, ownerPoints_dotted, ?_⟩
  have hentry : (Indexer.onLinux.run .still {} ownerFiles).data.index.get? "S"
      = some ⟨"file:///vlib/builtin/a.v", ⟨⟨1, 7⟩, ⟨1, 8⟩⟩⟩ := by
    rw [run_index rfl hlist {} hsources ownerPoints]
    decide +kernel
  intro p hp place hplace
  rcases List.mem_pair.mp hp with rfl | rfl
  · rw [hentry, hplace.unique ownerPoint_declares]
    decide
  · exact absurd hplace (Point.not_struct_of_static staticPoint_declares place)

end Indexer

end VServer
