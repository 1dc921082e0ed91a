/-
What a declaration is called, and where.

The name of a declaration depends on its place and on the module line above it.  The places are in
line, so there is a text at each of them and the name is made of that text.  The module is found
along the reading: `Visits` lists the points at which a statement starts, without any bound on the
number of steps, and the module at one of them is the one that the last module line before it
names.

A name is the text at its place with the module in front of it.  A foreign declaration has its
language there instead, and in the built-in module and the main one the text stands alone
(`knownName`).  The module of a file without a module line is written as the empty name; a module
line never names an empty one, so the two cases can be told apart.
-/
import VServer.SourceFile
import VServer.Proofs.Outline.Place

namespace VServer

open Text (Span StandsAt InLine)

namespace Outline

/-! ### Only a module line changes the module -/

theorem readFunction_moduleName (ctx : Context) (isPublic : Bool) (ts : List Token) :
    (readFunction ctx isPublic ts).moduleName = ctx.moduleName := by
  unfold readFunction
  simp only
  split <;> rfl

theorem readStruct_moduleName (ctx : Context) (isPublic isUnion : Bool) (ts : List Token) :
    (readStruct ctx isPublic isUnion ts).moduleName = ctx.moduleName := by
  unfold readStruct
  split <;> rfl

theorem readPublic_moduleName (ctx : Context) (ts : List Token) :
    (readPublic ctx ts).moduleName = ctx.moduleName := by
  unfold readPublic
  split
  · split
    · exact readFunction_moduleName ctx true _
    · exact readStruct_moduleName ctx true false _
    · exact readStruct_moduleName ctx true true _
    · rfl
  · rfl

theorem readStatement_moduleName (ctx : Context) (t : Token) (ts : List Token)
    (h : t.kind ≠ .keyword .moduleKw) : (readStatement ctx t ts).moduleName = ctx.moduleName := by
  unfold readStatement
  split
  · exact absurd ‹_› h
  · rfl
  · split
    · split <;> rfl
    · rfl
  · exact readPublic_moduleName ctx _
  · exact readFunction_moduleName ctx false _
  · exact readStruct_moduleName ctx false false _
  · exact readStruct_moduleName ctx false true _
  · rfl

/-! ### The points at which statements start

`Visits` is the loop over statements without its results.  A point has the module that the reader
is in when it comes there, so what is read at a point is a function of the point and the text, and
a property of all statements is one of all points.
-/

/-- A point of the reading: the module it is in, the first token of a statement and the tokens
behind that. -/
structure Visit where
  moduleName : String
  first : Token
  behind : List Token

namespace Visit

/-- What is read here. -/
def step (text : List Char) (v : Visit) : Step :=
  readStatement ⟨text, v.moduleName⟩ v.first v.behind

/-- The module that is named here, if this is the word `module` with an identifier behind it. -/
def moduleLine? (text : List Char) (v : Visit) : Option String :=
  match v.behind with
  | [] => none
  | t :: _ =>
    if v.first.kind = .keyword .moduleKw ∧ t.kind = .ident then some (Text.sliceString text t.span)
    else none

theorem step_moduleName (text : List Char) (v : Visit) :
    (v.step text).moduleName = (v.moduleLine? text).getD v.moduleName := by
  rcases v with ⟨moduleName, first, behind⟩
  by_cases hmodule : first.kind = .keyword .moduleKw
  · have hstep : readStatement ⟨text, moduleName⟩ first behind
        = readModule ⟨text, moduleName⟩ behind := by
      unfold readStatement
      rw [hmodule]
    show (readStatement ⟨text, moduleName⟩ first behind).moduleName = _
    rw [hstep]
    cases behind with
    | nil => rfl
    | cons t ts =>
        by_cases hident : t.kind = .ident
        · simp [readModule, moduleLine?, hmodule, hident, Context.sliceString]
        · simp [readModule, moduleLine?, hident]
  · have hnone : moduleLine? text ⟨moduleName, first, behind⟩ = none := by
      cases behind with
      | nil => rfl
      | cons t ts => simp [moduleLine?, hmodule]
    rw [hnone]
    exact readStatement_moduleName _ first behind hmodule

theorem step_reads (text : List Char) (v : Visit) :
    Reads ⟨text, v.moduleName⟩ v.behind (v.step text) :=
  readStatement_reads _ v.first v.behind

end Visit

/-- The points that a reading goes through, from inside the module `moduleName`. -/
inductive Visits (text : List Char) : String → List Token → List Visit → Prop
  | done (moduleName : String) : Visits text moduleName [] []
  | newline {moduleName : String} {t : Token} {ts : List Token} {visits : List Visit}
      (hkind : t.kind = .newline) (later : Visits text moduleName ts visits) :
      Visits text moduleName (t :: ts) visits
  | statement {moduleName : String} {t : Token} {ts : List Token} {visits : List Visit}
      (hkind : t.kind ≠ .newline)
      (later : Visits text ((⟨moduleName, t, ts⟩ : Visit).step text).moduleName
        ((⟨moduleName, t, ts⟩ : Visit).step text).rest visits) :
      Visits text moduleName (t :: ts) (⟨moduleName, t, ts⟩ :: visits)

/-- As many steps as there are tokens are enough for the whole file. -/
theorem readFrom_visits (text : List Char) :
    ∀ (fuel : Nat) (moduleName : String) (ts : List Token), ts.length ≤ fuel →
      ∃ visits, Visits text moduleName ts visits ∧
        (readFrom text fuel moduleName ts).statements
          = visits.filterMap fun v => (v.step text).statement := by
  intro fuel
  induction fuel with
  | zero =>
      intro moduleName ts hlen
      obtain rfl : ts = [] := List.eq_nil_of_length_eq_zero (by omega)
      exact ⟨[], .done moduleName, rfl⟩
  | succ fuel ih =>
      intro moduleName ts hlen
      cases ts with
      | nil => exact ⟨[], .done moduleName, rfl⟩
      | cons t ts =>
          simp only [List.length_cons] at hlen
          by_cases hkind : t.kind = .newline
          · obtain ⟨visits, hvisits, hstatements⟩ := ih moduleName ts (by omega)
            refine ⟨visits, .newline hkind hvisits, ?_⟩
            rw [← hstatements, readFrom, if_pos hkind]
          · set v : Visit := ⟨moduleName, t, ts⟩
            -- The statement uses up its first token, so the fuel left is enough for the rest.
            have hshort : (v.step text).rest.length ≤ ts.length :=
              (v.step_reads text).rest.length_le
            obtain ⟨visits, hvisits, hstatements⟩ :=
              ih (v.step text).moduleName (v.step text).rest (by omega)
            refine ⟨v :: visits, .statement hkind hvisits, ?_⟩
            rw [readFrom, if_neg hkind]
            show (v.step text).statement.toList
              ++ (readFrom text fuel (v.step text).moduleName (v.step text).rest).statements = _
            rw [hstatements, List.filterMap_cons]
            cases (v.step text).statement <;> rfl

/-- The tokens at a point are the last ones of the file. -/
theorem visits_suffix {text : List Char} {moduleName : String} {ts : List Token}
    {visits : List Visit} (h : Visits text moduleName ts visits) :
    ∀ v ∈ visits, v.first :: v.behind <:+ ts := by
  induction h with
  | done => intro v hv; simp at hv
  | newline hkind later ih =>
      intro v hv
      exact (ih v hv).trans (List.suffix_cons _ _)
  | statement hkind later ih =>
      intro v hv
      rcases List.mem_cons.mp hv with rfl | hv
      · exact List.suffix_refl _
      · exact ((ih v hv).trans (Visit.step_reads text _).rest).trans (List.suffix_cons _ _)

/-- **The module at a point is the one that the last module line before it names.** -/
theorem visits_moduleName {text : List Char} {moduleName : String} {ts : List Token}
    {visits : List Visit} (h : Visits text moduleName ts visits) :
    ∀ before v behind, visits = before ++ v :: behind →
      v.moduleName = (before.filterMap (Visit.moduleLine? text)).getLast?.getD moduleName := by
  induction h with
  | done => intro before v behind heq; simp at heq
  | newline hkind later ih => exact ih
  | @statement moduleName t ts visits hkind later ih =>
      intro before v behind heq
      cases before with
      | nil =>
          obtain ⟨rfl, -⟩ := List.cons.inj heq
          rfl
      | cons u before =>
          obtain ⟨rfl, hlater⟩ := List.cons.inj heq
          rw [ih before v behind hlater, Visit.step_moduleName, List.filterMap_cons]
          cases Visit.moduleLine? text ⟨moduleName, t, ts⟩ with
          | none => rfl
          | some named =>
              rw [List.getLast?_cons]
              rfl

/-- A module line names its module by a text that is not empty. -/
theorem moduleLine?_ne_empty {text : List Char} {moduleName : String} {visits : List Visit}
    (h : Visits text moduleName (Token.ofText text) visits) {v : Visit} (hv : v ∈ visits)
    {named : String} (hnamed : v.moduleLine? text = some named) : named ≠ "" := by
  have hsuffix := visits_suffix h v hv
  rcases v with ⟨current, first, behind⟩
  cases behind with
  | nil => simp [Visit.moduleLine?] at hnamed
  | cons t ts =>
      simp only [Visit.moduleLine?] at hnamed
      split at hnamed
      · have hmem : t.span ∈ Token.spans (Token.ofText text) :=
          List.mem_map_of_mem (hsuffix.subset (by simp))
        obtain ⟨raw, hne, hraw⟩ := (Token.ofText_inLine text).standsAt hmem
        obtain rfl := Option.some.inj hnamed
        rw [Text.sliceString_of_standsAt hraw]
        intro hempty
        exact hne (by simpa using congrArg String.toList hempty)
      · simp at hnamed

/-! ### Names as they are known -/

/-- The name by which a declaration is known that is written `raw` and has the module
`moduleName?` named above it, if any is. -/
def knownName (language : Language) (moduleName? : Option String) (raw : String) : String :=
  match language, moduleName? with
  | .c, _ => "C." ++ raw
  | .js, _ => "JS." ++ raw
  | .v, none => raw
  | .v, some named =>
    if named = "builtin" ∨ named = "main" then raw else named ++ "." ++ raw

theorem qualifyIn_eq_knownName (language : Language) (moduleName? : Option String) (raw : String)
    (hfilled : ∀ named ∈ moduleName?, named ≠ "") :
    qualifyIn language (moduleName?.getD "") raw = knownName language moduleName? raw := by
  cases language with
  | c => rfl
  | js => rfl
  | v =>
      cases moduleName? with
      | none => rfl
      | some named =>
          have hne : named ≠ "" := hfilled named rfl
          simp [qualifyIn, qualify, knownName, Language.qualifier?, hne]

/-- A text that is not empty stands at `place`, and `name` is what `known` makes of it. -/
def NamedAt (text : List Char) (place : Span) (known : String → String) (name : String) : Prop :=
  ∃ raw, raw ≠ [] ∧ StandsAt text raw place ∧ name = known (String.ofList raw)

/-- Every name in a statement is made of the text at its place. -/
def Named (text : List Char) (moduleName? : Option String) : Statement Span → Prop
  | .function d => NamedAt text d.place (knownName d.language moduleName?) d.name
  | .struct d =>
    NamedAt text d.place (knownName d.language moduleName?) d.name ∧
      ∀ f ∈ d.fields, NamedAt text f.place id f.name
  | .other => True

theorem namedAt_of_slice {text : List Char} {spans : List Span} (hline : InLine text spans)
    {place : Span} (hplace : place ∈ spans) {known : String → String} {name : String}
    (hname : name = known (Text.sliceString text place)) : NamedAt text place known name := by
  obtain ⟨raw, hne, hraw⟩ := hline.standsAt hplace
  rw [Text.sliceString_of_standsAt hraw] at hname
  exact ⟨raw, hne, hraw, hname⟩

theorem named_of_sliced {text : List Char} {moduleName? : Option String}
    (hfilled : ∀ named ∈ moduleName?, named ≠ "") {spans : List Span} (hline : InLine text spans)
    {st : Statement Span} (hplaces : st.places ⊆ spans)
    (hsliced : Sliced ⟨text, moduleName?.getD ""⟩ st) : Named text moduleName? st := by
  cases st with
  | other => trivial
  | function d =>
      refine namedAt_of_slice hline (hplaces (by simp [Statement.places])) ?_
      rw [← qualifyIn_eq_knownName _ _ _ hfilled]
      exact hsliced
  | struct d =>
      obtain ⟨hname, hfields⟩ := hsliced
      refine ⟨namedAt_of_slice hline (hplaces (by simp [Statement.places])) ?_, ?_⟩
      · rw [← qualifyIn_eq_knownName _ _ _ hfilled]
        exact hname
      · intro f hf
        have hmem : f.place ∈ (Statement.struct d).places :=
          List.mem_cons_of_mem _ (List.mem_map_of_mem hf)
        exact namedAt_of_slice hline (hplaces hmem) (hfields f hf)

end Outline

namespace SourceFile

open Outline (Visit Visits Named)

/--
**Every declaration of a tree is called by the text at its place.**

The statements of the tree are those of the points that the reading goes through, with the places
turned into lines and columns.  At each of these points the names are made of the text at their
places and of the last module line before; and all places together lie one behind the other.
-/
theorem read_places (cwd path : String) (text : List Char) (r : Reading) :
    ∃ visits : List Visit, Visits text "" (Token.ofText text) visits ∧
      let placed := visits.filterMap fun v => (v.step text).statement
      let position := (LineIndex.ofText text).position text
      (read cwd path text r).1.statements
          = placed.map (Statement.mapPlace fun s => ⟨position s.start, position s.stop⟩) ∧
        (∀ before v behind st, visits = before ++ v :: behind →
          (v.step text).statement = some st →
          Named text (before.filterMap (Visit.moduleLine? text)).getLast? st) ∧
        (placed.flatMap Statement.places).Pairwise
          fun a b => a.start < b.start ∧ a.stop ≤ b.start := by
  obtain ⟨visits, hvisits, hstatements⟩ :=
    Outline.readFrom_visits text _ "" (Token.ofText text) (Nat.le_refl _)
  have hline := Outline.ofText_inLine text
  have hplaced : (Outline.ofText text).statements
      = visits.filterMap fun v => (v.step text).statement := hstatements
  rw [hplaced] at hline
  refine ⟨visits, hvisits, ?_, ?_, ?_⟩
  · show (Outline.ofText text).statements.map _ = _
    rw [hplaced]
    rfl
  · intro before v behind st hsplit hst
    have hmem : st ∈ visits.filterMap fun v => (v.step text).statement :=
      List.mem_filterMap.mpr ⟨v, by simp [hsplit], hst⟩
    have hplaces : st.places ⊆ _ := fun p hp => List.mem_flatMap.mpr ⟨st, hmem, hp⟩
    refine Outline.named_of_sliced ?_ hline hplaces ?_
    · intro named hnamed
      obtain ⟨u, hu, hline?⟩ := List.mem_filterMap.mp (List.mem_of_getLast? hnamed)
      exact Outline.moduleLine?_ne_empty hvisits (by simp [hsplit, hu]) hline?
    · rw [← Outline.visits_moduleName hvisits before v behind hsplit]
      exact (v.step_reads text).sliced st hst
  · refine hline.apart.imp_of_mem ?_
    intro a b ha hb hab
    obtain ⟨-, -, hlt⟩ := hline.placed a ha
    exact ⟨by omega, hab⟩

example : (functionsOf (Outline.ofText "module m\nfn f()\nfn C.a.b()".toList).statements).map
    (fun d => (d.name, d.place)) = [("m.f", ⟨12, 13⟩), ("C.a.b", ⟨21, 24⟩)] := by decide +kernel

end SourceFile

end VServer
