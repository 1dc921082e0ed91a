/-
The declarations of a file stand one behind the other.

A reader does two things to the places of the tokens it is given: it leaves some of them out, and
it joins those of a dotted name or of a run of operator marks.  Both keep spans in line, which is
what `Narrows` says.  So the places that a reader returns, with those of the tokens it leaves
behind them, narrow the places of the tokens it was given.

`Reads` says this of a statement, and with it that the reader moves forward and that the names it
returns are slices of the text.  Each reader is described once; at the end of the file only the
places of the declarations are left.

To be in line is to be between characters, none empty and each behind the one before it.  The
tokens of a file are in line by the way they are scanned, and that is all that is used of the
scanner.
-/
import VServer.Proofs.Token.Scan
import VServer.Proofs.Outline.Cursor

namespace VServer

/-- The place of the name that a statement declares, and behind it those of its fields. -/
def Statement.places {α : Type} : Statement α → List α
  | .function d => [d.place]
  | .struct d => d.place :: d.fields.map Field.place
  | .other => []

namespace Outline

open Text (Span InLine Narrows narrows_of_sublist narrows_join)
open Token (spans spans_sublist)

/-! ### Names

The parts of a name are joined from the left, so the start stays and the end moves.
-/

theorem dottedEnd_narrows (start stop : Nat) (ts : List Token) :
    Narrows (⟨start, stop⟩ :: spans ts)
      (⟨start, (dottedEnd stop ts).1⟩ :: spans (dottedEnd stop ts).2) := by
  fun_induction dottedEnd stop ts with
  | case1 stop d n ts hdot ih =>
      -- The dot is left out, and the word behind it joined on.
      have hdrop : Narrows (⟨start, stop⟩ :: spans (d :: n :: ts))
          (⟨start, stop⟩ :: n.span :: spans ts) :=
        narrows_of_sublist ((List.sublist_cons_self _ _).cons_cons _)
      exact (hdrop.trans (narrows_join _ _ _)).trans ih
  | case2 => exact narrows_of_sublist (List.Sublist.refl _)
  | case3 => exact narrows_of_sublist (List.Sublist.refl _)

theorem operatorEnd_narrows (start stop : Nat) (ts : List Token) :
    Narrows (⟨start, stop⟩ :: spans ts)
      (⟨start, (operatorEnd stop ts).1⟩ :: spans (operatorEnd stop ts).2) := by
  fun_induction operatorEnd stop ts with
  | case1 => exact narrows_of_sublist (List.Sublist.refl _)
  | case2 stop t ts hpart ih => exact (narrows_join _ _ _).trans ih
  | case3 => exact narrows_of_sublist (List.Sublist.refl _)

/-- The place of a name that was read, if there is one, and those of the tokens behind it. -/
def nameSpans (read : Option DeclaredName × List Token) : List Span :=
  read.1.toList.map DeclaredName.span ++ spans read.2

theorem readForeignName_narrows (language : Language) (ts : List Token) :
    Narrows (spans ts) (nameSpans (readForeignName language ts)) := by
  unfold readForeignName
  split
  · rename_i t rest
    split
    · exact dottedEnd_narrows t.span.start t.span.stop rest
    · exact narrows_of_sublist (List.Sublist.refl _)
  · exact narrows_of_sublist (List.Sublist.refl _)

theorem readName_narrows (ctx : Context) (allowOperator : Bool) (ts : List Token) :
    Narrows (spans ts) (nameSpans (readName ctx allowOperator ts)) := by
  unfold readName
  split
  · exact narrows_of_sublist (List.Sublist.refl _)
  · rename_i t rest
    split
    · exact operatorEnd_narrows t.span.start t.span.stop rest
    split
    · split
      · rename_i language d after _
        split
        · have hafter : Narrows (spans (t :: d :: after)) (spans after) :=
            narrows_of_sublist ((List.sublist_cons_self _ _).cons _)
          exact hafter.trans (readForeignName_narrows language after)
        · exact narrows_of_sublist (List.Sublist.refl _)
      · exact narrows_of_sublist (List.Sublist.refl _)
    · exact narrows_of_sublist (List.Sublist.refl _)

/-! ### Fields

The name of a field is one word, so nothing is joined here and a sublist says it all.
-/

/-- What a line of a struct comes to that starts at `ts`. -/
structure ReadsLine (ctx : Context) (ts : List Token) (step : FieldStep) : Prop where
  rest : step.rest <:+ ts
  places : (step.field.toList.map Field.place ++ spans step.rest).Sublist (spans ts)
  sliced : ∀ f ∈ step.field, f.name = ctx.sliceString f.place

theorem readsLine_of_rest {ctx : Context} {ts : List Token} {step : FieldStep}
    (hfield : step.field = none) (hrest : step.rest <:+ ts) : ReadsLine ctx ts step where
  rest := hrest
  places := by
    rw [hfield]
    exact spans_sublist hrest
  sliced := by
    intro f hf
    rw [hfield] at hf
    simp at hf

theorem readField_reads (ctx : Context) (t : Token) (ts : List Token) :
    ReadsLine ctx (t :: ts) (readField ctx t.span ts) := by
  have hcons := List.suffix_cons t ts
  unfold readField
  split
  · exact readsLine_of_rest rfl hcons
  · split
    · exact readsLine_of_rest rfl hcons
    · exact readsLine_of_rest rfl hcons
    · exact readsLine_of_rest rfl ((skim_suffix fieldRestMove _).trans hcons)
    · have hrest := readTypedField_suffix ctx t.span
      refine ⟨(hrest _ _).trans hcons, (spans_sublist (hrest _ _)).cons_cons _, ?_⟩
      intro f hf
      obtain rfl := Option.mem_some.mp hf
      rfl

theorem readLine_reads (ctx : Context) (t : Token) (ts : List Token) :
    ReadsLine ctx (t :: ts) (readLine ctx t ts) := by
  unfold readLine
  split
  · exact readField_reads ctx t ts
  · split
    · exact readsLine_of_rest rfl ((skipGroup_suffix _ _ _).trans (List.suffix_cons t _))
    · rename_i u us _
      split
      · exact readsLine_of_rest rfl ((skipGroup_suffix _ _ us).trans
          ((List.suffix_cons u us).trans (List.suffix_cons t (u :: us))))
      · exact readsLine_of_rest rfl (skim_suffix fieldRestMove _)
    · exact readsLine_of_rest rfl (skim_suffix fieldRestMove _)

/-- What the lines of a struct come to that start at `ts`. -/
structure ReadsBody (ctx : Context) (ts : List Token) (body : Body) : Prop where
  rest : body.rest <:+ ts
  places : (body.fields.map Field.place ++ spans body.rest).Sublist (spans ts)
  sliced : ∀ f ∈ body.fields, f.name = ctx.sliceString f.place

namespace ReadsBody

variable {ctx : Context} {ts us : List Token} {body : Body}

theorem of_rest (hfields : body.fields = []) (hrest : body.rest <:+ ts) :
    ReadsBody ctx ts body where
  rest := hrest
  places := by
    rw [hfields]
    exact spans_sublist hrest
  sliced := by
    intro f hf
    rw [hfields] at hf
    simp at hf

theorem of_suffix (h : ReadsBody ctx us body) (hus : us <:+ ts) : ReadsBody ctx ts body :=
  ⟨h.rest.trans hus, h.places.trans (spans_sublist hus), h.sliced⟩

/-- A line in front of other lines. -/
theorem prepend {step : FieldStep} (hline : ReadsLine ctx ts step)
    (h : ReadsBody ctx step.rest body) : ReadsBody ctx ts (body.prepend step) where
  rest := h.rest.trans hline.rest
  places := by
    refine List.Sublist.trans ?_ hline.places
    simp only [Body.prepend, List.map_append, List.append_assoc]
    exact h.places.append_left _
  sliced := by
    intro f hf
    rcases List.mem_append.mp hf with hfirst | hlater
    · exact hline.sliced f (by simpa using hfirst)
    · exact h.sliced f hlater

end ReadsBody

theorem readBodyIn_reads (ctx : Context) (unclosed : Fault) :
    ∀ (fuel : Nat) (ts : List Token), ReadsBody ctx ts (readBodyIn ctx unclosed fuel ts) := by
  intro fuel
  induction fuel with
  | zero => intro ts; exact .of_rest rfl (List.suffix_refl _)
  | succ fuel ih =>
      intro ts
      cases ts with
      | nil => exact .of_rest rfl (List.suffix_refl _)
      | cons t ts =>
          unfold readBodyIn
          split
          · exact (ih ts).of_suffix (List.suffix_cons t ts)
          split
          · exact .of_rest rfl (List.suffix_cons t ts)
          split
          · rename_i rest haccess
            exact (ih rest).of_suffix (accessSection?_suffix ctx (t :: ts) false rest haccess)
          · exact .prepend (readLine_reads ctx t ts) (ih _)

theorem readBody?_reads (ctx : Context) (ts : List Token) :
    ReadsBody ctx ts (readBody? ctx ts) := by
  unfold readBody?
  split
  · rename_i t rest
    split
    · exact (readBodyIn_reads ctx _ _ rest).of_suffix (List.suffix_cons t rest)
    · exact .of_rest rfl (skim_suffix statementMove _)
  · exact .of_rest rfl (List.suffix_refl _)

/-! ### Statements

A step either declares something, and then its places are those of the name and the fields, or it
declares nothing and only moves forward.  The lemma about one step is stated for the tokens behind
the first one, so that a step is known to use up a token.
-/

/-- The names in a statement are slices of the text, qualified by the module of the reader. -/
def Sliced (ctx : Context) : Statement Span → Prop
  | .function d => d.name = qualifyIn d.language ctx.moduleName (ctx.sliceString d.place)
  | .struct d =>
    d.name = qualifyIn d.language ctx.moduleName (ctx.sliceString d.place) ∧
      ∀ f ∈ d.fields, f.name = ctx.sliceString f.place
  | .other => True

/-- The places that a step declares, and those of the tokens behind it. -/
def stepSpans (step : Step) : List Span :=
  step.statement.toList.flatMap Statement.places ++ spans step.rest

/-- What a statement comes to that is read from `ts`. -/
structure Reads (ctx : Context) (ts : List Token) (step : Step) : Prop where
  rest : step.rest <:+ ts
  narrows : Narrows (spans ts) (stepSpans step)
  sliced : ∀ st ∈ step.statement, Sliced ctx st

namespace Reads

variable {ctx : Context} {ts us : List Token} {step : Step}

/-- A step that declares nothing. -/
theorem of_rest (hother : ∀ st ∈ step.statement, st = .other) (hrest : step.rest <:+ ts) :
    Reads ctx ts step where
  rest := hrest
  narrows := by
    have hplaces : step.statement.toList.flatMap Statement.places = [] := by
      cases hst : step.statement with
      | none => rfl
      | some st => rw [hother st hst]; rfl
    unfold stepSpans
    rw [hplaces]
    exact narrows_of_sublist (spans_sublist hrest)
  sliced := by
    intro st hst
    rw [hother st hst]
    trivial

theorem of_suffix (h : Reads ctx us step) (hus : us <:+ ts) : Reads ctx ts step :=
  ⟨h.rest.trans hus, (narrows_of_sublist (spans_sublist hus)).trans h.narrows, h.sliced⟩

end Reads

theorem otherStep_reads (ctx : Context) (faults : List Fault) (ts : List Token) :
    Reads ctx ts (otherStep ctx faults ts) :=
  .of_rest (by simp [otherStep]) (skim_suffix statementMove ts)

/-- The statement that starts with `t` and is passed over takes `t` with it. -/
theorem otherStep_cons_reads (ctx : Context) (t : Token) (ts : List Token) :
    Reads ctx ts (otherStep ctx [] (t :: ts)) :=
  .of_rest (by simp [otherStep]) (skipStatement_cons_suffix t ts)

theorem attributeStatement_reads (ctx : Context) (span : Span) (ts : List Token) :
    Reads ctx ts (attributeStatement ctx span ts) :=
  .of_rest (by simp [attributeStatement]) (skipGroup_suffix _ _ ts)

theorem readModule_reads (ctx : Context) (ts : List Token) :
    Reads ctx ts (readModule ctx ts) := by
  have hrest := skim_suffix statementMove ts
  unfold readModule
  simp only
  split
  · split
    · exact .of_rest (by simp) hrest
    · exact .of_rest (by simp) hrest
  · exact .of_rest (by simp) hrest

theorem readFunction_reads (ctx : Context) (isPublic : Bool) (ts : List Token) :
    Reads ctx ts (readFunction ctx isPublic ts) := by
  have hreceiver := skipOptional_suffix .paren ts
  have hnamed := readName_suffix ctx (skipOptional .paren ts).1 (skipOptional .paren ts).2.rest
  have hsuffix := hnamed.trans hreceiver
  have hname := (narrows_of_sublist (spans_sublist hreceiver)).trans
    (readName_narrows ctx (skipOptional .paren ts).1 (skipOptional .paren ts).2.rest)
  unfold readFunction
  simp only
  split
  · rename_i rest hread
    rw [hread] at hsuffix
    exact (otherStep_reads ctx _ rest).of_suffix hsuffix
  · rename_i declared rest hread
    rw [hread] at hsuffix hname
    have htail := (skim_suffix signatureMove _).trans (skipOptional_suffix .square rest)
    refine ⟨htail.trans hsuffix, ?_, ?_⟩
    · exact hname.trans (narrows_of_sublist ((spans_sublist htail).cons_cons declared.span))
    · intro st hst
      obtain rfl := Option.mem_some.mp hst
      rfl

theorem readStruct_reads (ctx : Context) (isPublic isUnion : Bool) (ts : List Token) :
    Reads ctx ts (readStruct ctx isPublic isUnion ts) := by
  have hsuffix := readName_suffix ctx false ts
  have hname := readName_narrows ctx false ts
  unfold readStruct
  split
  · rename_i rest hread
    rw [hread] at hsuffix
    exact (otherStep_reads ctx _ rest).of_suffix hsuffix
  · rename_i declared rest hread
    rw [hread] at hsuffix hname
    have hgenerics := skipOptional_suffix .square rest
    have hbody := (readBody?_reads ctx (skipOptional .square rest).2.rest).of_suffix hgenerics
    refine ⟨hbody.rest.trans hsuffix, hname.trans (narrows_of_sublist ?_), ?_⟩
    · simpa [stepSpans, nameSpans, Statement.places] using hbody.places
    · intro st hst
      obtain rfl := Option.mem_some.mp hst
      exact ⟨rfl, hbody.sliced⟩

theorem readPublic_reads (ctx : Context) (ts : List Token) :
    Reads ctx ts (readPublic ctx ts) := by
  unfold readPublic
  split
  · rename_i t rest
    have hcons := List.suffix_cons t rest
    split
    · exact (readFunction_reads ctx true rest).of_suffix hcons
    · exact (readStruct_reads ctx true false rest).of_suffix hcons
    · exact (readStruct_reads ctx true true rest).of_suffix hcons
    · exact otherStep_reads ctx [] _
  · exact otherStep_reads ctx [] _

/-- **What one step comes to, whichever statement it reads.**  It is said of the tokens behind the
first one, so a step always uses that one up. -/
theorem readStatement_reads (ctx : Context) (t : Token) (ts : List Token) :
    Reads ctx ts (readStatement ctx t ts) := by
  unfold readStatement
  split
  · exact readModule_reads ctx ts
  · exact attributeStatement_reads ctx _ ts
  · split
    · rename_i u us
      split
      · exact (attributeStatement_reads ctx _ us).of_suffix (List.suffix_cons u us)
      · exact otherStep_cons_reads ctx t _
    · exact otherStep_cons_reads ctx t _
  · exact readPublic_reads ctx ts
  · exact readFunction_reads ctx false ts
  · exact readStruct_reads ctx false false ts
  · exact readStruct_reads ctx false true ts
  · exact otherStep_cons_reads ctx t ts

/-- The whole reading, by induction on the steps it may take. -/
theorem readFrom_narrows (text : List Char) :
    ∀ (fuel : Nat) (moduleName : String) (ts : List Token),
      Narrows (spans ts)
        ((readFrom text fuel moduleName ts).statements.flatMap Statement.places) := by
  intro fuel
  induction fuel with
  | zero => intro moduleName ts; exact narrows_of_sublist (List.nil_sublist _)
  | succ fuel ih =>
      intro moduleName ts
      cases ts with
      | nil => exact narrows_of_sublist (List.nil_sublist _)
      | cons t ts =>
          unfold readFrom
          split
          · exact (narrows_of_sublist (List.sublist_cons_self _ _)).trans (ih moduleName ts)
          · set step := readStatement ⟨text, moduleName⟩ t ts
            have hreads := (readStatement_reads ⟨text, moduleName⟩ t ts).of_suffix
              (List.suffix_cons t ts)
            simp only [prepend, List.flatMap_append]
            exact hreads.narrows.trans ((ih step.moduleName step.rest).append_left _)

/-- **The names that a file declares, and those of the fields behind each, stand in it one behind
the other.** -/
theorem ofText_inLine (text : List Char) :
    InLine text ((ofText text).statements.flatMap Statement.places) :=
  readFrom_narrows text _ "" (Token.ofText text) text [] (Token.ofText_inLine text)

end Outline

end VServer
