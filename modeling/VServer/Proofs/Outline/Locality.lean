/-
Statements are read the same inside a larger text.

The second half of the way from groups to whole files: fields, structs, functions, statements, and
the loop over them.  `outlineFrom_around` is where it ends.  The reader goes through the tokens of
the text inside as it does when they stand alone, and then on through the tokens behind them, in
the module that the text inside has left it in.

Every reader hands three things on to the next one: that the tokens it leaves still end with a
newline, that there are no faults in what it has read, and that all places are in line.  The first
of these is proved with each lemma, the others follow from what is known of the whole.  In the end
the condition is about the text inside alone: it has no faults, or nothing stands behind it.
-/
import VServer.Proofs.Outline.Around

namespace VServer.Outline

open Text (Span InLine Boundary byteSize)
open Token (spans spans_sublist)

namespace Around

variable (w : Around)

def extent (e : TypeExtent) : TypeExtent :=
  ⟨e.faults.map w.fault, w.offset e.stop, w.tokens e.rest⟩

def fieldStep (s : FieldStep) : FieldStep :=
  ⟨s.field.map (Field.mapPlace w.span), s.mentions, s.faults.map w.fault, w.tokens s.rest⟩

def body (b : Body) : Body :=
  ⟨b.fields.map (Field.mapPlace w.span), b.mentions, b.faults.map w.fault, w.tokens b.rest⟩

def step (s : Step) : Step :=
  ⟨s.statement.map (Statement.mapPlace w.span), s.registrations, s.faults.map w.fault,
    s.moduleName, w.tokens s.rest, s.tally⟩

def outline (o : Outline) : Outline :=
  { o with
    statements := o.statements.map (Statement.mapPlace w.span)
    faults := o.faults.map w.fault }

end Around

variable {w : Around} {ctx : Context}

/-! ### Fields

A type is cut out of the text by its first and its last place.  Both are places of tokens of the
text inside, and texts around it do not change what stands between two such places.
-/

/-- A token that ends the type of a field. -/
def StopsType (begun : Bool) (stop : Nat) (t : Token) : Prop :=
  t.kind = .newline ∨ t.kind = .equals ∨ (∃ b, t.kind = .closer b) ∨
    t.kind = .opener .square ∧ begun = true ∧ stop < t.span.start

/-- A token ends the type, or starts a group in it, or is part of it. -/
theorem cases_type (begun : Bool) (stop : Nat) (t : Token) : StopsType begun stop t ∨
    (∃ b, t.kind = .opener b ∧ ¬ (b = .square ∧ begun = true ∧ stop < t.span.start)) ∨
    (t.kind ≠ .newline ∧ t.kind ≠ .equals ∧ t.kind.isBracket = false) := by
  by_cases hstop : StopsType begun stop t
  · exact .inl hstop
  · unfold StopsType at hstop
    cases hkind : t.kind <;> simp_all [Kind.isBracket]

theorem closeGroup_stop {P : Nat → Prop} (unclosed : Fault) :
    ∀ (ts : List Token) (stop : Nat) (top : Bracket) (below : List Bracket), P stop →
      (∀ t ∈ ts, P t.span.stop) → P (closeGroup unclosed stop top below ts).stop := by
  intro ts
  induction ts with
  | nil => intro stop top below hstop _; exact hstop
  | cons t ts ih =>
      intro stop top below _ hall
      have hhead := hall t List.mem_cons_self
      have hlater : ∀ u ∈ ts, P u.span.stop := fun u hu => hall u (List.mem_cons_of_mem t hu)
      unfold closeGroup
      split
      · exact ih _ _ _ hhead hlater
      · split
        · exact hhead
        · exact ih _ _ _ hhead hlater
      · exact ih _ _ _ hhead hlater

/-- The type of a field ends where one of its tokens does. -/
theorem typeEnd_stop {P : Nat → Prop} : ∀ (ts : List Token) (begun : Bool) (stop : Nat), P stop →
    (∀ t ∈ ts, P t.span.stop) → P (typeEnd begun stop ts).stop := by
  refine tokens_induction (fun begun stop hstop _ => hstop) ?_
  intro t ts ih begun stop hstop hall
  have hhead := hall t List.mem_cons_self
  have hlater : ∀ u ∈ ts, P u.span.stop := fun u hu => hall u (List.mem_cons_of_mem t hu)
  rcases cases_type begun stop t with hends | ⟨b, hkind, hgap⟩ | ⟨hnewline, hequals, hplain⟩
  · rw [typeEnd_stops ts hends]
    exact hstop
  · have hsuffix := skipGroup_suffix t.span b ts
    rw [typeEnd_opener ts hkind hgap]
    exact ih _ hsuffix true _ (closeGroup_stop _ ts _ _ _ hhead hlater)
      fun u hu => hlater u (hsuffix.subset hu)
  · rw [typeEnd_plain ts hnewline hequals hplain]
    exact ih ts (List.suffix_refl ts) true _ hhead hlater

theorem typeEnd_around : ∀ (ts : List Token) (begun : Bool) (stop : Nat), w.Ends ts →
    w.Quiet (typeEnd begun stop ts).faults →
    typeEnd begun (w.offset stop) (w.tokens ts) = w.extent (typeEnd begun stop ts) ∧
      w.Ends (typeEnd begun stop ts).rest := by
  refine tokens_induction ?_ ?_
  · intro begun stop hends _
    refine ⟨?_, hends⟩
    simp [typeEnd, typeExtentIn, Around.extent, hends.last_of_nil.later_eq]
  · intro t ts ih begun stop hends hquiet
    rcases cases_type begun stop t with hstops | ⟨b, hkind, hgap⟩ | ⟨hnewline, hequals, hplain⟩
    · have hstops' : StopsType begun (w.offset stop) (w.token t) := by
        refine hstops.imp_right (Or.imp_right (Or.imp_right ?_))
        rintro ⟨hkind, hbegun, hlt⟩
        exact ⟨hkind, hbegun, Nat.add_lt_add_left hlt _⟩
      rw [typeEnd_stops ts hstops, Around.tokens_cons, typeEnd_stops _ hstops']
      exact ⟨rfl, hends⟩
    · have hgap' : ¬ (b = .square ∧ begun = true ∧ w.offset stop < (w.token t).span.start) := by
        rintro ⟨hsquare, hbegun, hlt⟩
        exact hgap ⟨hsquare, hbegun, Nat.lt_of_add_lt_add_left hlt⟩
      have hlater := (hends.tail (by simp [hkind])).lines
      rw [typeEnd_opener ts hkind hgap] at hquiet ⊢
      obtain ⟨hgroup, hgo⟩ := skipGroup_around hlater hquiet.left
      obtain ⟨heq, hrest⟩ := ih _ (skipGroup_suffix _ _ ts) true (skipGroup t.span b ts).stop hgo
        hquiet.right
      refine ⟨?_, hrest⟩
      rw [Around.tokens_cons, typeEnd_opener (t := w.token t) _ hkind hgap', Around.token_span,
        hgroup]
      simp only [Around.groupEnd]
      rw [heq]
      simp [Around.extent]
    · rw [typeEnd_plain ts hnewline hequals hplain] at hquiet ⊢
      rw [Around.tokens_cons, typeEnd_plain (t := w.token t) _ hnewline hequals hplain]
      exact ih ts (List.suffix_refl ts) true _ (hends.tail hnewline) hquiet

theorem readTypedField_around {name : Span} {start : Nat} {ts : List Token} (hends : w.Ends ts)
    (hquiet : w.Quiet (readTypedField ctx name start ts).faults)
    (hname : Boundary ctx.text name.start ∧ Boundary ctx.text name.stop)
    (hstart : Boundary ctx.text start) (hline : InLine ctx.text (spans ts)) :
    readTypedField (w.context ctx) (w.span name) (w.offset start) (w.tokens ts)
      = w.fieldStep (readTypedField ctx name start ts) := by
  obtain ⟨hextent, hgo⟩ := typeEnd_around ts false start hends hquiet.left
  have htail := skipFieldRest_around hgo hquiet.right
  have hstop : Boundary ctx.text (typeEnd false start ts).stop :=
    typeEnd_stop ts false start hstart fun t ht =>
      (hline.placed t.span (List.mem_map_of_mem ht)).2.1
  have htype : (w.context ctx).slice ⟨w.offset start, w.offset (typeEnd false start ts).stop⟩
      = ctx.slice ⟨start, (typeEnd false start ts).stop⟩ := w.slice_span (s := ⟨_, _⟩) hstart hstop
  have htext : (w.context ctx).sliceString (w.span name) = ctx.sliceString name :=
    congrArg String.ofList (w.slice_span hname.1 hname.2)
  have hextent' : typeExtent (w.offset start) (w.tokens ts) = w.extent (typeEnd false start ts) :=
    hextent
  simp only [readTypedField, hextent', Around.extent, htype, htext, htail]
  simp [Around.fieldStep, Around.skim, Field.mapPlace, typeExtent, typeEnd]

theorem readField_around {t : Token} {ts : List Token} (hends : w.Ends ts)
    (hquiet : w.Quiet (readField ctx t.span ts).faults)
    (hline : InLine ctx.text (spans (t :: ts))) :
    readField (w.context ctx) (w.span t.span) (w.tokens ts)
      = w.fieldStep (readField ctx t.span ts) := by
  have hname := w.slice_mem hline List.mem_cons_self
  cases ts with
  | nil => simp [readField, Around.fieldStep, hends.last_of_nil.later_eq, hname]
  | cons u us =>
      obtain ⟨hstart, hstop, -⟩ := hline.placed t.span List.mem_cons_self
      obtain ⟨hnext, -⟩ := hline.placed u.span (List.mem_cons_of_mem _ List.mem_cons_self)
      have hlater := hline.sublist (spans_sublist (List.suffix_cons t (u :: us)))
      have htyped : w.Quiet (readTypedField ctx t.span u.span.start (u :: us)).faults →
          readTypedField (w.context ctx) (w.span t.span) (w.offset u.span.start)
            (w.tokens (u :: us)) = w.fieldStep (readTypedField ctx t.span u.span.start (u :: us)) :=
        fun h => readTypedField_around hends h ⟨hstart, hstop⟩ hnext hlater
      unfold readField at hquiet ⊢
      simp only [Around.tokens_cons, Around.token_kind, Around.token_span, hname] at hquiet ⊢
      cases hkind : u.kind with
      | newline => simp [Around.fieldStep]
      | dot =>
          simp only [hkind] at hquiet ⊢
          have htail := skipFieldRest_around hends hquiet
          rw [Around.tokens_cons] at htail
          rw [htail]
          rfl
      | closer b =>
          cases b with
          | brace => simp [Around.fieldStep]
          | paren => simp only [hkind] at hquiet; exact htyped hquiet
          | square => simp only [hkind] at hquiet; exact htyped hquiet
      | _ => simp only [hkind] at hquiet; exact htyped hquiet

theorem isAccessWord_around {t : Token}
    (h : (w.context ctx).slice (w.span t.span) = ctx.slice t.span) :
    isAccessWord (w.context ctx) (w.token t) = isAccessWord ctx t := by
  rw [isAccessWord, isAccessWord, Around.token_span, h]
  rfl

theorem accessSection?_around :
    ∀ (ts : List Token) (begun : Bool), w.Ends ts → InLine ctx.text (spans ts) →
      accessSection? (w.context ctx) begun (w.tokens ts)
        = (accessSection? ctx begun ts).map w.tokens := by
  intro ts
  induction ts with
  | nil =>
      intro begun hends _
      simp [accessSection?, hends.last_of_nil.later_eq]
  | cons t ts ih =>
      intro begun hends hline
      have hword := isAccessWord_around (w := w) (w.slice_mem hline List.mem_cons_self)
      by_cases hcolon : t.kind = .colon
      · have hcolon' : (w.token t).kind = .colon := hcolon
        simp only [Around.tokens_cons, accessSection?, if_pos hcolon, if_pos hcolon']
        cases begun <;> rfl
      have hcolon' : ¬ (w.token t).kind = .colon := hcolon
      simp only [Around.tokens_cons, accessSection?, if_neg hcolon, if_neg hcolon', hword]
      by_cases haccess : isAccessWord ctx t = true
      · have hnewline : t.kind ≠ .newline := by
          intro h
          simp [isAccessWord, h] at haccess
        simp only [if_pos haccess]
        exact ih true (hends.tail hnewline)
          (hline.sublist (spans_sublist (List.suffix_cons t ts)))
      · simp [haccess]

theorem attributeStep_around {span : Span} {ts : List Token} (hlines : w.Lines ts)
    (hquiet : w.Quiet (attributeStep span ts).faults) :
    attributeStep (w.span span) (w.tokens ts) = w.fieldStep (attributeStep span ts) := by
  rw [attributeStep, (skipGroup_around hlines hquiet).1]
  rfl

/-- A line that is reported is read with nothing behind the text. -/
theorem strayStep_around {t : Token} {ts : List Token}
    (hquiet : w.Quiet (strayStep t ts).faults) :
    strayStep (w.token t) (w.tokens ts) = w.fieldStep (strayStep t ts) := by
  have hlast := hquiet.last
  rw [strayStep, ← Around.tokens_cons, skipFieldRest_around (.inl hlast) (.inl hlast)]
  rfl

/-- A token that starts no field and no attribute is reported. -/
theorem readLine_stray {t : Token} (ts : List Token) (hname : ¬ t.kind.isName = true)
    (hsquare : t.kind ≠ .opener .square) (hat : t.kind ≠ .atSign) :
    readLine ctx t ts = strayStep t ts := by
  unfold readLine
  rw [if_neg hname]
  split
  · exact absurd ‹_› hsquare
  · exact absurd ‹_› hat
  · rfl

theorem readLine_around {t : Token} {ts : List Token} (hends : w.Ends ts)
    (hquiet : w.Quiet (readLine ctx t ts).faults) (hline : InLine ctx.text (spans (t :: ts))) :
    readLine (w.context ctx) (w.token t) (w.tokens ts) = w.fieldStep (readLine ctx t ts) := by
  by_cases hname : t.kind.isName = true
  · have hname' : (w.token t).kind.isName = true := hname
    simp only [readLine, if_pos hname, if_pos hname'] at hquiet ⊢
    exact readField_around hends hquiet hline
  by_cases hsquare : t.kind = .opener .square
  · simp only [readLine, Around.token_kind, hsquare] at hquiet ⊢
    exact attributeStep_around hends.lines hquiet
  by_cases hat : t.kind = .atSign
  · simp only [readLine, Around.token_kind, hat] at hquiet ⊢
    cases ts with
    | nil =>
        have hstray := strayStep_around hquiet
        simp only [Around.tokens_nil, hquiet.last.later_eq] at hstray ⊢
        exact hstray
    | cons u us =>
        by_cases hopen : u.kind = .opener .square
        · have hopen' : (w.token u).kind = .opener .square := hopen
          simp only [Around.tokens_cons, if_pos hopen, if_pos hopen'] at hquiet ⊢
          exact attributeStep_around (hends.tail (by simp [hopen])).lines hquiet
        · have hopen' : ¬ (w.token u).kind = .opener .square := hopen
          simp only [Around.tokens_cons, if_neg hopen, if_neg hopen'] at hquiet ⊢
          exact strayStep_around hquiet
  · rw [readLine_stray ts hname hsquare hat] at hquiet ⊢
    rw [readLine_stray (t := w.token t) _ hname hsquare hat]
    exact strayStep_around hquiet

/-! ### Structs -/

theorem body_prepend (s : FieldStep) (b : Body) :
    w.body (b.prepend s) = (w.body b).prepend (w.fieldStep s) := by
  cases hfield : s.field <;> simp [Around.body, Body.prepend, Around.fieldStep, hfield]

theorem bodyFrom_around (unclosed : Fault) : ∀ ts : List Token, w.Lines ts →
    w.Quiet (bodyFrom ctx unclosed ts).faults → InLine ctx.text (spans ts) →
    bodyFrom (w.context ctx) (w.fault unclosed) (w.tokens ts)
      = w.body (bodyFrom ctx unclosed ts) := by
  refine tokens_induction ?_ ?_
  · intro _ hquiet _
    have hlast := hquiet.last
    simp [bodyFrom, readBodyIn, Around.body, hlast.later_eq]
  · intro t ts ih hlines hquiet hline
    have hgo : ∀ {rest : List Token}, rest <:+ ts →
        w.Quiet (bodyFrom ctx unclosed rest).faults →
        bodyFrom (w.context ctx) (w.fault unclosed) (w.tokens rest)
          = w.body (bodyFrom ctx unclosed rest) := by
      intro rest hrest hquiet
      have hsuffix := hrest.trans (List.suffix_cons t ts)
      exact ih rest hrest (hlines.suffix hsuffix) hquiet (hline.sublist (spans_sublist hsuffix))
    by_cases hnewline : t.kind = .newline
    · rw [bodyFrom_newline ts hnewline] at hquiet ⊢
      rw [Around.tokens_cons, bodyFrom_newline (t := w.token t) _ hnewline]
      exact hgo (List.suffix_refl ts) hquiet
    by_cases hclose : t.kind = .closer .brace
    · rw [bodyFrom_close ts hclose, Around.tokens_cons,
        bodyFrom_close (t := w.token t) _ hclose]
      rfl
    have haccess' := accessSection?_around (t :: ts) false hlines.ends hline
    rw [Around.tokens_cons] at haccess' ⊢
    cases haccess : accessSection? ctx false (t :: ts) with
    | some rest =>
        rw [haccess] at haccess'
        rw [bodyFrom_access hnewline hclose haccess] at hquiet ⊢
        rw [bodyFrom_access (t := w.token t) hnewline hclose haccess']
        exact hgo (accessSection?_cons_suffix haccess) hquiet
    | none =>
        rw [haccess] at haccess'
        rw [bodyFrom_line hnewline hclose haccess] at hquiet ⊢
        rw [bodyFrom_line (t := w.token t) hnewline hclose haccess',
          readLine_around (hlines.tail hnewline) hquiet.left hline, body_prepend,
          ← hgo (readLine_suffix ctx t ts hclose) hquiet.right]
        rfl

theorem readBody?_around {ts : List Token} (hends : w.Ends ts)
    (hquiet : w.Quiet (readBody? ctx ts).faults) (hline : InLine ctx.text (spans ts)) :
    readBody? (w.context ctx) (w.tokens ts) = w.body (readBody? ctx ts) := by
  cases ts with
  | nil => simp [readBody?, Around.body, hends.last_of_nil.later_eq]
  | cons t ts =>
      by_cases hopen : t.kind = .opener .brace
      · have hopen' : (w.token t).kind = .opener .brace := hopen
        simp only [readBody?, Around.tokens_cons, if_pos hopen, if_pos hopen'] at hquiet ⊢
        exact bodyFrom_around _ ts (hends.tail (by simp [hopen])).lines hquiet
          (hline.sublist (spans_sublist (List.suffix_cons t ts)))
      · have hopen' : ¬ (w.token t).kind = .opener .brace := hopen
        simp only [readBody?, if_neg hopen] at hquiet ⊢
        have htail := skipStatement_around hends hquiet
        rw [Around.tokens_cons] at htail ⊢
        simp only [if_neg hopen', htail]
        rfl

/-! ### Statements -/

theorem otherStep_around (fs : List Fault) {ts : List Token} (hends : w.Ends ts)
    (hquiet : w.Quiet (otherStep ctx fs ts).faults) :
    otherStep (w.context ctx) (fs.map w.fault) (w.tokens ts) = w.step (otherStep ctx fs ts) := by
  rw [otherStep, skipStatement_around hends hquiet.right]
  simp [otherStep, Around.step, Around.skim, Statement.mapPlace]

/-- A statement that is passed over from its first token on. -/
theorem otherStep_cons_around {t : Token} {ts : List Token} (hends : w.Ends (t :: ts))
    (hquiet : w.Quiet (otherStep ctx [] (t :: ts)).faults) :
    otherStep (w.context ctx) [] (w.token t :: w.tokens ts)
      = w.step (otherStep ctx [] (t :: ts)) :=
  otherStep_around [] hends hquiet

theorem attributeStatement_around {span : Span} {ts : List Token} (hlines : w.Lines ts)
    (hquiet : w.Quiet (attributeStatement ctx span ts).faults) :
    attributeStatement (w.context ctx) (w.span span) (w.tokens ts)
      = w.step (attributeStatement ctx span ts) := by
  rw [attributeStatement, (skipGroup_around hlines hquiet).1]
  rfl

theorem readModule_around {ts : List Token} (hends : w.Ends ts)
    (hquiet : w.Quiet (readModule ctx ts).faults) (hline : InLine ctx.text (spans ts)) :
    readModule (w.context ctx) (w.tokens ts) = w.step (readModule ctx ts) := by
  cases ts with
  | nil =>
      have hlast := hends.last_of_nil
      have hplace := here_around (w := w) ctx [] hlast
      rw [Around.tokens_nil, hlast.later_eq] at hplace ⊢
      simp only [here] at hplace
      simp [readModule, skipStatement, skim, skimIn, Around.step, Around.fault,
        Statement.mapPlace, hplace, hlast.later_eq]
  | cons t ts =>
      by_cases hident : t.kind = .ident
      · have hident' : (w.token t).kind = .ident := hident
        have hname : (w.context ctx).sliceString (w.span t.span) = ctx.sliceString t.span :=
          congrArg String.ofList (w.slice_mem hline List.mem_cons_self)
        simp only [readModule, if_pos hident] at hquiet
        have htail := skipStatement_around hends hquiet
        rw [Around.tokens_cons] at htail ⊢
        simp only [readModule, if_pos hident, if_pos hident', htail, Around.token_span, hname]
        rfl
      · have hident' : ¬ (w.token t).kind = .ident := hident
        simp only [readModule, if_neg hident] at hquiet
        have hlast := hquiet.last
        have htail := skipStatement_around hends (.inl hlast)
        rw [Around.tokens_cons] at htail ⊢
        simp only [readModule, if_neg hident, if_neg hident', htail]
        rfl

/-- The name that was read stands in the text. -/
theorem readName_slice {allowOperator : Bool} {ts : List Token}
    (hline : InLine ctx.text (spans ts)) {declared : DeclaredName} {rest : List Token}
    (hread : readName ctx allowOperator ts = (some declared, rest)) :
    (w.context ctx).sliceString (w.span declared.span) = ctx.sliceString declared.span := by
  have hnarrow := readName_narrows ctx allowOperator ts ctx.text [] hline
  rw [hread] at hnarrow
  exact congrArg String.ofList (w.slice_mem hnarrow List.mem_cons_self)

theorem readFunction_around (isPublic : Bool) {ts : List Token} (hends : w.Ends ts)
    (hquiet : w.Quiet (readFunction ctx isPublic ts).faults)
    (hline : InLine ctx.text (spans ts)) :
    readFunction (w.context ctx) isPublic (w.tokens ts)
      = w.step (readFunction ctx isPublic ts) := by
  rcases hreceiver : skipOptional .paren ts with ⟨isMethod, receiver⟩
  rcases hread : readName ctx isMethod receiver.rest with ⟨declared?, rest⟩
  have hquietReceiver : w.Quiet receiver.faults := by
    simp only [readFunction, hreceiver, hread] at hquiet
    cases declared? with
    | none => exact hquiet.left.left
    | some declared => exact hquiet.left.left
  -- The receiver and the name leave tokens that end with a newline.
  have hafter := skipOptional_around .paren hends (by rw [hreceiver]; exact hquietReceiver)
  have hlater := hline.sublist (spans_sublist (skipOptional_suffix .paren ts))
  rw [hreceiver] at hafter hlater
  have hname := readName_around isMethod hafter.2 hlater
  rw [hread] at hname
  cases declared? with
  | none =>
      simp only [readFunction, hreceiver, hread] at hquiet
      have hlast := hquiet.left.right.last
      have hother := otherStep_around _ hname.2 hquiet
      simp only [readFunction, hreceiver, hread, hafter.1, Around.skim, hname.1, Around.nameRead,
        Option.map_none, here_around ctx rest hlast, ← hother]
      simp [Around.fault]
  | some declared =>
      simp only [readFunction, hreceiver, hread] at hquiet
      have htext := readName_slice (w := w) hlater hread
      obtain ⟨hgenerics, hgo⟩ := skipOptional_around .square hname.2 hquiet.left.right
      have htail := skipSignature_around hgo hquiet.right
      simp only [readFunction, hreceiver, hread, hafter.1, Around.skim, hname.1, Around.nameRead,
        Option.map_some, Around.declared, hgenerics, htail, htext, Around.context_moduleName]
      simp [Around.step, Statement.mapPlace, Function.mapPlace]

theorem readStruct_around (isPublic isUnion : Bool) {ts : List Token} (hends : w.Ends ts)
    (hquiet : w.Quiet (readStruct ctx isPublic isUnion ts).faults)
    (hline : InLine ctx.text (spans ts)) :
    readStruct (w.context ctx) isPublic isUnion (w.tokens ts)
      = w.step (readStruct ctx isPublic isUnion ts) := by
  rcases hread : readName ctx false ts with ⟨declared?, rest⟩
  have hname := readName_around false hends hline
  have hlater := hline.sublist (spans_sublist (readName_suffix ctx false ts))
  rw [hread] at hname hlater
  cases declared? with
  | none =>
      simp only [readStruct, hread] at hquiet
      have hlast := hquiet.left.last
      have hother := otherStep_around _ hname.2 hquiet
      simp only [readStruct, hread, hname.1, Around.nameRead, Option.map_none,
        here_around ctx rest hlast, ← hother]
      simp [Around.fault]
  | some declared =>
      simp only [readStruct, hread] at hquiet
      have htext := readName_slice (w := w) hline hread
      obtain ⟨hgenerics, hgo⟩ := skipOptional_around .square hname.2 hquiet.left
      have hbody := readBody?_around hgo hquiet.right
        (hlater.sublist (spans_sublist (skipOptional_suffix .square rest)))
      simp only [readStruct, hread, hname.1, Around.nameRead, Option.map_some, Around.declared,
        hgenerics, Around.skim, hbody, Around.body, htext, Around.context_moduleName]
      simp [Around.step, Statement.mapPlace, Struct.mapPlace]

theorem readPublic_around {ts : List Token} (hends : w.Ends ts)
    (hquiet : w.Quiet (readPublic ctx ts).faults) (hline : InLine ctx.text (spans ts)) :
    readPublic (w.context ctx) (w.tokens ts) = w.step (readPublic ctx ts) := by
  cases ts with
  | nil =>
      have hother := otherStep_around [] hends hquiet
      rw [Around.tokens_nil, hends.last_of_nil.later_eq] at hother ⊢
      exact hother
  | cons t ts =>
      have hlater := hline.sublist (spans_sublist (List.suffix_cons t ts))
      simp only [readPublic, Around.tokens_cons, Around.token_kind] at hquiet ⊢
      cases hkind : t.kind with
      | keyword word =>
          have hrest := hends.tail (by simp [hkind])
          simp only [hkind] at hquiet ⊢
          cases word with
          | fnKw => exact readFunction_around true hrest hquiet hlater
          | structKw => exact readStruct_around true false hrest hquiet hlater
          | unionKw => exact readStruct_around true true hrest hquiet hlater
          | _ => exact otherStep_cons_around hends hquiet
      | _ =>
          simp only [hkind] at hquiet
          exact otherStep_cons_around hends hquiet

theorem readStatement_around {t : Token} {ts : List Token} (hends : w.Ends (t :: ts))
    (hnewline : t.kind ≠ .newline) (hquiet : w.Quiet (readStatement ctx t ts).faults)
    (hline : InLine ctx.text (spans (t :: ts))) :
    readStatement (w.context ctx) (w.token t) (w.tokens ts) = w.step (readStatement ctx t ts) := by
  have hrest := hends.tail hnewline
  have hlater := hline.sublist (spans_sublist (List.suffix_cons t ts))
  unfold readStatement at hquiet ⊢
  simp only [Around.token_kind] at hquiet ⊢
  cases hkind : t.kind with
  | keyword word =>
      simp only [hkind] at hquiet ⊢
      cases word with
      | moduleKw => exact readModule_around hrest hquiet hlater
      | pubKw => exact readPublic_around hrest hquiet hlater
      | fnKw => exact readFunction_around false hrest hquiet hlater
      | structKw => exact readStruct_around false false hrest hquiet hlater
      | unionKw => exact readStruct_around false true hrest hquiet hlater
      | _ => exact otherStep_cons_around hends hquiet
  | opener b =>
      simp only [hkind] at hquiet ⊢
      cases b with
      | square => exact attributeStatement_around hrest.lines hquiet
      | _ => exact otherStep_cons_around hends hquiet
  | atSign =>
      simp only [hkind] at hquiet ⊢
      cases ts with
      | nil =>
          have hother := otherStep_cons_around hends hquiet
          rw [Around.tokens_nil, hrest.last_of_nil.later_eq] at hother ⊢
          exact hother
      | cons u us =>
          by_cases hopen : u.kind = .opener .square
          · have hopen' : (w.token u).kind = .opener .square := hopen
            simp only [Around.tokens_cons, if_pos hopen, if_pos hopen'] at hquiet ⊢
            exact attributeStatement_around (hrest.tail (by simp [hopen])).lines hquiet
          · have hopen' : ¬ (w.token u).kind = .opener .square := hopen
            simp only [Around.tokens_cons, if_neg hopen, if_neg hopen'] at hquiet ⊢
            exact otherStep_cons_around hends hquiet
  | _ =>
      simp only [hkind] at hquiet
      exact otherStep_cons_around hends hquiet

/-! ### Files

The loop over statements is where the text inside ends.  A statement that takes the last newline
with it leaves no tokens, and the next turn starts with those behind.
-/

/-- What is read first and then what is read behind it. -/
def append (o p : Outline) : Outline where
  statements := o.statements ++ p.statements
  registrations := o.registrations ++ p.registrations
  faults := o.faults ++ p.faults
  moduleName := p.moduleName
  tally := o.tally.add p.tally

theorem nil_append (moduleName : String) (o : Outline) :
    append ⟨[], [], [], moduleName, {}⟩ o = o := by
  simp [append]

theorem outline_prepend_append (s : Step) (o p : Outline) :
    (w.outline (o.prepend s)).append p = ((w.outline o).append p).prepend (w.step s) := by
  cases hstatement : s.statement <;>
    simp [Around.outline, append, prepend, Around.step, hstatement, Tally.add_assoc]

/-- **The reader goes through the tokens of a text as if they stood alone, and then on through
those behind them, in the module that the text has left it in.** -/
theorem outlineFrom_around (text : List Char) : ∀ (ts : List Token) (moduleName : String),
    w.Lines ts → w.Quiet (outlineFrom text moduleName ts).faults → InLine text (spans ts) →
    outlineFrom (w.text text) moduleName (w.tokens ts)
      = (w.outline (outlineFrom text moduleName ts)).append
          (outlineFrom (w.text text) (outlineFrom text moduleName ts).moduleName w.later) := by
  refine tokens_induction ?_ ?_
  · intro moduleName _ _ _
    exact (nil_append moduleName _).symm
  · intro t ts ih moduleName hlines hquiet hline
    rw [Around.tokens_cons]
    by_cases hnewline : t.kind = .newline
    · rw [outlineFrom_newline text moduleName ts hnewline] at hquiet ⊢
      rw [outlineFrom_newline (t := w.token t) _ _ _ hnewline]
      exact ih ts (List.suffix_refl ts) moduleName (hlines.suffix (List.suffix_cons t ts)) hquiet
        (hline.sublist (spans_sublist (List.suffix_cons t ts)))
    · have hrest := (readStatement_reads ⟨text, moduleName⟩ t ts).rest
      have hsuffix := hrest.trans (List.suffix_cons t ts)
      rw [outlineFrom_statement text moduleName ts hnewline] at hquiet ⊢
      have hstep := readStatement_around hlines.ends hnewline hquiet.left hline
      have hgo := ih _ hrest (readStatement ⟨text, moduleName⟩ t ts).moduleName
        (hlines.suffix hsuffix) hquiet.right (hline.sublist (spans_sublist hsuffix))
      rw [outlineFrom_statement (t := w.token t) _ _ _ hnewline]
      refine Eq.trans ?_ (outline_prepend_append _ _ _).symm
      have hstep' : readStatement ⟨w.text text, moduleName⟩ (w.token t) (w.tokens ts)
          = w.step (readStatement ⟨text, moduleName⟩ t ts) := hstep
      simp only [hstep']
      exact congrArg (prepend _) hgo

end VServer.Outline
