/-
Which brackets of a file are reported.

At the top of a file no bracket is open, and in the lines of a struct one brace is.  If the
brackets of a file are paired, this is so at every point that the reader comes to, so it never
meets a bracket without a partner, whatever else is wrong there.

A file that is not paired is reported, with one exception.  What stands behind the name of a field
is passed over up to the end of the line or the brace that ends the struct, and a closing bracket
of another kind is passed over with it (`LoneCloser`).

Both directions are carried by `Passes`, from one reader to the next.  What a reader may lose is a
proposition in it, and here it becomes concrete: a field loses a closing bracket that stands alone
on its line, a struct what its fields lose, and a file what its structs lose.  A reader that
reports something else on the way is excused, since a file with a fault of any kind is reported.
-/
import VServer.Proofs.Outline.Locality
import VServer.Proofs.Outline.Paired
import VServer.Proofs.Outline.StructLine
import VServer.SourceFile

namespace VServer.Outline

/-! ### The rest of a field

This is the only skim that passes a closing bracket without a word.  What it loses is a bracket on
the line of the field that closes nothing, since everything that is opened behind the name is
passed over as a group.
-/

/-- A closing bracket, but no brace, stands on this line outside all brackets. -/
inductive LoneCloser : List Token → Prop
  | here {t : Token} {ts : List Token} {b : Bracket} (hkind : t.kind = .closer b)
      (hbrace : b ≠ .brace) : LoneCloser (t :: ts)
  | plain {t : Token} {ts : List Token} (hnewline : t.kind ≠ .newline)
      (hplain : t.kind.isBracket = false) (later : LoneCloser ts) : LoneCloser (t :: ts)
  | group {b : Bracket} {first last : Token} {inner ts : List Token}
      (hfirst : first.kind = .opener b) (hinner : Paired inner) (hlast : last.kind = .closer b)
      (later : LoneCloser ts) : LoneCloser (first :: (inner ++ last :: ts))

theorem closes_of_loneCloser {ts : List Token} (h : LoneCloser ts) (opened : List Bracket) :
    closes (.brace :: opened) ts = false := by
  induction h with
  | here hkind hbrace => rw [closes_closer hkind, decide_eq_false hbrace.symm, Bool.false_and]
  | plain hnewline hplain later ih => rw [closes_plain hplain, ih]
  | group hfirst hinner hlast later ih =>
      rw [closes_opener hfirst, closes_append hinner, closes_closer hlast, ih, Bool.and_false]

/-- The rest of a field loses a closing bracket that stands alone, and nothing else. -/
theorem skipFieldRest_passes (opened : List Bracket) : ∀ ts : List Token,
    Passes (LoneCloser ts) (.brace :: opened) ts (skipFieldRest ts).faults (.brace :: opened)
      (skipFieldRest ts).rest := by
  have hforward : ∀ ts, closes (.brace :: opened) ts = true → ¬ LoneCloser ts := by
    intro ts hts hlone
    rw [closes_of_loneCloser hlone opened] at hts
    exact absurd hts Bool.false_ne_true
  refine tokens_induction ?_ ?_
  · exact (Passes.stay _ []).relabel (hforward []) fun _ h => h.elim
  · intro t ts ih
    have hnext := ih ts (List.suffix_refl ts)
    rcases t.kind.cases_shape with hkind | ⟨b, hkind⟩ | ⟨b, hkind⟩ | ⟨hnewline, hplain⟩
    · rw [skipFieldRest_newline ts hkind]
      have hplain : t.kind.isBracket = false := by rw [hkind]; rfl
      exact (Passes.plain _ ts hplain).relabel (hforward _) fun _ h => h.elim
    · rw [skipFieldRest_opener ts hkind]
      refine ((skipGroup_passes _ ts hkind).before (ih _ (skipGroup_suffix _ _ ts))).relabel
        (hforward _) fun hnone hlone => ?_
      obtain ⟨inner, last, hts, hinner, hlast⟩ :=
        skipGroup_quiet (List.append_eq_nil_iff.mp hnone).1
      rw [hts]
      exact .group hkind hinner hlast hlone
    · by_cases hbrace : b = .brace
      · subst hbrace
        rw [skipFieldRest_close ts hkind]
        exact (Passes.stay _ (t :: ts)).relabel (hforward _) fun _ h => h.elim
      · have hlone : LoneCloser (t :: ts) := .here hkind hbrace
        exact ⟨fun hts => absurd hlone (hforward _ hts), fun _ h => absurd hlone h⟩
    · rw [skipFieldRest_plain ts hnewline hplain]
      exact ((Passes.plain _ ts hplain).quietly hnext).relabel (hforward _)
        fun _ h => .plain hnewline hplain h

/-- The type of a field and what stands behind it are passed over as the rest of a field. -/
theorem skipFieldRest_typeEnd : ∀ (ts : List Token) (begun : Bool) (stop : Nat),
    (skipFieldRest (typeEnd begun stop ts).rest).prepend (typeEnd begun stop ts).faults
      = skipFieldRest ts := by
  refine tokens_induction (fun _ _ => rfl) ?_
  intro t ts ih begun stop
  rcases cases_type begun stop t with hstops | ⟨b, hkind, hgap⟩ | ⟨hnewline, hequals, hplain⟩
  · rw [typeEnd_stops ts hstops]
    rfl
  · rw [typeEnd_opener ts hkind hgap, skipFieldRest_opener ts hkind,
      ← ih _ (skipGroup_suffix _ _ ts) true (skipGroup t.span b ts).stop]
    simp [Skim.prepend]
  · rw [typeEnd_plain ts hnewline hequals hplain, skipFieldRest_plain ts hnewline hplain]
    exact ih ts (List.suffix_refl ts) true _

theorem readTypedField_skims (ctx : Context) (name : Text.Span) (start : Nat) (ts : List Token) :
    (readTypedField ctx name start ts).faults = (skipFieldRest ts).faults ∧
      (readTypedField ctx name start ts).rest = (skipFieldRest ts).rest := by
  rw [← skipFieldRest_typeEnd ts false start]
  exact ⟨rfl, rfl⟩

theorem readField_passes (opened : List Bracket) (ctx : Context) (name : Text.Span)
    (ts : List Token) :
    Passes (LoneCloser ts) (.brace :: opened) ts (readField ctx name ts).faults
      (.brace :: opened) (readField ctx name ts).rest := by
  have hrest := skipFieldRest_passes opened ts
  -- An embedded type is left where the rest of a field would stop as well.
  have hstay : closes (.brace :: opened) ts = true → ¬ LoneCloser ts :=
    fun hts => (hrest.forward hts).2.1
  have hembedded : Passes (LoneCloser ts) (.brace :: opened) ts [] (.brace :: opened) ts :=
    (Passes.stay _ ts).relabel hstay fun _ h => h.elim
  unfold readField
  split
  · exact hembedded
  · rename_i t ts
    split
    · exact hembedded
    · exact hembedded
    · exact hrest
    · obtain ⟨hfaults, hbehind⟩ := readTypedField_skims ctx name t.span.start (t :: ts)
      rw [hfaults, hbehind]
      exact hrest

/-! ### The lines of a struct -/

/-- A field with a closing bracket behind its name that closes nothing. -/
def LineVisit.HasLoneCloser (line : LineVisit) : Prop :=
  line.first.kind.isName = true ∧ LoneCloser line.behind

theorem strayStep_passes (opened : List Bracket) (t : Token) (ts : List Token) :
    Passes False (.brace :: opened) (t :: ts) (strayStep t ts).faults (.brace :: opened)
      (strayStep t ts).rest :=
  (skipFieldRest_passes opened (t :: ts)).excuse rfl

theorem readLine_passes (opened : List Bracket) (ctx : Context) (t : Token) (ts : List Token) :
    Passes (LineVisit.HasLoneCloser ⟨t, ts⟩) (.brace :: opened) (t :: ts)
      (readLine ctx t ts).faults (.brace :: opened) (readLine ctx t ts).rest := by
  by_cases hname : t.kind.isName = true
  · rw [readLine_name ts hname]
    have hplain := Kind.isBracket_of_isName hname
    refine ((Passes.plain _ ts hplain).quietly (readField_passes opened ctx t.span ts)).of_iff ?_
    exact (and_iff_right hname).symm
  · have hnone : False ↔ LineVisit.HasLoneCloser ⟨t, ts⟩ := iff_of_false id fun h => hname h.1
    refine Passes.of_iff ?_ hnone
    unfold readLine
    rw [if_neg hname]
    split
    · rename_i hkind
      exact skipGroup_passes _ _ hkind
    · rename_i u us hkind
      split
      · rename_i hu
        have hplain : t.kind.isBracket = false := by rw [hkind]; rfl
        exact (Passes.plain _ (u :: us) hplain).quietly (skipGroup_passes _ us hu)
      · exact strayStep_passes opened t _
    · exact strayStep_passes opened t _

theorem bodyFrom_passes (opened : List Bracket) {ctx : Context} (unclosed : Fault)
    {ts : List Token} {lines : List LineVisit} (h : Lines ctx ts lines) :
    Passes (∃ line ∈ lines, line.HasLoneCloser) (.brace :: opened) ts
      (bodyFrom ctx unclosed ts).faults opened (bodyFrom ctx unclosed ts).rest := by
  induction h with
  | unclosed => exact .report rfl
  | @closed t ts hkind =>
      rw [bodyFrom_close ts hkind]
      exact (Passes.closer .brace opened ts hkind).of_iff (by simp)
  | @newline t ts lines hkind later ih =>
      rw [bodyFrom_newline ts hkind]
      exact (Passes.plain _ ts (by rw [hkind]; rfl)).quietly ih
  | access hnewline hclose haccess later ih =>
      rw [bodyFrom_access hnewline hclose haccess]
      exact (accessSection?_passes _ ctx _ _ _ haccess).quietly ih
  | @line t ts lines hnewline hclose haccess later ih =>
      rw [bodyFrom_line hnewline hclose haccess]
      refine ((readLine_passes opened ctx t ts).andThen ih).of_iff ?_
      rw [List.exists_mem_cons_iff]

/-! ### Statements -/

/-- A struct, behind the word that starts it, loses what its fields lose. -/
theorem readStruct_passes (ctx : Context) (isPublic isUnion : Bool) (ts : List Token) :
    Passes (∃ body lines line, structBody? ctx ts = some body ∧ Lines ctx body lines ∧
        line ∈ lines ∧ line.HasLoneCloser) [] ts
      (readStruct ctx isPublic isUnion ts).faults []
      (readStruct ctx isPublic isUnion ts).rest := by
  have hname := readName_passes [] ctx false ts
  have hnone : structBody? ctx ts = none → ∀ {fs rest}, Passes False [] ts fs [] rest →
      Passes (∃ body lines line, structBody? ctx ts = some body ∧ Lines ctx body lines ∧
        line ∈ lines ∧ line.HasLoneCloser) [] ts fs [] rest :=
    fun h _ _ hpasses => hpasses.of_iff (by simp [h])
  rcases hread : readName ctx false ts with ⟨_ | declared, rest⟩
  · rw [hread] at hname
    refine hnone (by simp [structBody?, hread]) ?_
    simp only [readStruct, hread]
    exact hname.quietly ((skipStatement_passes rest).excuse rfl)
  · rw [hread] at hname
    have hsquare := hname.quietly (skipOptional_passes .square [] rest)
    simp only [readStruct, hread]
    rcases hrest : (skipOptional .square rest).2.rest with _ | ⟨t, body⟩
    · rw [hrest] at hsquare
      exact hnone (by simp [structBody?, hread, hrest]) (hsquare.before (.stay [] []))
    · rw [hrest] at hsquare
      by_cases hkind : t.kind = .opener .brace
      · have hbody : structBody? ctx ts = some body := by simp [structBody?, hread, hrest, hkind]
        have hopen : readBody? ctx (t :: body)
            = bodyFrom ctx ⟨t.span, .unclosed .brace⟩ body := by
          simp only [readBody?, hkind, if_true]
          rfl
        have hlines : ∀ {lines}, Lines ctx body lines → _ := fun hlines =>
          hsquare.before ((Passes.opener [] body hkind).quietly
            (bodyFrom_passes [] ⟨t.span, .unclosed .brace⟩ hlines))
        rw [hopen]
        refine ⟨fun hts => ?_, fun hquiet hlost => ?_⟩
        · obtain ⟨lines, hsome⟩ := exists_lines ctx body.length body (Nat.le_refl _)
          refine ⟨((hlines hsome).forward hts).1, ?_, ((hlines hsome).forward hts).2.2⟩
          rintro ⟨body', lines', line, hbody', hlines', hline⟩
          obtain rfl : body = body' := Option.some.inj (hbody.symm.trans hbody')
          exact ((hlines hlines').forward hts).2.1 ⟨line, hline⟩
        · obtain ⟨lines, hsome⟩ := exists_lines ctx body.length body (Nat.le_refl _)
          refine (hlines hsome).back hquiet ?_
          rintro ⟨line, hline⟩
          exact hlost ⟨body, lines, line, hbody, hsome, hline⟩
      · refine hnone (by simp [structBody?, hread, hrest, hkind]) ?_
        simp only [readBody?, if_neg hkind]
        exact hsquare.before (skipStatement_passes (t :: body))

theorem readFunction_passes (ctx : Context) (isPublic : Bool) (ts : List Token) :
    Passes False [] ts (readFunction ctx isPublic ts).faults []
      (readFunction ctx isPublic ts).rest := by
  have hreceiver := skipOptional_passes .paren [] ts
  have hname := readName_passes [] ctx (skipOptional .paren ts).1 (skipOptional .paren ts).2.rest
  unfold readFunction
  simp only
  split
  · rename_i rest hread
    rw [hread] at hname
    simp only [otherStep, List.append_assoc]
    exact hreceiver.before (hname.quietly ((skipStatement_passes rest).excuse rfl))
  · rename_i declared rest hread
    rw [hread] at hname
    simp only [List.append_assoc]
    exact hreceiver.before (hname.quietly
      ((skipOptional_passes .square [] rest).before (skipSignature_passes [] _)))

theorem readModule_passes (ctx : Context) (ts : List Token) :
    Passes False [] ts (readModule ctx ts).faults [] (readModule ctx ts).rest := by
  unfold readModule
  split
  · split
    · exact skipStatement_passes _
    · exact (skipStatement_passes _).excuse rfl
  · exact (skipStatement_passes _).excuse rfl

/-- **What one step does to the brackets of a file.** -/
theorem Visit.step_passes (text : List Char) (v : Visit) :
    Passes (∃ line, v.HasLine text line ∧ line.HasLoneCloser) [] (v.first :: v.behind)
      (v.step text).faults [] (v.step text).rest := by
  rcases v with ⟨moduleName, t, ts⟩
  set v : Visit := ⟨moduleName, t, ts⟩ with hv
  have hother : v.structTokens? = none → ∀ {fs rest}, Passes False [] (t :: ts) fs [] rest →
      Passes (∃ line, v.HasLine text line ∧ line.HasLoneCloser) [] (t :: ts) fs [] rest :=
    fun h _ _ hpasses => hpasses.of_iff (by simp [HasLine, h])
  have hstruct : ∀ isPublic isUnion us, v.structTokens? = some us →
      Passes False [] (t :: ts) [] [] us →
      Passes (∃ line, v.HasLine text line ∧ line.HasLoneCloser) [] (t :: ts)
        (readStruct ⟨text, moduleName⟩ isPublic isUnion us).faults []
        (readStruct ⟨text, moduleName⟩ isPublic isUnion us).rest := by
    intro isPublic isUnion us h hus
    refine (hus.quietly (readStruct_passes _ isPublic isUnion us)).of_iff ?_
    simp only [HasLine, h, Option.some.injEq]
    constructor
    · rintro ⟨body, lines, line, hbody, hlines, hline, hlone⟩
      exact ⟨line, ⟨us, body, lines, rfl, hbody, hlines, hline⟩, hlone⟩
    · rintro ⟨line, ⟨_, body, lines, rfl, hbody, hlines, hline⟩, hlone⟩
      exact ⟨body, lines, line, hbody, hlines, hline, hlone⟩
  have hfirst : t.kind.isBracket = false → Passes False [] (t :: ts) [] [] ts :=
    Passes.plain [] ts
  have hpassed := skipStatement_passes (t :: ts)
  show Passes _ _ _ (readStatement ⟨text, moduleName⟩ t ts).faults _
    (readStatement ⟨text, moduleName⟩ t ts).rest
  unfold readStatement
  split
  · rename_i hkind
    exact hother (by simp [structTokens?, hv, hkind])
      ((hfirst (by rw [hkind]; rfl)).quietly (readModule_passes _ ts))
  · rename_i hkind
    exact hother (by simp [structTokens?, hv, hkind]) (skipGroup_passes [] ts hkind)
  · rename_i hkind
    refine hother (by simp [structTokens?, hv, hkind]) ?_
    split
    · rename_i u us
      split
      · rename_i hu
        exact (hfirst (by rw [hkind]; rfl)).quietly (skipGroup_passes [] us hu)
      · exact hpassed
    · exact hpassed
  · rename_i hkind
    have hword := hfirst (by rw [hkind]; rfl)
    unfold readPublic
    split
    · rename_i u us
      split
      · rename_i hu
        exact hother (by simp [structTokens?, hv, hkind, hu])
          (hword.quietly ((Passes.plain [] us (by rw [hu]; rfl)).quietly
            (readFunction_passes _ true us)))
      · rename_i hu
        exact hstruct true false us (by simp [structTokens?, hv, hkind, hu])
          (hword.quietly (Passes.plain [] us (by rw [hu]; rfl)))
      · rename_i hu
        exact hstruct true true us (by simp [structTokens?, hv, hkind, hu])
          (hword.quietly (Passes.plain [] us (by rw [hu]; rfl)))
      · rename_i hfn hstructKw hunion
        exact hother (by simp only [structTokens?, hv, hkind])
          (hword.quietly (skipStatement_passes (u :: us)))
    · exact hother (by simp [structTokens?, hv, hkind])
        (hword.quietly (skipStatement_passes []))
  · rename_i hkind
    exact hother (by simp [structTokens?, hv, hkind])
      ((hfirst (by rw [hkind]; rfl)).quietly (readFunction_passes _ false ts))
  · rename_i hkind
    exact hstruct false false ts (by simp [structTokens?, hv, hkind])
      (hfirst (by rw [hkind]; rfl))
  · rename_i hkind
    exact hstruct false true ts (by simp [structTokens?, hv, hkind])
      (hfirst (by rw [hkind]; rfl))
  · rename_i hmodule hsquare hat hpub hfn hstructKw hunion
    refine hother ?_ hpassed
    unfold structTokens?
    split
    · exact absurd ‹_› hstructKw
    · exact absurd ‹_› hunion
    · exact absurd ‹_› hpub
    · rfl

/-! ### Files

The steps of a file are put together along its visits.  At the end nothing is open and nothing is
left, so the two directions of `Passes` become the two theorems: a paired file has no fault about a
bracket, and a file without faults is paired unless it lost something.
-/

/-- The whole reading, from step to step. -/
theorem outlineFrom_passes {text : List Char} {moduleName : String} {ts : List Token}
    {visits : List Visit} (h : Visits text moduleName ts visits) :
    Passes (∃ v ∈ visits, ∃ line, v.HasLine text line ∧ line.HasLoneCloser) [] ts
      (outlineFrom text moduleName ts).faults [] [] := by
  induction h with
  | done moduleName => exact (Passes.stay [] []).of_iff (by simp)
  | @newline moduleName t ts visits hkind later ih =>
      rw [outlineFrom_newline _ _ ts hkind]
      exact (Passes.plain [] ts (by rw [hkind]; rfl)).quietly ih
  | @statement moduleName t ts visits hkind later ih =>
      rw [outlineFrom_statement _ _ ts hkind]
      refine ((Visit.step_passes text ⟨moduleName, t, ts⟩).andThen ih).of_iff ?_
      rw [List.exists_mem_cons_iff]

/-- A field of the file has a closing bracket behind its name that closes nothing. -/
def HasLoneCloser (text : List Char) : Prop :=
  ∃ moduleName line, StructLine text moduleName line ∧ line.HasLoneCloser

theorem strayFaults_noBracketFault (text : List Char) (lexemes : List Lexeme) :
    NoBracketFault (strayFaults text lexemes) := by
  intro f hf
  obtain ⟨l, -, rfl⟩ := List.mem_map.mp hf
  rfl

/-- The faults of a paired file are not about brackets, and none of its brackets stands alone. -/
theorem ofText_paired {text : List Char} (h : Paired (Token.ofText text)) :
    NoBracketFault (ofText text).faults ∧ ¬ HasLoneCloser text := by
  have hcloses := (paired_iff _).mp h
  have hforward : ∀ {visits}, Visits text "" (Token.ofText text) visits → _ :=
    fun hvisits => (outlineFrom_passes hvisits).forward hcloses
  obtain ⟨visits, hvisits, -⟩ := readFrom_visits text _ "" (Token.ofText text) (Nat.le_refl _)
  refine ⟨(strayFaults_noBracketFault text _).append (hforward hvisits).1, ?_⟩
  rintro ⟨moduleName, line, ⟨visits', v, hvisits', hv, -, hline⟩, hlone⟩
  exact (hforward hvisits').2.1 ⟨v, hv, line, hline, hlone⟩

/-- A file without faults is paired, if none of its fields has a closing bracket that stands
alone. -/
theorem paired_of_quiet {text : List Char} (hquiet : (ofText text).faults = [])
    (hlone : ¬ HasLoneCloser text) : Paired (Token.ofText text) := by
  obtain ⟨visits, hvisits, -⟩ := readFrom_visits text _ "" (Token.ofText text) (Nat.le_refl _)
  obtain ⟨-, hread⟩ := List.append_eq_nil_iff.mp hquiet
  refine (paired_iff _).mpr ((outlineFrom_passes hvisits).back hread ?_ rfl)
  rintro ⟨v, hv, line, hline, hhas⟩
  exact hlone ⟨v.moduleName, line, ⟨visits, v, hvisits, hv, rfl, hline⟩, hhas⟩

end VServer.Outline

namespace VServer.SourceFile

open Outline (Paired HasLoneCloser)

/--
**In a paired file no bracket is reported.**

Declarations may lack their names, the lines of structs may be no fields and words may stand
anywhere: none of this is told as a bracket that is not closed, not opened or of the wrong kind.
-/
theorem read_paired (cwd path : String) (text : List Char) (r : Reading)
    (h : Paired (Token.ofText text)) :
    ∀ report ∈ (read cwd path text r).2.1,
      ∀ word ∈ ["unclosed".toList, "unmatched".toList, "mismatched".toList],
        ¬ word <+: report.cause.message.toList := by
  intro report hreport word hword hfront
  obtain ⟨f, hf, rfl⟩ := List.mem_map.mp hreport
  have hquiet := (Outline.ofText_paired h).1 f hf
  rw [FaultCause.isAboutBracket_of_message hword hfront] at hquiet
  exact absurd hquiet Bool.true_eq_false.mp

/-- Nothing in it is declared as it should be, but its brackets are paired. -/
def junkText : List Char :=
  "struct \x7b\n\tx int\n\x7d\nfn = ( [ ] )\n".toList
    ++ "struct S \x7b\n\t= \x7b fn ( )\n\x7d\n\tmodule\n\x7d\n".toList

theorem read_paired_junkText :
    Paired (Token.ofText junkText) ∧
      (read "/" "junk.v" junkText {}).2.1.map (·.cause)
        = [.noStructName, .noFunctionName, .notAField] ∧
      ∀ report ∈ (read "/" "junk.v" junkText {}).2.1,
        ∀ word ∈ ["unclosed".toList, "unmatched".toList, "mismatched".toList],
          ¬ word <+: report.cause.message.toList := by
  have hpaired : Paired (Token.ofText junkText) := by decide +kernel
  exact ⟨hpaired, by decide +kernel, read_paired "/" "junk.v" junkText {} hpaired⟩

/--
**A file that is not paired is reported, unless a field of it hides a closing bracket.**

Such a bracket stands behind the name of the field, on its line, and it is no brace; a file that has
one is never paired.
-/
theorem read_unpaired (cwd path : String) (text : List Char) (r : Reading) :
    (¬ Paired (Token.ofText text) →
        (read cwd path text r).2.1 ≠ [] ∨ HasLoneCloser text) ∧
      (HasLoneCloser text → ¬ Paired (Token.ofText text)) := by
  refine ⟨fun hnot => ?_, fun hlone hpaired => (Outline.ofText_paired hpaired).2 hlone⟩
  by_contra hneither
  obtain ⟨hquiet, hlone⟩ := not_or.mp hneither
  have hfaults : (Outline.ofText text).faults = [] := List.map_eq_nil_iff.mp (not_not.mp hquiet)
  exact hnot (Outline.paired_of_quiet hfaults hlone)

/-- The parenthesis behind this type closes nothing, and nothing is reported. -/
theorem read_hiddenCloser :
    ¬ Paired (Token.ofText "struct S \x7b\n\tx int )\n\x7d\n".toList) ∧
      (read "/" "hidden.v" "struct S \x7b\n\tx int )\n\x7d\n".toList {}).2.1 = [] := by
  decide +kernel

end VServer.SourceFile
