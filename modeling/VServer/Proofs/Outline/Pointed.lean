/-
What is told about a bracket stands at that bracket.

A fault about a bracket names it and has a place.  Every reader takes both from one token, so there
is a token of that kind at that place (`ofText_points`), and the text there is the bracket.  The
lemmas go up the call tree, and are about the faults of a reader that is given some of the tokens
of a file.

Readers go on with fewer and fewer tokens, and a fault may be about one that was passed long ago.
So `Points` is about a list that stays the same, the tokens of the file, and each lemma asks that
the tokens at hand are among them.  The faults of two parts are put together by `Points.append`,
and a fault that is not about a bracket has nothing to show.
-/
import VServer.Proofs.Outline.Fuel
import VServer.Proofs.Token.Longest

namespace VServer

/-- The kind of the token that a fault about a bracket is about. -/
def FaultCause.bracketKind? : FaultCause → Option Kind
  | .unclosed b => some (.opener b)
  | .unmatched b => some (.closer b)
  | .mismatched b => some (.closer b)
  | _ => none

namespace Outline

/-- Faults about brackets have the places of such brackets among the tokens. -/
def Points (all : List Token) (faults : List Fault) : Prop :=
  ∀ f ∈ faults, ∀ kind, f.cause.bracketKind? = some kind → ⟨kind, f.span⟩ ∈ all

namespace Points

variable {all : List Token} {faults faults' : List Fault}

theorem nil (all : List Token) : Points all [] := by
  simp [Points]

theorem append (h : Points all faults) (h' : Points all faults') :
    Points all (faults ++ faults') := by
  intro f hf
  rcases List.mem_append.mp hf with hf | hf
  · exact h f hf
  · exact h' f hf

theorem one {t : Token} (ht : t ∈ all) {kind : Kind} (hkind : t.kind = kind) {cause : FaultCause}
    (hcause : cause.bracketKind? = some kind) : Points all [⟨t.span, cause⟩] := by
  intro f hf kind' hkind'
  obtain rfl := List.mem_singleton.mp hf
  obtain rfl := Option.some.inj (hcause.symm.trans hkind')
  rw [← hkind]
  exact ht

/-- A fault that is not about a bracket. -/
theorem other (all : List Token) (span : Text.Span) {cause : FaultCause}
    (hcause : cause.bracketKind? = none) : Points all [⟨span, cause⟩] := by
  intro f hf kind hkind
  obtain rfl := List.mem_singleton.mp hf
  cases hcause.symm.trans hkind

end Points

variable {all : List Token}

theorem subset_of_suffix {ts rest : List Token} (hrest : rest <:+ ts) (h : ts ⊆ all) :
    rest ⊆ all :=
  List.Subset.trans hrest.subset h

theorem subset_of_cons {t : Token} {ts rest : List Token} (h : t :: ts ⊆ all)
    (hrest : rest <:+ ts) : rest ⊆ all :=
  subset_of_suffix (hrest.trans (List.suffix_cons t ts)) h

/-! ### Groups and skims

A group reports its own opening bracket if it is not closed, and a closing bracket inside of it
that does not fit.  The first one is given to it from outside, which is why the lemma asks for a
fault that points to a token already.
-/

theorem closeGroup_points {unclosed : Fault} (hunclosed : Points all [unclosed]) :
    ∀ (ts : List Token) (stop : Nat) (top : Bracket) (below : List Bracket), ts ⊆ all →
      Points all (closeGroup unclosed stop top below ts).faults := by
  intro ts
  induction ts with
  | nil => intro stop top below _; exact hunclosed
  | cons t ts ih =>
      intro stop top below hall
      have hlater := List.subset_of_cons_subset hall
      unfold closeGroup
      split
      · exact ih _ _ _ hlater
      · rename_i b hkind
        have hclosing : Points all (closingFaults top t.span b) := by
          unfold closingFaults
          split
          · exact .nil all
          · exact .one (hall List.mem_cons_self) hkind rfl
        split
        · exact hclosing
        · exact hclosing.append (ih _ _ _ hlater)
      · exact ih _ _ _ hlater

theorem skipGroup_points {t : Token} {b : Bracket} {ts : List Token} (hall : t :: ts ⊆ all)
    (hkind : t.kind = .opener b) : Points all (skipGroup t.span b ts).faults :=
  closeGroup_points (.one (hall List.mem_cons_self) hkind rfl) ts _ _ _
    (List.subset_of_cons_subset hall)

theorem skipUnit_points {t : Token} {ts : List Token} (hall : t :: ts ⊆ all) :
    Points all (skipUnit t ts).faults := by
  unfold skipUnit
  split
  · exact skipGroup_points hall ‹_›
  · exact .nil all

/-- What a skim reports about a token is about that token. -/
def Move.AboutToken (kind : Kind) (move : Move) : Prop :=
  ∀ causes, move = .onward causes → ∀ c ∈ causes, ∀ k, c.bracketKind? = some k → kind = k

theorem skim_points {move : Kind → Move} (hmove : ∀ kind, (move kind).AboutToken kind)
    {ts : List Token} (hall : ts ⊆ all) : Points all (skim move ts).faults := by
  refine loop_induction (P := fun fuel ts => ts ⊆ all → Points all (skimIn move fuel ts).faults)
    (fun _ _ => .nil all) (fun _ _ => .nil all) ?_ _ ts hall
  intro fuel t ts ih hall
  have hunit := skipUnit_suffix t ts
  unfold skimIn
  split
  · exact .nil all
  · exact skipUnit_points hall
  · rename_i causes hcauses
    have hreport : Points all (causes.map (⟨t.span, ·⟩)) := by
      intro f hf kind hkind
      obtain ⟨c, hc, rfl⟩ := List.mem_map.mp hf
      rw [← hmove t.kind causes hcauses c hc kind hkind]
      exact hall List.mem_cons_self
    exact (hreport.append (skipUnit_points hall)).append (ih _ hunit (subset_of_cons hall hunit))

theorem skipStatement_points {ts : List Token} (hall : ts ⊆ all) :
    Points all (skipStatement ts).faults := by
  refine skim_points (fun kind causes h c hc k hk => ?_) hall
  rcases statementMove_reports h with rfl | ⟨b, rfl, rfl⟩
  · cases hc
  · obtain rfl := List.mem_singleton.mp hc
    exact Option.some.inj hk

/-- Skims that have nothing to report. -/
theorem quietSkim_points {move : Kind → Move}
    (hmove : ∀ {kind causes}, move kind = .onward causes → causes = []) {ts : List Token}
    (hall : ts ⊆ all) : Points all (skim move ts).faults := by
  refine skim_points (fun kind causes h c hc => ?_) hall
  obtain rfl := hmove h
  cases hc

theorem skipOptional_points (b : Bracket) {ts : List Token} (hall : ts ⊆ all) :
    Points all (skipOptional b ts).2.faults := by
  unfold skipOptional
  split
  · split
    · exact skipGroup_points hall ‹_›
    · exact .nil all
  · exact .nil all

/-! ### Fields -/

theorem typeExtentIn_points (fuel : Nat) (begun : Bool) (stop : Nat) {ts : List Token}
    (hall : ts ⊆ all) : Points all (typeExtentIn fuel begun stop ts).faults := by
  refine loop_induction (P := fun fuel ts => ts ⊆ all → ∀ begun stop,
      Points all (typeExtentIn fuel begun stop ts).faults)
    (fun _ _ _ _ => .nil all) (fun _ _ _ _ => .nil all) ?_ fuel ts hall begun stop
  intro fuel t ts ih hall begun stop
  unfold typeExtentIn
  split
  · exact .nil all
  split
  · exact .nil all
  · exact .nil all
  · exact .nil all
  · have hrest := skipGroup_suffix t.span ‹_› ts
    exact (skipGroup_points hall ‹_›).append (ih _ hrest (subset_of_cons hall hrest) _ _)
  · exact ih ts (List.suffix_refl ts) (List.subset_of_cons_subset hall) _ _

theorem readField_points (ctx : Context) (name : Text.Span) {ts : List Token} (hall : ts ⊆ all) :
    Points all (readField ctx name ts).faults := by
  unfold readField
  split
  · exact .nil all
  · split
    · exact .nil all
    · exact .nil all
    · exact quietSkim_points fieldRestMove_reports hall
    · exact (typeExtentIn_points _ _ _ hall).append
        (quietSkim_points fieldRestMove_reports
          (subset_of_suffix (typeExtentIn_suffix _ _ _ _) hall))

theorem strayStep_points {t : Token} {ts : List Token} (hall : t :: ts ⊆ all) :
    Points all (strayStep t ts).faults :=
  (Points.other all t.span rfl).append (quietSkim_points fieldRestMove_reports hall)

theorem readLine_points (ctx : Context) {t : Token} {ts : List Token} (hall : t :: ts ⊆ all) :
    Points all (readLine ctx t ts).faults := by
  unfold readLine
  split
  · exact readField_points ctx t.span (List.subset_of_cons_subset hall)
  · split
    · exact skipGroup_points hall ‹_›
    · rename_i u us _
      split
      · exact skipGroup_points (List.subset_of_cons_subset hall) ‹_›
      · exact strayStep_points hall
    · exact strayStep_points hall

theorem readBodyIn_points (ctx : Context) {unclosed : Fault} (hunclosed : Points all [unclosed])
    (fuel : Nat) {ts : List Token} (hall : ts ⊆ all) :
    Points all (readBodyIn ctx unclosed fuel ts).faults := by
  refine loop_induction
    (P := fun fuel ts => ts ⊆ all → Points all (readBodyIn ctx unclosed fuel ts).faults)
    (fun _ _ => .nil all) (fun _ _ => hunclosed) ?_ fuel ts hall
  intro fuel t ts ih hall
  unfold readBodyIn
  split
  · exact ih ts (List.suffix_refl ts) (List.subset_of_cons_subset hall)
  split
  · exact .nil all
  rename_i hclose
  split
  · rename_i rest haccess
    have hrest := accessSection?_cons_suffix haccess
    exact ih rest hrest (subset_of_cons hall hrest)
  · have hrest := readLine_suffix ctx t ts hclose
    exact (readLine_points ctx hall).append (ih _ hrest (subset_of_cons hall hrest))

theorem readBody?_points (ctx : Context) {ts : List Token} (hall : ts ⊆ all) :
    Points all (readBody? ctx ts).faults := by
  unfold readBody?
  split
  · rename_i t rest
    split
    · exact readBodyIn_points ctx (.one (hall List.mem_cons_self) ‹_› rfl) _
        (List.subset_of_cons_subset hall)
    · exact skipStatement_points hall
  · exact .nil all

/-! ### Statements -/

theorem otherStep_points (ctx : Context) {faults : List Fault} (hfaults : Points all faults)
    {ts : List Token} (hall : ts ⊆ all) : Points all (otherStep ctx faults ts).faults :=
  hfaults.append (skipStatement_points hall)

theorem readModule_points (ctx : Context) {ts : List Token} (hall : ts ⊆ all) :
    Points all (readModule ctx ts).faults := by
  have htail := skipStatement_points hall
  unfold readModule
  simp only
  split
  · split
    · exact htail
    · exact (Points.other all _ rfl).append htail
  · exact (Points.other all _ rfl).append htail

theorem readFunction_points (ctx : Context) (isPublic : Bool) {ts : List Token} (hall : ts ⊆ all) :
    Points all (readFunction ctx isPublic ts).faults := by
  have hreceiver := skipOptional_points .paren hall
  have hname := readName_suffix ctx (skipOptional .paren ts).1 (skipOptional .paren ts).2.rest
  have hsuffix := hname.trans (skipOptional_suffix .paren ts)
  unfold readFunction
  simp only
  split
  · rename_i rest hread
    rw [hread] at hsuffix
    exact otherStep_points ctx (hreceiver.append (.other all _ rfl)) (subset_of_suffix hsuffix hall)
  · rename_i declared rest hread
    rw [hread] at hsuffix
    have hrest := subset_of_suffix hsuffix hall
    exact (hreceiver.append (skipOptional_points .square hrest)).append
      (quietSkim_points signatureMove_reports
        (subset_of_suffix (skipOptional_suffix .square rest) hrest))

theorem readStruct_points (ctx : Context) (isPublic isUnion : Bool) {ts : List Token}
    (hall : ts ⊆ all) : Points all (readStruct ctx isPublic isUnion ts).faults := by
  have hsuffix := readName_suffix ctx false ts
  unfold readStruct
  split
  · rename_i rest hread
    rw [hread] at hsuffix
    exact otherStep_points ctx (.other all _ rfl) (subset_of_suffix hsuffix hall)
  · rename_i declared rest hread
    rw [hread] at hsuffix
    have hrest := subset_of_suffix hsuffix hall
    exact (skipOptional_points .square hrest).append
      (readBody?_points ctx (subset_of_suffix (skipOptional_suffix .square rest) hrest))

theorem readPublic_points (ctx : Context) {ts : List Token} (hall : ts ⊆ all) :
    Points all (readPublic ctx ts).faults := by
  unfold readPublic
  split
  · rename_i t rest
    have hrest := List.subset_of_cons_subset hall
    split
    · exact readFunction_points ctx true hrest
    · exact readStruct_points ctx true false hrest
    · exact readStruct_points ctx true true hrest
    · exact otherStep_points ctx (.nil all) hall
  · exact otherStep_points ctx (.nil all) hall

theorem readStatement_points (ctx : Context) {t : Token} {ts : List Token} (hall : t :: ts ⊆ all) :
    Points all (readStatement ctx t ts).faults := by
  have hlater := List.subset_of_cons_subset hall
  have hother := otherStep_points ctx (.nil all) hall
  unfold readStatement
  split
  · exact readModule_points ctx hlater
  · exact skipGroup_points hall ‹_›
  · split
    · split
      · exact skipGroup_points hlater ‹_›
      · exact hother
    · exact hother
  · exact readPublic_points ctx hlater
  · exact readFunction_points ctx false hlater
  · exact readStruct_points ctx false false hlater
  · exact readStruct_points ctx false true hlater
  · exact hother

theorem readFrom_points (text : List Char) (fuel : Nat) (moduleName : String) {ts : List Token}
    (hall : ts ⊆ all) : Points all (readFrom text fuel moduleName ts).faults := by
  refine loop_induction (P := fun fuel ts => ts ⊆ all → ∀ moduleName,
      Points all (readFrom text fuel moduleName ts).faults)
    (fun _ _ _ => .nil all) (fun _ _ _ => .nil all) ?_ fuel ts hall moduleName
  intro fuel t ts ih hall moduleName
  unfold readFrom
  split
  · exact ih ts (List.suffix_refl ts) (List.subset_of_cons_subset hall) moduleName
  · have hrest := (readStatement_reads ⟨text, moduleName⟩ t ts).rest
    exact (readStatement_points _ hall).append (ih _ hrest (subset_of_cons hall hrest) _)

theorem strayFaults_points (all : List Token) (text : List Char) (lexemes : List Lexeme) :
    Points all (strayFaults text lexemes) := by
  intro f hf kind hkind
  obtain ⟨l, -, rfl⟩ := List.mem_map.mp hf
  cases hkind

/-- **A fault about a bracket has the place of such a bracket.** -/
theorem ofText_points (text : List Char) : Points (Token.ofText text) (ofText text).faults :=
  (strayFaults_points _ text _).append
    (readFrom_points text _ "" (List.Subset.refl _))

/-! ### The text of a bracket

The last step leaves tokens for text.  A token of a bracket is spelled in one way, so the text at
its place is that bracket.
-/

/-- The text of a token of a kind that is a bracket. -/
def bracketText : Kind → Option String
  | .opener b => some b.opening
  | .closer b => some b.closing
  | _ => none

theorem spelled_bracket {kind : Kind} {raw : List Char} (h : Token.Spelled kind raw) {told : String}
    (htold : bracketText kind = some told) : String.ofList raw = told := by
  cases h with
  | @mark c _ hmark =>
      have hall : Token.marks.all (fun c => ((Token.markKind? c).bind bracketText).all
          (String.ofList [c] == ·)) = true := by
        decide
      have hc := List.all_eq_true.mp hall c (Token.mem_marks hmark)
      rw [hmark, Option.bind_some, htold] at hc
      exact beq_iff_eq.mp hc
  | newline => cases htold
  | keyword => cases htold
  | ident => cases htold
  | number => cases htold
  | quoted => cases htold
  | rune => cases htold

/-- What is told about a bracket is its text. -/
theorem Points.slice_eq {text : List Char} {faults : List Fault}
    (h : Points (Token.ofText text) faults) {f : Fault} (hf : f ∈ faults) {kind : Kind}
    (hkind : f.cause.bracketKind? = some kind) {told : String}
    (htold : bracketText kind = some told) : Text.sliceString text f.span = told :=
  spelled_bracket (Token.spelled_slice (h f hf kind hkind)) htold

end Outline

end VServer
