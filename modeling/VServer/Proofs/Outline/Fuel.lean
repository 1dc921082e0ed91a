/-
Readers without fuel.

Every loop of the reader is given as many steps as there are tokens.  A turn of a loop uses up at
least one token, so more steps change nothing (`..._fuel`), and each loop satisfies the equations
that it would satisfy if it had no bound at all.  What is proved about readers later goes by these
equations and does not mention steps again.

The equations are for the cases that a proof distinguishes: the kind of the first token, and for a
group where it ends.  They are stated for tokens in front of any others, which is how an induction
along the tokens uses them.
-/
import VServer.Proofs.Outline.Place

namespace VServer

/-- Whether a token of this kind opens or closes a group. -/
def Kind.isBracket : Kind → Bool
  | opener _ => true
  | closer _ => true
  | _ => false

theorem Kind.ne_opener_of_plain {k : Kind} (h : k.isBracket = false) : ∀ b, k ≠ opener b := by
  rintro b rfl
  cases h

namespace Outline

/-! ### Skimming

The equations of a skim are those of its moves: it stops before a token, it stops behind one, or it
goes on.  They hold for any `move`; those of statements, of the rests of fields and of signatures
are what they come to for the kinds of tokens.
-/

theorem skipUnit_opener {t : Token} (ts : List Token) {b : Bracket} (h : t.kind = .opener b) :
    skipUnit t ts = ⟨(skipGroup t.span b ts).faults, (skipGroup t.span b ts).rest⟩ := by
  rw [skipUnit, h]

theorem skipUnit_single {t : Token} (ts : List Token) (h : ∀ b, t.kind ≠ .opener b) :
    skipUnit t ts = ⟨[], ts⟩ := by
  unfold skipUnit
  split
  · exact absurd ‹_› (h _)
  · rfl

theorem skimIn_fuel (move : Kind → Move) :
    ∀ (fuel fuel' : Nat) (ts : List Token), ts.length ≤ fuel → ts.length ≤ fuel' →
      skimIn move fuel ts = skimIn move fuel' ts := by
  refine loop_fuel (skimIn move) ?_ ?_
  · intro fuel fuel'
    cases fuel <;> cases fuel' <;> rfl
  · intro fuel fuel' t ts hgo
    simp only [skimIn]
    rw [hgo _ (skipUnit_suffix t ts).length_le]

section Skim

variable {move : Kind → Move} {t : Token} {b : Bracket} (ts : List Token)

theorem skim_before (h : move t.kind = .before) : skim move (t :: ts) = ⟨[], t :: ts⟩ := by
  rw [skim, List.length_cons, skimIn, h]

theorem skim_behind (h : move t.kind = .behind) : skim move (t :: ts) = skipUnit t ts := by
  rw [skim, List.length_cons, skimIn, h]

theorem skim_onward {causes : List FaultCause} (h : move t.kind = .onward causes) :
    skim move (t :: ts) = (skim move (skipUnit t ts).rest).prepend
      (causes.map (⟨t.span, ·⟩) ++ (skipUnit t ts).faults) := by
  have hshort := (skipUnit_suffix t ts).length_le
  rw [skim, List.length_cons, skimIn, h]
  dsimp only
  rw [skimIn_fuel move ts.length _ _ hshort (Nat.le_refl _)]
  rfl

/-- Over a group. -/
theorem skim_opener (hkind : t.kind = .opener b) (h : move (.opener b) = .onward []) :
    skim move (t :: ts)
      = (skim move (skipGroup t.span b ts).rest).prepend (skipGroup t.span b ts).faults := by
  rw [skim_onward ts (hkind ▸ h), skipUnit_opener ts hkind]
  rfl

/-- Over a token that opens no group. -/
theorem skim_single (hkind : ∀ b, t.kind ≠ .opener b) (h : move t.kind = .onward []) :
    skim move (t :: ts) = skim move ts := by
  rw [skim_onward ts h, skipUnit_single ts hkind]
  rfl

theorem skipUnit_newline (h : t.kind = .newline) : skipUnit t ts = ⟨[], ts⟩ :=
  skipUnit_single ts (by simp [h])

/-! #### Statements -/

/-- Only a closing bracket is reported. -/
theorem statementMove_reports {k : Kind} {causes : List FaultCause}
    (h : statementMove k = .onward causes) :
    causes = [] ∨ ∃ b, k = .closer b ∧ causes = [.unmatched b] := by
  unfold statementMove at h
  split at h
  · cases h
  · exact .inr ⟨_, rfl, (Move.onward.inj h).symm⟩
  · exact .inl (Move.onward.inj h).symm

theorem skipStatement_newline (h : t.kind = .newline) : skipStatement (t :: ts) = ⟨[], ts⟩ := by
  rw [skipStatement, skim_behind ts (h ▸ rfl), skipUnit_newline ts h]

theorem skipStatement_closer (h : t.kind = .closer b) :
    skipStatement (t :: ts) = (skipStatement ts).prepend [⟨t.span, .unmatched b⟩] := by
  have hmove : statementMove t.kind = .onward [.unmatched b] := by rw [h]; rfl
  rw [skipStatement, skim_onward ts hmove, skipUnit_single ts (by simp [h])]
  rfl

theorem statementMove_plain {k : Kind} (hnewline : k ≠ .newline) (hplain : k.isBracket = false) :
    statementMove k = .onward [] := by
  revert hnewline hplain
  cases k <;> simp [statementMove, Kind.isBracket]

theorem skipStatement_plain (hnewline : t.kind ≠ .newline) (hplain : t.kind.isBracket = false) :
    skipStatement (t :: ts) = skipStatement ts :=
  skim_single ts (Kind.ne_opener_of_plain hplain) (statementMove_plain hnewline hplain)

/-! #### Rests of fields -/

theorem fieldRestMove_reports {k : Kind} {causes : List FaultCause}
    (h : fieldRestMove k = .onward causes) : causes = [] := by
  unfold fieldRestMove at h
  split at h
  · cases h
  · cases h
  · exact (Move.onward.inj h).symm

theorem skipFieldRest_newline (h : t.kind = .newline) : skipFieldRest (t :: ts) = ⟨[], ts⟩ := by
  rw [skipFieldRest, skim_behind ts (h ▸ rfl), skipUnit_newline ts h]

theorem skipFieldRest_close (h : t.kind = .closer .brace) :
    skipFieldRest (t :: ts) = ⟨[], t :: ts⟩ :=
  skim_before ts (h ▸ rfl)

theorem skipFieldRest_opener (h : t.kind = .opener b) :
    skipFieldRest (t :: ts)
      = (skipFieldRest (skipGroup t.span b ts).rest).prepend (skipGroup t.span b ts).faults :=
  skim_opener ts h rfl

theorem fieldRestMove_plain {k : Kind} (hnewline : k ≠ .newline) (hplain : k.isBracket = false) :
    fieldRestMove k = .onward [] := by
  revert hnewline hplain
  cases k <;> simp [fieldRestMove, Kind.isBracket]

theorem skipFieldRest_plain (hnewline : t.kind ≠ .newline) (hplain : t.kind.isBracket = false) :
    skipFieldRest (t :: ts) = skipFieldRest ts :=
  skim_single ts (Kind.ne_opener_of_plain hplain) (fieldRestMove_plain hnewline hplain)

/-! #### Signatures -/

theorem signatureMove_reports {k : Kind} {causes : List FaultCause}
    (h : signatureMove k = .onward causes) : causes = [] := by
  unfold signatureMove at h
  split at h
  · cases h
  · cases h
  · cases h
  · exact (Move.onward.inj h).symm

theorem skipSignature_nil : skipSignature [] = ⟨[], []⟩ := rfl

theorem skipSignature_newline (h : t.kind = .newline) : skipSignature (t :: ts) = ⟨[], t :: ts⟩ :=
  skim_before ts (h ▸ rfl)

theorem skipSignature_closer (h : t.kind = .closer b) : skipSignature (t :: ts) = ⟨[], t :: ts⟩ :=
  skim_before ts (h ▸ rfl)

/-- The body of a function ends it. -/
theorem skipSignature_body (h : t.kind = .opener .brace) :
    skipSignature (t :: ts)
      = ⟨(skipGroup t.span .brace ts).faults, (skipGroup t.span .brace ts).rest⟩ := by
  rw [skipSignature, skim_behind ts (h ▸ rfl), skipUnit_opener ts h]

theorem signatureMove_opener (hbrace : b ≠ .brace) : signatureMove (.opener b) = .onward [] := by
  cases b with
  | brace => exact absurd rfl hbrace
  | paren => rfl
  | square => rfl

theorem skipSignature_opener (h : t.kind = .opener b) (hbrace : b ≠ .brace) :
    skipSignature (t :: ts)
      = (skipSignature (skipGroup t.span b ts).rest).prepend (skipGroup t.span b ts).faults :=
  skim_opener ts h (signatureMove_opener hbrace)

theorem signatureMove_plain {k : Kind} (hnewline : k ≠ .newline) (hplain : k.isBracket = false) :
    signatureMove k = .onward [] := by
  revert hnewline hplain
  cases k <;> simp [signatureMove, Kind.isBracket]

end Skim

/-! ### Following a type -/

theorem typeExtentIn_fuel (begun : Bool) (stop : Nat) (fuel fuel' : Nat) (ts : List Token)
    (hlen : ts.length ≤ fuel) (hlen' : ts.length ≤ fuel') :
    typeExtentIn fuel begun stop ts = typeExtentIn fuel' begun stop ts := by
  refine congrFun (congrFun (loop_fuel (fun fuel ts begun stop => typeExtentIn fuel begun stop ts)
    ?_ ?_ fuel fuel' ts hlen hlen') begun) stop
  · intro fuel fuel'
    cases fuel <;> cases fuel' <;> rfl
  · intro fuel fuel' t ts hgo
    have hlater : ∀ (stop' : Nat) (rest : List Token), rest.length ≤ ts.length →
        typeExtentIn fuel true stop' rest = typeExtentIn fuel' true stop' rest :=
      fun stop' rest hrest => congrFun (congrFun (hgo rest hrest) true) stop'
    funext begun stop
    simp only [typeExtentIn]
    rw [hlater _ ts (Nat.le_refl _)]
    simp only [fun stop' span b => hlater stop' _ (skipGroup_suffix span b ts).length_le]

/-- Follow the type of a field whose last token so far ends at `stop`. -/
def typeEnd (begun : Bool) (stop : Nat) (ts : List Token) : TypeExtent :=
  typeExtentIn ts.length begun stop ts

/-- A token that a type does not go on with. -/
def EndsType (stop : Nat) : List Token → Prop
  | [] => True
  | t :: _ => t.kind = .newline ∨ t.kind = .equals ∨ (∃ b, t.kind = .closer b) ∨
      t.kind = .opener .square ∧ stop < t.span.start

theorem typeEnd_stops {begun : Bool} {stop : Nat} {t : Token} (ts : List Token)
    (h : t.kind = .newline ∨ t.kind = .equals ∨ (∃ b, t.kind = .closer b) ∨
      t.kind = .opener .square ∧ begun = true ∧ stop < t.span.start) :
    typeEnd begun stop (t :: ts) = ⟨[], stop, t :: ts⟩ := by
  simp only [typeEnd, List.length_cons, typeExtentIn]
  rcases h with h | h | ⟨b, h⟩ | h
  · simp [h]
  · simp [h]
  · simp [h]
  · rw [if_pos h]

theorem typeEnd_end {stop : Nat} {ts : List Token} (h : EndsType stop ts) :
    typeEnd true stop ts = ⟨[], stop, ts⟩ := by
  cases ts with
  | nil => rfl
  | cons t ts =>
      refine typeEnd_stops ts ?_
      rcases h with h | h | h | ⟨h, hgap⟩
      · exact .inl h
      · exact .inr (.inl h)
      · exact .inr (.inr (.inl h))
      · exact .inr (.inr (.inr ⟨h, rfl, hgap⟩))

theorem typeEnd_opener {begun : Bool} {stop : Nat} {t : Token} (ts : List Token) {b : Bracket}
    (h : t.kind = .opener b) (hgap : ¬ (b = .square ∧ begun = true ∧ stop < t.span.start)) :
    typeEnd begun stop (t :: ts)
      = let group := skipGroup t.span b ts
        let tail := typeEnd true group.stop group.rest
        { tail with faults := group.faults ++ tail.faults } := by
  have hshort := (skipGroup_suffix t.span b ts).length_le
  have hattribute :
      ¬ (Kind.opener b = .opener .square ∧ begun = true ∧ stop < t.span.start) := by
    rw [Kind.opener.injEq]
    exact hgap
  simp only [typeEnd, List.length_cons, typeExtentIn, h]
  rw [if_neg hattribute, typeExtentIn_fuel _ _ ts.length _ _ hshort (Nat.le_refl _)]

theorem typeEnd_plain {begun : Bool} {stop : Nat} {t : Token} (ts : List Token)
    (hnewline : t.kind ≠ .newline) (hequals : t.kind ≠ .equals)
    (hplain : t.kind.isBracket = false) :
    typeEnd begun stop (t :: ts) = typeEnd true t.span.stop ts := by
  have hattribute : ¬ (t.kind = .opener .square ∧ begun = true ∧ stop < t.span.start) := by
    rintro ⟨h, -⟩
    simp [h, Kind.isBracket] at hplain
  simp only [typeEnd, List.length_cons, typeExtentIn, if_neg hattribute]
  split
  · exact absurd ‹_› hnewline
  · exact absurd ‹_› hequals
  · simp_all [Kind.isBracket]
  · simp_all [Kind.isBracket]
  · rfl

/-! ### The lines of a struct

A turn of this loop is one line, an access section or a newline.  Each of them takes its first
token with it, so the lines that are left are fewer tokens, and the fuel that is left is still
enough.
-/

theorem readBodyIn_fuel (ctx : Context) (unclosed : Fault) :
    ∀ (fuel fuel' : Nat) (ts : List Token), ts.length ≤ fuel → ts.length ≤ fuel' →
      readBodyIn ctx unclosed (fuel + 1) ts = readBodyIn ctx unclosed (fuel' + 1) ts := by
  refine loop_fuel (fun fuel => readBodyIn ctx unclosed (fuel + 1)) (fun _ _ => rfl) ?_
  intro fuel fuel' t ts hgo
  by_cases hnewline : t.kind = .newline
  · rw [readBodyIn, readBodyIn, if_pos hnewline, if_pos hnewline]
    exact hgo ts (Nat.le_refl _)
  by_cases hclose : t.kind = .closer .brace
  · rw [readBodyIn, readBodyIn, if_neg hnewline, if_neg hnewline, if_pos hclose, if_pos hclose]
  rw [readBodyIn, readBodyIn, if_neg hnewline, if_neg hnewline, if_neg hclose, if_neg hclose]
  cases haccess : accessSection? ctx false (t :: ts) with
  | some rest => exact hgo rest (accessSection?_cons_suffix haccess).length_le
  | none =>
      simp only
      rw [hgo _ (readLine_suffix ctx t ts hclose).length_le]

/-- The lines of a struct. -/
def bodyFrom (ctx : Context) (unclosed : Fault) (ts : List Token) : Body :=
  readBodyIn ctx unclosed (ts.length + 1) ts

variable {ctx : Context} {unclosed : Fault} {t : Token}

theorem bodyFrom_newline (ts : List Token) (h : t.kind = .newline) :
    bodyFrom ctx unclosed (t :: ts) = bodyFrom ctx unclosed ts := by
  rw [bodyFrom, List.length_cons, readBodyIn, if_pos h]
  rfl

theorem bodyFrom_close (ts : List Token) (h : t.kind = .closer .brace) :
    bodyFrom ctx unclosed (t :: ts) = ⟨[], [], [], ts⟩ := by
  simp [bodyFrom, readBodyIn, h]

theorem bodyFrom_access {ts rest : List Token} (hnewline : t.kind ≠ .newline)
    (hclose : t.kind ≠ .closer .brace)
    (haccess : accessSection? ctx false (t :: ts) = some rest) :
    bodyFrom ctx unclosed (t :: ts) = bodyFrom ctx unclosed rest := by
  have hshort := (accessSection?_cons_suffix haccess).length_le
  rw [bodyFrom, List.length_cons, readBodyIn, if_neg hnewline, if_neg hclose, haccess]
  exact readBodyIn_fuel ctx unclosed _ _ rest hshort (Nat.le_refl _)

theorem bodyFrom_line {ts : List Token} (hnewline : t.kind ≠ .newline)
    (hclose : t.kind ≠ .closer .brace) (haccess : accessSection? ctx false (t :: ts) = none) :
    bodyFrom ctx unclosed (t :: ts)
      = (bodyFrom ctx unclosed (readLine ctx t ts).rest).prepend (readLine ctx t ts) := by
  have hshort := (readLine_suffix ctx t ts hclose).length_le
  rw [bodyFrom, List.length_cons, readBodyIn, if_neg hnewline, if_neg hclose, haccess]
  simp only
  rw [readBodyIn_fuel ctx unclosed ts.length _ _ hshort (Nat.le_refl _)]
  rfl

/-! ### The statements of a file -/

theorem readFrom_fuel (text : List Char) (moduleName : String) (fuel fuel' : Nat)
    (ts : List Token) (hlen : ts.length ≤ fuel) (hlen' : ts.length ≤ fuel') :
    readFrom text fuel moduleName ts = readFrom text fuel' moduleName ts := by
  refine congrFun (loop_fuel (fun fuel ts moduleName => readFrom text fuel moduleName ts) ?_ ?_
    fuel fuel' ts hlen hlen') moduleName
  · intro fuel fuel'
    cases fuel <;> cases fuel' <;> rfl
  · intro fuel fuel' t ts hgo
    funext moduleName
    simp only [readFrom]
    have hshort := (readStatement_reads ⟨text, moduleName⟩ t ts).rest.length_le
    rw [congrFun (hgo ts (Nat.le_refl _)), congrFun (hgo _ hshort)]

/-- The outline of tokens inside the module `moduleName`. -/
def outlineFrom (text : List Char) (moduleName : String) (ts : List Token) : Outline :=
  readFrom text ts.length moduleName ts

theorem outlineFrom_newline (text : List Char) (moduleName : String) (ts : List Token)
    (h : t.kind = .newline) :
    outlineFrom text moduleName (t :: ts) = outlineFrom text moduleName ts := by
  rw [outlineFrom, List.length_cons, readFrom, if_pos h]
  rfl

theorem outlineFrom_statement (text : List Char) (moduleName : String) (ts : List Token)
    (h : t.kind ≠ .newline) :
    outlineFrom text moduleName (t :: ts)
      = let step := readStatement ⟨text, moduleName⟩ t ts
        (outlineFrom text step.moduleName step.rest).prepend step := by
  have hshort := (readStatement_reads ⟨text, moduleName⟩ t ts).rest.length_le
  rw [outlineFrom, List.length_cons, readFrom, if_neg h]
  simp only
  rw [readFrom_fuel text _ ts.length _ _ hshort (Nat.le_refl _)]
  rfl

end Outline

end VServer
