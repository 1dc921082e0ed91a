/-
Two files that are the same up to a word.

A reader that stops in front of the word cannot tell which of the two files it reads: it has seen
the same tokens, with the same text at their places, and at most the word itself.  So if a line of
a struct starts with the word in one of the files, a line starts with it in the other one too.

`Alike` says of the tokens that two readers are left with that they are the same up to the word, if
the first reader has not passed it.  Every reader keeps this, and nothing is said about readers
that have passed the word.

The word is a name, and that is what makes the argument work.  A reader that stops in front of it
may have looked at the word itself, which is the same in both files, but at nothing behind it: what
makes a reader look further is a mark, such as a dot, a bracket or a colon.  The words of an access
section are the one exception, and `Fork` asks of the second file that none starts at the word.
-/
import VServer.Proofs.Outline.Nesting

namespace VServer.Outline

/-- Two texts and the word up to which they are the same, with the tokens behind it in each. -/
structure Fork where
  text : List Char
  text' : List Char
  word : Token
  later : List Token
  later' : List Token
  isName : word.kind.isName = true
  same : Text.slice text word.span = Text.slice text' word.span
  /-- The word does not go on an access section. -/
  noAccess : ∀ moduleName begun, accessSection? ⟨text', moduleName⟩ begun (word :: later') = none

namespace Fork

variable (w : Fork)

/-- The texts have the same at the place of the token. -/
def SameAt (t : Token) : Prop :=
  Text.slice w.text t.span = Text.slice w.text' t.span

/-- The tokens from some point in front of the word on, in each of the files. -/
inductive Pair : List Token → List Token → Prop
  | here : Pair (w.word :: w.later) (w.word :: w.later')
  | cons {t : Token} {ts ts' : List Token} (hsame : w.SameAt t) (later : Pair ts ts') :
      Pair (t :: ts) (t :: ts')

/-- The word is still to come. -/
def Ahead (ts : List Token) : Prop :=
  w.word :: w.later <:+ ts

/-- The tokens are the same up to the word, if it is still to come. -/
def Alike (ts ts' : List Token) : Prop :=
  w.Ahead ts → w.Pair ts ts'

/-- The same of tokens that are left behind something, which is the same too. -/
def AlikeBehind {α : Type} (read read' : α × List Token) : Prop :=
  w.Ahead read.2 → read.1 = read'.1 ∧ w.Pair read.2 read'.2

variable {w} {t : Token} {ts ts' : List Token}

theorem not_ahead_of_suffix (h : ts <:+ w.later) : ¬ w.Ahead ts := by
  intro hahead
  have hlength := (hahead.trans h).length_le
  simp only [List.length_cons] at hlength
  omega

theorem not_ahead_nil : ¬ w.Ahead [] :=
  fun h => List.cons_ne_nil _ _ (List.suffix_nil.mp h)

theorem alike_nil : w.Alike [] ts' :=
  fun h => absurd h not_ahead_nil

/-- The word is a name, so it is behind any other token. -/
theorem Ahead.tail (h : w.Ahead (t :: ts)) (hkind : t.kind.isName = false) : w.Ahead ts := by
  rcases List.suffix_cons_iff.mp h with heq | hlater
  · rw [← (List.cons.inj heq).1, w.isName] at hkind
    exact absurd hkind Bool.true_eq_false.mp
  · exact hlater

/-- Both lists start with the same token, and go on alike behind it. -/
theorem Pair.uncons (h : w.Pair (t :: ts) ts') :
    ∃ us', ts' = t :: us' ∧ w.SameAt t ∧ w.Alike ts us' := by
  cases h with
  | here => exact ⟨_, rfl, w.same, fun h => absurd h (not_ahead_of_suffix (List.suffix_refl _))⟩
  | cons hsame later => exact ⟨_, rfl, hsame, fun _ => later⟩

theorem Pair.ahead (h : w.Pair ts ts') : w.Ahead ts := by
  induction h with
  | here => exact List.suffix_refl _
  | cons hsame later ih => exact ih.trans (List.suffix_cons _ _)

theorem Pair.at_word (h : w.Pair (w.word :: w.later) ts') : ts' = w.word :: w.later' := by
  cases h with
  | here => rfl
  | cons hsame later => exact absurd later.ahead (not_ahead_of_suffix (List.suffix_refl _))

theorem pair_append {before : List Token} (h : ∀ t ∈ before, w.SameAt t) :
    w.Pair (before ++ w.word :: w.later) (before ++ w.word :: w.later') := by
  induction before with
  | nil => exact .here
  | cons t before ih =>
      exact .cons (h t List.mem_cons_self) (ih fun u hu => h u (List.mem_cons_of_mem t hu))

/-- Tokens from `rest` on are alike if they are so where the first token of both is known. -/
theorem Alike.step {rest rest' : List Token} (h : w.Alike (t :: ts) ts') (hrest : rest <:+ t :: ts)
    (hgo : ∀ us', ts' = t :: us' → w.SameAt t → w.Alike ts us' → w.Alike rest rest') :
    w.Alike rest rest' := by
  intro hahead
  obtain ⟨us', hus, hsame, hlater⟩ := (h (hahead.trans hrest)).uncons
  exact hgo us' hus hsame hlater hahead

theorem AlikeBehind.step {α : Type} {read read' : α × List Token} (h : w.Alike (t :: ts) ts')
    (hrest : read.2 <:+ t :: ts)
    (hgo : ∀ us', ts' = t :: us' → w.SameAt t → w.Alike ts us' → w.AlikeBehind read read') :
    w.AlikeBehind read read' := by
  intro hahead
  obtain ⟨us', hus, hsame, hlater⟩ := (h (hahead.trans hrest)).uncons
  exact hgo us' hus hsame hlater hahead

theorem Alike.tail (h : w.Alike (t :: ts) (t :: ts')) : w.Alike ts ts' := by
  refine h.step (List.suffix_cons t ts) ?_
  rintro us' hus - hlater
  rw [(List.cons.inj hus).2]
  exact hlater

theorem AlikeBehind.of_eq {α : Type} (a : α) (h : w.Alike ts ts') :
    w.AlikeBehind (a, ts) (a, ts') :=
  fun hahead => ⟨rfl, h hahead⟩

theorem AlikeBehind.alike {α : Type} {read read' : α × List Token} (h : w.AlikeBehind read read') :
    w.Alike read.2 read'.2 :=
  fun hahead => (h hahead).2

theorem AlikeBehind.map {α β : Type} {read read' : α × List Token} (h : w.AlikeBehind read read')
    (f : α → β) : w.AlikeBehind (f read.1, read.2) (f read'.1, read'.2) :=
  fun hahead => ⟨congrArg f (h hahead).1, (h hahead).2⟩

end Fork

variable {w : Fork} {t : Token} {ts ts' : List Token}

/-! ### Groups and skims

A reader that has passed the word is of no interest, so its lemma is empty in that case.  In the
other case every token that it has looked at stands in front of the word, and these are the same in
both files.
-/

theorem closeGroup_alike (unclosed : Fault) : ∀ (ts ts' : List Token) (stop : Nat) (top : Bracket)
    (below : List Bracket), w.Alike ts ts' →
    w.Alike (closeGroup unclosed stop top below ts).rest
      (closeGroup unclosed stop top below ts').rest := by
  intro ts
  induction ts with
  | nil => intro ts' stop top below _; exact Fork.alike_nil
  | cons t ts ih =>
      intro ts' stop top below h
      refine h.step (closeGroup_suffix _ _ _ _ _) ?_
      rintro us' rfl - hlater
      unfold closeGroup
      split
      · exact ih us' _ _ _ hlater
      · split
        · exact hlater
        · exact ih us' _ _ _ hlater
      · exact ih us' _ _ _ hlater

theorem skipGroup_alike (span : Text.Span) (b : Bracket) (h : w.Alike ts ts') :
    w.Alike (skipGroup span b ts).rest (skipGroup span b ts').rest :=
  closeGroup_alike _ ts ts' _ _ _ h

theorem skipUnit_alike (t : Token) (h : w.Alike ts ts') :
    w.Alike (skipUnit t ts).rest (skipUnit t ts').rest := by
  unfold skipUnit
  split
  · exact skipGroup_alike _ _ h
  · exact h

/-- Both files have the same token where a skim stands, so it does the same in both. -/
theorem skim_alike (move : Kind → Move) : ∀ ts ts' : List Token, w.Alike ts ts' →
    w.Alike (skim move ts).rest (skim move ts').rest := by
  refine tokens_induction (fun _ _ => Fork.alike_nil) ?_
  intro t ts ih ts' h
  refine h.step (skim_suffix move _) ?_
  rintro us' rfl - hlater
  have hunit := skipUnit_alike t hlater
  cases hmove : move t.kind with
  | before =>
      rw [skim_before ts hmove, skim_before us' hmove]
      exact h
  | behind =>
      rw [skim_behind ts hmove, skim_behind us' hmove]
      exact hunit
  | onward causes =>
      rw [skim_onward ts hmove, skim_onward us' hmove]
      exact ih _ (skipUnit_suffix t ts) _ hunit

theorem skipOptional_alike (b : Bracket) (h : w.Alike ts ts') :
    w.AlikeBehind ((skipOptional b ts).1, (skipOptional b ts).2.rest)
      ((skipOptional b ts').1, (skipOptional b ts').2.rest) := by
  cases ts with
  | nil => exact fun hahead => absurd hahead Fork.not_ahead_nil
  | cons t ts =>
      refine .step h (skipOptional_suffix b _) ?_
      rintro us' rfl - hlater
      unfold skipOptional
      simp only
      split
      · exact .of_eq true (skipGroup_alike _ _ hlater)
      · exact .of_eq false h

/-! ### Names -/

theorem operatorEnd_alike : ∀ (ts ts' : List Token) (stop : Nat), w.Alike ts ts' →
    w.AlikeBehind (operatorEnd stop ts) (operatorEnd stop ts') := by
  intro ts
  induction ts with
  | nil => intro ts' stop _ hahead; exact absurd hahead Fork.not_ahead_nil
  | cons t ts ih =>
      intro ts' stop h
      refine .step h (operatorEnd_suffix stop _) ?_
      rintro us' rfl - hlater
      unfold operatorEnd
      split
      · exact ih us' _ hlater
      · exact .of_eq stop h

theorem dottedEnd_of_ne {stop : Nat} (ts : List Token) (h : t.kind ≠ .dot) :
    dottedEnd stop (t :: ts) = (stop, t :: ts) := by
  cases ts with
  | nil => rfl
  | cons u us => simp [dottedEnd, h]

/-- A name goes on behind a dot only, and the word is no dot. -/
theorem dottedEnd_alike (stop : Nat) (h : w.Alike ts ts') :
    w.AlikeBehind (dottedEnd stop ts) (dottedEnd stop ts') := by
  fun_induction dottedEnd stop ts generalizing ts' with
  | case1 stop d n ts hdot ih =>
      have hrest := dottedEnd_suffix n.span.stop ts
      refine .step h (hrest.trans ((List.suffix_cons n ts).trans (List.suffix_cons d _))) ?_
      rintro us' rfl - hlater
      refine .step hlater (hrest.trans (List.suffix_cons n ts)) ?_
      rintro vs' rfl - hafter
      rw [dottedEnd, if_pos hdot]
      exact ih hafter
  | case2 stop d n ts hdot =>
      intro hahead
      obtain ⟨us', rfl, -, hlater⟩ := (h hahead).uncons
      have hstop : dottedEnd stop (d :: us') = (stop, d :: us') := by
        by_cases hkind : d.kind = .dot
        · obtain ⟨vs', rfl, -, -⟩ := (hlater (hahead.tail (by simp [hkind, Kind.isName]))).uncons
          rw [dottedEnd, if_neg hdot]
        · exact dottedEnd_of_ne us' hkind
      rw [hstop]
      exact ⟨rfl, h hahead⟩
  | case3 stop ts hshort =>
      intro hahead
      cases ts with
      | nil => exact absurd hahead Fork.not_ahead_nil
      | cons t ts =>
          obtain rfl : ts = [] := by
            cases ts with
            | nil => rfl
            | cons u us => exact (hshort t u us rfl).elim
          obtain ⟨us', rfl, -, -⟩ := (h hahead).uncons
          have hkind : t.kind ≠ .dot := fun hkind =>
            Fork.not_ahead_nil (hahead.tail (by simp [hkind, Kind.isName]))
          rw [dottedEnd_of_ne us' hkind]
          exact ⟨rfl, h hahead⟩

theorem readForeignName_alike (language : Language) (h : w.Alike ts ts') :
    w.AlikeBehind (readForeignName language ts) (readForeignName language ts') := by
  cases ts with
  | nil => exact fun hahead => absurd hahead Fork.not_ahead_nil
  | cons t ts =>
      refine .step h (readForeignName_suffix language _) ?_
      rintro us' rfl - hlater
      unfold readForeignName
      simp only
      split
      · exact (dottedEnd_alike t.span.stop hlater).map
          fun stop => some (DeclaredName.mk language ⟨t.span.start, stop⟩)
      · exact .of_eq none h

theorem readName_alike (moduleName : String) (allowOperator : Bool) (h : w.Alike ts ts') :
    w.AlikeBehind (readName ⟨w.text, moduleName⟩ allowOperator ts)
      (readName ⟨w.text', moduleName⟩ allowOperator ts') := by
  cases ts with
  | nil => exact fun hahead => absurd hahead Fork.not_ahead_nil
  | cons t ts =>
      refine .step h (readName_suffix _ _ _) ?_
      rintro us' rfl hsame hlater
      have hslice : Context.slice ⟨w.text', moduleName⟩ t.span
          = Context.slice ⟨w.text, moduleName⟩ t.span := hsame.symm
      simp only [readName, hslice]
      split
      · exact (operatorEnd_alike ts us' t.span.stop hlater).map
          fun stop => some (DeclaredName.mk .v ⟨t.span.start, stop⟩)
      split
      · cases Language.ofQualifier? (Context.slice ⟨w.text, moduleName⟩ t.span) with
        | none => exact .of_eq _ hlater
        | some language =>
            cases ts with
            | nil => exact fun hahead => absurd hahead Fork.not_ahead_nil
            | cons d after =>
                by_cases hdot : d.kind = .dot
                · simp only [if_pos hdot]
                  have hrest := readForeignName_suffix language after
                  refine .step hlater (hrest.trans (List.suffix_cons d after)) ?_
                  rintro vs' rfl - hafter
                  simp only [if_pos hdot]
                  exact readForeignName_alike language hafter
                · simp only [if_neg hdot]
                  refine .step hlater (List.suffix_refl _) ?_
                  rintro vs' rfl - -
                  simp only [if_neg hdot]
                  exact .of_eq _ hlater
      · exact .of_eq none h

/-! ### The lines of a struct

A line may start an access section, whose words are told by their text.  The texts are the same at
all places in front of the word, and at the word itself, so a section is found in both files or in
neither.
-/

theorem readField_alike (ctx ctx' : Context) (name : Text.Span) (h : w.Alike ts ts') :
    w.Alike (readField ctx name ts).rest (readField ctx' name ts').rest := by
  cases ts with
  | nil => exact Fork.alike_nil
  | cons t ts =>
      refine h.step (readField_suffix _ _ _) ?_
      rintro us' rfl - hlater
      have htail := skim_alike fieldRestMove _ _ h
      unfold readField
      simp only
      split
      · exact h
      · exact h
      · exact htail
      · rw [(readTypedField_skims ctx name _ _).2, (readTypedField_skims ctx' name _ _).2]
        exact htail

theorem readLine_atSign {ctx : Context} (u : Token) (us : List Token) (h : t.kind = .atSign) :
    readLine ctx t (u :: us)
      = if u.kind = .opener .square then attributeStep u.span us else strayStep t (u :: us) := by
  simp [readLine, h, Kind.isName]

theorem readLine_alike (ctx ctx' : Context) (h : w.Alike (t :: ts) (t :: ts'))
    (hclose : t.kind ≠ .closer .brace) :
    w.Alike (readLine ctx t ts).rest (readLine ctx' t ts').rest := by
  have hstray : w.Alike (strayStep t ts).rest (strayStep t ts').rest :=
    skim_alike fieldRestMove _ _ h
  by_cases hname : t.kind.isName = true
  · rw [readLine_name ts hname, readLine_name ts' hname]
    exact readField_alike ctx ctx' t.span h.tail
  by_cases hsquare : t.kind = .opener .square
  · simp only [readLine, hsquare]
    exact skipGroup_alike _ _ h.tail
  by_cases hat : t.kind = .atSign
  · have hrest := readLine_suffix ctx t ts hclose
    cases ts with
    | nil => exact fun hahead => absurd (hahead.trans hrest) Fork.not_ahead_nil
    | cons u us =>
        refine h.tail.step hrest ?_
        rintro us' rfl - hlater
        rw [readLine_atSign u us hat, readLine_atSign u us' hat]
        split
        · exact skipGroup_alike _ _ hlater
        · exact hstray
  · rw [readLine_stray ts hname hsquare hat, readLine_stray ts' hname hsquare hat]
    exact hstray

theorem isAccessWord_same (moduleName : String) (h : w.SameAt t) :
    isAccessWord ⟨w.text', moduleName⟩ t = isAccessWord ⟨w.text, moduleName⟩ t := by
  have hslice : Context.slice ⟨w.text', moduleName⟩ t.span
      = Context.slice ⟨w.text, moduleName⟩ t.span := h.symm
  rw [isAccessWord, isAccessWord, hslice]

theorem accessSection?_some {moduleName : String} {begun : Bool} {rest : List Token}
    (h : w.Pair ts ts') (hsome : accessSection? ⟨w.text, moduleName⟩ begun ts = some rest)
    (hahead : w.Ahead rest) :
    ∃ rest', accessSection? ⟨w.text', moduleName⟩ begun ts' = some rest' ∧ w.Pair rest rest' := by
  induction h generalizing begun with
  | here => exact absurd hahead (Fork.not_ahead_of_suffix (accessSection?_cons_suffix hsome))
  | @cons t ts ts' hsame later ih =>
      simp only [accessSection?, isAccessWord_same moduleName hsame] at hsome ⊢
      split at hsome
      · rename_i hcolon
        cases begun with
        | false => simp at hsome
        | true =>
            obtain rfl : ts = rest := by simpa using hsome
            exact ⟨ts', by simp [hcolon], later⟩
      · rename_i hcolon
        split at hsome
        · rename_i haccess
          rw [if_neg hcolon, if_pos haccess]
          exact ih hsome
        · simp at hsome

theorem accessSection?_none {moduleName : String} {begun : Bool} (h : w.Pair ts ts')
    (hnone : accessSection? ⟨w.text, moduleName⟩ begun ts = none) :
    accessSection? ⟨w.text', moduleName⟩ begun ts' = none := by
  induction h generalizing begun with
  | here => exact w.noAccess moduleName begun
  | @cons t ts ts' hsame later ih =>
      simp only [accessSection?, isAccessWord_same moduleName hsame] at hnone ⊢
      split at hnone
      · rename_i hcolon
        rw [if_pos hcolon]
        cases begun with
        | false => rfl
        | true => simp at hnone
      · rename_i hcolon
        rw [if_neg hcolon]
        split at hnone
        · rename_i haccess
          rw [if_pos haccess]
          exact ih hnone
        · rename_i haccess
          rw [if_neg haccess]

theorem bodyFrom_alike (moduleName : String) (unclosed : Fault) :
    ∀ ts ts' : List Token, w.Alike ts ts' →
      w.Alike (bodyFrom ⟨w.text, moduleName⟩ unclosed ts).rest
        (bodyFrom ⟨w.text', moduleName⟩ unclosed ts').rest := by
  refine tokens_induction (fun _ _ => Fork.alike_nil) ?_
  intro t ts ih ts' h
  have hrest : (bodyFrom ⟨w.text, moduleName⟩ unclosed (t :: ts)).rest <:+ t :: ts :=
    (readBodyIn_reads _ _ _ _).rest
  refine h.step hrest ?_
  rintro us' rfl - hlater
  by_cases hnewline : t.kind = .newline
  · rw [bodyFrom_newline ts hnewline, bodyFrom_newline us' hnewline]
    exact ih ts (List.suffix_refl ts) us' hlater
  by_cases hclose : t.kind = .closer .brace
  · rw [bodyFrom_close ts hclose, bodyFrom_close us' hclose]
    exact hlater
  intro hahead
  have hpair := h (hahead.trans hrest)
  cases haccess : accessSection? ⟨w.text, moduleName⟩ false (t :: ts) with
  | some rest =>
      rw [bodyFrom_access hnewline hclose haccess] at hahead ⊢
      have hbody := hahead.trans (readBodyIn_reads _ unclosed _ rest).rest
      obtain ⟨rest', haccess', hpair'⟩ := accessSection?_some hpair haccess hbody
      rw [bodyFrom_access hnewline hclose haccess']
      exact ih rest (accessSection?_cons_suffix haccess) rest' (fun _ => hpair') hahead
  | none =>
      have haccess' := accessSection?_none hpair haccess
      rw [bodyFrom_line hnewline hclose haccess] at hahead ⊢
      rw [bodyFrom_line hnewline hclose haccess']
      exact ih _ (readLine_suffix _ t ts hclose) _ (readLine_alike _ _ h hclose) hahead

theorem readBody?_alike (moduleName : String) (h : w.Alike ts ts') :
    w.Alike (readBody? ⟨w.text, moduleName⟩ ts).rest (readBody? ⟨w.text', moduleName⟩ ts').rest := by
  cases ts with
  | nil => exact Fork.alike_nil
  | cons t ts =>
      refine h.step (readBody?_reads _ _).rest ?_
      rintro us' rfl - hlater
      unfold readBody?
      simp only
      split
      · exact bodyFrom_alike moduleName _ ts us' hlater
      · exact skim_alike statementMove _ _ h

/-! ### Statements -/

theorem readStruct_alike (moduleName : String) (isPublic isUnion : Bool) (h : w.Alike ts ts') :
    w.Alike (readStruct ⟨w.text, moduleName⟩ isPublic isUnion ts).rest
      (readStruct ⟨w.text', moduleName⟩ isPublic isUnion ts').rest := by
  have hname := readName_alike moduleName false h
  rcases hread : readName ⟨w.text, moduleName⟩ false ts with ⟨declared, rest⟩
  rcases hread' : readName ⟨w.text', moduleName⟩ false ts' with ⟨declared', rest'⟩
  rw [hread, hread'] at hname
  intro hahead
  cases declared with
  | none =>
      simp only [readStruct, hread] at hahead ⊢
      obtain ⟨rfl, hpair⟩ := hname (hahead.trans (skim_suffix statementMove rest))
      simp only [hread']
      exact skim_alike statementMove rest rest' (fun _ => hpair) hahead
  | some declared =>
      simp only [readStruct, hread] at hahead ⊢
      obtain ⟨rfl, hpair⟩ :=
        hname ((hahead.trans (readBody?_reads _ _).rest).trans (skipOptional_suffix .square rest))
      simp only [hread']
      exact readBody?_alike moduleName (skipOptional_alike .square fun _ => hpair).alike hahead

theorem readFunction_alike (moduleName : String) (isPublic : Bool) (h : w.Alike ts ts') :
    w.Alike (readFunction ⟨w.text, moduleName⟩ isPublic ts).rest
      (readFunction ⟨w.text', moduleName⟩ isPublic ts').rest := by
  have hreceiver := skipOptional_alike .paren h
  rcases hskip : skipOptional .paren ts with ⟨isMethod, receiver⟩
  rcases hskip' : skipOptional .paren ts' with ⟨isMethod', receiver'⟩
  rw [hskip, hskip'] at hreceiver
  rcases hread : readName ⟨w.text, moduleName⟩ isMethod receiver.rest with ⟨declared, rest⟩
  have hsuffix := readName_suffix ⟨w.text, moduleName⟩ isMethod receiver.rest
  rw [hread] at hsuffix
  -- The receiver and the name are the same if the word is behind them.
  have hname : w.Ahead rest → isMethod = isMethod' ∧ ∃ rest',
      readName ⟨w.text', moduleName⟩ isMethod receiver'.rest = (declared, rest') ∧
        w.Pair rest rest' := by
    intro hahead
    obtain ⟨hmethod, hpair⟩ := hreceiver (hahead.trans hsuffix)
    have hname := readName_alike moduleName isMethod fun _ => hpair
    rcases hread' : readName ⟨w.text', moduleName⟩ isMethod receiver'.rest with ⟨declared', rest'⟩
    simp only [hread, hread'] at hname
    obtain ⟨rfl, hrest⟩ := hname hahead
    exact ⟨hmethod, rest', rfl, hrest⟩
  intro hahead
  cases declared with
  | none =>
      simp only [readFunction, hskip, hread] at hahead ⊢
      obtain ⟨rfl, rest', hread', hpair⟩ := hname (hahead.trans (skim_suffix statementMove rest))
      simp only [hskip', hread']
      exact skim_alike statementMove rest rest' (fun _ => hpair) hahead
  | some declared =>
      simp only [readFunction, hskip, hread] at hahead ⊢
      have hrest := (skim_suffix signatureMove _).trans (skipOptional_suffix .square rest)
      obtain ⟨rfl, rest', hread', hpair⟩ := hname (hahead.trans hrest)
      simp only [hskip', hread']
      exact skim_alike signatureMove _ _ (skipOptional_alike .square fun _ => hpair).alike hahead

theorem readModule_rest (ctx : Context) (ts : List Token) :
    (readModule ctx ts).rest = (skipStatement ts).rest := by
  unfold readModule
  split
  · split <;> rfl
  · rfl

theorem readPublic_alike (moduleName : String) (h : w.Alike ts ts') :
    w.Alike (readPublic ⟨w.text, moduleName⟩ ts).rest
      (readPublic ⟨w.text', moduleName⟩ ts').rest := by
  cases ts with
  | nil => exact Fork.alike_nil
  | cons t ts =>
      refine h.step (readPublic_reads _ _).rest ?_
      rintro us' rfl - hlater
      unfold readPublic
      simp only
      split
      · exact readFunction_alike moduleName true hlater
      · exact readStruct_alike moduleName true false hlater
      · exact readStruct_alike moduleName true true hlater
      · exact skim_alike statementMove _ _ h

/-- **What one step leaves.** -/
theorem readStatement_alike (moduleName : String) (h : w.Alike (t :: ts) (t :: ts')) :
    w.Alike (readStatement ⟨w.text, moduleName⟩ t ts).rest
      (readStatement ⟨w.text', moduleName⟩ t ts').rest := by
  have hother := skim_alike statementMove _ _ h
  unfold readStatement
  split
  · rw [readModule_rest, readModule_rest]
    exact skim_alike statementMove _ _ h.tail
  · exact skipGroup_alike _ _ h.tail
  · cases ts with
    | nil =>
        exact fun hahead => absurd (hahead.trans (skipStatement_cons_suffix t [])) Fork.not_ahead_nil
    | cons u us =>
        by_cases hopen : u.kind = .opener .square
        · simp only [if_pos hopen]
          refine h.tail.step ((skipGroup_suffix _ _ us).trans (List.suffix_cons u us)) ?_
          rintro us' rfl - hlater
          simp only [if_pos hopen]
          exact skipGroup_alike _ _ hlater
        · simp only [if_neg hopen]
          refine h.tail.step (skipStatement_cons_suffix t _) ?_
          rintro us' rfl - -
          simp only [if_neg hopen]
          exact hother
  · exact readPublic_alike moduleName h.tail
  · exact readFunction_alike moduleName false h.tail
  · exact readStruct_alike moduleName false false h.tail
  · exact readStruct_alike moduleName false true h.tail
  · exact hother

/-- The module behind a statement is named by the first token behind its first one. -/
theorem moduleName_alike {moduleName : String} (h : w.Alike (t :: ts) (t :: ts')) :
    w.Ahead ts → (Visit.step w.text' ⟨moduleName, t, ts'⟩).moduleName
      = (Visit.step w.text ⟨moduleName, t, ts⟩).moduleName := by
  intro hahead
  rw [Visit.step_moduleName, Visit.step_moduleName]
  cases ts with
  | nil => exact absurd hahead Fork.not_ahead_nil
  | cons u us =>
      obtain ⟨us', rfl, hsame, -⟩ := (h.tail hahead).uncons
      have hslice : Text.sliceString w.text' u.span = Text.sliceString w.text u.span :=
        congrArg String.ofList hsame.symm
      simp only [Visit.moduleLine?, hslice]

/-! ### Files -/

/-- A statement in front of the word, and the one that the word stands in, is read in both files. -/
theorem visits_alike {moduleName : String} {visits : List Visit}
    (h : Visits w.text moduleName ts visits) {v : Visit} (hv : v ∈ visits)
    (hahead : w.Ahead v.behind) (hpair : w.Pair ts ts') :
    ∃ visits' behind', Visits w.text' moduleName ts' visits' ∧
      ⟨v.moduleName, v.first, behind'⟩ ∈ visits' ∧ w.Pair v.behind behind' := by
  induction h generalizing ts' with
  | done => simp at hv
  | newline hkind later ih =>
      obtain ⟨us', rfl, -, hlater⟩ := hpair.uncons
      have hnext := (hahead.trans (List.suffix_cons v.first _)).trans (visits_suffix later v hv)
      obtain ⟨visits', behind', hvisits, hmem, hbehind⟩ := ih hv (hlater hnext)
      exact ⟨visits', behind', .newline hkind hvisits, hmem, hbehind⟩
  | @statement moduleName t ts visits hkind later ih =>
      obtain ⟨us', rfl, -, hlater⟩ := hpair.uncons
      rcases List.mem_cons.mp hv with rfl | hv
      · obtain ⟨visits', hvisits, -⟩ := readFrom_visits w.text' _
          (Visit.step w.text' ⟨moduleName, t, us'⟩).moduleName
          (Visit.step w.text' ⟨moduleName, t, us'⟩).rest (Nat.le_refl _)
        exact ⟨_, us', .statement hkind hvisits, List.mem_cons_self, hlater hahead⟩
      · have hnext := (hahead.trans (List.suffix_cons v.first _)).trans (visits_suffix later v hv)
        have hrest := hnext.trans (Visit.step_reads w.text ⟨moduleName, t, ts⟩).rest
        have hstep := readStatement_alike moduleName (fun _ => hpair) hnext
        obtain ⟨visits', behind', hvisits, hmem, hbehind⟩ := ih hv hstep
        rw [← moduleName_alike (fun _ => hpair) hrest] at hvisits
        exact ⟨_, behind', .statement hkind hvisits, List.mem_cons_of_mem _ hmem, hbehind⟩

theorem Visit.structTokens?_alike {v : Visit} {behind' : List Token}
    (h : v.structTokens? = some ts) (hahead : w.Ahead ts) (hpair : w.Pair v.behind behind') :
    ∃ ts', (⟨v.moduleName, v.first, behind'⟩ : Visit).structTokens? = some ts' ∧
      w.Pair ts ts' := by
  rcases v with ⟨moduleName, first, behind⟩
  unfold structTokens? at h ⊢
  dsimp only at h hpair ⊢
  split at h
  · rename_i hkind
    obtain rfl := Option.some.inj h
    exact ⟨behind', by simp [hkind], hpair⟩
  · rename_i hkind
    obtain rfl := Option.some.inj h
    exact ⟨behind', by simp [hkind], hpair⟩
  · rename_i t us hkind
    obtain ⟨us', rfl, -, hlater⟩ := hpair.uncons
    split at h
    · rename_i hword
      obtain rfl := Option.some.inj h
      exact ⟨us', by simp [hkind, hword], hlater hahead⟩
    · rename_i hword
      obtain rfl := Option.some.inj h
      exact ⟨us', by simp [hkind, hword], hlater hahead⟩
    · simp at h
  · simp at h

theorem structBody?_alike {moduleName : String} {body : List Token}
    (h : structBody? ⟨w.text, moduleName⟩ ts = some body) (hahead : w.Ahead body)
    (hpair : w.Pair ts ts') :
    ∃ body', structBody? ⟨w.text', moduleName⟩ ts' = some body' ∧ w.Pair body body' := by
  obtain ⟨declared, rest, t, hread, hrest, hkind⟩ := structBody?_eq_some.mp h
  have hname := readName_alike moduleName false fun _ => hpair
  rcases hread' : readName ⟨w.text', moduleName⟩ false ts' with ⟨declared', rest'⟩
  rw [hread, hread'] at hname
  have hopen : w.Ahead (skipOptional .square rest).2.rest := by
    rw [hrest]
    exact hahead.trans (List.suffix_cons t body)
  obtain ⟨rfl, hnamed⟩ := hname (hopen.trans (skipOptional_suffix .square rest))
  have hsquare := (skipOptional_alike .square fun _ => hnamed).alike hopen
  rw [hrest] at hsquare
  obtain ⟨body', hrest', -, hbody⟩ := hsquare.uncons
  exact ⟨body', structBody?_eq_some.mpr ⟨declared, rest', t, hread', hrest', hkind⟩,
    hbody hahead⟩

/-- The line that starts with the word is a line in both files. -/
theorem lines_alike {moduleName : String} {lines : List LineVisit}
    (h : Lines ⟨w.text, moduleName⟩ ts lines) (hmem : ⟨w.word, w.later⟩ ∈ lines)
    (hpair : w.Pair ts ts') :
    ∃ lines', Lines ⟨w.text', moduleName⟩ ts' lines' ∧ ⟨w.word, w.later'⟩ ∈ lines' := by
  induction h generalizing ts' with
  | unclosed => simp at hmem
  | closed hkind => simp at hmem
  | newline hkind later ih =>
      obtain ⟨us', rfl, -, hlater⟩ := hpair.uncons
      obtain ⟨lines', hlines, hline⟩ := ih hmem (hlater (lines_suffix later _ hmem))
      exact ⟨lines', .newline hkind hlines, hline⟩
  | access hnewline hclose haccess later ih =>
      obtain ⟨rest', haccess', hrest⟩ :=
        accessSection?_some hpair haccess (lines_suffix later _ hmem)
      obtain ⟨us', rfl, -, -⟩ := hpair.uncons
      obtain ⟨lines', hlines, hline⟩ := ih hmem hrest
      exact ⟨lines', .access hnewline hclose haccess' hlines, hline⟩
  | @line t ts lines hnewline hclose haccess later ih =>
      rcases List.mem_cons.mp hmem with heq | hmem
      · obtain ⟨rfl, rfl⟩ := LineVisit.mk.inj heq
        rw [hpair.at_word]
        obtain ⟨lines', hlines⟩ := exists_lines ⟨w.text', moduleName⟩ _
          (LineVisit.step ⟨w.text', moduleName⟩ ⟨w.word, w.later'⟩).rest (Nat.le_refl _)
        exact ⟨_, .line hnewline hclose (w.noAccess moduleName false) hlines, List.mem_cons_self⟩
      · have haccess' := accessSection?_none hpair haccess
        obtain ⟨us', rfl, -, -⟩ := hpair.uncons
        have hstep := readLine_alike ⟨w.text, moduleName⟩ ⟨w.text', moduleName⟩ (fun _ => hpair)
          hclose (lines_suffix later _ hmem)
        obtain ⟨lines', hlines, hline⟩ := ih hmem hstep
        exact ⟨_, .line hnewline hclose haccess' hlines, List.mem_cons_of_mem _ hline⟩

/-- **A line of a struct does not depend on what stands behind its first word.** -/
theorem StructLine.alike {moduleName : String}
    (h : StructLine w.text moduleName ⟨w.word, w.later⟩)
    (hpair : w.Pair (Token.ofText w.text) (Token.ofText w.text')) :
    StructLine w.text' moduleName ⟨w.word, w.later'⟩ := by
  obtain ⟨visits, v, hvisits, hv, rfl, ts, body, lines, htokens, hbody, hlines, hline⟩ := h
  have hahead : w.Ahead body := lines_suffix hlines _ hline
  have hstruct := hahead.trans (structBody?_suffix hbody)
  obtain ⟨visits', behind', hvisits', hv', hbehind⟩ :=
    visits_alike hvisits hv (hstruct.trans (Visit.structTokens?_suffix htokens)) hpair
  obtain ⟨ts', htokens', hts⟩ := Visit.structTokens?_alike htokens hstruct hbehind
  obtain ⟨body', hbody', hpair'⟩ := structBody?_alike hbody hahead hts
  obtain ⟨lines', hlines', hline'⟩ := lines_alike hlines hline hpair'
  exact ⟨visits', _, hvisits', hv', rfl, ts', body', lines', htokens', hbody', hlines', hline'⟩

end VServer.Outline
