/-
Brackets that close each other, and what skims do to them.

Tokens are paired if they are built of tokens that are no brackets and of groups, with paired tokens
inside.  A reader does not see this from outside.  It stands somewhere among the brackets, so the
proofs go by the brackets that are open at a point: `closes` tells whether the tokens from there on
close all of them, the innermost one first.

`Passes` says what a reader does to that.  If the tokens close what is open, so do those that the
reader leaves, and no bracket is reported.  The other way round, if the reader reports nothing and
leaves tokens that close what is open, then it was given such tokens.  A reader may lose a closing
bracket without a word, which is the proposition `lost` that it carries; most readers lose none.
Readers one behind the other pass on what they do, so every loop needs one turn only.
-/
import VServer.Proofs.Outline.Around
import VServer.Proofs.Outline.Balanced

namespace VServer

/-- A kind is no bracket, or it opens or closes a group. -/
theorem Kind.cases_bracket (k : Kind) :
    k.isBracket = false ∨ (∃ b, k = .opener b) ∨ ∃ b, k = .closer b := by
  cases k <;> simp [isBracket]

theorem Kind.isBracket_of_isName {k : Kind} (h : k.isName = true) : k.isBracket = false := by
  cases k <;> simp_all [isName, isBracket]

theorem Kind.isBracket_of_isOperatorPart {k : Kind} (h : k.isOperatorPart = true) :
    k.isBracket = false := by
  cases k <;> simp_all [isOperatorPart, isBracket]

namespace FaultCause

/-- Whether a cause is a bracket without a partner. -/
def isAboutBracket : FaultCause → Bool
  | unclosed _ => true
  | unmatched _ => true
  | mismatched _ => true
  | _ => false

/-- The first letters of all other causes. -/
theorem take_message {cause : FaultCause} (h : cause.isAboutBracket = false) :
    cause.message.toList.take 3 ∈ [['u', 'n', 'e'], ['e', 'x', 'p'], ['c', 'a', 'n']] := by
  have htake : ∀ front text : String, 3 ≤ front.toList.length →
      (front ++ text).toList.take 3 = front.toList.take 3 := by
    intro front text hlen
    rw [String.toList_append, List.take_append_of_le_length hlen]
  cases cause with
  | unclosed b => simp [isAboutBracket] at h
  | unmatched b => simp [isAboutBracket] at h
  | mismatched b => simp [isAboutBracket] at h
  | strayText text =>
      have hfirst := htake "unexpected character " (marked text) (by decide)
      show ("unexpected character " ++ marked text).toList.take 3 ∈ _
      rw [hfirst]
      decide
  | unreadable reason =>
      have hfirst := htake "cannot read file: " reason (by decide)
      show ("cannot read file: " ++ reason).toList.take 3 ∈ _
      rw [hfirst]
      decide
  | noModuleName => decide
  | noFunctionName => decide
  | noStructName => decide
  | notAField => decide

/-- Only a cause about a bracket is told with one of these words in front. -/
theorem isAboutBracket_of_message {cause : FaultCause} {word : List Char}
    (hword : word ∈ ["unclosed".toList, "unmatched".toList, "mismatched".toList])
    (h : word <+: cause.message.toList) : cause.isAboutBracket = true := by
  have hthree : 3 ≤ word.length ∧
      word.take 3 ∈ [['u', 'n', 'c'], ['u', 'n', 'm'], ['m', 'i', 's']] := by
    simp only [List.mem_cons, List.not_mem_nil, or_false] at hword
    rcases hword with rfl | rfl | rfl <;> decide
  by_contra hother
  have hmessage := take_message (Bool.eq_false_iff.mpr hother)
  obtain ⟨rest, hrest⟩ := h
  rw [← hrest, List.take_append_of_le_length hthree.1] at hmessage
  obtain ⟨-, hwords⟩ := hthree
  simp only [List.mem_cons, List.not_mem_nil, or_false] at hwords hmessage
  rcases hwords with hwords | hwords | hwords <;> simp [hwords] at hmessage

end FaultCause

namespace Outline

/-! ### Paired brackets -/

/-- Tokens in which every bracket is closed by one of its kind. -/
inductive Paired : List Token → Prop
  | done : Paired []
  | plain {t : Token} {ts : List Token} (hkind : t.kind.isBracket = false) (later : Paired ts) :
      Paired (t :: ts)
  | group {b : Bracket} {first last : Token} {inner ts : List Token}
      (hfirst : first.kind = .opener b) (hinner : Paired inner) (hlast : last.kind = .closer b)
      (later : Paired ts) : Paired (first :: (inner ++ last :: ts))

theorem Paired.append {ts us : List Token} (h : Paired ts) (h' : Paired us) :
    Paired (ts ++ us) := by
  induction h with
  | done => exact h'
  | plain hkind later ih => exact .plain hkind ih
  | group hfirst hinner hlast later _ ih =>
      rw [List.cons_append, List.append_assoc]
      exact .group hfirst hinner hlast ih

/-- Whether tokens close the brackets `opened`, the innermost one first, and all that they open
themselves. -/
def closes (opened : List Bracket) : List Token → Bool
  | [] => opened.isEmpty
  | t :: ts =>
    match t.kind with
    | .opener b => closes (b :: opened) ts
    | .closer b =>
      match opened with
      | [] => false
      | top :: below => decide (top = b) && closes below ts
    | _ => closes opened ts

section Closes

variable {opened : List Bracket} {t : Token} {ts : List Token} {b : Bracket}

theorem closes_opener (h : t.kind = .opener b) :
    closes opened (t :: ts) = closes (b :: opened) ts := by
  rw [closes, h]

theorem closes_closer {top : Bracket} (h : t.kind = .closer b) :
    closes (top :: opened) (t :: ts) = (decide (top = b) && closes opened ts) := by
  rw [closes, h]

theorem closes_unopened (h : t.kind = .closer b) : closes [] (t :: ts) = false := by
  rw [closes, h]

theorem closes_plain (h : t.kind.isBracket = false) :
    closes opened (t :: ts) = closes opened ts := by
  rw [closes]
  split
  · simp_all [Kind.isBracket]
  · simp_all [Kind.isBracket]
  · rfl

end Closes

/-- Paired tokens leave the brackets around them as they are. -/
theorem closes_append {ts : List Token} (h : Paired ts) :
    ∀ (opened : List Bracket) (rest : List Token),
      closes opened (ts ++ rest) = closes opened rest := by
  induction h with
  | done => intro opened rest; rfl
  | plain hkind later ih =>
      intro opened rest
      rw [List.cons_append, closes_plain hkind, ih]
  | group hfirst hinner hlast later ihInner ihLater =>
      intro opened rest
      rw [List.cons_append, List.append_assoc, closes_opener hfirst, ihInner, List.cons_append,
        closes_closer hlast, ihLater]
      simp

/-- Up to the bracket that closes the innermost open one, everything is paired. -/
theorem exists_closer :
    ∀ (ts : List Token) (top : Bracket) (below : List Bracket), closes (top :: below) ts = true →
      ∃ inner last later, ts = inner ++ last :: later ∧ Paired inner ∧
        last.kind = .closer top ∧ closes below later = true := by
  refine tokens_induction ?_ ?_
  · intro top below h
    simp [closes] at h
  · intro t ts ih top below h
    have hnext := ih ts (List.suffix_refl ts)
    rcases t.kind.cases_bracket with hplain | ⟨b, hkind⟩ | ⟨b, hkind⟩
    · rw [closes_plain hplain] at h
      obtain ⟨inner, last, later, rfl, hinner, hlast, hlater⟩ := hnext top below h
      exact ⟨t :: inner, last, later, rfl, .plain hplain hinner, hlast, hlater⟩
    · -- The group that starts here comes first, and the bracket is looked for behind it.
      rw [closes_opener hkind] at h
      obtain ⟨inner, last, later, rfl, hinner, hlast, hlater⟩ := hnext b (top :: below) h
      obtain ⟨inner', last', later', rfl, hinner', hlast', hlater'⟩ :=
        ih later ⟨inner ++ [last], by simp⟩ top below hlater
      exact ⟨t :: (inner ++ last :: inner'), last', later', by simp,
        .group hkind hinner hlast hinner', hlast', hlater'⟩
    · rw [closes_closer hkind, Bool.and_eq_true, decide_eq_true_eq] at h
      obtain ⟨rfl, hlater⟩ := h
      exact ⟨[], t, ts, rfl, .done, hkind, hlater⟩

theorem paired_of_closes : ∀ ts : List Token, closes [] ts = true → Paired ts := by
  refine tokens_induction (fun _ => .done) ?_
  intro t ts ih h
  rcases t.kind.cases_bracket with hplain | ⟨b, hkind⟩ | ⟨b, hkind⟩
  · rw [closes_plain hplain] at h
    exact .plain hplain (ih ts (List.suffix_refl ts) h)
  · rw [closes_opener hkind] at h
    obtain ⟨inner, last, later, rfl, hinner, hlast, hlater⟩ := exists_closer ts b [] h
    exact .group hkind hinner hlast (ih later ⟨inner ++ [last], by simp⟩ hlater)
  · rw [closes_unopened hkind] at h
    exact absurd h Bool.false_ne_true

/-- **Tokens are paired if and only if they close all brackets that they open.** -/
theorem paired_iff (ts : List Token) : Paired ts ↔ closes [] ts = true := by
  refine ⟨fun h => ?_, paired_of_closes ts⟩
  have happend := closes_append h [] []
  rw [List.append_nil] at happend
  rw [happend]
  rfl

instance instDecidablePaired (ts : List Token) : Decidable (Paired ts) :=
  decidable_of_iff (closes [] ts = true) (paired_iff ts).symm

/-! ### Readers and the brackets around them

A reader is described by two lists of tokens and two stacks: what it is given and what is open
there, and what it leaves and what is open then.  The lemmas are the steps that readers are made
of, and the rules for putting one behind the other.
-/

/-- No fault is about a bracket. -/
def NoBracketFault (faults : List Fault) : Prop :=
  ∀ f ∈ faults, f.cause.isAboutBracket = false

theorem NoBracketFault.append {fs gs : List Fault} (hfs : NoBracketFault fs)
    (hgs : NoBracketFault gs) : NoBracketFault (fs ++ gs) := by
  intro f hf
  rcases List.mem_append.mp hf with hf | hf
  · exact hfs f hf
  · exact hgs f hf

/-- A reader that is given `ts`, where `opened` are open, reports `faults` and leaves `rest`, where
`left` are open.  If `lost` holds it has passed over a closing bracket that closes nothing. -/
structure Passes (lost : Prop) (opened : List Bracket) (ts : List Token) (faults : List Fault)
    (left : List Bracket) (rest : List Token) : Prop where
  forward : closes opened ts = true →
    NoBracketFault faults ∧ ¬ lost ∧ closes left rest = true
  back : faults = [] → ¬ lost → closes left rest = true → closes opened ts = true

namespace Passes

variable {lost lost' : Prop} {opened left left' : List Bracket} {ts rest rest' : List Token}
  {faults faults' : List Fault} {t : Token}

/-- A reader that stays where it is. -/
theorem stay (opened : List Bracket) (ts : List Token) : Passes False opened ts [] opened ts where
  forward h := ⟨fun _ hf => absurd hf List.not_mem_nil, id, h⟩
  back _ _ h := h

theorem plain (opened : List Bracket) (ts : List Token) (h : t.kind.isBracket = false) :
    Passes False opened (t :: ts) [] opened ts := by
  have heq : closes opened (t :: ts) = closes opened ts := closes_plain h
  refine ⟨fun hts => ?_, fun _ _ hts => ?_⟩
  · rw [heq] at hts
    exact (stay opened ts).forward hts
  · rw [heq]
    exact hts

theorem opener (opened : List Bracket) (ts : List Token) {b : Bracket} (h : t.kind = .opener b) :
    Passes False opened (t :: ts) [] (b :: opened) ts := by
  have heq : closes opened (t :: ts) = closes (b :: opened) ts := closes_opener h
  refine ⟨fun hts => ?_, fun _ _ hts => ?_⟩
  · rw [heq] at hts
    exact (stay (b :: opened) ts).forward hts
  · rw [heq]
    exact hts

/-- A closing bracket is reported if it is not of the kind that is open. -/
theorem closer (top : Bracket) (opened : List Bracket) (ts : List Token) {b : Bracket}
    (h : t.kind = .closer b) :
    Passes False (top :: opened) (t :: ts) (closingFaults top t.span b) opened ts := by
  have heq : closes (top :: opened) (t :: ts) = (decide (top = b) && closes opened ts) :=
    closes_closer h
  by_cases hsame : top = b
  · have hnone : closingFaults top t.span b = [] := if_pos hsame
    rw [hnone]
    simp only [hsame, decide_true, Bool.true_and] at heq
    rw [hsame]
    refine ⟨fun hts => ?_, fun _ _ hts => ?_⟩
    · rw [heq] at hts
      exact (stay opened ts).forward hts
    · rw [heq]
      exact hts
  · refine ⟨fun hts => ?_, fun hnone => ?_⟩
    · rw [heq, decide_eq_false hsame] at hts
      exact absurd hts (by simp)
    · rw [closingFaults, if_neg hsame] at hnone
      exact absurd hnone (List.cons_ne_nil _ _)

/-- A reader that reports something where the open brackets are not closed. -/
theorem report {f : Fault} {fs : List Fault} (h : closes opened ts = false) :
    Passes lost opened ts (f :: fs) left rest where
  forward hts := absurd (h.symm.trans hts) (by simp)
  back hnone := absurd hnone (List.cons_ne_nil f fs)

/-- One reader behind the other. -/
theorem andThen (h : Passes lost opened ts faults left rest)
    (h' : Passes lost' left rest faults' left' rest') :
    Passes (lost ∨ lost') opened ts (faults ++ faults') left' rest' where
  forward hts := by
    obtain ⟨hfaults, hlost, hrest⟩ := h.forward hts
    obtain ⟨hfaults', hlost', hrest'⟩ := h'.forward hrest
    exact ⟨hfaults.append hfaults', not_or.mpr ⟨hlost, hlost'⟩, hrest'⟩
  back hnone hlost hrest := by
    obtain ⟨hfaults, hfaults'⟩ := List.append_eq_nil_iff.mp hnone
    obtain ⟨hlost, hlost'⟩ := not_or.mp hlost
    exact h.back hfaults hlost (h'.back hfaults' hlost' hrest)

theorem of_iff (h : Passes lost opened ts faults left rest) (hiff : lost ↔ lost') :
    Passes lost' opened ts faults left rest where
  forward hts := by
    rw [← hiff]
    exact h.forward hts
  back hnone hlost := h.back hnone (mt hiff.mp hlost)

/-- The same reader with other words for what it loses. -/
theorem relabel (h : Passes lost opened ts faults left rest)
    (hforward : closes opened ts = true → ¬ lost') (hback : faults = [] → lost → lost') :
    Passes lost' opened ts faults left rest where
  forward hts := ⟨(h.forward hts).1, hforward hts, (h.forward hts).2.2⟩
  back hnone hlost := h.back hnone (mt (hback hnone) hlost)

/-- A reader that loses nothing, in front of another one. -/
theorem before (h : Passes False opened ts faults left rest)
    (h' : Passes lost' left rest faults' left' rest') :
    Passes lost' opened ts (faults ++ faults') left' rest' :=
  (h.andThen h').of_iff (or_iff_right id)

/-- The same, if it reports nothing. -/
theorem quietly (h : Passes False opened ts [] left rest)
    (h' : Passes lost' left rest faults' left' rest') :
    Passes lost' opened ts faults' left' rest' :=
  h.before h'

/-- A fault that is not about a bracket excuses what was lost. -/
theorem excuse (h : Passes lost opened ts faults left rest) {f : Fault}
    (hf : f.cause.isAboutBracket = false) :
    Passes False opened ts (f :: faults) left rest where
  forward hts := by
    obtain ⟨hfaults, -, hrest⟩ := h.forward hts
    refine ⟨fun g hg => ?_, id, hrest⟩
    rcases List.mem_cons.mp hg with rfl | hg
    · exact hf
    · exact hfaults g hg
  back hnone := absurd hnone (List.cons_ne_nil f faults)

end Passes

/-! ### Groups

A group is passed over with the brackets opened inside of it on a stack, on top of those that were
open in front of it.  One closing bracket takes one off, of whatever kind, and is reported if the
kind is wrong.
-/

/-- What is left to do of a group behind a closing bracket. -/
def closeRest (unclosed : Fault) (stop : Nat) (below : List Bracket) (ts : List Token) : GroupEnd :=
  match below with
  | [] => ⟨[], stop, ts⟩
  | outer :: below => closeGroup unclosed stop outer below ts

theorem closeGroup_closes (unclosed : Fault) (stop : Nat) (top : Bracket) (below : List Bracket)
    {t : Token} (ts : List Token) {b : Bracket} (h : t.kind = .closer b) :
    (closeGroup unclosed stop top below (t :: ts)).faults
        = closingFaults top t.span b ++ (closeRest unclosed t.span.stop below ts).faults ∧
      (closeGroup unclosed stop top below (t :: ts)).rest
        = (closeRest unclosed t.span.stop below ts).rest := by
  rw [closeGroup, h]
  cases below with
  | nil => simp [closeRest]
  | cons outer below => exact ⟨rfl, rfl⟩

theorem closeGroup_passes (unclosed : Fault) (opened : List Bracket) :
    ∀ (ts : List Token) (stop : Nat) (top : Bracket) (below : List Bracket),
      Passes False (top :: (below ++ opened)) ts (closeGroup unclosed stop top below ts).faults
        opened (closeGroup unclosed stop top below ts).rest := by
  intro ts
  induction ts with
  | nil => intro stop top below; exact .report rfl
  | cons t ts ih =>
      intro stop top below
      rcases t.kind.cases_bracket with hplain | ⟨b, hkind⟩ | ⟨b, hkind⟩
      · rw [closeGroup_plain ts hplain]
        exact (Passes.plain _ ts hplain).quietly (ih _ top below)
      · rw [closeGroup_opener ts hkind]
        exact (Passes.opener _ ts hkind).quietly (ih _ b (top :: below))
      · obtain ⟨hfaults, hrest⟩ := closeGroup_closes unclosed stop top below ts hkind
        have hcloser := Passes.closer top (below ++ opened) ts hkind
        rw [hfaults, hrest]
        cases below with
        | nil => exact hcloser.before (.stay opened ts)
        | cons outer below => exact hcloser.before (ih _ outer below)

theorem skipGroup_passes (opened : List Bracket) (ts : List Token) {t : Token} {b : Bracket}
    (h : t.kind = .opener b) :
    Passes False opened (t :: ts) (skipGroup t.span b ts).faults opened
      (skipGroup t.span b ts).rest :=
  (Passes.opener opened ts h).quietly (closeGroup_passes _ opened ts _ b [])

/-- A group without a fault is passed over up to the bracket that closes its innermost one, with
paired tokens between, and on from there. -/
theorem closeGroup_quiet (unclosed : Fault) :
    ∀ (ts : List Token) (stop : Nat) (top : Bracket) (below : List Bracket),
      (closeGroup unclosed stop top below ts).faults = [] →
      ∃ inner last later stop', ts = inner ++ last :: later ∧ Paired inner ∧
        last.kind = .closer top ∧ (closeRest unclosed stop' below later).faults = [] ∧
        (closeGroup unclosed stop top below ts).rest
          = (closeRest unclosed stop' below later).rest := by
  refine tokens_induction ?_ ?_
  · intro stop top below h
    exact absurd h (List.cons_ne_nil _ _)
  · intro t ts ih stop top below h
    have hnext := ih ts (List.suffix_refl ts)
    rcases t.kind.cases_bracket with hplain | ⟨b, hkind⟩ | ⟨b, hkind⟩
    · rw [closeGroup_plain ts hplain] at h ⊢
      obtain ⟨inner, last, later, stop', rfl, hinner, hlast, hquiet, hrest⟩ := hnext _ _ _ h
      exact ⟨t :: inner, last, later, stop', rfl, .plain hplain hinner, hlast, hquiet, hrest⟩
    · rw [closeGroup_opener ts hkind] at h ⊢
      obtain ⟨inner, last, later, stop', rfl, hinner, hlast, hquiet, hrest⟩ := hnext _ _ _ h
      obtain ⟨inner', last', later', stop'', rfl, hinner', hlast', hquiet', hrest'⟩ :=
        ih later ⟨inner ++ [last], by simp⟩ stop' top below hquiet
      exact ⟨t :: (inner ++ last :: inner'), last', later', stop'', by simp,
        .group hkind hinner hlast hinner', hlast', hquiet', hrest.trans hrest'⟩
    · obtain ⟨hfaults, hrest⟩ := closeGroup_closes unclosed stop top below ts hkind
      rw [hfaults] at h
      obtain ⟨hkinds, hquiet⟩ := List.append_eq_nil_iff.mp h
      have hsame : top = b := by
        by_contra hne
        rw [closingFaults, if_neg hne] at hkinds
        exact absurd hkinds (List.cons_ne_nil _ _)
      subst hsame
      exact ⟨[], t, ts, t.span.stop, rfl, .done, hkind, hquiet, hrest⟩

/-- **A group without a fault is paired, and the reader stops right behind it.** -/
theorem skipGroup_quiet {span : Text.Span} {b : Bracket} {ts : List Token}
    (h : (skipGroup span b ts).faults = []) :
    ∃ inner last, ts = inner ++ last :: (skipGroup span b ts).rest ∧ Paired inner ∧
      last.kind = .closer b := by
  obtain ⟨inner, last, later, stop', hts, hinner, hlast, -, hrest⟩ :=
    closeGroup_quiet ⟨span, .unclosed b⟩ ts span.stop b [] h
  refine ⟨inner, last, ?_, hinner, hlast⟩
  have hlater : (skipGroup span b ts).rest = later := hrest
  rw [hlater]
  exact hts

theorem closeGroup_paired (unclosed : Fault) {inner : List Token} (h : Paired inner) :
    ∀ (stop : Nat) (top : Bracket) (below : List Bracket), ∃ stop', ∀ rest : List Token,
      closeGroup unclosed stop top below (inner ++ rest)
        = closeGroup unclosed stop' top below rest := by
  induction h with
  | done => exact fun stop top below => ⟨stop, fun rest => rfl⟩
  | @plain t ts hkind later ih =>
      intro stop top below
      obtain ⟨stop', h⟩ := ih t.span.stop top below
      refine ⟨stop', fun rest => ?_⟩
      rw [List.cons_append, closeGroup_plain _ hkind, h]
  | @group b first last inner ts hfirst hinner hlast later ihInner ihLater =>
      intro stop top below
      obtain ⟨stopInner, hInner⟩ := ihInner first.span.stop b (top :: below)
      obtain ⟨stop', hLater⟩ := ihLater last.span.stop top below
      refine ⟨stop', fun rest => ?_⟩
      rw [List.cons_append, List.append_assoc, closeGroup_opener _ hfirst, hInner,
        List.cons_append, closeGroup_closer _ hlast, hLater]

/-- A paired group is passed over without a fault, up to its last bracket. -/
theorem skipGroup_paired {b : Bracket} {inner : List Token} (hinner : Paired inner) {last : Token}
    (hlast : last.kind = .closer b) (span : Text.Span) (rest : List Token) :
    skipGroup span b (inner ++ last :: rest) = ⟨[], last.span.stop, rest⟩ := by
  obtain ⟨stop', h⟩ := closeGroup_paired ⟨span, .unclosed b⟩ hinner span.stop b []
  show closeGroup _ _ _ _ _ = _
  rw [h, closeGroup_last _ hlast]

/-! ### Skims

A skim passes over whole groups, so it leaves the brackets around it as they are wherever it goes
on.  The one thing to look at is a closing bracket that is met outside a group, and what is done
there is a matter of each skim.
-/

theorem skipUnit_passes (opened : List Bracket) {t : Token} (ts : List Token)
    (h : ∀ b, t.kind ≠ .closer b) :
    Passes False opened (t :: ts) (skipUnit t ts).faults opened (skipUnit t ts).rest := by
  rcases t.kind.cases_bracket with hplain | ⟨b, hkind⟩ | ⟨b, hkind⟩
  · rw [skipUnit_single ts (Kind.ne_opener_of_plain hplain)]
    exact .plain opened ts hplain
  · rw [skipUnit_opener ts hkind]
    exact skipGroup_passes opened ts hkind
  · exact absurd hkind (h b)

/-- A skim that passes a closing bracket passes all tokens, if it reports nothing else. -/
theorem skim_passes {move : Kind → Move} {opened : List Bracket}
    (hquiet : ∀ {kind causes}, move kind = .onward causes → (∀ b, kind ≠ .closer b) → causes = [])
    (hcloser : ∀ t ts b, t.kind = .closer b → Passes False opened (t :: ts)
      (skim move (t :: ts)).faults opened (skim move (t :: ts)).rest) :
    ∀ ts : List Token, Passes False opened ts (skim move ts).faults opened (skim move ts).rest := by
  refine tokens_induction (Passes.stay opened []) ?_
  intro t ts ih
  by_cases hkind : ∃ b, t.kind = .closer b
  · obtain ⟨b, hkind⟩ := hkind
    exact hcloser t ts b hkind
  · have hne : ∀ b, t.kind ≠ .closer b := fun b hb => hkind ⟨b, hb⟩
    have hunit := skipUnit_passes opened ts hne
    cases hmove : move t.kind with
    | before =>
        rw [skim_before ts hmove]
        exact .stay opened (t :: ts)
    | behind =>
        rw [skim_behind ts hmove]
        exact hunit
    | onward causes =>
        obtain rfl := hquiet hmove hne
        rw [skim_onward ts hmove]
        exact hunit.before (ih _ (skipUnit_suffix t ts))

theorem skipStatement_passes :
    ∀ ts : List Token, Passes False [] ts (skipStatement ts).faults [] (skipStatement ts).rest := by
  refine skim_passes (fun h hne => ?_) fun t ts b hkind => ?_
  · rcases statementMove_reports h with rfl | ⟨b, hb, -⟩
    · rfl
    · exact absurd hb (hne b)
  · rw [show skim statementMove (t :: ts) = _ from skipStatement_closer ts hkind]
    exact .report (closes_unopened hkind)

theorem skipSignature_passes (opened : List Bracket) : ∀ ts : List Token,
    Passes False opened ts (skipSignature ts).faults opened (skipSignature ts).rest := by
  refine skim_passes (fun h _ => signatureMove_reports h) fun t ts b hkind => ?_
  rw [show skim signatureMove (t :: ts) = _ from skipSignature_closer ts hkind]
  exact .stay opened (t :: ts)

theorem skipOptional_passes (b : Bracket) (opened : List Bracket) (ts : List Token) :
    Passes False opened ts (skipOptional b ts).2.faults opened (skipOptional b ts).2.rest := by
  unfold skipOptional
  split
  · rename_i t rest
    split
    · rename_i hkind
      exact skipGroup_passes opened rest hkind
    · exact .stay opened _
  · exact .stay opened []

/-! ### Names -/

theorem dottedEnd_passes (opened : List Bracket) (stop : Nat) (ts : List Token) :
    Passes False opened ts [] opened (dottedEnd stop ts).2 := by
  fun_induction dottedEnd stop ts with
  | case1 stop d n ts hdot ih =>
      have hmark : d.kind.isBracket = false := by rw [hdot.1]; rfl
      exact (Passes.plain opened (n :: ts) hmark).quietly
        ((Passes.plain opened ts (Kind.isBracket_of_isName hdot.2)).quietly ih)
  | case2 => exact .stay opened _
  | case3 => exact .stay opened _

theorem operatorEnd_passes (opened : List Bracket) (stop : Nat) (ts : List Token) :
    Passes False opened ts [] opened (operatorEnd stop ts).2 := by
  fun_induction operatorEnd stop ts with
  | case1 => exact .stay opened _
  | case2 stop t ts hpart ih =>
      exact (Passes.plain opened ts (Kind.isBracket_of_isOperatorPart hpart)).quietly ih
  | case3 => exact .stay opened _

theorem readForeignName_passes (opened : List Bracket) (language : Language) (ts : List Token) :
    Passes False opened ts [] opened (readForeignName language ts).2 := by
  unfold readForeignName
  split
  · rename_i t rest
    split
    · rename_i hname
      exact (Passes.plain opened rest (Kind.isBracket_of_isName hname)).quietly
        (dottedEnd_passes opened _ rest)
    · exact .stay opened _
  · exact .stay opened []

theorem readName_passes (opened : List Bracket) (ctx : Context) (allowOperator : Bool)
    (ts : List Token) : Passes False opened ts [] opened (readName ctx allowOperator ts).2 := by
  unfold readName
  split
  · exact .stay opened []
  · rename_i t rest
    split
    · rename_i hoperator
      have hpart := (Bool.and_eq_true_iff.mp hoperator).2
      exact (Passes.plain opened rest (Kind.isBracket_of_isOperatorPart hpart)).quietly
        (operatorEnd_passes opened _ rest)
    split
    · rename_i hname
      have hfirst := Passes.plain opened rest (Kind.isBracket_of_isName hname)
      split
      · rename_i language d after _
        split
        · rename_i hdot
          have hmark : d.kind.isBracket = false := by rw [hdot]; rfl
          exact hfirst.quietly ((Passes.plain opened after hmark).quietly
            (readForeignName_passes opened language after))
        · exact hfirst
      · exact hfirst
    · exact .stay opened _

theorem accessSection?_passes (opened : List Bracket) (ctx : Context) :
    ∀ (ts : List Token) (begun : Bool) (rest : List Token),
      accessSection? ctx begun ts = some rest → Passes False opened ts [] opened rest := by
  intro ts
  induction ts with
  | nil => intro begun rest h; simp [accessSection?] at h
  | cons t ts ih =>
      intro begun rest h
      unfold accessSection? at h
      split at h
      · rename_i hcolon
        split at h
        · obtain rfl : ts = rest := by simpa using h
          exact .plain opened ts (by rw [hcolon]; rfl)
        · simp at h
      · split at h
        · rename_i hword
          have hplain : t.kind.isBracket = false := by
            simp only [isAccessWord, Bool.or_eq_true, Bool.and_eq_true, decide_eq_true_eq] at hword
            rcases hword with (hkind | hkind) | ⟨hkind, -⟩ <;> rw [hkind] <;> rfl
          exact (Passes.plain opened ts hplain).quietly (ih true rest h)
        · simp at h

end Outline

end VServer
