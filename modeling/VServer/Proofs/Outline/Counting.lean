/-
Where a group ends, told by counting.

A group is passed over with a stack of the brackets that are open.  What comes of that can be said
without a stack.  The group is the shortest part from its opening bracket on that has as many
opening brackets as closing ones, of whatever kinds (`FirstLevel`), or it is all that is left.  A
closing bracket closes the innermost open one, and that is the last token from which on more is
opened than closed (`innermost`).

The two are tied together by `Opened`: between the brackets on the stack, and behind the last of
them, everything that was opened has been closed.  One step keeps this, so it holds as long as the
group goes on, and both counts can be read off it.
-/
import VServer.Proofs.Outline.Paired

namespace VServer

namespace Kind

/-- Whether a token of this kind is an opening bracket. -/
def isOpener : Kind → Bool
  | opener _ => true
  | _ => false

/-- Whether a token of this kind is a closing bracket. -/
def isCloser : Kind → Bool
  | closer _ => true
  | _ => false

theorem isCloser_of_isBracket {k : Kind} (h : k.isBracket = false) : k.isCloser = false := by
  cases k <;> first | rfl | cases h

end Kind

namespace Outline

/-! ### Counting brackets

Kinds do not matter to the counts.  A closing bracket of the wrong kind is reported and taken for
the right one, so where a group ends is a question of numbers alone.
-/

/-- How many opening brackets there are. -/
def openers (ts : List Token) : Nat :=
  ts.countP fun t => t.kind.isOpener

/-- How many closing brackets there are. -/
def closers (ts : List Token) : Nat :=
  ts.countP fun t => t.kind.isCloser

/-- As many brackets are opened as closed, whatever their kinds. -/
def Level (ts : List Token) : Prop :=
  openers ts = closers ts

/-- The shortest part at the head of `ts` that is level, not counting the empty one. -/
structure FirstLevel (segment ts : List Token) : Prop where
  front : segment <+: ts
  filled : segment ≠ []
  level : Level segment
  shortest : ∀ part, part <+: ts → part ≠ [] → Level part → segment.length ≤ part.length

/-- The innermost open bracket: the last token from which on more is opened than closed. -/
def innermost : List Token → Option Token
  | [] => none
  | t :: ts => (innermost ts).or (if closers (t :: ts) < openers (t :: ts) then some t else none)

/-- The fault of a token behind `before`: it closes the innermost open bracket, and that one is of
another kind. -/
def mismatch? (before : List Token) (t : Token) : Option Fault :=
  match (innermost before).map Token.kind, t.kind with
  | some (.opener b), .closer b' => if b = b' then none else some ⟨t.span, .mismatched b'⟩
  | _, _ => none

/-- The faults of tokens behind `before`, one for each closing bracket of the wrong kind. -/
def mismatches (before : List Token) : List Token → List Fault
  | [] => []
  | t :: ts => (mismatch? before t).toList ++ mismatches (before ++ [t]) ts

section Counts

variable {t : Token} {b : Bracket}

@[simp] theorem openers_nil : openers [] = 0 := rfl

@[simp] theorem closers_nil : closers [] = 0 := rfl

@[simp] theorem openers_append (ts us : List Token) :
    openers (ts ++ us) = openers ts + openers us :=
  List.countP_append

@[simp] theorem closers_append (ts us : List Token) :
    closers (ts ++ us) = closers ts + closers us :=
  List.countP_append

theorem openers_cons (t : Token) (ts : List Token) :
    openers (t :: ts) = openers [t] + openers ts :=
  openers_append [t] ts

theorem closers_cons (t : Token) (ts : List Token) :
    closers (t :: ts) = closers [t] + closers ts :=
  closers_append [t] ts

theorem counts_plain (h : t.kind.isBracket = false) : openers [t] = 0 ∧ closers [t] = 0 := by
  rcases t with ⟨kind, span⟩
  cases kind <;> first | exact ⟨rfl, rfl⟩ | cases h

theorem counts_opener (h : t.kind = .opener b) : openers [t] = 1 ∧ closers [t] = 0 := by
  simp [openers, closers, h, Kind.isOpener, Kind.isCloser]

theorem counts_closer (h : t.kind = .closer b) : openers [t] = 0 ∧ closers [t] = 1 := by
  simp [openers, closers, h, Kind.isOpener, Kind.isCloser]

end Counts

/-- Paired tokens are level. -/
theorem Paired.level {ts : List Token} (h : Paired ts) : Level ts := by
  unfold Level
  induction h with
  | done => rfl
  | @plain t ts hkind later ih =>
      have ht := counts_plain hkind
      rw [openers_cons, closers_cons, ih]
      omega
  | @group b first last inner ts hfirst hinner hlast later ihInner ihLater =>
      have ho := counts_opener hfirst
      have hc := counts_closer hlast
      rw [openers_cons, closers_cons, openers_append, closers_append, openers_cons last,
        closers_cons last]
      omega

/-! ### Tokens between open brackets

`Settled` tokens can stand anywhere without changing what is open in front of them.  `Opened` lists
what a stack means: for each bracket on it the token that opened it, and settled tokens between
these.  The lemmas are one for each kind of token that can come next.
-/

/-- Tokens that close what they open, and close nothing else. -/
structure Settled (ts : List Token) : Prop where
  level : Level ts
  behind : ∀ part, part <:+ ts → openers part ≤ closers part

namespace Settled

variable {ts us inner : List Token}

theorem nil : Settled [] where
  level := rfl
  behind part hpart := by rw [List.suffix_nil.mp hpart]; exact Nat.le_refl _

/-- Nowhere in front has more been closed than opened. -/
theorem front (h : Settled ts) {part : List Token} (hpart : part <+: ts) :
    closers part ≤ openers part := by
  obtain ⟨rest, rfl⟩ := hpart
  have hrest := h.behind rest (List.suffix_append part rest)
  have hlevel := h.level
  simp only [Level, openers_append, closers_append] at hlevel
  omega

theorem plain {t : Token} (h : t.kind.isBracket = false) : Settled [t] where
  level := (counts_plain h).1.trans (counts_plain h).2.symm
  behind part hpart := by
    rcases List.suffix_cons_iff.mp hpart with rfl | hnil
    · rw [(counts_plain h).1]
      exact Nat.zero_le _
    · exact nil.behind part hnil

theorem append (h : Settled ts) (h' : Settled us) : Settled (ts ++ us) where
  level := by
    have hts := h.level
    have hus := h'.level
    simp only [Level, openers_append, closers_append] at hts hus ⊢
    omega
  behind part := by
    rintro ⟨rest, hrest⟩
    rcases List.append_eq_append_iff.mp hrest with ⟨extra, hts, rfl⟩ | ⟨extra, -, rfl⟩
    · have hextra := h.behind extra ⟨rest, hts.symm⟩
      have hus := h'.level
      simp only [Level, openers_append, closers_append] at hus ⊢
      omega
    · exact h'.behind part (List.suffix_append extra part)

/-- Brackets around settled tokens, which may be of different kinds. -/
theorem group (h : Settled inner) {first last : Token} {b b' : Bracket}
    (hfirst : first.kind = .opener b) (hlast : last.kind = .closer b') :
    Settled (first :: (inner ++ [last])) := by
  have ho := counts_opener hfirst
  have hc := counts_closer hlast
  have hinner := h.level
  have hlevel : Level (first :: (inner ++ [last])) := by
    rw [Level] at hinner ⊢
    rw [openers_cons, closers_cons, openers_append, closers_append]
    omega
  refine ⟨hlevel, fun part hpart => ?_⟩
  rcases List.suffix_cons_iff.mp hpart with rfl | ⟨rest, hrest⟩
  · exact Nat.le_of_eq hlevel
  rcases List.append_eq_append_iff.mp hrest with ⟨extra, hts, rfl⟩ | ⟨extra, -, hextra⟩
  · have hle := h.behind extra ⟨rest, hts.symm⟩
    rw [openers_append, closers_append]
    omega
  · have hle : openers part ≤ openers [last] := by
      rw [hextra, openers_append]
      omega
    omega

end Settled

/-- Everywhere more has been opened than closed. -/
def Ahead (ts : List Token) : Prop :=
  ∀ part, part <+: ts → part ≠ [] → closers part < openers part

/-- Tokens that leave the brackets `stack` open, of which the first one is the innermost. -/
inductive Opened : List Token → List Bracket → Prop
  | nothing : Opened [] []
  | bracket {outside inside : List Token} {t : Token} {b : Bracket} {below : List Bracket}
      (around : Opened outside below) (hkind : t.kind = .opener b) (hinside : Settled inside) :
      Opened (outside ++ t :: inside) (b :: below)

namespace Opened

variable {passed : List Token} {stack below : List Bracket} {t : Token} {b top : Bracket}

theorem plain (h : Opened passed (top :: below)) (ht : t.kind.isBracket = false) :
    Opened (passed ++ [t]) (top :: below) := by
  cases h with
  | bracket around hkind hinside =>
      rw [List.append_assoc]
      exact .bracket around hkind (hinside.append (.plain ht))

theorem opener (h : Opened passed stack) (ht : t.kind = .opener b) :
    Opened (passed ++ [t]) (b :: stack) :=
  .bracket h ht .nil

/-- A closing bracket of any kind closes the innermost open one. -/
theorem closer {outer : Bracket} (h : Opened passed (top :: outer :: below))
    (ht : t.kind = .closer b) : Opened (passed ++ [t]) (outer :: below) := by
  cases h with
  | @bracket outside inside o _ _ around hkind hinside =>
      cases around with
      | @bracket outside' inside' o' _ _ around' hkind' hinside' =>
          have hgroup := hinside'.append (hinside.group hkind ht)
          have hopened := Opened.bracket around' hkind' hgroup
          simpa using hopened

/-- Where the last open bracket is closed, as much has been closed as opened. -/
theorem level (h : Opened passed [top]) (ht : t.kind = .closer b) : Level (passed ++ [t]) := by
  cases h with
  | bracket around hkind hinside =>
      cases around
      exact (hinside.group hkind ht).level

theorem ahead (h : Opened passed stack) : Ahead passed := by
  induction h with
  | nothing => exact fun part hpart hne => absurd (List.prefix_nil.mp hpart) hne
  | @bracket outside inside o b below around hkind hinside ih =>
      rintro part ⟨rest, hrest⟩ hne
      have ho := counts_opener hkind
      have houtside : closers outside ≤ openers outside := by
        by_cases hnil : outside = []
        · rw [hnil]
          exact Nat.le_refl _
        · exact Nat.le_of_lt (ih outside (List.prefix_refl _) hnil)
      rcases List.append_eq_append_iff.mp hrest with ⟨extra, rfl, -⟩ | ⟨extra, rfl, hextra⟩
      · exact ih part (List.prefix_append part extra) hne
      · cases extra with
        | nil =>
            rw [List.append_nil] at hne ⊢
            exact ih outside (List.prefix_refl _) hne
        | cons o' extra =>
            obtain ⟨rfl, hinner⟩ := List.cons.inj hextra
            have hle := hinside.front ⟨rest, hinner.symm⟩
            rw [openers_append, closers_append, openers_cons, closers_cons]
            omega

end Opened

/-! ### The innermost open bracket -/

theorem innermost_eq_none {ts : List Token}
    (h : ∀ part, part <:+ ts → openers part ≤ closers part) : innermost ts = none := by
  induction ts with
  | nil => rfl
  | cons t ts ih =>
      rw [innermost, ih fun part hpart => h part (hpart.trans (List.suffix_cons t ts)),
        if_neg (Nat.not_lt.mpr (h _ (List.suffix_refl _)))]
      rfl

theorem innermost_append {ts : List Token} {t : Token} (h : innermost ts = some t)
    (before : List Token) : innermost (before ++ ts) = some t := by
  induction before with
  | nil => exact h
  | cons u before ih => rw [List.cons_append, innermost, ih, Option.some_or]

/-- The first bracket of the stack is that of the innermost open one. -/
theorem Opened.innermost {passed : List Token} {top : Bracket} {below : List Bracket}
    (h : Opened passed (top :: below)) :
    (Outline.innermost passed).map Token.kind = some (.opener top) := by
  cases h with
  | @bracket outside inside o _ _ around hkind hinside =>
      have ho := counts_opener hkind
      have hlevel : openers inside = closers inside := hinside.level
      have hmore : closers (o :: inside) < openers (o :: inside) := by
        rw [openers_cons, closers_cons]
        omega
      have hlast : Outline.innermost (o :: inside) = some o := by
        rw [Outline.innermost, innermost_eq_none hinside.behind, if_pos hmore]
        rfl
      rw [innermost_append hlast, Option.map_some, hkind]

theorem mismatch?_closer {passed : List Token} {top b : Bracket} {below : List Bracket}
    (h : Opened passed (top :: below)) {t : Token} (ht : t.kind = .closer b) :
    (mismatch? passed t).toList = closingFaults top t.span b := by
  rw [mismatch?, h.innermost, ht]
  by_cases hsame : top = b
  · simp [closingFaults, hsame]
  · simp [closingFaults, hsame]

theorem mismatch?_other (passed : List Token) {t : Token} (ht : t.kind.isCloser = false) :
    mismatch? passed t = none := by
  unfold mismatch?
  split
  · rename_i hkind
    rw [hkind] at ht
    cases ht
  · rfl

/-! ### Passing over a group -/

/-- What becomes of a group of which `passed` has been passed over, with `ts` behind it.  Some
token makes it level for the first time, or it goes on to the end. -/
inductive Finishes (unclosed : Fault) (passed ts : List Token) (faults : List Fault)
    (rest : List Token) : Prop
  | level {inner : List Token} {last : Token} (hts : ts = inner ++ last :: rest)
      (hahead : Ahead (passed ++ inner)) (hlevel : Level (passed ++ inner ++ [last]))
      (hfaults : faults = mismatches passed (inner ++ [last]))
  | never (hrest : rest = []) (hahead : Ahead (passed ++ ts))
      (hfaults : faults = mismatches passed ts ++ [unclosed])

theorem Finishes.cons {unclosed : Fault} {passed ts rest : List Token} {t : Token}
    {faults : List Fault} (h : Finishes unclosed (passed ++ [t]) ts faults rest) :
    Finishes unclosed passed (t :: ts) ((mismatch? passed t).toList ++ faults) rest := by
  cases h with
  | @level inner last hts hahead hlevel hfaults =>
      rw [List.append_assoc] at hahead
      rw [List.append_assoc passed] at hlevel
      exact .level (congrArg (t :: ·) hts) hahead hlevel (by rw [hfaults]; rfl)
  | never hrest hahead hfaults =>
      rw [List.append_assoc] at hahead
      exact .never hrest hahead (by rw [hfaults, mismatches, List.append_assoc])

/-- **While a group goes on, more has been opened than closed; it ends where both are the same.**

The induction is on the tokens ahead; the stack is what the tokens behind leave open. -/
theorem closeGroup_ends (unclosed : Fault) (ts : List Token) :
    ∀ {passed : List Token} {top : Bracket} {below : List Bracket} (stop : Nat),
      Opened passed (top :: below) →
      Finishes unclosed passed ts (closeGroup unclosed stop top below ts).faults
        (closeGroup unclosed stop top below ts).rest := by
  induction ts with
  | nil =>
      intro passed top below stop h
      refine .never rfl ?_ rfl
      rw [List.append_nil]
      exact h.ahead
  | cons t ts ih =>
      intro passed top below stop h
      rcases t.kind.cases_bracket with hplain | ⟨b, hkind⟩ | ⟨b, hkind⟩
      · have hnext := (ih t.span.stop (h.plain hplain)).cons
        rw [mismatch?_other passed (Kind.isCloser_of_isBracket hplain)] at hnext
        rw [closeGroup_plain ts hplain]
        exact hnext
      · have hother : t.kind.isCloser = false := by rw [hkind]; rfl
        have hnext := (ih t.span.stop (h.opener hkind)).cons
        rw [mismatch?_other passed hother] at hnext
        rw [closeGroup_opener ts hkind]
        exact hnext
      · obtain ⟨hfaults, hrest⟩ := closeGroup_closes unclosed stop top below ts hkind
        rw [hfaults, hrest, ← mismatch?_closer h hkind]
        cases below with
        | cons outer below => exact (ih t.span.stop (h.closer hkind)).cons
        | nil =>
            -- The last open bracket is closed here.
            have hlast : Finishes unclosed (passed ++ []) (t :: ts)
                ((mismatch? passed t).toList ++ []) ts :=
              .level (List.nil_append _).symm (by simpa using h.ahead) (by simpa using h.level hkind)
                (by simp [mismatches])
            rw [List.append_nil] at hlast
            exact hlast

/-! ### Groups -/

theorem Ahead.not_level {ts part : List Token} (h : Ahead ts) (hpart : part <+: ts)
    (hfilled : part ≠ []) : ¬ Level part :=
  Nat.ne_of_gt (h part hpart hfilled)

theorem Ahead.firstLevel {front : List Token} (h : Ahead front) {last : Token}
    (hlevel : Level (front ++ [last])) (rest : List Token) :
    FirstLevel (front ++ [last]) (front ++ last :: rest) where
  front := ⟨rest, by simp⟩
  filled := by simp
  level := hlevel
  shortest part hpart hfilled hpartLevel := by
    by_contra hshort
    have hle : part.length ≤ front.length := by
      simp only [List.length_append, List.length_singleton] at hshort
      omega
    have hfront : part <+: front :=
      List.prefix_of_prefix_length_le hpart (List.prefix_append front _) hle
    exact h.not_level hfront hfilled hpartLevel

/-- A group that ends is passed over without a fault exactly if it is paired. -/
theorem skipGroup_quiet_iff {t last : Token} {b : Bracket} {inner ts : List Token}
    (ht : t.kind = .opener b) (hts : ts = inner ++ last :: (skipGroup t.span b ts).rest)
    (hfirst : FirstLevel (t :: (inner ++ [last])) (t :: ts)) :
    (skipGroup t.span b ts).faults = [] ↔ Paired (t :: (inner ++ [last])) := by
  constructor
  · intro hquiet
    obtain ⟨inner', last', hts', hinner', hlast'⟩ := skipGroup_quiet hquiet
    have hsame : inner ++ [last] = inner' ++ [last'] := by
      have heq := hts.symm.trans hts'
      rw [List.append_cons, List.append_cons inner'] at heq
      exact List.append_cancel_right heq
    rw [hsame]
    exact .group ht hinner' hlast' .done
  · intro hpaired
    generalize hgroup : t :: (inner ++ [last]) = segment at hpaired hfirst
    cases hpaired with
    | done => cases hgroup
    | plain hkind later =>
        obtain ⟨rfl, -⟩ := List.cons.inj hgroup
        rw [ht] at hkind
        cases hkind
    | @group b' first last' inner' later hopen hinner' hlast' hlater =>
        obtain ⟨rfl, hinner⟩ := List.cons.inj hgroup
        obtain rfl : b = b' := by simpa using ht.symm.trans hopen
        -- The bracket that closes the first one ends the segment, since it is level there.
        have hlevel := (Paired.group hopen hinner' hlast' .done).level
        have hpart : t :: (inner' ++ [last']) <+: t :: (inner' ++ last' :: later) :=
          ⟨later, by simp⟩
        have hle := hfirst.shortest _ (hpart.trans hfirst.front) (List.cons_ne_nil _ _) hlevel
        obtain rfl : later = [] := by
          simp only [List.length_cons, List.length_append, List.length_nil] at hle
          exact List.eq_nil_of_length_eq_zero (by omega)
        have htokens : ts = inner' ++ last' :: (skipGroup t.span b ts).rest := by
          rw [List.append_cons, ← hinner, ← List.append_cons]
          exact hts
        rw [htokens, skipGroup_paired hinner' hlast']

/--
**A group ends where as many brackets have been closed as opened.**

From an opening bracket on, the shortest part that is level is passed over, whatever the kinds of
its brackets; if no part is level, everything is.  Each closing bracket in it that is of another
kind than the innermost open bracket is reported, and beyond that only a group without end, at its
first bracket.  So nothing is reported exactly if the part is a word in which every bracket is
closed by one of its kind.
-/
theorem skipGroup_by_counting {t : Token} {b : Bracket} (ht : t.kind = .opener b)
    (ts : List Token) :
    ∃ segment, t :: ts = segment ++ (skipGroup t.span b ts).rest ∧
      (FirstLevel segment (t :: ts) ∧ (skipGroup t.span b ts).faults = mismatches [] segment ∨
        (∀ part, part <+: t :: ts → part ≠ [] → ¬ Level part) ∧ segment = t :: ts ∧
          (skipGroup t.span b ts).faults = mismatches [] segment ++ [⟨t.span, .unclosed b⟩]) ∧
      ((skipGroup t.span b ts).faults = [] ↔ Paired segment) := by
  have hother : t.kind.isCloser = false := by rw [ht]; rfl
  have hfirst : ∀ us, mismatches [t] us = mismatches [] (t :: us) := fun us => by
    rw [mismatches, mismatch?_other [] hother]
    rfl
  rcases closeGroup_ends ⟨t.span, .unclosed b⟩ ts t.span.stop (Opened.nothing.opener ht) with
    @⟨inner, last, hts, hahead, hlevel, hfaults⟩ | ⟨hrest, hahead, hfaults⟩
  · have hsegment : FirstLevel (t :: (inner ++ [last])) (t :: ts) := by
      rw [hts]
      exact hahead.firstLevel hlevel _
    refine ⟨t :: (inner ++ [last]), ?_, .inl ⟨hsegment, hfaults.trans (hfirst _)⟩,
      skipGroup_quiet_iff ht hts hsegment⟩
    rw [List.cons_append, ← List.append_cons]
    exact congrArg (t :: ·) hts
  · have hnever : ∀ part, part <+: t :: ts → part ≠ [] → ¬ Level part :=
      fun part hpart hfilled => hahead.not_level hpart hfilled
    have hreported : (skipGroup t.span b ts).faults ≠ [] := by
      show (closeGroup _ _ _ _ _).faults ≠ []
      rw [hfaults]
      exact List.append_ne_nil_of_right_ne_nil _ (List.cons_ne_nil _ _)
    refine ⟨t :: ts, ?_, .inr ⟨hnever, rfl, ?_⟩, fun h => absurd h hreported, fun h => ?_⟩
    · show t :: ts = t :: ts ++ (closeGroup _ _ _ _ _).rest
      rw [hrest, List.append_nil]
    · rw [← hfirst]
      exact hfaults
    · exact absurd h.level (hnever _ (List.prefix_refl _) (List.cons_ne_nil t ts))

/-- The tokens of `([)]x` behind the first one. -/
def crossedBrackets : List Token :=
  [⟨.opener .square, ⟨1, 2⟩⟩, ⟨.closer .paren, ⟨2, 3⟩⟩, ⟨.closer .square, ⟨3, 4⟩⟩, ⟨.ident, ⟨4, 5⟩⟩]

/-- Both closing brackets are of the wrong kind, and the second one ends the group. -/
theorem skipGroup_by_counting_crossed :
    ∃ segment, ⟨.opener .paren, ⟨0, 1⟩⟩ :: crossedBrackets = segment ++ [⟨.ident, ⟨4, 5⟩⟩] ∧
      FirstLevel segment (⟨.opener .paren, ⟨0, 1⟩⟩ :: crossedBrackets) ∧
      mismatches [] segment
        = [⟨⟨2, 3⟩, .mismatched .paren⟩, ⟨⟨3, 4⟩, .mismatched .square⟩] ∧ ¬ Paired segment := by
  have hskip : skipGroup ⟨0, 1⟩ .paren crossedBrackets
      = ⟨[⟨⟨2, 3⟩, .mismatched .paren⟩, ⟨⟨3, 4⟩, .mismatched .square⟩], 4,
          [⟨.ident, ⟨4, 5⟩⟩]⟩ := by decide
  obtain ⟨segment, hwhole, hends, hquiet⟩ :=
    @skipGroup_by_counting ⟨.opener .paren, ⟨0, 1⟩⟩ .paren rfl crossedBrackets
  simp only [hskip] at hwhole hends hquiet
  rcases hends with ⟨hfirst, hfaults⟩ | ⟨-, rfl, -⟩
  · exact ⟨segment, hwhole, hfirst, hfaults.symm, fun h => absurd (hquiet.mpr h) (by decide)⟩
  · exact absurd hwhole (by decide)

end Outline

end VServer
