/-
The lexemes of a text, and what stands between them, are the text.

`munch` takes a piece off the head of a text, and every piece is of one of three kinds: a run that
is passed over, a token as it is spelled, or text that starts no token (`Munch.Fits`).  So a text is
cut into runs and lexemes, one behind the other (`Cut`), and `scan` returns the lexemes of that cut.
Since nothing else stands between two lexemes, all that is left out are blanks and comments, and a
newline is left out only inside a comment.

The statement says of every byte that it is in a lexeme or passed over, and what can stand there in
each case.  How far a token goes is not settled by it, since a name of two letters could be cut
into two names; that the scanner takes as much as it can is shown elsewhere.
-/
import VServer.Proofs.Token.Comment
import Mathlib.Data.List.TakeWhile

namespace VServer.Token

open Text (Span InLine StandsAt byteSize)

/-! ### What a piece is -/

/-- A character that opens and ends quoted text. -/
def IsQuote (c : Char) : Prop :=
  c.toNat = 39 ∨ c.toNat = 34 ∨ c.toNat = 96

/-- A quote with what can be read behind it, where no quote ends it. -/
def OpenQuote (text : List Char) : Prop :=
  ∃ quote units, IsQuote quote ∧ Units quote units ∧ text = quote :: units

/-- Text that starts no token: quoted text without its end, or one character that starts nothing. -/
def StrayText (text : List Char) : Prop :=
  OpenQuote text ∨ ∃ c, c ≠ '\n' ∧ text = [c]

/-- A lexeme as it stands in the text. -/
def Lexed : Option Kind → List Char → Prop
  | some kind, text => Spelled kind text
  | none, text => StrayText text

/-- The head of a text is what it is said to be. -/
def Munch.Fits (m : Munch) : Prop :=
  match m.piece with
  | .gap => Run m.taken m.rest
  | .stray => StrayText m.taken
  | .token kind => Spelled kind m.taken

theorem splitUnits_isUnits (quote : Char) (cs : List Char) :
    Units quote (splitUnits quote cs).1 := by
  fun_induction splitUnits quote cs with
  | case1 => exact .done
  | case2 => exact .done
  | case3 c hend =>
      obtain ⟨hquote, hback⟩ := not_or.mp hend
      exact .plain hquote hback .done
  | case4 => exact .done
  | case5 d cs hnewline units rest heq ih =>
      rw [heq] at ih
      exact .escaped hnewline ih
  | case6 => exact .done
  | case7 c d cs hback hquote units rest heq ih =>
      rw [heq] at ih
      exact .plain hquote hback ih

theorem munchQuoted_fits {kind : Kind} {quote : Char} {filled : Bool} (hquote : IsQuote quote)
    (hkind : ∀ units, Units quote units → (filled = true → units ≠ []) →
      Spelled kind (quote :: units ++ [quote])) (cs : List Char) :
    (munchQuoted kind quote filled cs).Fits := by
  have hunits := splitUnits_isUnits quote cs
  unfold munchQuoted
  generalize splitUnits quote cs = split at hunits
  rcases split with ⟨units, rest⟩
  have hopen : StrayText (quote :: units) := .inl ⟨quote, units, hquote, hunits, rfl⟩
  cases rest with
  | nil => exact hopen
  | cons c after =>
      by_cases hend : c = quote ∧ ¬ (filled = true ∧ units = [])
      · simp only [if_pos hend]
        obtain ⟨rfl, hfilled⟩ := hend
        exact hkind units hunits fun hf hu => hfilled ⟨hf, hu⟩
      · simp only [if_neg hend]
        exact hopen

theorem munchBlanks_fits {c : Char} (hc : isGapChar c = true) (cs : List Char) :
    (munchWhile (fun _ => .gap) isGapChar c cs).Fits := by
  refine Run.blanks (List.cons_ne_nil _ _) fun d hd => ?_
  rcases List.mem_cons.mp hd with rfl | hd
  · exact hc
  · exact List.mem_takeWhile_imp hd

theorem munchSlash_fits (cs : List Char) : (munchSlash cs).Fits := by
  have hmark : Spelled .operator ['/'] := .mark (by decide)
  unfold munchSlash
  split
  · exact hmark
  · rename_i d rest
    by_cases hline : d = '/'
    · subst hline
      rw [if_pos rfl]
      have htaken : ('/' :: rest).takeWhile (· != '\n') = '/' :: rest.takeWhile (· != '\n') := rfl
      show Run ('/' :: ('/' :: rest).takeWhile (· != '\n')) (rest.dropWhile (· != '\n'))
      rw [htaken]
      refine .line (fun hnewline => ?_) fun c hc => ?_
      · simpa using List.mem_takeWhile_imp hnewline
      · have hstop := List.head?_dropWhile_not (fun c => c != '\n') rest
        rw [Option.mem_def.mp hc] at hstop
        simpa using hstop
    · rw [if_neg hline]
      by_cases hblock : d = '*'
      · rw [if_pos hblock]
        rcases splitComment_comment rest with h | ⟨h, hend⟩
        · exact Run.block h
        · show Run ('/' :: '*' :: (splitComment 0 rest).1) (splitComment 0 rest).2
          rw [hend]
          exact .endless h
      · rw [if_neg hblock]
        exact hmark

theorem munch_fits (c : Char) (cs : List Char) : (munch c cs).Fits := by
  by_cases hgap : isGapChar c = true
  · rw [munch, if_pos hgap]
    exact munchBlanks_fits hgap cs
  by_cases hnewline : c = '\n'
  · rw [munch, if_neg hgap, if_pos hnewline, hnewline]
    exact Spelled.newline
  by_cases hslash : c = '/'
  · rw [munch, if_neg hgap, if_neg hnewline, if_pos hslash]
    exact munchSlash_fits cs
  by_cases hword : isWordStart c = true
  · rw [munch, if_neg hgap, if_neg hnewline, if_neg hslash, if_pos hword]
    have hparts : ∀ d ∈ cs.takeWhile isWordPart, isWordPart d = true :=
      fun d hd => List.mem_takeWhile_imp hd
    show (⟨wordPiece (c :: cs.takeWhile isWordPart), _, _⟩ : Munch).Fits
    cases hkeyword : Keyword.ofWord? (c :: cs.takeWhile isWordPart) with
    | some keyword =>
        rw [wordPiece, hkeyword]
        exact Spelled.keyword hkeyword
    | none =>
        rw [wordPiece, hkeyword]
        exact Spelled.ident hword hparts hkeyword
  by_cases hdigit : c.isDigit = true
  · rw [munch, if_neg hgap, if_neg hnewline, if_neg hslash, if_neg hword, if_pos hdigit]
    exact Spelled.number hdigit fun d hd => List.mem_takeWhile_imp hd
  by_cases hquote : IsQuote c
  · rw [munch_quote hquote]
    by_cases hrune : c.toNat = 96
    · rw [if_pos hrune]
      exact munchQuoted_fits hquote (fun units hunits hfilled =>
        .rune hrune hunits (hfilled rfl)) cs
    · rw [if_neg hrune]
      exact munchQuoted_fits hquote (fun units hunits _ =>
        .quoted (by unfold IsQuote at hquote; omega) hunits) cs
  · obtain ⟨hsingle, hdouble, hrune⟩ : c.toNat ≠ 39 ∧ c.toNat ≠ 34 ∧ c.toNat ≠ 96 := by
      unfold IsQuote at hquote
      omega
    rw [munch, if_neg hgap, if_neg hnewline, if_neg hslash, if_neg hword, if_neg hdigit,
      if_neg hsingle, if_neg hdouble, if_neg hrune]
    cases hmark : markKind? c with
    | some kind => exact Spelled.mark hmark
    | none => exact .inr ⟨c, hnewline, rfl⟩

/-! ### A text and its pieces -/

/-- The text from byte `offset` on is runs that are passed over and the lexemes `ls`. -/
inductive Cut : Nat → List Char → List Lexeme → Prop
  | done {offset : Nat} : Cut offset [] []
  | run {offset : Nat} {run rest : List Char} {ls : List Lexeme} (h : Run run rest)
      (later : Cut (offset + byteSize run) rest ls) : Cut offset (run ++ rest) ls
  | lexeme {offset : Nat} {raw rest : List Char} {kind : Option Kind} {ls : List Lexeme}
      (h : Lexed kind raw) (later : Cut (offset + byteSize raw) rest ls) :
      Cut offset (raw ++ rest) (⟨kind, ⟨offset, offset + byteSize raw⟩⟩ :: ls)

/-- **Scanning cuts a text into runs and lexemes.** -/
theorem scanFrom_cut :
    ∀ (fuel offset : Nat) (text : List Char), text.length ≤ fuel →
      Cut offset text (scanFrom fuel offset text) := by
  intro fuel
  induction fuel with
  | zero =>
      intro offset text hlen
      obtain rfl : text = [] := List.eq_nil_of_length_eq_zero (by omega)
      exact .done
  | succ fuel ih =>
      intro offset text hlen
      cases text with
      | nil => exact .done
      | cons c cs =>
          have hshort := munch_rest_length c cs
          simp only [List.length_cons] at hlen
          have hlater := ih (offset + byteSize (munch c cs).taken) (munch c cs).rest (by omega)
          have hfits := munch_fits c cs
          rw [scanFrom, ← (munch_cuts c cs).whole]
          unfold Munch.Fits at hfits
          cases hpiece : (munch c cs).piece with
          | gap =>
              rw [hpiece] at hfits
              exact .run hfits hlater
          | stray =>
              rw [hpiece] at hfits
              have hlexed : Lexed none (munch c cs).taken := hfits
              exact .lexeme hlexed hlater
          | token kind =>
              rw [hpiece] at hfits
              have hlexed : Lexed (some kind) (munch c cs).taken := hfits
              exact .lexeme hlexed hlater

theorem scan_cut (text : List Char) : Cut 0 text (scan text) :=
  scanFrom_cut text.length 0 text (Nat.le_refl _)

/-- A lexeme stands in the text as it was read. -/
theorem Cut.lexed {offset : Nat} {text : List Char} {ls : List Lexeme} (h : Cut offset text ls) :
    ∀ before : List Char, byteSize before = offset → ∀ l ∈ ls,
      ∃ raw, StandsAt (before ++ text) raw l.span ∧ Lexed l.kind raw := by
  induction h with
  | done => intro before _ l hl; exact absurd hl List.not_mem_nil
  | @run offset run rest ls hrun later ih =>
      intro before hbefore l hl
      have hgo := ih (before ++ run) (by rw [Text.byteSize_append, hbefore]) l hl
      rwa [List.append_assoc] at hgo
  | @lexeme offset raw rest kind ls hraw later ih =>
      intro before hbefore l hl
      rcases List.mem_cons.mp hl with rfl | hl
      · exact ⟨raw, ⟨before, rest, by simp, hbefore.symm, by rw [hbefore]⟩, hraw⟩
      · have hgo := ih (before ++ raw) (by rw [Text.byteSize_append, hbefore]) l hl
        rwa [List.append_assoc] at hgo

/-! ### What stands between lexemes

Gaps are told by the spans of the lexemes alone: from the end of one to the start of the next.
That only what can be passed over stands there is read off the cut, one piece after another.
-/

/-- The places in front of spans, between them and behind them, from `start` to `stop`. -/
def gaps (start stop : Nat) : List Span → List Span
  | [] => [⟨start, stop⟩]
  | s :: spans => ⟨start, s.start⟩ :: gaps s.stop stop spans

/-- An offset that lies in a span. -/
def Covers (s : Span) (offset : Nat) : Prop :=
  s.start ≤ offset ∧ offset < s.stop

/-- Every place is in a span or in a gap. -/
theorem covered {stop offset : Nat} (hstop : offset < stop) (spans : List Span) :
    ∀ start, start ≤ offset →
      (∃ s ∈ spans, Covers s offset) ∨ ∃ g ∈ gaps start stop spans, Covers g offset := by
  induction spans with
  | nil =>
      intro start hstart
      exact .inr ⟨⟨start, stop⟩, List.mem_singleton_self _, hstart, hstop⟩
  | cons s spans ih =>
      intro start hstart
      by_cases hfront : offset < s.start
      · exact .inr ⟨⟨start, s.start⟩, List.mem_cons_self, hstart, hfront⟩
      by_cases hinside : offset < s.stop
      · exact .inl ⟨s, List.mem_cons_self, by omega, hinside⟩
      · rcases ih s.stop (by omega) with ⟨s', hs', hcovers⟩ | ⟨g, hg, hcovers⟩
        · exact .inl ⟨s', List.mem_cons_of_mem s hs', hcovers⟩
        · exact .inr ⟨g, List.mem_cons_of_mem _ hg, hcovers⟩

/-- At the span stands text that is passed over. -/
def SkippedAt (text : List Char) (gap : Span) : Prop :=
  ∃ before skipped behind, text = before ++ skipped ++ behind ∧ gap.start = byteSize before ∧
    gap.stop = byteSize before + byteSize skipped ∧ Skipped skipped behind

/-- The first gap starts wherever it is said to start; the others are between the lexemes. -/
theorem Cut.gaps {offset : Nat} {text : List Char} {ls : List Lexeme} (h : Cut offset text ls) :
    ∀ before : List Char, byteSize before = offset →
      ∃ skipped behind later, text = skipped ++ behind ∧ Skipped skipped behind ∧
        (∀ start, Token.gaps start (offset + byteSize text) (ls.map Lexeme.span)
          = ⟨start, offset + byteSize skipped⟩ :: later) ∧
        ∀ gap ∈ later, SkippedAt (before ++ text) gap := by
  induction h with
  | done => intro before _; exact ⟨[], [], [], rfl, .nothing, fun _ => rfl, by simp⟩
  | @run offset run rest ls hrun _ ih =>
      intro before hbefore
      obtain ⟨skipped, behind, later, rfl, hskipped, hgaps, hlater⟩ :=
        ih (before ++ run) (by rw [Text.byteSize_append, hbefore])
      refine ⟨run ++ skipped, behind, later, by simp, .run hrun hskipped, fun start => ?_, ?_⟩
      · rw [Text.byteSize_append, Text.byteSize_append run skipped, ← Nat.add_assoc,
          ← Nat.add_assoc, hgaps]
      · rwa [List.append_assoc] at hlater
  | @lexeme offset raw rest kind ls _ _ ih =>
      intro before hbefore
      obtain ⟨skipped, behind, later, rfl, hskipped, hgaps, hlater⟩ :=
        ih (before ++ raw) (by rw [Text.byteSize_append, hbefore])
      refine ⟨[], raw ++ (skipped ++ behind), _, rfl, .nothing, fun start => rfl, ?_⟩
      rw [Text.byteSize_append, ← Nat.add_assoc, hgaps]
      rw [List.append_assoc] at hlater
      intro gap hgap
      rcases List.mem_cons.mp hgap with rfl | hgap
      · refine ⟨before ++ raw, skipped, behind, by simp, ?_, ?_, hskipped⟩
        · rw [Text.byteSize_append, hbefore]
        · rw [Text.byteSize_append, hbefore]
      · exact hlater gap hgap

/-- The places between the lexemes of a text. -/
def gapsOf (text : List Char) : List Span :=
  gaps 0 (byteSize text) ((scan text).map Lexeme.span)

theorem gapsOf_skippedAt (text : List Char) : ∀ gap ∈ gapsOf text, SkippedAt text gap := by
  obtain ⟨skipped, behind, later, htext, hskipped, hgaps, hlater⟩ := (scan_cut text).gaps [] rfl
  have hgaps := hgaps 0
  rw [Nat.zero_add, Nat.zero_add] at hgaps
  intro gap hgap
  rw [gapsOf, hgaps] at hgap
  rcases List.mem_cons.mp hgap with rfl | hgap
  · exact ⟨[], skipped, behind, by simpa using htext, rfl, by simp, hskipped⟩
  · exact hlater gap hgap

/-! ### Newlines

Newlines end declarations, so it matters where one is lost.  A newline is in a lexeme or in a gap.
In a lexeme it is the whole of it or is quoted, and in a gap it is inside a comment between marks,
because a comment to the end of its line stops in front of it.
-/

theorem newline_notMem_parts {cs : List Char} (h : ∀ d ∈ cs, isWordPart d = true) :
    '\n' ∉ cs := by
  intro hnewline
  have hcode := wordPart_code (h _ hnewline)
  simp at hcode

/-- A newline in a token is the whole of it, or it is quoted. -/
theorem Spelled.newline_mem {kind : Kind} {raw : List Char} (h : Spelled kind raw)
    (hnewline : '\n' ∈ raw) :
    (kind = .newline ∧ raw = ['\n']) ∨ kind = .quoted ∨ kind = .rune := by
  cases h with
  | newline => exact .inl ⟨rfl, rfl⟩
  | keyword h =>
      obtain ⟨c, cs, rfl, hc, hcs⟩ := keyword_word h
      rcases List.mem_cons.mp hnewline with rfl | hmem
      · exact absurd hc (by decide)
      · exact absurd hmem (newline_notMem_parts hcs)
  | ident hc hcs hfree =>
      rcases List.mem_cons.mp hnewline with rfl | hmem
      · exact absurd hc (by decide)
      · exact absurd hmem (newline_notMem_parts hcs)
  | number hc hcs =>
      rcases List.mem_cons.mp hnewline with rfl | hmem
      · exact absurd hc (by decide)
      · exact absurd hmem (newline_notMem_parts hcs)
  | quoted hquote hunits => exact .inr (.inl rfl)
  | rune hquote hunits hfilled => exact .inr (.inr rfl)
  | mark h =>
      obtain rfl := List.mem_singleton.mp hnewline
      exact absurd rfl (mark_facts (mem_marks h)).2.1

/-- The newline behind `before` is a token, or it is part of quoted text or of a comment between
marks. -/
inductive NewlineIn (text before : List Char) : Prop
  | token (h : ⟨some .newline, ⟨byteSize before, byteSize before + 1⟩⟩ ∈ scan text)
  | quoted {l : Lexeme} (hl : l ∈ scan text) (hcovers : Covers l.span (byteSize before))
      (hkind : l.kind = some .quoted ∨ l.kind = some .rune)
  | openQuote {l : Lexeme} (hl : l ∈ scan text) (hcovers : Covers l.span (byteSize before))
      (hkind : l.kind = none) (hopen : OpenQuote (Text.slice text l.span))
  | comment {front comment back : List Char} {gap : Span} (htext : text = front ++ comment ++ back)
      (hcomment : IsBlock comment back)
      (hcovers : Covers ⟨byteSize front, byteSize (front ++ comment)⟩ (byteSize before))
      (hgap : gap ∈ gapsOf text) (hstart : gap.start ≤ byteSize front)
      (hstop : byteSize (front ++ comment) ≤ gap.stop)

/-- A character at a place that lies in a part of the text is in that part. -/
theorem part_of_covers {front raw back before behind : List Char} {c : Char} {span : Span}
    (htext : front ++ raw ++ back = before ++ c :: behind) (hstart : span.start = byteSize front)
    (hstop : span.stop = byteSize front + byteSize raw) (hcovers : Covers span (byteSize before)) :
    ∃ start stop, before = front ++ start ∧ raw = start ++ c :: stop := by
  obtain ⟨hle, hlt⟩ := hcovers
  rw [hstart] at hle
  rw [hstop] at hlt
  have hpos := c.utf8Size_pos
  rw [List.append_assoc] at htext
  rcases side_of_append htext with ⟨start, rfl, hraw⟩ | ⟨extra, rfl⟩
  · rcases side_of_append hraw with ⟨extra, rfl, -⟩ | ⟨stop, rfl⟩
    · simp only [Text.byteSize_append] at hlt
      omega
    · exact ⟨start, stop, rfl, rfl⟩
  · simp only [Text.byteSize_append, byteSize] at hle
    omega

theorem newlineIn_lexeme {text before behind : List Char}
    (htext : text = before ++ '\n' :: behind) {l : Lexeme} (hl : l ∈ scan text)
    (hcovers : Covers l.span (byteSize before)) : NewlineIn text before := by
  obtain ⟨raw, hraw, hlexed⟩ := (scan_cut text).lexed [] rfl l hl
  rw [List.nil_append] at hraw
  have hslice := Text.slice_of_standsAt hraw
  obtain ⟨front, back, heq, hstart, hstop⟩ := hraw
  obtain ⟨start, stop, rfl, rfl⟩ := part_of_covers (heq.symm.trans htext) hstart hstop hcovers
  rcases l with ⟨kind, ⟨first, last⟩⟩
  cases kind with
  | some kind =>
      rcases Spelled.newline_mem hlexed (by simp) with ⟨rfl, hraw⟩ | hkind
      · obtain ⟨rfl, rfl⟩ : start = [] ∧ stop = [] := by
          simpa [List.append_eq_singleton_iff] using hraw
        obtain ⟨rfl, rfl⟩ : first = byteSize front ∧ last = byteSize front + 1 := ⟨hstart, hstop⟩
        rw [List.append_nil]
        exact .token hl
      · exact .quoted hl hcovers (hkind.imp (congrArg some) (congrArg some))
  | none =>
      rcases hlexed with hopen | ⟨c, hc, hraw⟩
      · exact .openQuote hl hcovers rfl (hslice ▸ hopen)
      · -- One character that starts nothing is no newline.
        have hnewline : '\n' ∈ [c] := hraw ▸ List.mem_append_right _ List.mem_cons_self
        exact absurd (List.mem_singleton.mp hnewline).symm hc

theorem newlineIn_gap {text before behind : List Char}
    (htext : text = before ++ '\n' :: behind) {gap : Span} (hgap : gap ∈ gapsOf text)
    (hcovers : Covers gap (byteSize before)) : NewlineIn text before := by
  obtain ⟨front, skipped, back, heq, hstart, hstop, hskipped⟩ := gapsOf_skippedAt text gap hgap
  obtain ⟨start, stop, rfl, hraw⟩ := part_of_covers (heq.symm.trans htext) hstart hstop hcovers
  obtain ⟨front', comment, back', rfl, hcomment, start', stop', rfl, rfl⟩ := hskipped.newline hraw
  have hparts : text = front ++ front' ++ (start' ++ '\n' :: stop') ++ (back' ++ back) := by
    rw [heq]
    simp
  have hpos := ('\n').utf8Size_pos
  refine .comment hparts hcomment ⟨?_, ?_⟩ hgap ?_ ?_
  · simp only [Text.byteSize_append]
    omega
  · simp only [Text.byteSize_append, byteSize]
    omega
  · rw [hstart, Text.byteSize_append]
    omega
  · rw [hstop]
    simp only [Text.byteSize_append]
    omega

/-- **Where a newline is left out, it is quoted or part of a comment between marks.** -/
theorem newlineIn {text before behind : List Char} (htext : text = before ++ '\n' :: behind) :
    NewlineIn text before := by
  have hoffset : byteSize before < byteSize text := by
    have hpos := Text.byteSize_pos (List.cons_ne_nil '\n' behind)
    rw [htext, Text.byteSize_append]
    omega
  rcases covered hoffset ((scan text).map Lexeme.span) 0 (Nat.zero_le _) with
    ⟨span, hspan, hcovers⟩ | ⟨gap, hgap, hcovers⟩
  · obtain ⟨l, hl, rfl⟩ := List.mem_map.mp hspan
    exact newlineIn_lexeme htext hl hcovers
  · exact newlineIn_gap htext hgap hcovers

/--
**The lexemes of a text and the gaps between them are the text.**  The lexemes stand in the text one
behind the other: none is empty, and each starts and ends between characters.  What stands in front
of the first one, between two neighbours and behind the last one is passed over: blanks, comments up
to the end of their line, and comments between marks, of which the last one may stay open up to the
end of the text.  So each place of the text is in a lexeme or in such a gap, and a newline is a
token of its own unless it is part of quoted text, with or without its end, or of a comment between
marks.
-/
theorem scan_partitions (text : List Char) :
    InLine text ((scan text).map Lexeme.span) ∧
    (∀ gap ∈ gapsOf text, SkippedAt text gap) ∧
    (∀ offset < byteSize text,
      (∃ l ∈ scan text, Covers l.span offset) ∨ ∃ gap ∈ gapsOf text, Covers gap offset) ∧
    (∀ before behind, text = before ++ '\n' :: behind → NewlineIn text before) := by
  refine ⟨scan_inLine text, gapsOf_skippedAt text, ?_, fun before behind => newlineIn⟩
  intro offset hoffset
  refine (covered hoffset ((scan text).map Lexeme.span) 0 (Nat.zero_le _)).imp_left ?_
  rintro ⟨span, hspan, hcovers⟩
  obtain ⟨l, hl, rfl⟩ := List.mem_map.mp hspan
  exact ⟨l, hl, hcovers⟩

end VServer.Token
