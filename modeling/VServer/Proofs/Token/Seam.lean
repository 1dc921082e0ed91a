/-
Text behind the end of a line does not change the tokens in front of it.

Most pieces end where the text behind them shows that they are over, so they are the same when
more text follows, as long as some text followed before (`munch_over`).  A newline is a piece
that nothing goes on.  If a text ends with one, every piece but the last has text behind it, and so
scanning goes over the seam as if the text behind it stood alone, only further on: `scan_append`.

Stray text is the exception.  An open quote becomes a token when its partner follows, so the text
in front of the seam must have none.

What is wanted in the end is about tokens, and what is proved is about pieces, since comments can
go over the seam as well.  That the last piece is a newline rules this out: a comment between marks
that is still open would have taken the newline in.
-/
import VServer.Proofs.Token.Word

namespace VServer

/-- The piece `n` bytes further on. -/
def Lexeme.shift (n : Nat) (l : Lexeme) : Lexeme :=
  { l with span := l.span.shift n }

namespace Token

open Text (Span byteSize)

/-- The token `n` bytes further on. -/
def shift (n : Nat) (t : Token) : Token :=
  { t with span := t.span.shift n }

/-! ### Scanning further on -/

theorem lexemes_shift (piece : Piece) (n : Nat) (span : Span) :
    piece.lexemes (span.shift n) = (piece.lexemes span).map (Lexeme.shift n) := by
  cases piece <;> rfl

theorem scanFrom_shift (n : Nat) :
    ∀ (fuel offset : Nat) (text : List Char),
      scanFrom fuel (n + offset) text = (scanFrom fuel offset text).map (Lexeme.shift n) := by
  intro fuel
  induction fuel with
  | zero => intro offset text; rfl
  | succ fuel ih =>
      intro offset text
      cases text with
      | nil => rfl
      | cons c cs =>
          simp only [scanFrom, List.map_append, Nat.add_assoc]
          rw [ih, ← lexemes_shift]
          rfl

theorem token?_shift (n : Nat) (l : Lexeme) :
    (l.shift n).token? = l.token?.map (Token.shift n) := by
  rcases l with ⟨kind, span⟩
  cases kind <;> rfl

/-! ### A piece that is over

A piece that leaves some text behind it is over there, whatever follows that text.
-/

/-- The head of a text with more text behind it. -/
def Munch.append (m : Munch) (more : List Char) : Munch :=
  { m with rest := m.rest ++ more }

theorem munchWhile_over (piece : List Char → Piece) (p : Char → Bool) (c : Char)
    {cs : List Char} (more : List Char) (hrest : (munchWhile piece p c cs).rest ≠ []) :
    munchWhile piece p c (cs ++ more) = (munchWhile piece p c cs).append more := by
  have hleft : cs.dropWhile p ≠ [] := hrest
  have hlength : (cs.takeWhile p).length ≠ cs.length := by
    intro heq
    have hsplit := congrArg List.length (List.takeWhile_append_dropWhile (p := p) (l := cs))
    rw [List.length_append] at hsplit
    exact hleft (List.eq_nil_of_length_eq_zero (by omega))
  rw [munchWhile, List.takeWhile_append, List.dropWhile_append, if_neg hlength,
    if_neg (by simpa using hleft)]
  rfl

theorem splitComment_over {depth : Nat} {cs : List Char} (more : List Char)
    (hrest : (splitComment depth cs).2 ≠ []) :
    splitComment depth (cs ++ more)
      = ((splitComment depth cs).1, (splitComment depth cs).2 ++ more) := by
  fun_induction splitComment depth cs with
  | case1 => exact absurd rfl hrest
  | case2 => exact absurd rfl hrest
  | case3 depth c d cs hopen inside rest heq ih =>
      rw [heq] at ih
      simp [splitComment, hopen, ih hrest]
  | case4 => simp_all [splitComment]
  | case5 c d cs hopen hclose outer inside rest heq ih =>
      rw [heq] at ih
      simp [splitComment, hclose, ih hrest]
  | case6 depth c d cs hopen hclose inside rest heq ih =>
      rw [heq] at ih
      have hgo : splitComment depth (d :: (cs ++ more)) = (inside, rest ++ more) := ih hrest
      simp only [List.cons_append, splitComment, if_neg hopen, if_neg hclose, hgo]

theorem munchSlash_over {cs : List Char} (more : List Char) (hrest : (munchSlash cs).rest ≠ []) :
    munchSlash (cs ++ more) = (munchSlash cs).append more := by
  cases cs with
  | nil => exact absurd rfl hrest
  | cons d ds =>
      by_cases hline : d = '/'
      · rw [munchSlash, if_pos hline] at hrest
        simp only [List.cons_append, munchSlash, if_pos hline]
        exact munchWhile_over _ _ _ more hrest
      by_cases hblock : d = '*'
      · rw [munchSlash, if_neg hline, if_pos hblock] at hrest
        simp only [List.cons_append, munchSlash, if_neg hline, if_pos hblock]
        rw [splitComment_over more hrest]
        rfl
      · simp only [List.cons_append, munchSlash, if_neg hline, if_neg hblock]
        rfl

/-- The quote that ends a quoted text ends it whatever follows. -/
theorem splitUnits_over {quote : Char} (hquote : quote ≠ '\\') {cs after : List Char}
    (more : List Char) (hrest : (splitUnits quote cs).2 = quote :: after) :
    splitUnits quote (cs ++ more) = ((splitUnits quote cs).1, quote :: after ++ more) := by
  fun_induction splitUnits quote cs with
  | case1 => simp at hrest
  | case2 c hend =>
      obtain ⟨rfl, rfl⟩ : c = quote ∧ [] = after := by simpa using hrest
      cases more with
      | nil => simp [splitUnits]
      | cons d ds => simp [splitUnits, hquote]
  | case3 => simp at hrest
  | case4 cs => exact absurd (List.cons.inj hrest).1.symm hquote
  | case5 d cs hnewline units rest heq ih =>
      rw [heq] at ih
      simp [splitUnits, hnewline, ih hrest]
  | case6 d cs hback =>
      obtain rfl : d :: cs = after := by simpa using hrest
      simp [splitUnits, hquote]
  | case7 c d cs hback hend units rest heq ih =>
      rw [heq] at ih
      have hgo : splitUnits quote (d :: (cs ++ more)) = (units, quote :: after ++ more) :=
        ih hrest
      simp only [List.cons_append, splitUnits, if_neg hback, if_neg hend, hgo]

theorem munchQuoted_over {kind : Kind} {quote : Char} (hquote : quote ≠ '\\') {filled : Bool}
    {cs : List Char} (more : List Char)
    (hpiece : (munchQuoted kind quote filled cs).piece ≠ .stray) :
    munchQuoted kind quote filled (cs ++ more)
      = (munchQuoted kind quote filled cs).append more := by
  unfold munchQuoted at hpiece ⊢
  rcases hsplit : splitUnits quote cs with ⟨units, rest⟩
  rw [hsplit] at hpiece
  cases rest with
  | nil => exact absurd rfl hpiece
  | cons c after =>
      by_cases hend : c = quote ∧ ¬ (filled = true ∧ units = [])
      · have hgo : splitUnits quote (cs ++ more) = (units, quote :: after ++ more) := by
          rw [splitUnits_over hquote more (by rw [hsplit, hend.1]), hsplit]
        simp [hgo, hend, Munch.append]
      · simp only [if_neg hend] at hpiece
        exact absurd rfl hpiece

/-- **A token or a gap that leaves text behind it is the same when more text follows.** -/
theorem munch_over {c : Char} {cs : List Char} (more : List Char)
    (hpiece : (munch c cs).piece ≠ .stray) (hrest : (munch c cs).rest ≠ []) :
    munch c (cs ++ more) = (munch c cs).append more := by
  by_cases hgap : isGapChar c = true
  · simp only [munch, if_pos hgap] at hrest ⊢
    exact munchWhile_over _ _ _ more hrest
  by_cases hnewline : c = '\n'
  · simp only [munch, if_neg hgap, if_pos hnewline]
    rfl
  by_cases hslash : c = '/'
  · simp only [munch, if_neg hgap, if_neg hnewline, if_pos hslash] at hrest ⊢
    exact munchSlash_over more hrest
  by_cases hword : isWordStart c = true
  · simp only [munch, if_neg hgap, if_neg hnewline, if_neg hslash, if_pos hword] at hrest ⊢
    exact munchWhile_over _ _ _ more hrest
  by_cases hdigit : c.isDigit = true
  · simp only [munch, if_neg hgap, if_neg hnewline, if_neg hslash, if_neg hword, if_pos hdigit]
      at hrest ⊢
    exact munchWhile_over _ _ _ more hrest
  by_cases hquote : c.toNat = 39 ∨ c.toNat = 34 ∨ c.toNat = 96
  · have hback := (quote_facts hquote).2.2.2.2.2
    rw [munch_quote hquote] at hpiece ⊢
    rw [munch_quote hquote]
    by_cases hrune : c.toNat = 96
    · simp only [if_pos hrune] at hpiece ⊢
      exact munchQuoted_over hback more hpiece
    · simp only [if_neg hrune] at hpiece ⊢
      exact munchQuoted_over hback more hpiece
  · obtain ⟨hsingle, hdouble, hrune⟩ : c.toNat ≠ 39 ∧ c.toNat ≠ 34 ∧ c.toNat ≠ 96 := by omega
    simp only [munch, if_neg hgap, if_neg hnewline, if_neg hslash, if_neg hword, if_neg hdigit,
      if_neg hsingle, if_neg hdouble, if_neg hrune]
    cases markKind? c <;> rfl

theorem newline_of_munch {c : Char} {cs : List Char}
    (h : (munch c cs).piece = .token .newline) : c = '\n' := by
  by_contra hnewline
  unfold munch at h
  simp only [if_neg hnewline] at h
  split at h
  · simp [munchWhile] at h
  split at h
  · unfold munchSlash at h
    repeat' split at h
    all_goals simp [munchWhile] at h
  split at h
  · simp only [munchWhile, wordPiece] at h
    split at h <;> simp at h
  split at h
  · simp [munchWhile] at h
  have hquoted : ∀ kind filled, kind ≠ .newline →
      (munchQuoted kind c filled cs).piece ≠ .token .newline := by
    intro kind filled hkind
    unfold munchQuoted
    repeat' split
    all_goals simp [hkind]
  split at h
  · exact hquoted _ _ (by simp) h
  split at h
  · exact hquoted _ _ (by simp) h
  split at h
  · exact hquoted _ _ (by simp) h
  split at h
  · rename_i kind hkind
    obtain rfl : kind = .newline := by simpa using h
    have hmarks : ∀ d ∈ marks, (markKind? d != some .newline) = true := List.all_eq_true.mp rfl
    simpa [hkind] using hmarks c (mem_marks hkind)
  · simp at h

/-! ### The seam

The induction is along the pieces of the first text.  Its last one is the newline, which takes no
more than itself whatever follows; every other one has text behind it and is over where it was.
-/

/-- A text at byte `offset` that is empty, or of which the last piece is a newline at its end. -/
def EndsLine (offset : Nat) (text : List Char) : Prop :=
  text = [] ∨ ∃ start,
    (scanAt offset text).getLast? = some ⟨some .newline, ⟨start, offset + byteSize text⟩⟩

theorem scanAt_cons (offset : Nat) (c : Char) (cs : List Char) :
    scanAt offset (c :: cs)
      = (munch c cs).piece.lexemes ⟨offset, offset + byteSize (munch c cs).taken⟩
        ++ scanAt (offset + byteSize (munch c cs).taken) (munch c cs).rest :=
  @scanAt_munch c cs (munch c cs).taken (munch c cs).rest (munch c cs).piece offset rfl

/-- The piece at the head of such a text is the newline at its end, or has text behind it of
which the same can be said. -/
theorem EndsLine.head {offset : Nat} {c : Char} {cs : List Char}
    (h : EndsLine offset (c :: cs)) :
    (c = '\n' ∧ cs = []) ∨ (munch c cs).rest ≠ [] ∧
      EndsLine (offset + byteSize (munch c cs).taken) (munch c cs).rest := by
  obtain hnil | ⟨start, hlast⟩ := h
  · exact absurd hnil (by simp)
  have hsize := congrArg byteSize (munch_cuts c cs).whole
  rw [Text.byteSize_append] at hsize
  rw [scanAt_cons, ← hsize, List.getLast?_append, ← Nat.add_assoc] at hlast
  cases hlater : (scanAt (offset + byteSize (munch c cs).taken) (munch c cs).rest).getLast? with
  | some l =>
      rw [hlater, Option.some_or] at hlast
      have hrest : (munch c cs).rest ≠ [] := by
        intro hrest
        rw [hrest] at hlater
        simp [scanAt, scanFrom] at hlater
      exact .inr ⟨hrest, .inr ⟨start, hlater.trans hlast⟩⟩
  | none =>
      -- Nothing counts behind the head, so the head is the newline and ends the text.
      rw [hlater, Option.none_or] at hlast
      have hspan := lexemes_span _ (List.mem_of_getLast? hlast)
      have hrest : (munch c cs).rest = [] := by
        have hstop := congrArg Span.stop hspan
        exact Text.eq_nil_of_byteSize (by simp only at hstop; omega)
      have hpiece : (munch c cs).piece = .token .newline := by
        cases hpiece : (munch c cs).piece with
        | gap => simp [hpiece, Piece.lexemes] at hlast
        | stray => simp [hpiece, Piece.lexemes] at hlast
        | token kind =>
            rw [hpiece] at hlast
            obtain ⟨rfl, -⟩ : kind = .newline ∧ _ := by simpa [Piece.lexemes] using hlast
            rfl
      obtain rfl := newline_of_munch hpiece
      exact .inl ⟨rfl, hrest⟩

/-- Induction along the pieces of such a text. -/
theorem EndsLine.along {motive : Nat → List Char → Prop} (hnil : ∀ offset, motive offset [])
    (hlast : ∀ offset, motive offset ['\n'])
    (hpiece : ∀ offset c cs, (munch c cs).rest ≠ [] →
      motive (offset + byteSize (munch c cs).taken) (munch c cs).rest → motive offset (c :: cs)) :
    ∀ (size : Nat) {offset : Nat} {text : List Char}, text.length ≤ size → EndsLine offset text →
      motive offset text := by
  intro size
  induction size with
  | zero =>
      intro offset text hlen _
      obtain rfl : text = [] := List.eq_nil_of_length_eq_zero (by omega)
      exact hnil offset
  | succ size ih =>
      intro offset text hlen hends
      cases text with
      | nil => exact hnil offset
      | cons c cs =>
          rcases hends.head with ⟨rfl, rfl⟩ | ⟨hrest, hlater⟩
          · exact hlast offset
          · have hshort := munch_rest_length c cs
            simp only [List.length_cons] at hlen
            exact hpiece offset c cs hrest (ih (by omega) hlater)

theorem scanAt_append {offset : Nat} {text : List Char} (more : List Char)
    (hends : EndsLine offset text) :
    (∀ l ∈ scanAt offset text, l.isStray = false) →
    scanAt offset (text ++ more)
      = scanAt offset text ++ scanAt (offset + byteSize text) more := by
  refine EndsLine.along (motive := fun offset text =>
    (∀ l ∈ scanAt offset text, l.isStray = false) →
    scanAt offset (text ++ more) = scanAt offset text ++ scanAt (offset + byteSize text) more)
    (fun _ _ => rfl) (fun _ _ => rfl) ?_ text.length (Nat.le_refl _) hends
  intro offset c cs hrest hlater hclean
  have hsize := congrArg byteSize (munch_cuts c cs).whole
  rw [Text.byteSize_append] at hsize
  rw [scanAt_cons] at hclean
  have hpiece : (munch c cs).piece ≠ .stray := by
    intro hpiece
    rw [hpiece] at hclean
    exact Bool.noConfusion (hclean _ (List.mem_append_left _ List.mem_cons_self))
  calc scanAt offset (c :: cs ++ more)
      = (munch c cs).piece.lexemes ⟨offset, offset + byteSize (munch c cs).taken⟩
          ++ scanAt (offset + byteSize (munch c cs).taken) ((munch c cs).rest ++ more) := by
        rw [List.cons_append, scanAt_cons, munch_over more hpiece hrest]
        rfl
    _ = scanAt offset (c :: cs) ++ scanAt (offset + byteSize (c :: cs)) more := by
        rw [hlater fun l hl => hclean l (List.mem_append_right _ hl), scanAt_cons,
          List.append_assoc, Nat.add_assoc, hsize]

/-- Such a text ends with the character that ends a line. -/
theorem EndsLine.getLast? {offset : Nat} {text : List Char} (hends : EndsLine offset text) :
    text ≠ [] → text.getLast? = some '\n' := by
  refine EndsLine.along (motive := fun _ text => text ≠ [] → text.getLast? = some '\n')
    (fun _ h => absurd rfl h) (fun _ _ => rfl) ?_ text.length (Nat.le_refl _) hends
  intro offset c cs hrest hlater _
  rw [← (munch_cuts c cs).whole, List.getLast?_append, hlater hrest, Option.some_or]

/-- **Text that follows the end of a line is scanned as if it stood alone.** -/
theorem scan_append {text : List Char} (more : List Char) (hends : EndsLine 0 text)
    (hclean : ∀ l ∈ scan text, l.isStray = false) :
    scan (text ++ more) = scan text ++ (scan more).map (Lexeme.shift (byteSize text)) := by
  have hscan := scanAt_append more hends hclean
  rw [Nat.zero_add] at hscan
  have hshift := scanFrom_shift (byteSize text) more.length 0 more
  exact hscan.trans (congrArg (scan text ++ ·) hshift)

/-! ### In terms of tokens -/

/-- A text without stray pieces is its tokens. -/
theorem scan_eq_map {text : List Char} (hclean : ∀ l ∈ scan text, l.isStray = false) :
    scan text = (ofText text).map fun t => ⟨some t.kind, t.span⟩ := by
  rw [ofText]
  generalize scan text = ls at hclean
  induction ls with
  | nil => rfl
  | cons l ls ih =>
      rcases l with ⟨kind, span⟩
      cases kind with
      | none => exact Bool.noConfusion (hclean _ List.mem_cons_self)
      | some kind =>
          rw [List.filterMap_cons]
          exact congrArg (_ :: ·) (ih fun l hl => hclean l (List.mem_cons_of_mem _ hl))

/-- A text that is empty, or of which the last token is a newline at its end. -/
def EndsWithLine (text : List Char) : Prop :=
  text = [] ∨ ∃ t, (ofText text).getLast? = some t ∧ t.kind = .newline ∧
    t.span.stop = byteSize text

theorem EndsWithLine.endsLine {text : List Char} (h : EndsWithLine text)
    (hclean : ∀ l ∈ scan text, l.isStray = false) : EndsLine 0 text := by
  obtain rfl | ⟨⟨kind, start, stop⟩, hlast, rfl, rfl⟩ := h
  · exact .inl rfl
  · refine .inr ⟨start, ?_⟩
    show (scan text).getLast? = _
    rw [scan_eq_map hclean, List.getLast?_map, hlast, Nat.zero_add]
    rfl

theorem ofText_append {text : List Char} (more : List Char) (hends : EndsLine 0 text)
    (hclean : ∀ l ∈ scan text, l.isStray = false) :
    ofText (text ++ more) = ofText text ++ (ofText more).map (shift (byteSize text)) := by
  have htokens : ∀ ls : List Lexeme, (ls.map (Lexeme.shift (byteSize text))).filterMap Lexeme.token?
      = (ls.filterMap Lexeme.token?).map (shift (byteSize text)) := by
    intro ls
    rw [List.filterMap_map, List.map_filterMap]
    exact congrArg (List.filterMap · ls) (funext fun l => token?_shift _ l)
  simp only [ofText]
  rw [scan_append more hends hclean, List.filterMap_append, htokens]

end Token

end VServer
