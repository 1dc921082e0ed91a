/-
Scanning cuts a text into pieces and loses none of it.

`munch` takes the head of a text and returns the rest.  The two of them are the text again, and
the head is never empty, whichever of its branches was taken.  So the pieces of a text lie one
behind the other, each between characters, and what is kept of them as tokens stays in line.

The loops of the scanner count their turns, and a turn takes at least one character off.
`loop_fuel` says once what follows: the count does not matter if it is as large as the text is
long.
-/
import VServer.Token.Scan
import VServer.Proofs.Text.Span

namespace VServer

/-- A loop that uses up some of its input in every turn does not see how many turns it is given,
if these are as many as the input is long. -/
theorem loop_fuel {α β : Type} (loop : Nat → List α → β)
    (hnil : ∀ fuel fuel', loop fuel [] = loop fuel' [])
    (hturn : ∀ fuel fuel' x xs, (∀ rest : List α, rest.length ≤ xs.length →
      loop fuel rest = loop fuel' rest) → loop (fuel + 1) (x :: xs) = loop (fuel' + 1) (x :: xs)) :
    ∀ (fuel fuel' : Nat) (xs : List α), xs.length ≤ fuel → xs.length ≤ fuel' →
      loop fuel xs = loop fuel' xs := by
  intro fuel
  induction fuel with
  | zero =>
      intro fuel' xs hlen _
      obtain rfl : xs = [] := List.eq_nil_of_length_eq_zero (by omega)
      exact hnil 0 fuel'
  | succ fuel ih =>
      intro fuel' xs hlen hlen'
      cases xs with
      | nil => exact hnil (fuel + 1) fuel'
      | cons x xs =>
          simp only [List.length_cons] at hlen hlen'
          obtain ⟨fuel', rfl⟩ : ∃ n, fuel' = n + 1 := ⟨fuel' - 1, by omega⟩
          exact hturn fuel fuel' x xs fun rest hrest => ih fuel' rest (by omega) (by omega)

namespace Token

open Text (Span InLine Boundary byteSize)

/-! ### A piece and the rest are the text -/

theorem splitComment_append (depth : Nat) (cs : List Char) :
    (splitComment depth cs).1 ++ (splitComment depth cs).2 = cs := by
  fun_induction splitComment depth cs with
  | case1 => rfl
  | case2 => rfl
  | case3 depth c d cs hopen inside rest heq ih =>
      rw [heq] at ih
      simpa using ih
  | case4 => simp
  | case5 c d cs hopen hclose outer inside rest heq ih =>
      rw [heq] at ih
      simpa using ih
  | case6 depth c d cs hopen hclose inside rest heq ih =>
      rw [heq] at ih
      simpa using ih

theorem splitUnits_append (quote : Char) (cs : List Char) :
    (splitUnits quote cs).1 ++ (splitUnits quote cs).2 = cs := by
  fun_induction splitUnits quote cs with
  | case1 => rfl
  | case2 => rfl
  | case3 => rfl
  | case4 => rfl
  | case5 d cs hnewline units rest heq ih =>
      rw [heq] at ih
      simpa using ih
  | case6 => rfl
  | case7 c d cs hback hquote units rest heq ih =>
      rw [heq] at ih
      simpa using ih

/-- The head of a text is not empty, and in front of the rest it is the text. -/
structure Cuts (m : Munch) (cs : List Char) : Prop where
  whole : m.taken ++ m.rest = cs
  filled : m.taken ≠ []

theorem munchWhile_cuts (piece : List Char → Piece) (p : Char → Bool) (c : Char)
    (cs : List Char) : Cuts (munchWhile piece p c cs) (c :: cs) where
  whole := by simp [munchWhile]
  filled := by simp [munchWhile]

theorem munchQuoted_cuts (kind : Kind) (quote : Char) (filled : Bool) (cs : List Char) :
    Cuts (munchQuoted kind quote filled cs) (quote :: cs) := by
  have hunits := splitUnits_append quote cs
  unfold munchQuoted
  rcases hsplit : splitUnits quote cs with ⟨units, rest⟩
  rw [hsplit] at hunits
  cases rest with
  | nil => exact ⟨by simpa using hunits, by simp⟩
  | cons c after =>
      simp only
      split
      · exact ⟨by simpa using hunits, by simp⟩
      · exact ⟨by simpa using hunits, by simp⟩

theorem munchSlash_cuts (cs : List Char) : Cuts (munchSlash cs) ('/' :: cs) := by
  unfold munchSlash
  split
  · exact ⟨rfl, by simp⟩
  · rename_i d rest
    split
    · exact munchWhile_cuts _ _ _ _
    · split
      · rename_i hstar
        refine ⟨?_, by simp⟩
        show '/' :: '*' :: ((splitComment 0 rest).1 ++ (splitComment 0 rest).2) = '/' :: d :: rest
        rw [splitComment_append, hstar]
      · exact ⟨rfl, by simp⟩

/-- **A piece and the rest are the text, and the piece is not empty.** -/
theorem munch_cuts (c : Char) (cs : List Char) : Cuts (munch c cs) (c :: cs) := by
  unfold munch
  split
  · exact munchWhile_cuts _ _ _ _
  split
  · exact ⟨rfl, by simp⟩
  split
  · rename_i hslash
    rw [hslash]
    exact munchSlash_cuts cs
  split
  · exact munchWhile_cuts _ _ _ _
  split
  · exact munchWhile_cuts _ _ _ _
  split
  · exact munchQuoted_cuts _ _ _ _
  split
  · exact munchQuoted_cuts _ _ _ _
  split
  · exact munchQuoted_cuts _ _ _ _
  split
  · exact ⟨rfl, by simp⟩
  · exact ⟨rfl, by simp⟩

/-! ### The pieces of a text are in line

Some pieces are dropped, and spans in line stay in line when some are left out.  So it is enough to
see that all pieces are in line, and that a piece becomes one lexeme at most.
-/

theorem lexemes_span {piece : Piece} {span : Span} :
    ∀ l ∈ piece.lexemes span, l.span = span := by
  intro l hl
  cases piece with
  | gap => simp [Piece.lexemes] at hl
  | stray => rw [List.mem_singleton.mp hl]
  | token kind => rw [List.mem_singleton.mp hl]

theorem lexemes_sublist (piece : Piece) (span : Span) :
    ((piece.lexemes span).map Lexeme.span).Sublist [span] := by
  cases piece with
  | gap => exact List.nil_sublist _
  | stray => exact List.Sublist.refl _
  | token kind => exact List.Sublist.refl _

/-- The induction goes along the pieces; `before` is the text in front of them. -/
theorem scanFrom_inLine :
    ∀ (fuel : Nat) (before text : List Char),
      InLine (before ++ text) ((scanFrom fuel (byteSize before) text).map Lexeme.span) ∧
      ∀ l ∈ scanFrom fuel (byteSize before) text, byteSize before ≤ l.span.start := by
  intro fuel
  induction fuel with
  | zero => intro before text; exact ⟨InLine.nil _, by simp [scanFrom]⟩
  | succ fuel ih =>
      intro before text
      cases text with
      | nil => exact ⟨InLine.nil _, by simp [scanFrom]⟩
      | cons c cs =>
          obtain ⟨hwhole, hfilled⟩ := munch_cuts c cs
          obtain ⟨hline, hstarts⟩ := ih (before ++ (munch c cs).taken) (munch c cs).rest
          rw [Text.byteSize_append] at hline hstarts
          rw [List.append_assoc, hwhole] at hline
          have hpos := Text.byteSize_pos hfilled
          set stop := byteSize before + byteSize (munch c cs).taken with hstop
          have hscan : scanFrom (fuel + 1) (byteSize before) (c :: cs)
              = (munch c cs).piece.lexemes ⟨byteSize before, stop⟩
                ++ scanFrom fuel stop (munch c cs).rest := rfl
          have hhead : Boundary (before ++ c :: cs) (byteSize before) := Text.boundary_append _ _
          have htail : Boundary (before ++ c :: cs) stop := by
            have h := Text.boundary_append (before ++ (munch c cs).taken) (munch c cs).rest
            rwa [List.append_assoc, hwhole, Text.byteSize_append] at h
          have hlater : ∀ s ∈ (scanFrom fuel stop (munch c cs).rest).map Lexeme.span,
              stop ≤ s.start := by
            intro s hs
            obtain ⟨l, hl, rfl⟩ := List.mem_map.mp hs
            exact hstarts l hl
          set whole : Span := ⟨byteSize before, stop⟩
          have hlt : whole.start < whole.stop := by
            show byteSize before < stop
            omega
          have hcons := InLine.cons hline hhead htail hlt hlater
          rw [hscan]
          refine ⟨?_, ?_⟩
          · rw [List.map_append]
            exact hcons.sublist ((lexemes_sublist _ _).append_right _)
          · intro l hl
            rcases List.mem_append.mp hl with hl | hl
            · have hspan : l.span.start = byteSize before := by rw [lexemes_span l hl]
              omega
            · have := hstarts l hl
              omega

theorem scan_inLine (text : List Char) : InLine text ((scan text).map Lexeme.span) :=
  (scanFrom_inLine text.length [] text).1

/-! ### Tokens -/

/-- The tokens of a text; what starts no token is left out. -/
def ofText (text : List Char) : List Token :=
  (scan text).filterMap Lexeme.token?

/-- The places of tokens. -/
def spans (ts : List Token) : List Span :=
  ts.map Token.span

theorem spans_filterMap_sublist (ls : List Lexeme) :
    (spans (ls.filterMap Lexeme.token?)).Sublist (ls.map Lexeme.span) := by
  induction ls with
  | nil => exact List.Sublist.refl _
  | cons l ls ih =>
      rcases l with ⟨kind, span⟩
      cases kind with
      | none => exact ih.cons _
      | some kind => exact ih.cons_cons _

/-- **The tokens of a text stand in it one behind the other.** -/
theorem ofText_inLine (text : List Char) : InLine text (spans (ofText text)) :=
  (scan_inLine text).sublist (spans_filterMap_sublist _)

theorem spans_sublist {ts ts' : List Token} (h : ts <:+ ts') : (spans ts).Sublist (spans ts') :=
  h.sublist.map _

end Token

end VServer
