/-
The scanner takes as much as any pattern matches.

At the head of a text the scanner takes one piece.  If some rule matches a text in front, the piece
is no stray text and is at least as long (`rule_bounds`), and what it takes for a token matches the
pattern of that token.  So a token is the longest match there is, and where text is stray no rule
matches at all.  Which of two rules that match equally long is taken is settled by the keywords.

`Reaches` follows the scanner from piece to piece: these are the places at which it stands.

The pattern of a kind says nothing about what stands behind a token, and `munch` looks at that all
the time.  Between the two stands `Spelled`: a text that matches a pattern is spelled as a token of
some kind, and the scanner takes a token off unless the text goes on with it, in which case it
takes more.
-/
import VServer.Proofs.Token.Pattern
import VServer.Proofs.Token.Seam

namespace VServer.Token

open Text (byteSize)
open scoped Computability

/-! ### No rule matches more than the scanner takes -/

/-- The head of a text is not stray, and no shorter than `w`. -/
structure Bounds (m : Munch) (w : List Char) : Prop where
  known : m.piece ≠ .stray
  length : w.length ≤ m.taken.length

theorem munchWhile_bounds {piece : List Char → Piece} (hpiece : ∀ word, piece word ≠ .stray)
    {p : Char → Bool} (c : Char) {cs w : List Char} (hw : ∀ d ∈ w, p d = true)
    (hfront : w <+: cs) : Bounds (munchWhile piece p c cs) (c :: w) where
  known := hpiece _
  length := by
    obtain ⟨rest, rfl⟩ := hfront
    show w.length + 1 ≤ ((w ++ rest).takeWhile p).length + 1
    rw [List.takeWhile_append_of_pos hw, List.length_append]
    omega

theorem wordPiece_ne_stray (word : List Char) : wordPiece word ≠ .stray := by
  unfold wordPiece
  split <;> simp

theorem munchSlash_ne_stray (cs : List Char) : (munchSlash cs).piece ≠ .stray := by
  unfold munchSlash
  repeat' split
  all_goals simp [munchWhile]

theorem munch_slash (cs : List Char) : munch '/' cs = munchSlash cs := by
  rw [munch, if_neg (by decide), if_neg (by decide), if_pos rfl]

/-- Words and numbers, which go on with any letter or digit. -/
def isWordKind : Kind → Bool
  | .keyword _ => true
  | .ident => true
  | .number => true
  | _ => false

/-- Only a slash can be gone on among the marks. -/
theorem goesOn_mark {c : Char} {kind : Kind} (h : markKind? c = some kind) (hslash : c ≠ '/')
    (d : Char) : goesOn kind [c] d = false := by
  have hall : marks.all (fun c => (markKind? c).all fun kind => !isWordKind kind) = true := by
    decide
  have hmark := List.all_eq_true.mp hall c (mem_marks h)
  rw [h, Option.all_some, Bool.not_eq_true'] at hmark
  cases kind with
  | keyword k => cases hmark
  | ident => cases hmark
  | number => cases hmark
  | operator => simp [goesOn, hslash]
  | _ => rfl

/-- A token that stands in front is taken, or something that is longer. -/
theorem spelled_bounds {kind : Kind} {w : List Char} (h : Spelled kind w) {c : Char}
    {cs : List Char} (hfront : w <+: c :: cs) : Bounds (munch c cs) w := by
  -- Where nothing can go on the token, it is taken as it is.
  have hexact : (∀ d, goesOn kind w d = false) → Bounds (munch c cs) w := by
    intro hnever
    obtain ⟨d, ds, rfl, hmunch⟩ := munch_spelled h
    obtain ⟨rfl, rest, rfl⟩ := List.cons_prefix_cons.mp hfront
    rw [hmunch rest fun e _ => hnever e]
    exact ⟨by simp, Nat.le_refl _⟩
  have hword : ∀ {d : Char} {ds : List Char}, w = d :: ds → isWordStart d = true →
      (∀ e ∈ ds, isWordPart e = true) → Bounds (munch c cs) w := by
    rintro d ds rfl hd hds
    obtain ⟨rfl, hds'⟩ := List.cons_prefix_cons.mp hfront
    rw [munch_wordStart hd]
    exact munchWhile_bounds wordPiece_ne_stray d hds hds'
  cases h with
  | newline => exact hexact fun _ => rfl
  | keyword h =>
      obtain ⟨d, ds, rfl, hd, hds⟩ := keyword_word h
      exact hword rfl hd hds
  | ident hd hds hfree => exact hword rfl hd hds
  | number hd hds =>
      obtain ⟨rfl, hds'⟩ := List.cons_prefix_cons.mp hfront
      rw [munch_digit hd]
      exact munchWhile_bounds (by simp) _ hds hds'
  | quoted hquote hunits => exact hexact fun _ => rfl
  | rune hquote hunits hfilled => exact hexact fun _ => rfl
  | @mark d _ h =>
      obtain ⟨rfl, -⟩ := List.cons_prefix_cons.mp hfront
      by_cases hslash : d = '/'
      · rw [hslash, munch_slash]
        have hfilled := List.length_pos_iff.mpr (munchSlash_cuts cs).filled
        exact ⟨munchSlash_ne_stray cs, hfilled⟩
      · rw [munch_mark h fun e _ => goesOn_mark h hslash e]
        exact ⟨by simp, Nat.le_refl _⟩

/-- **A text that matches a rule is no longer than what is taken, and then something is.** -/
theorem rule_bounds {r : Rule} {w : List Char} (hw : w ∈ r.pattern) {c : Char} {cs : List Char}
    (hfront : w <+: c :: cs) : Bounds (munch c cs) w := by
  cases r with
  | token kind =>
      rcases spelled_of_mem_pattern hw with h | ⟨-, keyword, h⟩
      · exact spelled_bounds h hfront
      · exact spelled_bounds h hfront
  | blanks =>
      obtain ⟨d, ds, rfl, hd, hds⟩ := mem_run.mp hw
      obtain ⟨rfl, hds'⟩ := List.cons_prefix_cons.mp hfront
      rw [munch, if_pos (isGapChar_iff.mpr hd)]
      exact munchWhile_bounds (by simp) d (fun e he => isGapChar_iff.mpr (hds e he)) hds'
  | lineComment =>
      obtain ⟨_, rfl, body, hbody, rfl⟩ := Language.mem_mul.mp hw
      obtain ⟨rfl, hbody'⟩ := List.cons_prefix_cons.mp hfront
      obtain ⟨rest, rfl⟩ := hbody'
      rw [munch_slash]
      show Bounds (munchWhile (fun _ => .gap) (· != '\n') '/' ('/' :: (body ++ rest))) _
      refine munchWhile_bounds (by simp) '/' (w := '/' :: body) (fun e he => ?_) ⟨rest, rfl⟩
      rcases List.mem_cons.mp he with rfl | he
      · rfl
      · simpa using mem_kstar_oneOf.mp hbody e he
  | commentOpener =>
      obtain rfl : w = ['/', '*'] := hw
      obtain ⟨rfl, rest, rfl⟩ := List.cons_prefix_cons.mp hfront
      rw [munch_slash]
      exact ⟨munchSlash_ne_stray _, Nat.le_add_left 2 _⟩

/-! ### Where the scanner stands

A place in a text is one of these if the pieces in front of it make up the text up to there.  What
is scanned from such a place on does not depend on what was scanned before, so every statement
about the head of a text is one about each of these places.
-/

/-- The scanner comes to `rest` with `before` behind it. -/
inductive Reaches (text : List Char) : List Char → List Char → Prop
  | start : Reaches text [] text
  | on {before : List Char} {c : Char} {cs : List Char} (h : Reaches text before (c :: cs)) :
      Reaches text (before ++ (munch c cs).taken) (munch c cs).rest

theorem Reaches.whole {text before rest : List Char} (h : Reaches text before rest) :
    before ++ rest = text := by
  induction h with
  | start => rfl
  | @on before c cs _ ih => rw [List.append_assoc, (munch_cuts c cs).whole, ih]

/-- The lexemes of a text are those in front of where the scanner stands and those behind it. -/
theorem Reaches.scan_split {text before rest : List Char} (h : Reaches text before rest) :
    ∃ front, scan text = front ++ scanAt (byteSize before) rest ∧
      ∀ l ∈ front, l.span.stop ≤ byteSize before := by
  induction h with
  | start => exact ⟨[], rfl, List.forall_mem_nil _⟩
  | @on before c cs _ ih =>
      obtain ⟨front, hscan, hfront⟩ := ih
      refine ⟨front ++ (munch c cs).piece.lexemes
        ⟨byteSize before, byteSize before + byteSize (munch c cs).taken⟩, ?_, fun l hl => ?_⟩
      · rw [hscan, scanAt_cons, List.append_assoc, Text.byteSize_append]
      · rw [Text.byteSize_append]
        rcases List.mem_append.mp hl with hl | hl
        · exact (hfront l hl).trans (Nat.le_add_right _ _)
        · rw [lexemes_span l hl]

/-- What is left to scan where the scanner stands is the end of the lexemes. -/
theorem Reaches.scan_suffix {text before rest : List Char} (h : Reaches text before rest) :
    scanAt (byteSize before) rest <:+ scan text := by
  obtain ⟨front, hscan, -⟩ := h.scan_split
  exact ⟨front, hscan.symm⟩

/-- Every lexeme is the piece at a place where the scanner stands. -/
theorem Reaches.of_mem {text : List Char} {l : Lexeme} :
    ∀ (size : Nat) {before rest : List Char}, rest.length ≤ size → Reaches text before rest →
      l ∈ scanAt (byteSize before) rest →
      ∃ front c cs, Reaches text front (c :: cs) ∧
        l ∈ (munch c cs).piece.lexemes
          ⟨byteSize front, byteSize front + byteSize (munch c cs).taken⟩ := by
  intro size
  induction size with
  | zero =>
      intro before rest hlen _ hl
      obtain rfl : rest = [] := List.eq_nil_of_length_eq_zero (by omega)
      exact absurd hl List.not_mem_nil
  | succ size ih =>
      intro before rest hlen hreaches hl
      cases rest with
      | nil => exact absurd hl List.not_mem_nil
      | cons c cs =>
          rw [scanAt_cons] at hl
          rcases List.mem_append.mp hl with hl | hl
          · exact ⟨before, c, cs, hreaches, hl⟩
          · have hshort := munch_rest_length c cs
            simp only [List.length_cons] at hlen
            rw [← Text.byteSize_append] at hl
            exact ih (by omega) hreaches.on hl

/-- The tokens behind a token are those of the text behind it. -/
theorem Reaches.tokens_behind {text : List Char} {t : Token} {ts : List Token} :
    ∀ (size : Nat) {before rest : List Char}, rest.length ≤ size → Reaches text before rest →
      t :: ts <:+ (scanAt (byteSize before) rest).filterMap Lexeme.token? →
      ∃ front raw behind, text = front ++ raw ++ behind ∧
        t.span = ⟨byteSize front, byteSize front + byteSize raw⟩ ∧ Spelled t.kind raw ∧
        ts = (scanAt t.span.stop behind).filterMap Lexeme.token? := by
  intro size
  induction size with
  | zero =>
      intro before rest hlen _ hsuffix
      obtain rfl : rest = [] := List.eq_nil_of_length_eq_zero (by omega)
      exact absurd hsuffix.length_le (by simp [scanAt, scanFrom])
  | succ size ih =>
      intro before rest hlen hreaches hsuffix
      cases rest with
      | nil => exact absurd hsuffix.length_le (by simp [scanAt, scanFrom])
      | cons c cs =>
          have hshort := munch_rest_length c cs
          simp only [List.length_cons] at hlen
          have hlater := @ih (before ++ (munch c cs).taken) (munch c cs).rest (by omega) hreaches.on
          rw [scanAt_cons, List.filterMap_append] at hsuffix
          rw [Text.byteSize_append] at hlater
          have hfits := munch_fits c cs
          cases hpiece : (munch c cs).piece with
          | gap =>
              rw [hpiece] at hsuffix
              exact hlater hsuffix
          | stray =>
              rw [hpiece] at hsuffix
              exact hlater hsuffix
          | token kind =>
              rw [hpiece] at hsuffix
              rw [Munch.Fits, hpiece] at hfits
              rcases List.suffix_cons_iff.mp hsuffix with heq | hsuffix
              · obtain ⟨rfl, rfl⟩ := List.cons.inj heq
                refine ⟨before, (munch c cs).taken, (munch c cs).rest, ?_, rfl, hfits, rfl⟩
                rw [List.append_assoc, (munch_cuts c cs).whole, hreaches.whole]
              · exact hlater hsuffix

/-- A token is spelled as it stands in the text. -/
theorem spelled_slice {text : List Char} {t : Token} (h : t ∈ ofText text) :
    Spelled t.kind (Text.slice text t.span) := by
  obtain ⟨before, behind, heq⟩ := List.append_of_mem h
  obtain ⟨front, raw, rest, rfl, hspan, hspelled, -⟩ :=
    Reaches.tokens_behind _ (Nat.le_refl _) .start (heq ▸ List.suffix_append before (t :: behind))
  rwa [Text.slice_of_standsAt ⟨front, rest, rfl, by rw [hspan], by rw [hspan]⟩]

/-- The tokens behind a token that ends where a text starts. -/
theorem behind_eq {text before rest : List Char} {t : Token} {ts : List Token}
    (h : t :: ts <:+ ofText text) (htext : text = before ++ rest)
    (hstop : t.span.stop = byteSize before) :
    ts = (scanAt (byteSize before) rest).filterMap Lexeme.token? := by
  obtain ⟨front, raw, behind, hwhole, hspan, -, hts⟩ :=
    Reaches.tokens_behind text.length (Nat.le_refl _) .start h
  have hsize : byteSize (front ++ raw) = byteSize before := by
    rw [← hstop, hspan, Text.byteSize_append]
  have hrest : behind = rest := by
    rw [← Text.dropBytes_append (front ++ raw) behind, ← hwhole, hsize, htext,
      Text.dropBytes_append]
  rw [hts, hstop, hrest]

/-! ### Lexemes

A text that is as long as any match can still match two patterns.  That happens with keywords,
which are names as well, and there the keyword is taken.
-/

/-- `taken` is a token of this kind at the head of `taken ++ rest`: it matches the kind, no rule
matches more, and it is a keyword if and only if it reads as one. -/
structure LongestToken (kind : Kind) (taken rest : List Char) : Prop where
  matched : taken ∈ kind.pattern
  longest : ∀ (r : Rule) (longer : List Char), longer <+: taken ++ rest →
    taken.length < longer.length → longer ∉ r.pattern
  keyword : ∀ word : Keyword, kind = .keyword word ↔ taken = word.text
  ident : kind = .ident ↔ taken ∈ Kind.ident.pattern ∧ ∀ word : Keyword, taken ≠ word.text

/-- No rule matches at the head of a text. -/
def Unmatched (text : List Char) : Prop :=
  ∀ (r : Rule) (front : List Char), front <+: text → front ≠ [] → front ∉ r.pattern

/-- A text is spelled as a token of one kind at most, since the scanner takes it in one way. -/
theorem Spelled.kind_eq {kind kind' : Kind} {text : List Char} (h : Spelled kind text)
    (h' : Spelled kind' text) : kind = kind' := by
  obtain ⟨c, cs, htext, hmunch⟩ := munch_spelled h
  obtain ⟨c', cs', htext', hmunch'⟩ := munch_spelled h'
  obtain ⟨rfl, rfl⟩ := List.cons.inj (htext.symm.trans htext')
  have hsame := (hmunch [] (by simp)).symm.trans (hmunch' [] (by simp))
  simpa using hsame

theorem Spelled.keyword_iff {kind : Kind} {text : List Char} (h : Spelled kind text)
    (word : Keyword) : kind = .keyword word ↔ text = word.text := by
  constructor
  · rintro rfl
    exact h.mem_pattern
  · rintro rfl
    exact h.kind_eq (.keyword (Keyword.ofWord?_eq_some_iff.mpr rfl))

theorem Spelled.ident_iff {kind : Kind} {text : List Char} (h : Spelled kind text) :
    kind = .ident ↔ text ∈ Kind.ident.pattern ∧ ∀ word : Keyword, text ≠ word.text := by
  constructor
  · rintro rfl
    refine ⟨h.mem_pattern, fun word hword => ?_⟩
    cases (h.keyword_iff word).mpr hword
  · rintro ⟨hmatched, hfree⟩
    rcases spelled_of_mem_pattern hmatched with hident | ⟨-, word, hword⟩
    · exact h.kind_eq hident
    · exact absurd ((hword.keyword_iff word).mp rfl) (hfree word)

/-- What a lexeme has to be, with `taken` as its text and `rest` behind it. -/
def Munched : Option Kind → List Char → List Char → Prop
  | some kind, taken, rest => LongestToken kind taken rest
  | none, taken, rest => Unmatched (taken ++ rest)

theorem munch_longestToken {c : Char} {cs : List Char} {kind : Kind}
    (h : (munch c cs).piece = .token kind) :
    LongestToken kind (munch c cs).taken (munch c cs).rest := by
  have hspelled : Spelled kind (munch c cs).taken := by
    have hfits := munch_fits c cs
    rw [Munch.Fits, h] at hfits
    exact hfits
  refine ⟨hspelled.mem_pattern, ?_, hspelled.keyword_iff, hspelled.ident_iff⟩
  intro r longer hfront hlonger hmatched
  rw [(munch_cuts c cs).whole] at hfront
  have hbound := (rule_bounds hmatched hfront).length
  omega

theorem munch_unmatched {c : Char} {cs : List Char} (h : (munch c cs).piece = .stray) :
    Unmatched (c :: cs) :=
  fun _ _ hfront _ hmatched => (rule_bounds hmatched hfront).known h

theorem lexemes_munched {c : Char} {cs before : List Char} {l : Lexeme}
    (hl : l ∈ (munch c cs).piece.lexemes
      ⟨byteSize before, byteSize before + byteSize (munch c cs).taken⟩) :
    Munched l.kind (munch c cs).taken (munch c cs).rest := by
  cases hpiece : (munch c cs).piece with
  | gap =>
      rw [hpiece] at hl
      exact absurd hl List.not_mem_nil
  | stray =>
      rw [hpiece] at hl
      obtain rfl := List.mem_singleton.mp hl
      show Unmatched ((munch c cs).taken ++ (munch c cs).rest)
      rw [(munch_cuts c cs).whole]
      exact munch_unmatched hpiece
  | token kind =>
      rw [hpiece] at hl
      obtain rfl := List.mem_singleton.mp hl
      exact munch_longestToken hpiece

/-- A token that nothing can go on is a lexeme wherever the scanner stands in front of it. -/
theorem Reaches.mem_scan {text before : List Char} {kind : Kind} {raw rest : List Char}
    (hspelled : Spelled kind raw) (hover : ∀ d, goesOn kind raw d = false)
    (h : Reaches text before (raw ++ rest)) :
    ⟨some kind, ⟨byteSize before, byteSize before + byteSize raw⟩⟩ ∈ scan text := by
  obtain ⟨c, cs, rfl, hmunch⟩ := munch_spelled hspelled
  have hsuffix := h.scan_suffix
  rw [List.cons_append, scanAt_munch _ (hmunch rest fun d _ => hover d)] at hsuffix
  exact hsuffix.subset (List.mem_append_left _ (List.mem_singleton_self _))

/--
**The scanner takes the longest match.**  A lexeme of a text is a token that matches the pattern of
its kind, and then no longer text at its place matches the pattern of any kind, blanks, a comment up
to the end of its line or the mark that opens a comment; it is a keyword if it reads as that
keyword, so a name that starts with a keyword and goes on is a name.  Or it is stray, and then no
text at its place matches any of these.

Quoted text is a special case of it: where the scanner stands in front of units between two equal
quotes, all of that is one token, whatever the units are.
-/
theorem scan_longest (text : List Char) :
    (∀ l ∈ scan text, ∃ before taken rest, text = before ++ taken ++ rest ∧
      l.span = ⟨byteSize before, byteSize before + byteSize taken⟩ ∧
      Munched l.kind taken rest) ∧
    (∀ before quote units rest, Reaches text before (quote :: units ++ [quote] ++ rest) →
      units ∈ (unit quote)∗ →
      (quote = singleQuote ∨ quote = doubleQuote →
        ⟨some .quoted, ⟨byteSize before, byteSize before + byteSize (quote :: units ++ [quote])⟩⟩
          ∈ scan text) ∧
      (quote = backQuote → units ≠ [] →
        ⟨some .rune, ⟨byteSize before, byteSize before + byteSize (quote :: units ++ [quote])⟩⟩
          ∈ scan text)) := by
  refine ⟨fun l hl => ?_, fun before quote units rest hreaches hunits => ⟨fun hquote => ?_, ?_⟩⟩
  · have hstart : Reaches text [] text := .start
    obtain ⟨before, c, cs, hreaches, hl⟩ := Reaches.of_mem text.length (Nat.le_refl _) hstart hl
    refine ⟨before, (munch c cs).taken, (munch c cs).rest, ?_, lexemes_span l hl,
      lexemes_munched hl⟩
    rw [List.append_assoc, (munch_cuts c cs).whole, hreaches.whole]
  · have hcode : quote.toNat = 39 ∨ quote.toNat = 34 := hquote.imp (congrArg _) (congrArg _)
    exact hreaches.mem_scan (.quoted hcode (mem_kstar_unit.mp hunits)) fun _ => rfl
  · rintro rfl hfilled
    exact hreaches.mem_scan (.rune rfl (mem_kstar_unit.mp hunits) hfilled) fun _ => rfl

example : scan ['f', 'n', 'x', ' ', 'f', 'n'] =
    [⟨some .ident, ⟨0, 3⟩⟩, ⟨some (.keyword .fnKw), ⟨4, 6⟩⟩] := by decide

end VServer.Token
