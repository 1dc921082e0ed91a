/-
Words, and the tokens they are read back as.

A word is a token as it is written, with the blanks in front of it.  `Spelled` tells, without the
scanner, which texts a token of a kind can have.  Words can stand one behind the other where no
text goes on the one in front of it (`Laid`).  Scanning what is written so gives the words back,
each at the place at which it was written and nothing between them: `ofText_print`.

Statements about written programs start here.  A declaration is written as a list of words with any
blanks between them, and from then on there is a list of tokens with known places to work with.
-/
import VServer.Proofs.Token.Scan
import VServer.Proofs.Text.Blank

namespace VServer.Token

open Text (Span byteSize StandsAt)

/-! ### How tokens are spelled

A spelling is a text and nothing about its surroundings.  What can go wrong when two of them are
written next to each other is said by `goesOn`: the first character behind a token is enough to
tell.
-/

/-- The inside of a quoted text: no quote, and no backslash but with a character behind it. -/
inductive Units (quote : Char) : List Char → Prop
  | done : Units quote []
  | plain {c : Char} {cs : List Char} (hquote : c ≠ quote) (hback : c ≠ '\\')
      (later : Units quote cs) : Units quote (c :: cs)
  | escaped {c : Char} {cs : List Char} (hnewline : c ≠ '\n') (later : Units quote cs) :
      Units quote ('\\' :: c :: cs)

/-- The texts of the tokens of a kind. -/
inductive Spelled : Kind → List Char → Prop
  | newline : Spelled .newline ['\n']
  | keyword {word : List Char} {keyword : Keyword} (h : Keyword.ofWord? word = some keyword) :
      Spelled (.keyword keyword) word
  | ident {c : Char} {cs : List Char} (hc : isWordStart c = true)
      (hcs : ∀ d ∈ cs, isWordPart d = true) (hfree : Keyword.ofWord? (c :: cs) = none) :
      Spelled .ident (c :: cs)
  | number {c : Char} {cs : List Char} (hc : c.isDigit = true)
      (hcs : ∀ d ∈ cs, isWordPart d = true) : Spelled .number (c :: cs)
  | quoted {quote : Char} {units : List Char} (hquote : quote.toNat = 39 ∨ quote.toNat = 34)
      (hunits : Units quote units) : Spelled .quoted (quote :: units ++ [quote])
  | rune {quote : Char} {units : List Char} (hquote : quote.toNat = 96)
      (hunits : Units quote units) (hfilled : units ≠ []) :
      Spelled .rune (quote :: units ++ [quote])
  | mark {c : Char} {kind : Kind} (h : markKind? c = some kind) : Spelled kind [c]

/-- Whether the character `d` right behind a token would be read as part of it, or would make a
comment of it. -/
def goesOn (kind : Kind) (text : List Char) (d : Char) : Bool :=
  match kind with
  | .keyword _ => isWordPart d
  | .ident => isWordPart d
  | .number => isWordPart d
  | .operator => text = ['/'] && (d = '/' || d = '*')
  | _ => false

/-- All marks that are tokens. -/
def marks : List Char :=
  ['(', ')', '\x7b', '\x7d', '[', ']', '.', ',', ':', '=', '@', '+', '-', '*', '/', '%', '<', '>',
    '!', '|', '^', '~', '?', '#', '$', '&', ';', '\\']

theorem mem_marks {c : Char} {kind : Kind} (h : markKind? c = some kind) : c ∈ marks := by
  have hoperators : "+-*/%<>!|^~?#$&;\\".toList
      = ['+', '-', '*', '/', '%', '<', '>', '!', '|', '^', '~', '?', '#', '$', '&', ';', '\\'] := by
    decide
  by_contra hc
  simp only [marks, List.mem_cons, List.not_mem_nil, or_false, not_or] at hc
  simp [markKind?, hoperators, hc] at h

/-- A mark is no blank, no quote and no part of a word. -/
theorem mark_facts {c : Char} (h : c ∈ marks) :
    isGapChar c = false ∧ c ≠ '\n' ∧ isWordStart c = false ∧ c.isDigit = false ∧ c.toNat ≠ 39 ∧
      c.toNat ≠ 34 ∧ c.toNat ≠ 96 ∧ Text.isBlank c = false := by
  have hall : marks.all (fun c => decide (isGapChar c = false ∧ c ≠ '\n' ∧ isWordStart c = false ∧
      c.isDigit = false ∧ c.toNat ≠ 39 ∧ c.toNat ≠ 34 ∧ c.toNat ≠ 96 ∧
      Text.isBlank c = false)) = true := by
    decide
  exact of_decide_eq_true (List.all_eq_true.mp hall c h)

theorem keyword_word {word : List Char} {keyword : Keyword}
    (h : Keyword.ofWord? word = some keyword) :
    ∃ c cs, word = c :: cs ∧ isWordStart c = true ∧ ∀ d ∈ cs, isWordPart d = true := by
  unfold Keyword.ofWord? at h
  repeat' split at h
  all_goals first
    | (subst word; exact ⟨_, _, rfl, rfl, List.all_eq_true.mp rfl⟩)
    | exact absurd h (by simp)

/-! ### What the scanner makes of them -/

theorem splitUnits_units {quote : Char} (hquote : quote ≠ '\\') {units : List Char}
    (h : Units quote units) (rest : List Char) :
    splitUnits quote (units ++ quote :: rest) = (units, quote :: rest) := by
  induction h with
  | done =>
      cases rest with
      | nil => simp [splitUnits]
      | cons d rest => simp [splitUnits, hquote]
  | @plain c cs hne hback later ih =>
      obtain ⟨d, ds, hds⟩ : ∃ d ds, cs ++ quote :: rest = d :: ds := by
        cases cs <;> exact ⟨_, _, rfl⟩
      rw [List.cons_append, hds, splitUnits, if_neg hback, if_neg hne, ← hds, ih]
  | @escaped c cs hnewline later ih =>
      rw [List.cons_append, List.cons_append, splitUnits, if_pos rfl, if_neg hnewline, ih]

theorem munchQuoted_units {kind : Kind} {quote : Char} (hquote : quote ≠ '\\') {filled : Bool}
    {units : List Char} (h : Units quote units) (hfilled : filled = true → units ≠ [])
    (rest : List Char) :
    munchQuoted kind quote filled (units ++ quote :: rest)
      = ⟨.token kind, quote :: units ++ [quote], rest⟩ := by
  have hcond : ¬ (filled = true ∧ units = []) := fun ⟨hf, hu⟩ => hfilled hf hu
  simp [munchQuoted, splitUnits_units hquote h, hcond]

theorem munchWhile_append {piece : List Char → Piece} {p : Char → Bool} (c : Char)
    {cs : List Char} (hcs : ∀ d ∈ cs, p d = true) {rest : List Char}
    (hrest : ∀ d ∈ rest.head?, p d = false) :
    munchWhile piece p c (cs ++ rest) = ⟨piece (c :: cs), c :: cs, rest⟩ := by
  have hhead : rest.takeWhile p = [] ∧ rest.dropWhile p = rest := by
    cases rest with
    | nil => exact ⟨rfl, rfl⟩
    | cons d ds => simp [hrest d rfl]
  rw [munchWhile, List.takeWhile_append_of_pos hcs, List.dropWhile_append_of_pos hcs, hhead.1,
    hhead.2, List.append_nil]

/-! The classes of characters lie apart, as their codes show. -/

theorem gapChar_code {c : Char} (h : isGapChar c = true) :
    c.toNat = 32 ∨ c.toNat = 9 ∨ c.toNat = 13 ∨ c.toNat = 12 := by
  simp only [isGapChar, Bool.or_eq_true, decide_eq_true_eq] at h
  rcases h with ((rfl | rfl) | rfl) | h
  · exact .inl rfl
  · exact .inr (.inl rfl)
  · exact .inr (.inr (.inl rfl))
  · exact .inr (.inr (.inr h))

theorem digit_code {c : Char} (h : c.isDigit = true) : 48 ≤ c.toNat ∧ c.toNat ≤ 57 := by
  simpa [Char.isDigit, UInt32.le_iff_toNat_le] using h

theorem wordStart_code {c : Char} (h : isWordStart c = true) :
    65 ≤ c.toNat ∧ c.toNat ≤ 90 ∨ c.toNat = 95 ∨ 97 ≤ c.toNat ∧ c.toNat ≤ 122 := by
  have hcases : ((decide (65 ≤ c.val ∧ c.val ≤ 90) || (decide (97 ≤ c.val) && decide (c.val ≤ 122)))
      || decide (c = '_')) = true := h
  simp only [Bool.or_eq_true, Bool.and_eq_true, decide_eq_true_eq,
    UInt32.le_iff_toNat_le] at hcases
  rcases hcases with (h | h) | rfl
  · exact .inl h
  · exact .inr (.inr h)
  · exact .inr (.inl rfl)

theorem wordPart_code {c : Char} (h : isWordPart c = true) :
    48 ≤ c.toNat ∧ c.toNat ≤ 57 ∨ 65 ≤ c.toNat ∧ c.toNat ≤ 90 ∨ c.toNat = 95 ∨
      97 ≤ c.toNat ∧ c.toNat ≤ 122 := by
  simp only [isWordPart, Char.isAlphanum, Bool.or_eq_true, decide_eq_true_eq] at h
  rcases h with (h | h) | rfl
  · exact .inr (wordStart_code (by simp [isWordStart, h]))
  · exact .inl (digit_code h)
  · exact .inr (.inr (.inl rfl))

theorem not_gapChar {c : Char} (h : 32 < c.toNat) : isGapChar c = false := by
  by_contra hgap
  have := gapChar_code (by simpa using hgap)
  omega

theorem isBlank_of_code {c : Char} (h : 32 < c.toNat ∧ c.toNat < 128) :
    Text.isBlank c = false := by
  simp only [Text.isBlank, Bool.or_eq_false_iff, Bool.and_eq_false_iff, decide_eq_false_iff_not,
    beq_eq_false_iff_ne]
  omega

theorem ne_of_code {c d : Char} (h : c.toNat ≠ d.toNat) : c ≠ d :=
  fun heq => h (congrArg Char.toNat heq)

/-- A quote starts nothing but a quoted text. -/
theorem quote_facts {c : Char} (h : c.toNat = 39 ∨ c.toNat = 34 ∨ c.toNat = 96) :
    isGapChar c = false ∧ c ≠ '\n' ∧ c ≠ '/' ∧ isWordStart c = false ∧ c.isDigit = false ∧
      c ≠ '\\' := by
  refine ⟨not_gapChar (by omega), ne_of_code ?_, ne_of_code ?_, ?_, ?_, ne_of_code ?_⟩
  · show c.toNat ≠ 10
    omega
  · show c.toNat ≠ 47
    omega
  · by_contra hstart
    have := wordStart_code (by simpa using hstart)
    omega
  · by_contra hdigit
    have := digit_code (by simpa using hdigit)
    omega
  · show c.toNat ≠ 92
    omega

theorem munch_wordStart {c : Char} (hc : isWordStart c = true) (cs : List Char) :
    munch c cs = munchWhile wordPiece isWordPart c cs := by
  have hcode := wordStart_code hc
  have hgap : isGapChar c = false := not_gapChar (by omega)
  have hnewline : c ≠ '\n' := ne_of_code (by show c.toNat ≠ 10; omega)
  have hslash : c ≠ '/' := ne_of_code (by show c.toNat ≠ 47; omega)
  rw [munch, if_neg (by simp [hgap]), if_neg hnewline, if_neg hslash, if_pos hc]

theorem munch_word {c : Char} {cs : List Char} (hc : isWordStart c = true)
    (hcs : ∀ d ∈ cs, isWordPart d = true) {rest : List Char}
    (hrest : ∀ d ∈ rest.head?, isWordPart d = false) :
    munch c (cs ++ rest) = ⟨wordPiece (c :: cs), c :: cs, rest⟩ := by
  rw [munch_wordStart hc]
  exact munchWhile_append c hcs hrest

theorem munch_digit {c : Char} (hc : c.isDigit = true) (cs : List Char) :
    munch c cs = munchWhile (fun _ => .token .number) isWordPart c cs := by
  have hcode := digit_code hc
  have hgap : isGapChar c = false := not_gapChar (by omega)
  have hnewline : c ≠ '\n' := ne_of_code (by show c.toNat ≠ 10; omega)
  have hslash : c ≠ '/' := ne_of_code (by show c.toNat ≠ 47; omega)
  have hstart : isWordStart c ≠ true := by
    intro hstart
    have := wordStart_code hstart
    omega
  rw [munch, if_neg (by simp [hgap]), if_neg hnewline, if_neg hslash, if_neg hstart, if_pos hc]

theorem munch_number {c : Char} {cs : List Char} (hc : c.isDigit = true)
    (hcs : ∀ d ∈ cs, isWordPart d = true) {rest : List Char}
    (hrest : ∀ d ∈ rest.head?, isWordPart d = false) :
    munch c (cs ++ rest) = ⟨.token .number, c :: cs, rest⟩ := by
  rw [munch_digit hc]
  exact munchWhile_append c hcs hrest

theorem munch_quote {c : Char} (h : c.toNat = 39 ∨ c.toNat = 34 ∨ c.toNat = 96) (cs : List Char) :
    munch c cs = if c.toNat = 96 then munchQuoted .rune c true cs
      else munchQuoted .quoted c false cs := by
  obtain ⟨hgap, hnewline, hslash, hstart, hdigit, -⟩ := quote_facts h
  rw [munch, if_neg (by simp [hgap]), if_neg hnewline, if_neg hslash, if_neg (by simp [hstart]),
    if_neg (by simp [hdigit])]
  rcases h with h | h | h <;> simp [h]

theorem munch_mark {c : Char} {kind : Kind} (h : markKind? c = some kind) {rest : List Char}
    (hrest : ∀ d ∈ rest.head?, goesOn kind [c] d = false) :
    munch c rest = ⟨.token kind, [c], rest⟩ := by
  obtain ⟨hgap, hnewline, hstart, hdigit, hsingle, hdouble, hback, -⟩ := mark_facts (mem_marks h)
  by_cases hslash : c = '/'
  · subst hslash
    obtain rfl : Kind.operator = kind := Option.some.inj h
    rw [munch, if_neg (by simp [hgap]), if_neg hnewline, if_pos rfl]
    cases rest with
    | nil => rfl
    | cons d rest =>
        have hd : d ≠ '/' ∧ d ≠ '*' := by simpa [goesOn] using hrest d rfl
        simp [munchSlash, hd]
  · rw [munch, if_neg (by simp [hgap]), if_neg hnewline, if_neg hslash, if_neg (by simp [hstart]),
      if_neg (by simp [hdigit]), if_neg hsingle, if_neg hdouble, if_neg hback, h]

/-- **The scanner takes a token off the head of a text, unless the text goes on.** -/
theorem munch_spelled {kind : Kind} {text : List Char} (h : Spelled kind text) :
    ∃ c cs, text = c :: cs ∧ ∀ rest : List Char,
      (∀ d ∈ rest.head?, goesOn kind text d = false) →
      munch c (cs ++ rest) = ⟨.token kind, text, rest⟩ := by
  cases h with
  | newline => exact ⟨_, _, rfl, fun rest _ => rfl⟩
  | keyword h =>
      obtain ⟨c, cs, rfl, hc, hcs⟩ := keyword_word h
      refine ⟨c, cs, rfl, fun rest hrest => ?_⟩
      rw [munch_word hc hcs hrest, wordPiece, h]
  | @ident c cs hc hcs hfree =>
      refine ⟨c, cs, rfl, fun rest hrest => ?_⟩
      rw [munch_word hc hcs hrest, wordPiece, hfree]
  | @number c cs hc hcs => exact ⟨c, cs, rfl, fun rest hrest => munch_number hc hcs hrest⟩
  | @quoted quote units hquote hunits =>
      have hcode : quote.toNat = 39 ∨ quote.toNat = 34 ∨ quote.toNat = 96 := by omega
      refine ⟨quote, units ++ [quote], rfl, fun rest _ => ?_⟩
      rw [munch_quote hcode, if_neg (by omega), List.append_assoc]
      exact munchQuoted_units (quote_facts hcode).2.2.2.2.2 hunits (by simp) rest
  | @rune quote units hquote hunits hfilled =>
      refine ⟨quote, units ++ [quote], rfl, fun rest _ => ?_⟩
      rw [munch_quote (by omega), if_pos hquote, List.append_assoc]
      exact munchQuoted_units (quote_facts (by omega)).2.2.2.2.2 hunits (fun _ => hfilled) rest
  | @mark c _ h => exact ⟨c, [], rfl, fun rest hrest => munch_mark h hrest⟩

/-- A token other than a newline has no blank at its ends. -/
theorem spelled_ends {kind : Kind} {text : List Char} (h : Spelled kind text)
    (hkind : kind ≠ .newline) :
    (∀ c ∈ text.head?, Text.isBlank c = false) ∧ ∀ c ∈ text.getLast?, Text.isBlank c = false := by
  have hpart : ∀ {c : Char}, isWordPart c = true → Text.isBlank c = false := by
    intro c hc
    have := wordPart_code hc
    exact isBlank_of_code (by omega)
  have hword : ∀ {c : Char} {cs : List Char}, Text.isBlank c = false →
      (∀ d ∈ cs, isWordPart d = true) → (∀ d ∈ (c :: cs).head?, Text.isBlank d = false) ∧
        ∀ d ∈ (c :: cs).getLast?, Text.isBlank d = false := by
    intro c cs hc hcs
    refine ⟨by simpa using hc, fun d hd => ?_⟩
    rcases List.mem_cons.mp (List.mem_of_getLast? hd) with rfl | hd
    · exact hc
    · exact hpart (hcs d hd)
  have hquoted : ∀ {q : Char} {units : List Char}, q.toNat = 39 ∨ q.toNat = 34 ∨ q.toNat = 96 →
      (∀ d ∈ (q :: units ++ [q]).head?, Text.isBlank d = false) ∧
        ∀ d ∈ (q :: units ++ [q]).getLast?, Text.isBlank d = false := by
    intro q units hq
    have hblank : Text.isBlank q = false := isBlank_of_code (by omega)
    rw [List.getLast?_concat]
    exact ⟨by simpa using hblank, by simpa using hblank⟩
  cases h with
  | newline => exact absurd rfl hkind
  | keyword h =>
      obtain ⟨c, cs, rfl, hc, hcs⟩ := keyword_word h
      have := wordStart_code hc
      exact hword (isBlank_of_code (by omega)) hcs
  | ident hc hcs hfree =>
      have := wordStart_code hc
      exact hword (isBlank_of_code (by omega)) hcs
  | number hc hcs =>
      have := digit_code hc
      exact hword (isBlank_of_code (by omega)) hcs
  | quoted hquote hunits => exact hquoted (by omega)
  | rune hquote hunits hfilled => exact hquoted (by omega)
  | mark h =>
      have hblank := (mark_facts (mem_marks h)).2.2.2.2.2.2.2
      exact ⟨by simpa using hblank, by simpa using hblank⟩

/-! ### Words -/

/-- Blanks between tokens. -/
structure Gap where
  chars : List Char
  blank : ∀ c ∈ chars, isGapChar c = true

namespace Gap

/-- No blanks. -/
def none : Gap := ⟨[], by simp⟩

/-- One blank. -/
def space : Gap := ⟨[' '], List.all_eq_true.mp rfl⟩

end Gap

/-- A token as it is written, with the blanks in front of it. -/
structure Word where
  gap : Gap
  kind : Kind
  text : List Char
  spelled : Spelled kind text

namespace Word

/-- The word as it is written. -/
def print (w : Word) : List Char :=
  w.gap.chars ++ w.text

/-- The place of the word behind byte `offset`. -/
def span (w : Word) (offset : Nat) : Span :=
  ⟨offset + byteSize w.gap.chars, offset + byteSize w.print⟩

end Word

/-- Words one behind the other. -/
def print (ws : List Word) : List Char :=
  ws.flatMap Word.print

/-- The tokens that are the words `ws`, written from byte `offset` on. -/
def place (offset : Nat) : List Word → List Token
  | [] => []
  | w :: ws => ⟨w.kind, w.span offset⟩ :: place (offset + byteSize w.print) ws

/-- No word is gone on by what is written behind it. -/
def Laid : List Word → Prop
  | [] => True
  | w :: ws => (∀ c ∈ (print ws).head?, goesOn w.kind w.text c = false) ∧ Laid ws

instance instDecidableLaid : (ws : List Word) → Decidable (Laid ws)
  | [] => .isTrue trivial
  | w :: ws =>
    have := instDecidableLaid ws
    decidable_of_iff
      ((print ws).head?.all (fun c => !goesOn w.kind w.text c) = true ∧ Laid ws)
      (by simp [Laid, Option.all_eq_true])

@[simp] theorem print_nil : print [] = [] := rfl

@[simp] theorem print_cons (w : Word) (ws : List Word) : print (w :: ws) = w.print ++ print ws :=
  rfl

@[simp] theorem print_append (ws ws' : List Word) : print (ws ++ ws') = print ws ++ print ws' :=
  List.flatMap_append

@[simp] theorem place_nil (offset : Nat) : place offset [] = [] := rfl

@[simp] theorem place_cons (offset : Nat) (w : Word) (ws : List Word) :
    place offset (w :: ws) = ⟨w.kind, w.span offset⟩ :: place (offset + byteSize w.print) ws := rfl

@[simp] theorem place_append (offset : Nat) (ws ws' : List Word) :
    place offset (ws ++ ws') = place offset ws ++ place (offset + byteSize (print ws)) ws' := by
  induction ws generalizing offset with
  | nil => rfl
  | cons w ws ih =>
      simp only [List.cons_append, place_cons, print_cons, ih, Text.byteSize_append,
        Nat.add_assoc]

/-! ### Texts of words -/

/-- The words `ws` are written in `text` from byte `offset` on. -/
def Written (text : List Char) (offset : Nat) (ws : List Word) : Prop :=
  ∃ before behind, text = before ++ print ws ++ behind ∧ byteSize before = offset

theorem Written.left {text : List Char} {offset : Nat} {ws ws' : List Word}
    (h : Written text offset (ws ++ ws')) : Written text offset ws := by
  obtain ⟨before, behind, rfl, hoffset⟩ := h
  exact ⟨before, print ws' ++ behind, by simp, hoffset⟩

theorem Written.right {text : List Char} {offset : Nat} {ws ws' : List Word}
    (h : Written text offset (ws ++ ws')) :
    Written text (offset + byteSize (print ws)) ws' := by
  obtain ⟨before, behind, rfl, hoffset⟩ := h
  exact ⟨before ++ print ws, behind, by simp, by rw [Text.byteSize_append, hoffset]⟩

theorem Written.tail {text : List Char} {offset : Nat} {w : Word} {ws : List Word}
    (h : Written text offset (w :: ws)) : Written text (offset + byteSize w.print) ws := by
  have h' : Written text offset ([w] ++ ws) := h
  simpa using h'.right

/-- The text of words without the blanks in front of the first one. -/
def bare : List Word → List Char
  | [] => []
  | w :: ws => w.text ++ print ws

theorem Written.slice_bare {text : List Char} {offset : Nat} {w : Word} {ws : List Word}
    (h : Written text offset (w :: ws)) :
    Text.slice text ⟨(w.span offset).start, offset + byteSize (print (w :: ws))⟩
      = bare (w :: ws) := by
  obtain ⟨before, behind, rfl, hoffset⟩ := h
  refine Text.slice_of_standsAt ⟨before ++ w.gap.chars, behind, ?_, ?_, ?_⟩
  · simp [bare, Word.print]
  · rw [Text.byteSize_append, hoffset]
    rfl
  · show offset + byteSize (print (w :: ws)) = _
    rw [print_cons, Word.print, bare, Text.byteSize_append, Text.byteSize_append,
      Text.byteSize_append, Text.byteSize_append, hoffset]
    omega

theorem Written.slice_word {text : List Char} {offset : Nat} {w : Word} {ws : List Word}
    (h : Written text offset (w :: ws)) : Text.slice text (w.span offset) = w.text := by
  have hone : Written text offset ([w] ++ ws) := h
  simpa [bare, Word.span] using hone.left.slice_bare

/-! ### Scanning what is written

The induction is on the words, with any offset and with any text behind them.  The blanks in front
of a word are one gap, and the word is one token by `munch_spelled`, since nothing goes on it.
-/

theorem munch_rest_length (c : Char) (cs : List Char) : (munch c cs).rest.length ≤ cs.length := by
  obtain ⟨hwhole, hfilled⟩ := munch_cuts c cs
  have hlength := congrArg List.length hwhole
  have hpos := List.length_pos_iff.mpr hfilled
  simp only [List.length_append, List.length_cons] at hlength
  omega

theorem scanFrom_fuel (offset : Nat) (fuel fuel' : Nat) (text : List Char)
    (hlen : text.length ≤ fuel) (hlen' : text.length ≤ fuel') :
    scanFrom fuel offset text = scanFrom fuel' offset text := by
  refine congrFun (loop_fuel (fun fuel text offset => scanFrom fuel offset text) ?_ ?_
    fuel fuel' text hlen hlen') offset
  · intro fuel fuel'
    cases fuel <;> cases fuel' <;> rfl
  · intro fuel fuel' c cs hgo
    funext offset
    simp only [scanFrom]
    rw [congrFun (hgo _ (munch_rest_length c cs))]

/-- The lexemes of a text that starts at byte `offset`. -/
def scanAt (offset : Nat) (text : List Char) : List Lexeme :=
  scanFrom text.length offset text

theorem scanAt_munch {c : Char} {cs taken rest : List Char} {piece : Piece} (offset : Nat)
    (h : munch c cs = ⟨piece, taken, rest⟩) :
    scanAt offset (c :: cs)
      = piece.lexemes ⟨offset, offset + byteSize taken⟩
        ++ scanAt (offset + byteSize taken) rest := by
  have hshort := munch_rest_length c cs
  rw [h] at hshort
  rw [scanAt, List.length_cons, scanFrom, h]
  simp only
  rw [scanFrom_fuel _ cs.length rest.length rest hshort (Nat.le_refl _)]
  rfl

theorem scanAt_gap (gap : Gap) (rest : List Char) (hrest : ∀ c ∈ rest.head?, isGapChar c = false)
    (offset : Nat) :
    scanAt offset (gap.chars ++ rest) = scanAt (offset + byteSize gap.chars) rest := by
  rcases gap with ⟨chars, hblank⟩
  cases chars with
  | nil => rfl
  | cons c cs =>
      have hgap : isGapChar c = true := hblank c List.mem_cons_self
      have hmunch : munch c (cs ++ rest) = ⟨.gap, c :: cs, rest⟩ := by
        rw [munch, if_pos hgap]
        exact munchWhile_append c (fun d hd => hblank d (List.mem_cons_of_mem c hd)) hrest
      exact scanAt_munch offset hmunch

/-- A blank behind a token does not go on it. -/
theorem goesOn_gapChar {kind : Kind} {text : List Char} {c : Char} (h : isGapChar c = true) :
    goesOn kind text c = false := by
  have hcode := gapChar_code h
  have hpart : isWordPart c = false := by
    by_contra hpart
    have := wordPart_code (by simpa using hpart)
    omega
  have hslash : c ≠ '/' := ne_of_code (by show c.toNat ≠ 47; omega)
  have hstar : c ≠ '*' := ne_of_code (by show c.toNat ≠ 42; omega)
  cases kind <;> simp [goesOn, hpart, hslash, hstar]

theorem head_not_gapChar {kind : Kind} {text : List Char} (h : Spelled kind text) :
    ∀ c ∈ text.head?, isGapChar c = false := by
  obtain ⟨c, cs, rfl, hmunch⟩ := munch_spelled h
  intro d hd
  obtain rfl : c = d := Option.some.inj hd
  -- A blank would have been taken as one.
  by_contra hgap
  have htoken := congrArg Munch.piece (hmunch [] (by simp))
  rw [munch, if_pos (by simpa using hgap)] at htoken
  simp [munchWhile] at htoken

theorem text_ne_nil {kind : Kind} {text : List Char} (h : Spelled kind text) : text ≠ [] := by
  obtain ⟨c, cs, rfl, -⟩ := munch_spelled h
  exact List.cons_ne_nil c cs

/-- Nothing is trimmed off a token other than a newline. -/
theorem Spelled.trimmed {kind : Kind} {text : List Char} (h : Spelled kind text)
    (hkind : kind ≠ .newline) : Text.Trimmed text := by
  obtain ⟨hfirst, hlast⟩ := spelled_ends h hkind
  have hne := text_ne_nil h
  obtain ⟨c, rest, rfl⟩ := List.exists_cons_of_ne_nil hne
  obtain ⟨before, d, hconcat⟩ := (List.eq_nil_or_concat' (c :: rest)).resolve_left hne
  refine ⟨⟨c, rest, rfl, hfirst c rfl⟩, before, d, hconcat, hlast d ?_⟩
  rw [hconcat]
  exact List.getLast?_concat

/-- **Words are read back at the places where they were written, whatever stands behind them,**
unless it goes on the last one. -/
theorem scanAt_words (rest : List Char) (ws : List Word) :
    ∀ offset, Laid ws →
      (∀ w ∈ ws.getLast?, ∀ c ∈ rest.head?, goesOn w.kind w.text c = false) →
      scanAt offset (print ws ++ rest)
        = (place offset ws).map (fun t => ⟨some t.kind, t.span⟩)
          ++ scanAt (offset + byteSize (print ws)) rest := by
  induction ws with
  | nil => intro offset _ _; rfl
  | cons w ws ih =>
      intro offset hlaid hlast
      obtain ⟨hnext, hlater⟩ := hlaid
      obtain ⟨c, cs, htext, hmunch⟩ := munch_spelled w.spelled
      have hhead : ∀ d ∈ (print ws ++ rest).head?, goesOn w.kind w.text d = false := by
        cases ws with
        | nil => exact hlast w rfl
        | cons v vs =>
            have hne : print (v :: vs) ≠ [] := by simp [Word.print, text_ne_nil v.spelled]
            rw [List.head?_append_of_ne_nil _ hne]
            exact hnext
      have hrest : ∀ v ∈ ws.getLast?, ∀ c ∈ rest.head?, goesOn v.kind v.text c = false := by
        intro v hv
        refine hlast v ?_
        rw [List.getLast?_cons, hv]
        rfl
      have hscan : print (w :: ws) ++ rest = w.gap.chars ++ (w.text ++ (print ws ++ rest)) := by
        simp [Word.print]
      have hstart : ∀ d ∈ (w.text ++ (print ws ++ rest)).head?, isGapChar d = false := by
        intro d hd
        refine head_not_gapChar w.spelled d ?_
        rw [htext] at hd ⊢
        exact hd
      have hsize : offset + byteSize (print (w :: ws))
          = offset + byteSize w.print + byteSize (print ws) := by
        rw [print_cons, Text.byteSize_append, Nat.add_assoc]
      rw [hscan, scanAt_gap w.gap _ hstart, htext, List.cons_append,
        scanAt_munch _ (hmunch _ hhead), Nat.add_assoc, ← Text.byteSize_append]
      show _ :: scanAt (offset + byteSize w.print) (print ws ++ rest) = _
      rw [ih _ hlater hrest, hsize]
      rfl

/-- **Words are read back at the places where they were written.** -/
theorem scanAt_print (behind : Gap) (ws : List Word) (offset : Nat) (h : Laid ws) :
    scanAt offset (print ws ++ behind.chars)
      = (place offset ws).map fun t => ⟨some t.kind, t.span⟩ := by
  have hgap := scanAt_gap behind [] (by simp) (offset + byteSize (print ws))
  rw [List.append_nil] at hgap
  rw [scanAt_words behind.chars ws offset h
    (fun w _ c hc => goesOn_gapChar (behind.blank c (List.mem_of_mem_head? hc))), hgap]
  exact List.append_nil _

theorem filterMap_token? (ts : List Token) :
    (ts.map fun t => (⟨some t.kind, t.span⟩ : Lexeme)).filterMap Lexeme.token? = ts := by
  induction ts with
  | nil => rfl
  | cons t ts ih =>
      rw [List.map_cons, List.filterMap_cons, ih]
      rfl

/-- The tokens of what is written are the words, and no other text is left. -/
theorem ofText_print {ws : List Word} (h : Laid ws) (behind : Gap) :
    ofText (print ws ++ behind.chars) = place 0 ws ∧
      ∀ l ∈ scan (print ws ++ behind.chars), l.isStray = false := by
  have hscan : scan (print ws ++ behind.chars)
      = (place 0 ws).map fun t => ⟨some t.kind, t.span⟩ := scanAt_print behind ws 0 h
  refine ⟨?_, ?_⟩
  · rw [ofText, hscan, filterMap_token?]
  · intro l hl
    rw [hscan] at hl
    obtain ⟨t, -, rfl⟩ := List.mem_map.mp hl
    rfl

end VServer.Token
