/-
The patterns of tokens, as languages.

A pattern is a language, built from classes of characters by the regular operations.  Every kind of
token has one, and so has everything else that a scanner looks for: blanks, comments to the end of
the line, and the mark that opens a comment.  A keyword matches the pattern of names as well; that
is the one case in which a text matches two.

Nothing here mentions how a text is scanned.  `Spelled` is the other way to say which texts the
tokens of a kind have, with the keywords taken out of the names, and the two are compared at the
end.
-/
import VServer.Proofs.Token.Partition
import Mathlib.Computability.Language

/-- A set of texts.  It has its name outside of the namespace, in which a `Language` is what a
declaration is written for. -/
abbrev TextLanguage := Language Char

namespace VServer

open scoped Computability

namespace Token

/-! ### Classes of characters

The classes are written as ranges and lists of characters, and not by the tests of the scanner,
which are compared with them below.
-/

/-- The texts of one character of a class. -/
def oneOf (p : Char → Prop) : TextLanguage :=
  fun w => ∃ c, p c ∧ w = [c]

/-- The characters from `a` to `z`. -/
def InRange (a z c : Char) : Prop :=
  a.toNat ≤ c.toNat ∧ c.toNat ≤ z.toNat

/-- What a word can start with. -/
def StartsWord (c : Char) : Prop :=
  InRange 'A' 'Z' c ∨ InRange 'a' 'z' c ∨ c = '_'

/-- What a word or a number can go on with. -/
def GoesOnWord (c : Char) : Prop :=
  StartsWord c ∨ InRange '0' '9' c

/-- Space, tabulator, carriage return and form feed. -/
def IsBlank (c : Char) : Prop :=
  c = ' ' ∨ c = '\t' ∨ c = '\r' ∨ c.toNat = 12

/-- A unit of quoted text: a character that is no quote and no backslash, or a backslash with any
character but a newline. -/
def unit (quote : Char) : TextLanguage :=
  oneOf (fun c => c ≠ quote ∧ c ≠ '\\') + {['\\']} * oneOf (· ≠ '\n')

/-- Units between two quotes. -/
def quotedText (quote : Char) : TextLanguage :=
  {[quote]} * (unit quote)∗ * {[quote]}

/-- Units between two quotes, at least one. -/
def filledText (quote : Char) : TextLanguage :=
  {[quote]} * (unit quote * (unit quote)∗) * {[quote]}

/-- The marks that are told apart from brackets and separators, and not from each other. -/
def operatorMarks : List Char :=
  ['+', '-', '*', '/', '%', '<', '>', '!', '|', '^', '~', '?', '#', '$', '&', ';', '\\']

/-- The three quotes. -/
def singleQuote : Char := Char.ofNat 39
def doubleQuote : Char := Char.ofNat 34
def backQuote : Char := Char.ofNat 96

end Token

/-! ### Patterns -/

namespace Keyword

/-- A keyword as it is written. -/
def text : Keyword → List Char
  | moduleKw => ['m', 'o', 'd', 'u', 'l', 'e']
  | importKw => ['i', 'm', 'p', 'o', 'r', 't']
  | pubKw => ['p', 'u', 'b']
  | mutKw => ['m', 'u', 't']
  | fnKw => ['f', 'n']
  | structKw => ['s', 't', 'r', 'u', 'c', 't']
  | unionKw => ['u', 'n', 'i', 'o', 'n']

theorem ofWord?_eq_some_iff {word : List Char} {keyword : Keyword} :
    ofWord? word = some keyword ↔ word = keyword.text := by
  constructor
  · intro h
    unfold ofWord? at h
    split_ifs at h
    all_goals
      obtain rfl := Option.some.inj h
      assumption
  · rintro rfl
    cases keyword <;> rfl

end Keyword

namespace Kind

open Token

/-- The texts that match a kind. -/
def pattern : Kind → TextLanguage
  | newline => {['\n']}
  | keyword word => {word.text}
  | ident => oneOf StartsWord * (oneOf GoesOnWord)∗
  | number => oneOf (InRange '0' '9') * (oneOf GoesOnWord)∗
  | quoted => quotedText singleQuote + quotedText doubleQuote
  | rune => filledText backQuote
  | opener .paren => {['(']}
  | opener .brace => {['\x7b']}
  | opener .square => {['[']}
  | closer .paren => {[')']}
  | closer .brace => {['\x7d']}
  | closer .square => {[']']}
  | dot => {['.']}
  | comma => {[',']}
  | colon => {[':']}
  | equals => {['=']}
  | atSign => {['@']}
  | operator => oneOf (· ∈ operatorMarks)

end Kind

namespace Token

/-- What a scanner looks for at the head of a text. -/
inductive Rule where
  | token (kind : Kind)
  | blanks
  | lineComment
  | commentOpener

/-- The texts that match a rule. -/
def Rule.pattern : Rule → TextLanguage
  | token kind => kind.pattern
  | blanks => oneOf IsBlank * (oneOf IsBlank)∗
  | lineComment => {['/', '/']} * (oneOf (· ≠ '\n'))∗
  | commentOpener => {['/', '*']}

/-! ### The regular operations -/

@[simp] theorem mem_text {u w : List Char} : w ∈ ({u} : TextLanguage) ↔ w = u := Iff.rfl

@[simp] theorem mem_oneOf {p : Char → Prop} {w : List Char} :
    w ∈ oneOf p ↔ ∃ c, p c ∧ w = [c] := Iff.rfl

theorem append_mem_kstar {l : TextLanguage} {u w : List Char} (hu : u ∈ l) (hw : w ∈ l∗) :
    u ++ w ∈ l∗ := by
  obtain ⟨parts, rfl, hparts⟩ := Language.mem_kstar.mp hw
  refine Language.mem_kstar.mpr ⟨u :: parts, rfl, fun y hy => ?_⟩
  rcases List.mem_cons.mp hy with rfl | hy
  · exact hu
  · exact hparts y hy

/-- Induction along the members of a star. -/
theorem kstar_induction {l : TextLanguage} {motive : List Char → Prop} (hnil : motive [])
    (happend : ∀ u w, u ∈ l → motive w → motive (u ++ w)) {w : List Char} (hw : w ∈ l∗) :
    motive w := by
  obtain ⟨parts, rfl, hparts⟩ := Language.mem_kstar.mp hw
  clear hw
  induction parts with
  | nil => exact hnil
  | cons u parts ih =>
      exact happend u _ (hparts u List.mem_cons_self)
        (ih fun y hy => hparts y (List.mem_cons_of_mem u hy))

theorem mem_kstar_oneOf {p : Char → Prop} {w : List Char} :
    w ∈ (oneOf p)∗ ↔ ∀ c ∈ w, p c := by
  constructor
  · intro h
    refine kstar_induction (motive := fun w => ∀ c ∈ w, p c) (by simp) ?_ h
    rintro u w ⟨c, hc, rfl⟩ hw d hd
    rcases List.mem_cons.mp hd with rfl | hd
    · exact hc
    · exact hw d hd
  · intro h
    induction w with
    | nil => exact Language.nil_mem_kstar _
    | cons c w ih =>
        exact append_mem_kstar (u := [c]) ⟨c, h c List.mem_cons_self, rfl⟩
          (ih fun d hd => h d (List.mem_cons_of_mem c hd))

/-- One character of a class and then any number of another. -/
theorem mem_run {p q : Char → Prop} {w : List Char} :
    w ∈ oneOf p * (oneOf q)∗ ↔ ∃ c cs, w = c :: cs ∧ p c ∧ ∀ d ∈ cs, q d := by
  rw [Language.mem_mul]
  constructor
  · rintro ⟨_, ⟨c, hc, rfl⟩, cs, hcs, rfl⟩
    exact ⟨c, cs, rfl, hc, mem_kstar_oneOf.mp hcs⟩
  · rintro ⟨c, cs, rfl, hc, hcs⟩
    exact ⟨[c], ⟨c, hc, rfl⟩, cs, mem_kstar_oneOf.mpr hcs, rfl⟩

theorem mem_unit {quote : Char} {w : List Char} :
    w ∈ unit quote ↔ (∃ c, (c ≠ quote ∧ c ≠ '\\') ∧ w = [c]) ∨ ∃ c, c ≠ '\n' ∧ w = ['\\', c] := by
  rw [unit, Language.mem_add, Language.mem_mul]
  refine or_congr Iff.rfl ?_
  constructor
  · rintro ⟨_, rfl, _, ⟨c, hc, rfl⟩, rfl⟩
    exact ⟨c, hc, rfl⟩
  · rintro ⟨c, hc, rfl⟩
    exact ⟨['\\'], rfl, [c], ⟨c, hc, rfl⟩, rfl⟩

theorem mem_kstar_unit {quote : Char} {w : List Char} : w ∈ (unit quote)∗ ↔ Units quote w := by
  constructor
  · intro h
    refine kstar_induction .done ?_ h
    intro u w hu hw
    rcases mem_unit.mp hu with ⟨c, ⟨hquote, hback⟩, rfl⟩ | ⟨c, hnewline, rfl⟩
    · exact .plain hquote hback hw
    · exact .escaped hnewline hw
  · intro h
    induction h with
    | done => exact Language.nil_mem_kstar _
    | @plain c cs hquote hback later ih =>
        exact append_mem_kstar (u := [c]) (mem_unit.mpr (.inl ⟨c, ⟨hquote, hback⟩, rfl⟩)) ih
    | @escaped c cs hnewline later ih =>
        exact append_mem_kstar (u := ['\\', c]) (mem_unit.mpr (.inr ⟨c, hnewline, rfl⟩)) ih

theorem mem_quotedText {quote : Char} {w : List Char} :
    w ∈ quotedText quote ↔ ∃ units, Units quote units ∧ w = quote :: units ++ [quote] := by
  simp only [quotedText, Language.mem_mul, mem_text, mem_kstar_unit]
  constructor
  · rintro ⟨_, ⟨_, rfl, units, hunits, rfl⟩, _, rfl, rfl⟩
    exact ⟨units, hunits, rfl⟩
  · rintro ⟨units, hunits, rfl⟩
    exact ⟨quote :: units, ⟨[quote], rfl, units, hunits, rfl⟩, [quote], rfl, rfl⟩

/-- At least one unit is units that are not nothing. -/
theorem mem_unit_mul_kstar {quote : Char} {w : List Char} :
    w ∈ unit quote * (unit quote)∗ ↔ Units quote w ∧ w ≠ [] := by
  rw [Language.mem_mul]
  constructor
  · rintro ⟨u, hu, v, hv, rfl⟩
    refine ⟨mem_kstar_unit.mp (append_mem_kstar hu hv), ?_⟩
    rcases mem_unit.mp hu with ⟨c, -, rfl⟩ | ⟨c, -, rfl⟩ <;> simp
  · rintro ⟨hunits, hfilled⟩
    cases hunits with
    | done => exact absurd rfl hfilled
    | @plain c cs hquote hback later =>
        exact ⟨[c], mem_unit.mpr (.inl ⟨c, ⟨hquote, hback⟩, rfl⟩), cs, mem_kstar_unit.mpr later,
          rfl⟩
    | @escaped c cs hnewline later =>
        exact ⟨['\\', c], mem_unit.mpr (.inr ⟨c, hnewline, rfl⟩), cs, mem_kstar_unit.mpr later, rfl⟩

theorem mem_filledText {quote : Char} {w : List Char} :
    w ∈ filledText quote ↔
      ∃ units, (Units quote units ∧ units ≠ []) ∧ w = quote :: units ++ [quote] := by
  simp only [filledText, Language.mem_mul (l := {[quote]} * (unit quote * (unit quote)∗)),
    Language.mem_mul (l := {[quote]}), mem_text, mem_unit_mul_kstar]
  constructor
  · rintro ⟨_, ⟨_, rfl, units, hunits, rfl⟩, _, rfl, rfl⟩
    exact ⟨units, hunits, rfl⟩
  · rintro ⟨units, hunits, rfl⟩
    exact ⟨quote :: units, ⟨[quote], rfl, units, hunits, rfl⟩, [quote], rfl, rfl⟩

/-! ### Classes, by the tests of the scanner -/

theorem isGapChar_iff {c : Char} : isGapChar c = true ↔ IsBlank c := by
  simp [isGapChar, IsBlank, or_assoc]

theorem isDigit_iff {c : Char} : c.isDigit = true ↔ InRange '0' '9' c := by
  refine ⟨digit_code, fun h => ?_⟩
  show (decide (48 ≤ c.val) && decide (c.val ≤ 57)) = true
  simp only [Bool.and_eq_true, decide_eq_true_eq, UInt32.le_iff_toNat_le]
  exact h

theorem isWordStart_iff {c : Char} : isWordStart c = true ↔ StartsWord c := by
  constructor
  · intro h
    rcases wordStart_code h with h | h | h
    · exact .inl h
    · exact .inr (.inr (Char.toNat_inj.mp h))
    · exact .inr (.inl h)
  · intro h
    show ((decide (65 ≤ c.val ∧ c.val ≤ 90) || (decide (97 ≤ c.val) && decide (c.val ≤ 122)))
      || decide (c = '_')) = true
    simp only [Bool.or_eq_true, Bool.and_eq_true, decide_eq_true_eq, UInt32.le_iff_toNat_le]
    exact or_assoc.mpr h

theorem isWordPart_iff {c : Char} : isWordPart c = true ↔ GoesOnWord c := by
  rw [GoesOnWord, ← isWordStart_iff, ← isDigit_iff]
  show ((c.isAlpha || c.isDigit) || decide (c = '_')) = true ↔
    (c.isAlpha || decide (c = '_')) = true ∨ _
  simp only [Bool.or_eq_true]
  tauto

/-! ### Spelling and patterns

Both ways to say what a token looks like go through the same kinds.  They differ in the names: the
pattern of names takes in the keywords, and `Spelled` leaves them out.
-/

theorem markKind?_operator {c : Char} (h : c ∈ operatorMarks) :
    markKind? c = some .operator := by
  have hall : operatorMarks.all (fun c => decide (markKind? c = some .operator)) = true := by decide
  exact of_decide_eq_true (List.all_eq_true.mp hall c h)

/-- A mark matches the kind that it has. -/
theorem mem_pattern_mark {c : Char} {kind : Kind} (h : markKind? c = some kind) :
    [c] ∈ kind.pattern := by
  by_cases hoperator : c ∈ operatorMarks
  · rw [markKind?_operator hoperator] at h
    obtain rfl := Option.some.inj h
    exact ⟨c, hoperator, rfl⟩
  · have hmark :
        c ∈ ['(', ')', '\x7b', '\x7d', '[', ']', '.', ',', ':', '=', '@'] ++ operatorMarks :=
      mem_marks h
    have hother := (List.mem_append.mp hmark).resolve_right hoperator
    simp only [List.mem_cons, List.not_mem_nil, or_false] at hother
    rcases hother with rfl | rfl | rfl | rfl | rfl | rfl | rfl | rfl | rfl | rfl | rfl
    all_goals
      obtain rfl := Option.some.inj h
      rfl

/-- **The text of a token matches the pattern of its kind.** -/
theorem Spelled.mem_pattern {kind : Kind} {text : List Char} (h : Spelled kind text) :
    text ∈ kind.pattern := by
  cases h with
  | newline => rfl
  | keyword h => exact Keyword.ofWord?_eq_some_iff.mp h
  | @ident c cs hc hcs hfree =>
      exact mem_run.mpr
        ⟨c, cs, rfl, isWordStart_iff.mp hc, fun d hd => isWordPart_iff.mp (hcs d hd)⟩
  | @number c cs hc hcs =>
      exact mem_run.mpr ⟨c, cs, rfl, isDigit_iff.mp hc, fun d hd => isWordPart_iff.mp (hcs d hd)⟩
  | @quoted quote units hquote hunits =>
      rw [Kind.pattern, Language.mem_add]
      rcases hquote with hquote | hquote
      · obtain rfl : quote = singleQuote := Char.toNat_inj.mp hquote
        exact .inl (mem_quotedText.mpr ⟨units, hunits, rfl⟩)
      · obtain rfl : quote = doubleQuote := Char.toNat_inj.mp hquote
        exact .inr (mem_quotedText.mpr ⟨units, hunits, rfl⟩)
  | @rune quote units hquote hunits hfilled =>
      obtain rfl : quote = backQuote := Char.toNat_inj.mp hquote
      exact mem_filledText.mpr ⟨units, ⟨hunits, hfilled⟩, rfl⟩
  | mark h => exact mem_pattern_mark h

/-- **A text that matches the pattern of a kind is the text of a token.**  It is one of that kind,
unless a keyword was matched as a name. -/
theorem spelled_of_mem_pattern {kind : Kind} {text : List Char} (h : text ∈ kind.pattern) :
    Spelled kind text ∨ kind = .ident ∧ ∃ keyword, Spelled (.keyword keyword) text := by
  cases kind with
  | newline => obtain rfl : text = ['\n'] := h; exact .inl .newline
  | keyword word => exact .inl (.keyword (Keyword.ofWord?_eq_some_iff.mpr h))
  | ident =>
      obtain ⟨c, cs, rfl, hc, hcs⟩ := mem_run.mp h
      cases hword : Keyword.ofWord? (c :: cs) with
      | some keyword => exact .inr ⟨rfl, keyword, .keyword hword⟩
      | none =>
          exact .inl
            (.ident (isWordStart_iff.mpr hc) (fun d hd => isWordPart_iff.mpr (hcs d hd)) hword)
  | number =>
      obtain ⟨c, cs, rfl, hc, hcs⟩ := mem_run.mp h
      exact .inl (.number (isDigit_iff.mpr hc) fun d hd => isWordPart_iff.mpr (hcs d hd))
  | quoted =>
      rcases (Language.mem_add _ _ _).mp h with h | h
      · obtain ⟨units, hunits, rfl⟩ := mem_quotedText.mp h
        exact .inl (.quoted (.inl rfl) hunits)
      · obtain ⟨units, hunits, rfl⟩ := mem_quotedText.mp h
        exact .inl (.quoted (.inr rfl) hunits)
  | rune =>
      obtain ⟨units, ⟨hunits, hfilled⟩, rfl⟩ := mem_filledText.mp h
      exact .inl (.rune rfl hunits hfilled)
  | opener bracket => cases bracket <;> exact .inl (h ▸ .mark (by decide))
  | closer bracket => cases bracket <;> exact .inl (h ▸ .mark (by decide))
  | dot => exact .inl (h ▸ .mark (by decide))
  | comma => exact .inl (h ▸ .mark (by decide))
  | colon => exact .inl (h ▸ .mark (by decide))
  | equals => exact .inl (h ▸ .mark (by decide))
  | atSign => exact .inl (h ▸ .mark (by decide))
  | operator =>
      obtain ⟨c, hc, rfl⟩ := h
      exact .inl (.mark (markKind?_operator hc))

end Token

end VServer
