/-
The types of fields, as they are written.

`TypeExpr` is the grammar of types and `text` writes them, with one blank where the grammar has one.
A type is read up to the end of its line, with one exception: a square bracket behind a blank
starts an attribute.  So the arrays that channels carry and functions return are lost, and `shown`
is what is left of a type.

The grammar has a type for each form that is written, with the words and blanks between them.  Two
descriptions of the end of a type are compared: `shown` follows the grammar and stops at an array
behind a blank, and the reader follows the tokens.  A type ends with another type in most forms, so
the induction is on that last type (`last_induction`), with everything in front of it taken as one
part that is read as a whole.
-/
import VServer.Proofs.Outline.Paired
import VServer.Proofs.Outline.Printed
import VServer.Proofs.Outline.StructLine
import VServer.Proofs.SourceFile.Order
import VServer.Proofs.Token.Longest

namespace VServer

open Token (Word Gap Laid Spelled place print goesOn isWordPart)
open Text (Span byteSize)

@[simp] theorem Token.Gap.chars_none : Gap.none.chars = [] := rfl

@[simp] theorem Token.Gap.chars_space : Gap.space.chars = [' '] := rfl

namespace Grammar

/-- A word that is no keyword. -/
structure Ident where
  chars : List Char
  spelled : Spelled .ident chars

/-- The word of an identifier. -/
def Ident.word (n : Ident) (gap : Gap) : Word :=
  ⟨gap, .ident, n.chars, n.spelled⟩

/-- The size of an array: a number, or the name of one. -/
structure Size where
  kind : Kind
  chars : List Char
  spelled : Spelled kind chars
  isWord : kind = .number ∨ kind = .ident

/-- The word of a size. -/
def Size.word (n : Size) : Word :=
  ⟨.none, n.kind, n.chars, n.spelled⟩

theorem Size.isBracket (n : Size) : n.kind.isBracket = false := by
  rcases n.isWord with h | h <;> rw [h] <;> rfl

inductive TypeExpr where
  | name (n : Ident)
  | member (m n : Ident)
  | ref (t : TypeExpr)
  | option (t : TypeExpr)
  | array (t : TypeExpr)
  | sized (n : Size) (t : TypeExpr)
  | map (key value : TypeExpr)
  | chan (t : TypeExpr)
  | fn (params : List TypeExpr)
  | fnTo (params : List TypeExpr) (result : TypeExpr)

namespace TypeExpr

open Outline

theorem spelled_map : Spelled .ident ['m', 'a', 'p'] :=
  .ident rfl (List.all_eq_true.mp rfl) rfl

theorem spelled_chan : Spelled .ident ['c', 'h', 'a', 'n'] :=
  .ident rfl (List.all_eq_true.mp rfl) rfl

/-- The word that starts the type of a map. -/
def mapWord (gap : Gap) : Word :=
  ⟨gap, .ident, ['m', 'a', 'p'], spelled_map⟩

/-- The word that starts the type of a channel. -/
def chanWord (gap : Gap) : Word :=
  ⟨gap, .ident, ['c', 'h', 'a', 'n'], spelled_chan⟩

/-- A comma. -/
def comma : Word :=
  ⟨.none, .comma, [','], .mark rfl⟩

mutual

/-- The type as it is written. -/
def text : TypeExpr → List Char
  | name n => n.chars
  | member m n => m.chars ++ '.' :: n.chars
  | ref t => '&' :: t.text
  | option t => '?' :: t.text
  | array t => '[' :: ']' :: t.text
  | sized n t => '[' :: (n.chars ++ ']' :: t.text)
  | map key value => 'm' :: 'a' :: 'p' :: '[' :: (key.text ++ ']' :: value.text)
  | chan t => 'c' :: 'h' :: 'a' :: 'n' :: ' ' :: t.text
  | fn params => 'f' :: 'n' :: ' ' :: '(' :: (paramsText true params ++ [')'])
  | fnTo params result =>
    'f' :: 'n' :: ' ' :: '(' :: (paramsText true params ++ ')' :: ' ' :: result.text)

/-- Types with a comma and a blank in front of each but the first one. -/
def paramsText : Bool → List TypeExpr → List Char
  | _, [] => []
  | true, t :: ts => t.text ++ paramsText false ts
  | false, t :: ts => ',' :: ' ' :: (t.text ++ paramsText false ts)

end

/-- Whether the type starts with a square bracket. -/
def isArray : TypeExpr → Bool
  | array _ => true
  | sized _ _ => true
  | _ => false

/-- The type up to the first array behind a blank that stands outside brackets. -/
def shown : TypeExpr → List Char
  | ref t => '&' :: t.shown
  | option t => '?' :: t.shown
  | array t => '[' :: ']' :: t.shown
  | sized n t => '[' :: (n.chars ++ ']' :: t.shown)
  | map key value => 'm' :: 'a' :: 'p' :: '[' :: (key.text ++ ']' :: value.shown)
  | chan t =>
    if t.isArray then ['c', 'h', 'a', 'n'] else 'c' :: 'h' :: 'a' :: 'n' :: ' ' :: t.shown
  | fnTo params result =>
    if result.isArray then (fn params).text
    else 'f' :: 'n' :: ' ' :: '(' :: (paramsText true params ++ ')' :: ' ' :: result.shown)
  | t => t.text

/-- Whether there is such an array. -/
def isCut : TypeExpr → Bool
  | ref t => t.isCut
  | option t => t.isCut
  | array t => t.isCut
  | sized _ t => t.isCut
  | map _ value => value.isCut
  | chan t => t.isArray || t.isCut
  | fnTo _ result => result.isArray || result.isCut
  | _ => false

/-! ### The words of a type

To be read back, the words of a type must not run into each other.  Where two names meet there is a
blank, and everywhere else a mark stands between them or in front.
-/

mutual

/-- The words of a type, with the blanks in front of the first one. -/
def words : TypeExpr → Gap → List Word
  | name n, gap => [n.word gap]
  | member m n, gap => [m.word gap, .dot .none, n.word .none]
  | ref t, gap => ⟨gap, .operator, ['&'], .mark rfl⟩ :: t.words .none
  | option t, gap => ⟨gap, .operator, ['?'], .mark rfl⟩ :: t.words .none
  | array t, gap => .opener gap .square :: .closer .none .square :: t.words .none
  | sized n t, gap => .opener gap .square :: n.word :: .closer .none .square :: t.words .none
  | map key value, gap =>
    mapWord gap :: .opener .none .square ::
      (key.words .none ++ .closer .none .square :: value.words .none)
  | chan t, gap => chanWord gap :: t.words .space
  | fn params, gap =>
    .keyword gap .fnKw :: .opener .space .paren ::
      (paramsWords true params ++ [.closer .none .paren])
  | fnTo params result, gap =>
    .keyword gap .fnKw :: .opener .space .paren ::
      (paramsWords true params ++ .closer .none .paren :: result.words .space)

/-- The words of types with commas between them. -/
def paramsWords : Bool → List TypeExpr → List Word
  | _, [] => []
  | true, t :: ts => t.words .none ++ paramsWords false ts
  | false, t :: ts => comma :: (t.words .space ++ paramsWords false ts)

end

mutual

theorem print_words (t : TypeExpr) (gap : Gap) : print (t.words gap) = gap.chars ++ t.text := by
  cases t with
  | name n => simp [words, text, Ident.word, Word.print]
  | member m n => simp [words, text, Ident.word, Word.dot, Word.print]
  | ref t => simp [words, text, Word.print, print_words t]
  | option t => simp [words, text, Word.print, print_words t]
  | array t => simp [words, text, Word.opener, Word.closer, Word.print, print_words t]
  | sized n t =>
      simp [words, text, Word.opener, Word.closer, Size.word, Word.print, print_words t]
  | map key value =>
      simp [words, text, mapWord, Word.opener, Word.closer, Word.print, print_words key,
        print_words value]
  | chan t => simp [words, text, chanWord, Word.print, print_words t]
  | fn params =>
      simp [words, text, Word.keyword, Word.opener, Word.closer, Word.print,
        print_paramsWords true params]
  | fnTo params result =>
      simp [words, text, Word.keyword, Word.opener, Word.closer, Word.print,
        print_paramsWords true params, print_words result]

theorem print_paramsWords (first : Bool) (ts : List TypeExpr) :
    print (paramsWords first ts) = paramsText first ts := by
  cases ts with
  | nil => cases first <;> rfl
  | cons t ts =>
      cases first with
      | true =>
          simp [paramsWords, paramsText, print_words t, print_paramsWords false ts]
      | false =>
          simp [paramsWords, paramsText, comma, Word.print, print_words t,
            print_paramsWords false ts]

end

/-- Words that can stand behind any word. -/
structure Apart (ws : List Word) : Prop where
  laid : Laid ws
  head : ∀ c ∈ (print ws).head?, isWordPart c = false

/-- A mark, or a word with a blank in front of it, can stand behind any word. -/
theorem Apart.of_head {w : Word} {ws : List Word} (h : Laid (w :: ws))
    (hhead : w.print.head?.any isWordPart = false) : Apart (w :: ws) := by
  refine ⟨h, fun c hc => ?_⟩
  have hne : w.print ≠ [] := by simp [Word.print, Token.text_ne_nil w.spelled]
  rw [Token.print_cons, List.head?_append_of_ne_nil _ hne] at hc
  rw [hc] at hhead
  exact hhead

/-- A word that only letters and digits go on. -/
theorem Apart.word {ws : List Word} (h : Apart ws) {w : Word}
    (hw : ∀ c, isWordPart c = false → goesOn w.kind w.text c = false) : Laid (w :: ws) :=
  ⟨fun c hc => hw c (h.head c hc), h.laid⟩

theorem Apart.closer {ws : List Word} (h : Laid ws) (b : Bracket) :
    Apart (.closer .none b :: ws) := by
  cases b <;> exact .of_head ⟨fun _ _ => rfl, h⟩ rfl

theorem apart_space (t : TypeExpr) {rest : List Word} (h : Laid (t.words .space ++ rest)) :
    Apart (t.words .space ++ rest) := by
  refine ⟨h, ?_⟩
  rw [Token.print_append, print_words]
  intro c hc
  obtain rfl : ' ' = c := Option.some.inj hc
  rfl

mutual

/-- The words of a type can be written one behind the other. -/
theorem laid_words (t : TypeExpr) (gap : Gap) {rest : List Word} (h : Apart rest) :
    Laid (t.words gap ++ rest) := by
  cases t with
  | name n => exact h.word fun _ hc => hc
  | member m n =>
      have hname : Laid (n.word .none :: rest) := h.word fun _ hc => hc
      have hdot : Apart (.dot .none :: n.word .none :: rest) :=
        .of_head ⟨fun _ _ => rfl, hname⟩ rfl
      exact hdot.word fun _ hc => hc
  | ref t => exact ⟨fun _ _ => rfl, laid_words t .none h⟩
  | option t => exact ⟨fun _ _ => rfl, laid_words t .none h⟩
  | array t => exact ⟨fun _ _ => rfl, fun _ _ => rfl, laid_words t .none h⟩
  | sized n t =>
      have hclose := Apart.closer (laid_words t .none h) .square
      refine ⟨fun _ _ => rfl, hclose.word fun c hc => ?_⟩
      rcases n.isWord with hkind | hkind <;> simpa [Size.word, hkind, goesOn] using hc
  | map key value =>
      have hclose := Apart.closer (laid_words value .none h) .square
      have hopen : Apart (.opener .none .square ::
          (key.words .none ++ .closer .none .square :: (value.words .none ++ rest))) :=
        .of_head ⟨fun _ _ => rfl, laid_words key .none hclose⟩ rfl
      simp only [words, List.cons_append, List.append_assoc]
      exact hopen.word fun _ hc => hc
  | chan t => exact (apart_space t (laid_words t .space h)).word fun _ hc => hc
  | fn params =>
      have hopen : Apart (.opener .space .paren ::
          (paramsWords true params ++ .closer .none .paren :: rest)) :=
        .of_head ⟨fun _ _ => rfl, (laid_paramsWords true params (.closer h.laid .paren)).1⟩ rfl
      simp only [words, List.cons_append, List.append_assoc, List.nil_append]
      exact hopen.word fun _ hc => hc
  | fnTo params result =>
      have hclose := Apart.closer (laid_words result .space h) .paren
      have hopen : Apart (.opener .space .paren ::
          (paramsWords true params ++ .closer .none .paren :: (result.words .space ++ rest))) :=
        .of_head ⟨fun _ _ => rfl, (laid_paramsWords true params hclose).1⟩ rfl
      simp only [words, List.cons_append, List.append_assoc]
      exact hopen.word fun _ hc => hc

theorem laid_paramsWords (first : Bool) (ts : List TypeExpr) {rest : List Word} (h : Apart rest) :
    Laid (paramsWords first ts ++ rest) ∧
      (first = false → Apart (paramsWords first ts ++ rest)) := by
  cases ts with
  | nil => cases first <;> exact ⟨h.laid, fun _ => h⟩
  | cons t ts =>
      have hlater := (laid_paramsWords false ts h).2 rfl
      cases first with
      | true =>
          simp only [paramsWords, List.append_assoc]
          exact ⟨laid_words t .none hlater, fun h => absurd h (by decide)⟩
      | false =>
          simp only [paramsWords, List.cons_append, List.append_assoc]
          have hcomma : Laid (comma :: (t.words .space ++ (paramsWords false ts ++ rest))) :=
            ⟨fun _ _ => rfl, laid_words t .space hlater⟩
          exact ⟨hcomma, fun _ => .of_head hcomma rfl⟩

end

/-! ### The last type of a type

A type ends with another one, unless it is a name or a function without a result.  What stands in
front of that one decides nothing, so what is left of a type can be followed from type to type. -/

/-- The type that a type ends with, and the blank in front of it. -/
def last? : TypeExpr → Option (Gap × TypeExpr)
  | ref t => some (.none, t)
  | option t => some (.none, t)
  | array t => some (.none, t)
  | sized _ t => some (.none, t)
  | map _ value => some (.none, value)
  | chan t => some (.space, t)
  | fnTo _ result => some (.space, result)
  | _ => none

/-- The words in front of the last type, or all words if there is none. -/
def front : TypeExpr → Gap → List Word
  | name n, gap => [n.word gap]
  | member m n, gap => [m.word gap, .dot .none, n.word .none]
  | ref _, gap => [⟨gap, .operator, ['&'], .mark rfl⟩]
  | option _, gap => [⟨gap, .operator, ['?'], .mark rfl⟩]
  | array _, gap => [.opener gap .square, .closer .none .square]
  | sized n _, gap => [.opener gap .square, n.word, .closer .none .square]
  | map key _, gap =>
    mapWord gap :: .opener .none .square :: (key.words .none ++ [.closer .none .square])
  | chan _, gap => [chanWord gap]
  | fn params, gap =>
    .keyword gap .fnKw :: .opener .space .paren ::
      (paramsWords true params ++ [.closer .none .paren])
  | fnTo params _, gap =>
    .keyword gap .fnKw :: .opener .space .paren ::
      (paramsWords true params ++ [.closer .none .paren])

theorem last_induction {motive : TypeExpr → Prop} (alone : ∀ t, t.last? = none → motive t)
    (ends : ∀ t gap u, t.last? = some (gap, u) → motive u → motive t) : (t : TypeExpr) → motive t
  | name _ => alone _ rfl
  | member _ _ => alone _ rfl
  | ref t => ends _ _ t rfl (last_induction alone ends t)
  | option t => ends _ _ t rfl (last_induction alone ends t)
  | array t => ends _ _ t rfl (last_induction alone ends t)
  | sized _ t => ends _ _ t rfl (last_induction alone ends t)
  | map _ value => ends _ _ value rfl (last_induction alone ends value)
  | chan t => ends _ _ t rfl (last_induction alone ends t)
  | fn _ => alone _ rfl
  | fnTo _ result => ends _ _ result rfl (last_induction alone ends result)

section Last

variable {t u : TypeExpr} {gap : Gap}

theorem words_of_alone (h : t.last? = none) (before : Gap) : t.words before = t.front before := by
  cases t <;> cases h <;> rfl

theorem words_of_last (h : t.last? = some (gap, u)) (before : Gap) :
    t.words before = t.front before ++ u.words gap := by
  cases t <;> cases h <;> simp [words, front]

theorem text_of_last (h : t.last? = some (gap, u)) :
    t.text = print (t.front .none) ++ (gap.chars ++ u.text) := by
  have hprint := congrArg print (words_of_last h .none)
  rw [Token.print_append, print_words, print_words] at hprint
  exact hprint

theorem shown_of_alone (h : t.last? = none) : t.shown = t.text := by
  cases t <;> cases h <;> rfl

/-- The last type is hidden if it is an array behind a blank. -/
theorem shown_of_last (h : t.last? = some (gap, u)) :
    t.shown = print (t.front .none)
      ++ if u.isArray = true ∧ gap.chars ≠ [] then [] else gap.chars ++ u.shown := by
  cases t <;> cases h
  all_goals
    simp [shown, front, text, print_words, print_paramsWords, Word.print, Word.opener,
      Word.closer, Word.keyword, Size.word, mapWord, chanWord]
  all_goals split <;> rfl

theorem isCut_of_alone (h : t.last? = none) : t.isCut = false := by
  cases t <;> cases h <;> rfl

theorem isCut_of_last (h : t.last? = some (gap, u)) :
    t.isCut = (decide (u.isArray = true ∧ gap.chars ≠ []) || u.isCut) := by
  cases t <;> cases h <;> simp [isCut]

end Last

/-- What is shown of a type is its front. -/
theorem shown_prefix (t : TypeExpr) : t.shown <+: t.text := by
  induction t using last_induction with
  | alone t h =>
      rw [shown_of_alone h]
  | ends t gap u h ih =>
      rw [shown_of_last h, text_of_last h, List.prefix_append_right_inj]
      split
      · exact List.nil_prefix
      · exact (List.prefix_append_right_inj gap.chars).mpr ih

/-- All of a type is shown, unless an array in it is hidden. -/
theorem shown_eq_text_iff (t : TypeExpr) : t.shown = t.text ↔ t.isCut = false := by
  induction t using last_induction with
  | alone t h => simp [shown_of_alone h, isCut_of_alone h]
  | ends t gap u h ih =>
      rw [shown_of_last h, text_of_last h, isCut_of_last h, List.append_cancel_left_eq,
        Bool.or_eq_false_iff, decide_eq_false_iff_not]
      split
      · rename_i hhidden
        refine iff_of_false (fun hnil => ?_) fun hnot => hnot.1 hhidden
        exact hhidden.2 (List.append_eq_nil_iff.mp hnil.symm).1
      · rename_i hseen
        rw [List.append_cancel_left_eq, ih]
        exact (and_iff_right hseen).symm

theorem front_trimmed (t : TypeExpr) : Text.Trimmed (print (t.front .none)) := by
  cases t with
  | name n => simpa [front, Ident.word, Word.print] using n.spelled.trimmed (by decide)
  | member m n =>
      simpa [front, Ident.word, Word.dot, Word.print] using
        (m.spelled.trimmed (by decide)).append ['.'] (n.spelled.trimmed (by decide))
  | ref t => exact ⟨⟨_, _, rfl, rfl⟩, [], _, rfl, rfl⟩
  | option t => exact ⟨⟨_, _, rfl, rfl⟩, [], _, rfl, rfl⟩
  | array t => exact ⟨⟨_, _, rfl, rfl⟩, ['['], _, rfl, rfl⟩
  | sized n t =>
      exact ⟨⟨_, _, rfl, rfl⟩, '[' :: n.chars, ']', by simp [front, Size.word, Word.print,
        Word.opener, Word.closer], rfl⟩
  | map key value =>
      exact ⟨⟨_, _, rfl, rfl⟩, 'm' :: 'a' :: 'p' :: '[' :: key.text, ']', by
        simp [front, mapWord, Word.print, Word.opener, Word.closer, print_words], rfl⟩
  | chan t => exact ⟨⟨_, _, rfl, rfl⟩, ['c', 'h', 'a'], _, rfl, rfl⟩
  | fn params =>
      exact ⟨⟨_, _, rfl, rfl⟩, 'f' :: 'n' :: ' ' :: '(' :: paramsText true params, ')', by
        simp [front, Word.keyword, Word.print, Word.opener, Word.closer, print_paramsWords], rfl⟩
  | fnTo params result =>
      exact ⟨⟨_, _, rfl, rfl⟩, 'f' :: 'n' :: ' ' :: '(' :: paramsText true params, ')', by
        simp [front, Word.keyword, Word.print, Word.opener, Word.closer, print_paramsWords], rfl⟩

theorem shown_trimmed (t : TypeExpr) : Text.Trimmed t.shown := by
  induction t using last_induction with
  | alone t h =>
      have hprint := congrArg print (words_of_alone h .none)
      rw [print_words, Gap.chars_none, List.nil_append] at hprint
      rw [shown_of_alone h, hprint]
      exact t.front_trimmed
  | ends t gap u h ih =>
      rw [shown_of_last h]
      split
      · rw [List.append_nil]
        exact t.front_trimmed
      · exact t.front_trimmed.append gap.chars ih

mutual

theorem paired_words (t : TypeExpr) (gap : Gap) (offset : Nat) :
    Paired (place offset (t.words gap)) := by
  cases t with
  | name n => exact .plain rfl .done
  | member m n => exact .plain rfl (.plain rfl (.plain rfl .done))
  | ref t => exact .plain rfl (paired_words t .none _)
  | option t => exact .plain rfl (paired_words t .none _)
  | array t => exact .group rfl .done rfl (paired_words t .none _)
  | sized n t => exact .group rfl (.plain n.isBracket .done) rfl (paired_words t .none _)
  | map key value =>
      simp only [words, Token.place_cons, Token.place_append]
      exact .plain rfl (.group rfl (paired_words key .none _) rfl (paired_words value .none _))
  | chan t => exact .plain rfl (paired_words t .space _)
  | fn params =>
      simp only [words, Token.place_cons, Token.place_append, Token.place_nil]
      exact .plain rfl (.group rfl (paired_paramsWords true params _) rfl .done)
  | fnTo params result =>
      simp only [words, Token.place_cons, Token.place_append]
      exact .plain rfl (.group rfl (paired_paramsWords true params _) rfl
        (paired_words result .space _))

theorem paired_paramsWords (first : Bool) (ts : List TypeExpr) (offset : Nat) :
    Paired (place offset (paramsWords first ts)) := by
  cases ts with
  | nil => cases first <;> exact .done
  | cons t ts =>
      cases first with
      | true =>
          rw [paramsWords, Token.place_append]
          exact (paired_words t .none _).append (paired_paramsWords false ts _)
      | false =>
          rw [paramsWords, Token.place_cons, Token.place_append]
          exact .plain rfl ((paired_words t .space _).append (paired_paramsWords false ts _))

end

/-! ### Where a type ends

The front of a type is passed over token by token and group by group.  Whether the last type
belongs to it is a matter of its first token alone: a square bracket behind a blank ends the type,
and any other token goes on with it.
-/

/-- A word that is part of a type wherever it stands. -/
def isTypeWord : Kind → Bool
  | .ident => true
  | .operator => true
  | .dot => true
  | .keyword _ => true
  | _ => false

theorem typeEnd_word (w : Word) (h : isTypeWord w.kind = true) (begun : Bool) (stop offset : Nat)
    (ws : List Word) (rest : List Token) :
    typeEnd begun stop (place offset (w :: ws) ++ rest)
      = typeEnd true (offset + byteSize w.print)
          (place (offset + byteSize w.print) ws ++ rest) := by
  have hkind : w.kind ≠ .newline ∧ w.kind ≠ .equals ∧ w.kind.isBracket = false := by
    cases hw : w.kind <;> simp_all [isTypeWord, Kind.isBracket]
  exact typeEnd_plain (t := ⟨w.kind, w.span offset⟩) _ hkind.1 hkind.2.1 hkind.2.2

/-- What stands between brackets belongs to the type, unless it stands behind a blank in square
brackets. -/
theorem typeEnd_enclosed (gap : Gap) (b : Bracket) (inner : List Word)
    (hinner : ∀ offset, Paired (place offset inner)) {begun : Bool} {stop offset : Nat}
    (hgap : b = .square → begun = true → offset + byteSize gap.chars ≤ stop)
    (rest : List Token) :
    typeEnd begun stop (place offset (.opener gap b :: (inner ++ [.closer .none b])) ++ rest)
      = typeEnd true (offset + byteSize (print (.opener gap b :: (inner ++ [.closer .none b]))))
          rest := by
  have hnot : ¬ (b = .square ∧ begun = true ∧ stop < ((Word.opener gap b).span offset).start) := by
    rintro ⟨hsquare, hbegun, hlt⟩
    have hle := hgap hsquare hbegun
    simp only [Word.span, Word.gap_opener] at hlt
    omega
  simp only [Token.place_cons, Token.place_append, Token.place_nil, List.cons_append,
    List.append_assoc, List.nil_append]
  rw [typeEnd_opener _ (Word.kind_opener gap b) hnot,
    skipGroup_paired (hinner _) (Word.kind_closer .none b)]
  simp [Word.span, Text.byteSize_append, Nat.add_assoc]

theorem print_front (t : TypeExpr) (gap : Gap) :
    print (t.front gap) = gap.chars ++ print (t.front .none) := by
  cases t <;> simp [front, Ident.word, mapWord, chanWord, Word.keyword, Word.opener, Word.print]

/-- The words in front of the last type belong to the type. -/
theorem typeEnd_front (t : TypeExpr) (gap : Gap) {begun : Bool} {stop offset : Nat}
    (hjoined : t.isArray = true → begun = true → offset + byteSize gap.chars ≤ stop)
    (rest : List Token) :
    typeEnd begun stop (place offset (t.front gap) ++ rest)
      = typeEnd true (offset + byteSize (print (t.front gap))) rest := by
  have hone : ∀ w : Word, isTypeWord w.kind = true →
      typeEnd begun stop (place offset [w] ++ rest)
        = typeEnd true (offset + byteSize (print [w])) rest := by
    intro w hw
    rw [typeEnd_word w hw, Token.print_cons, Token.print_nil, List.append_nil]
    rfl
  -- A word and brackets right behind it, or behind a blank if they are not square.
  have htwo : ∀ (w : Word) (before : Gap) (b : Bracket) (inner : List Word),
      isTypeWord w.kind = true → (∀ offset, Paired (place offset inner)) →
      (b = .square → before.chars = []) →
      typeEnd begun stop
          (place offset (w :: .opener before b :: (inner ++ [.closer .none b])) ++ rest)
        = typeEnd true (offset
            + byteSize (print (w :: .opener before b :: (inner ++ [.closer .none b])))) rest := by
    intro w before b inner hw hinner hbefore
    rw [typeEnd_word w hw, typeEnd_enclosed before b inner hinner, Token.print_cons w,
      Text.byteSize_append, Nat.add_assoc]
    intro hsquare _
    rw [hbefore hsquare, Text.byteSize_nil, Nat.add_zero]
  cases t with
  | name n => exact hone _ rfl
  | member m n =>
      show typeEnd _ _ (place offset [m.word gap, .dot .none, n.word .none] ++ rest) = _
      rw [typeEnd_word _ rfl, typeEnd_word _ rfl, typeEnd_word _ rfl]
      simp [front, Text.byteSize_append, Nat.add_assoc]
  | ref t => exact hone _ rfl
  | option t => exact hone _ rfl
  | array t => exact typeEnd_enclosed gap .square [] (fun _ => .done) (fun _ => hjoined rfl) rest
  | sized n t =>
      exact typeEnd_enclosed gap .square [n.word] (fun _ => .plain n.isBracket .done)
        (fun _ => hjoined rfl) rest
  | map key value => exact htwo _ .none .square _ rfl (paired_words key .none) fun _ => rfl
  | chan t => exact hone _ rfl
  | fn params =>
      exact htwo _ .space .paren _ rfl (paired_paramsWords true params)
        fun h => absurd h (by decide)
  | fnTo params result =>
      exact htwo _ .space .paren _ rfl (paired_paramsWords true params)
        fun h => absurd h (by decide)

/-- A word that a type starts with. -/
def startsType : Kind → Bool
  | .ident => true
  | .operator => true
  | .opener .square => true
  | .keyword _ => true
  | _ => false

theorem startsType_ne {kind : Kind} (h : startsType kind = true) :
    kind ≠ .newline ∧ kind ≠ .closer .brace ∧ kind ≠ .dot := by
  refine ⟨?_, ?_, ?_⟩ <;> rintro rfl <;> cases h

theorem words_eq_cons (t : TypeExpr) (gap : Gap) :
    ∃ w more, t.words gap = w :: more ∧ w.gap = gap ∧ startsType w.kind = true ∧
      (t.isArray = true → w.kind = .opener .square) := by
  cases t <;> refine ⟨_, _, rfl, rfl, rfl, ?_⟩ <;> intro h <;> first | rfl | cases h

/-- **A type is read as far as it is shown.** -/
theorem typeEnd_words {ending : Token} (hending : ending.kind = .newline) (rest : List Token)
    (t : TypeExpr) : ∀ (gap : Gap) (begun : Bool) (stop offset : Nat),
      (t.isArray = true → begun = true → offset + byteSize gap.chars ≤ stop) →
      (typeEnd begun stop (place offset (t.words gap) ++ ending :: rest)).stop
        = offset + byteSize (gap.chars ++ t.shown) := by
  induction t using last_induction with
  | alone t h =>
      intro gap begun stop offset hjoined
      have hprint := print_words t gap
      rw [words_of_alone h] at hprint ⊢
      rw [typeEnd_front t gap hjoined, typeEnd_stops rest (.inl hending), hprint,
        shown_of_alone h]
  | ends t last u h ih =>
      intro gap begun stop offset hjoined
      rw [words_of_last h, Token.place_append, List.append_assoc, typeEnd_front t gap hjoined,
        shown_of_last h, ← List.append_assoc, ← print_front]
      split
      · -- The square bracket behind the blank is taken for an attribute.
        rename_i hhidden
        obtain ⟨w, more, hwords, hgap, -, hkind⟩ := u.words_eq_cons last
        have hpos := Text.byteSize_pos hhidden.2
        rw [hwords, Token.place_cons, List.cons_append, typeEnd_stops, List.append_nil]
        refine .inr (.inr (.inr ⟨hkind hhidden.1, rfl, ?_⟩))
        simp only [Word.span, hgap]
        omega
      · rename_i hseen
        rw [ih, Text.byteSize_append (print _), Nat.add_assoc]
        intro harray _
        have hnone : last.chars = [] := by
          by_contra hne
          exact hseen ⟨harray, hne⟩
        rw [hnone, Text.byteSize_nil, Nat.add_zero]

/-- The words of a type at the end of a line. -/
theorem laid_line (t : TypeExpr) (gap : Gap) : Laid (t.words gap ++ [Word.newline .none]) :=
  laid_words t gap (.of_head ⟨fun _ _ => rfl, trivial⟩ rfl)

/-- The tokens of a type that stands behind a token, up to the end of the line. -/
theorem tokens_of_text {text before behind : List Char} {name : Token} {ts : List Token}
    (hsuffix : name :: ts <:+ Token.ofText text) (t : TypeExpr)
    (htext : text = before ++ ' ' :: (t.text ++ '\n' :: behind))
    (hstop : name.span.stop = byteSize before) :
    ∃ ending later, ts = place (byteSize before) (t.words .space) ++ ending :: later ∧
      ending.kind = .newline := by
  have hprint : ' ' :: (t.text ++ '\n' :: behind)
      = print (t.words .space ++ [Word.newline .none]) ++ behind := by
    simp [print_words, Word.newline, Word.print]
  have hlast : ∀ w ∈ (t.words .space ++ [Word.newline .none]).getLast?, ∀ c ∈ behind.head?,
      goesOn w.kind w.text c = false := by
    intro w hw c _
    rw [List.getLast?_concat] at hw
    obtain rfl := Option.some.inj hw
    rfl
  have hts := Token.behind_eq hsuffix htext hstop
  rw [hprint, Token.scanAt_words behind _ _ (t.laid_line .space) hlast, List.filterMap_append,
    Token.filterMap_token?, Token.place_append, List.append_assoc] at hts
  exact ⟨_, _, hts, rfl⟩

/-- **A field is read with the part of its type that is shown.** -/
theorem readLine_type (ctx : Context) {before behind : List Char} {name : Token}
    {ts : List Token} (hsuffix : name :: ts <:+ Token.ofText ctx.text)
    (hname : name.kind.isName = true) (t : TypeExpr)
    (htext : ctx.text = before ++ ' ' :: (t.text ++ '\n' :: behind))
    (hstop : name.span.stop = byteSize before) :
    (readLine ctx name ts).field
      = some ⟨ctx.sliceString name.span, String.ofList t.shown, name.span⟩ := by
  obtain ⟨ending, later, rfl, hending⟩ := tokens_of_text hsuffix t htext hstop
  obtain ⟨w, more, hwords, hgap, hkind, -⟩ := t.words_eq_cons .space
  have hextent := typeEnd_words hending later t .space false (w.span (byteSize before)).start
    (byteSize before) fun _ hbegun => absurd hbegun (by decide)
  have hslice : ctx.slice ⟨(w.span (byteSize before)).start,
      byteSize before + byteSize (Gap.space.chars ++ t.shown)⟩ = t.shown := by
    obtain ⟨hidden, hhidden⟩ := t.shown_prefix
    refine Text.slice_of_standsAt ⟨before ++ [' '], hidden ++ '\n' :: behind, ?_, ?_, ?_⟩
    · rw [htext, ← hhidden]
      simp
    · show byteSize before + byteSize w.gap.chars = _
      rw [hgap, Text.byteSize_append]
      rfl
    · rw [Text.byteSize_append, Text.byteSize_append, Nat.add_assoc]
      rfl
  have hfield : readLine ctx name (place (byteSize before) (t.words .space) ++ ending :: later)
      = readTypedField ctx name.span (w.span (byteSize before)).start
          (place (byteSize before) (t.words .space) ++ ending :: later) := by
    rw [readLine_name _ hname, hwords]
    obtain ⟨hnewline, hclose, hdot⟩ := startsType_ne hkind
    exact readField_typed _ hnewline hclose hdot
  rw [hfield, readTypedField]
  show some (Field.mk _ (String.ofList (Text.trim (ctx.slice ⟨_, (typeEnd false _ _).stop⟩))) _) = _
  rw [hextent, hslice, t.shown_trimmed.trim]

end TypeExpr

end Grammar

namespace SourceFile

open Grammar (TypeExpr)
open Outline (StructLine)

/--
**A field has the type that is written behind its name.**

It is the whole type, unless an array stands in it behind a blank and outside brackets, as in
`chan []int`; then the type ends in front of that blank.
-/
theorem read_typeExpr (cwd path : String) (r : Reading) {text before behind : List Char}
    {moduleName : String} {line : Outline.LineVisit} (hline : StructLine text moduleName line)
    (hname : line.first.kind.isName = true) (t : TypeExpr)
    (htext : text = before ++ ' ' :: (t.text ++ '\n' :: behind))
    (hstop : line.first.span.stop = byteSize before) :
    (read cwd path text r).1.HasField ⟨Text.sliceString text line.first.span,
        String.ofList t.shown, (LineIndex.ofText text).range text line.first.span⟩ ∧
      (t.shown = t.text ↔ t.isCut = false) := by
  refine ⟨?_, t.shown_eq_text_iff⟩
  have hfield := TypeExpr.readLine_type ⟨text, moduleName⟩ hline.suffix hname t htext hstop
  exact hline.hasField hfield cwd path r

/-- The type `int`. -/
def intType : TypeExpr :=
  .name ⟨['i', 'n', 't'], .ident rfl (List.all_eq_true.mp rfl) rfl⟩

/-- The type `map[int]?&[3]chan fn (int, []os.File) int`. -/
def nestedType : TypeExpr :=
  .map intType (.option (.ref (.sized
    ⟨.number, ['3'], .number rfl (List.all_eq_true.mp rfl), .inl rfl⟩
    (.chan (.fnTo [intType, .array (.member
      ⟨['o', 's'], .ident rfl (List.all_eq_true.mp rfl) rfl⟩
      ⟨['F', 'i', 'l', 'e'], .ident rfl (List.all_eq_true.mp rfl) rfl⟩)] intType)))))

/-- A struct with a field of that type. -/
def nestedTypeText : List Char :=
  "struct S \x7b\n\tf map[int]?&[3]chan fn (int, []os.File) int\n\x7d\n".toList

theorem read_typeExpr_nestedType :
    nestedType.isCut = false ∧
      (read "/" "nested.v" nestedTypeText {}).1.HasField
        ⟨"f", "map[int]?&[3]chan fn (int, []os.File) int", ⟨⟨1, 1⟩, ⟨1, 2⟩⟩⟩ := by
  have hline : StructLine nestedTypeText ""
      ⟨⟨.ident, ⟨12, 13⟩⟩, (Token.ofText nestedTypeText).drop 5⟩ :=
    Outline.structLine_first (by decide +kernel) (by decide +kernel) (by decide) (by decide)
      (by decide +kernel)
  have htext : nestedTypeText
      = nestedTypeText.take 13 ++ ' ' :: (nestedType.text ++ '\n' :: nestedTypeText.drop 56) := by
    decide +kernel
  have hread := (read_typeExpr "/" "nested.v" {} hline rfl nestedType htext (by decide +kernel)).1
  have hfield : (⟨Text.sliceString nestedTypeText ⟨12, 13⟩, String.ofList nestedType.shown,
      (LineIndex.ofText nestedTypeText).range nestedTypeText ⟨12, 13⟩⟩ : Field Range)
        = ⟨"f", "map[int]?&[3]chan fn (int, []os.File) int", ⟨⟨1, 1⟩, ⟨1, 2⟩⟩⟩ := by
    decide +kernel
  rw [hfield] at hread
  exact ⟨rfl, hread⟩

/-- What a channel of arrays carries is lost. -/
theorem read_chanArray :
    (TypeExpr.chan (.array intType)).text = "chan []int".toList ∧
      (structsOf (read "/" "chan.v"
          "struct S \x7b\n\tf chan []int\n\x7d\n".toList {}).1.statements).map (·.fields)
        = [[⟨"f", "chan", ⟨⟨1, 1⟩, ⟨1, 2⟩⟩⟩]] := by
  decide +kernel

end SourceFile

end VServer
