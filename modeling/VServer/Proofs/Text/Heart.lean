/-
The name at the heart of a type.

It is looked for from behind, as the last run of characters that make up dotted names, and nothing
about the prefixes of a type is known there.  They need not be known: every prefix ends with a
character that is in no name, so whatever stands in front of the innermost name ends with such a
character as well (`EndsIn`).  What a map has for keys, and how long an array is, stands between
brackets and is never reached.

Only the type of a function could be taken for something else.  It starts with the word `fn`, with
which a type under prefixes starts only if that is its name.

So the statement has two halves.  One is about any text, and says what is found by where it stands.
The other is about types, built from names by prefixes, and says that what is found is the name.
-/
import VServer.Proofs.Text.Blank
import VServer.Proofs.Text.Cut
import Mathlib.Data.List.TakeWhile

namespace VServer.TypeText

open Text (Boundary Trimmed byteSize)

/-! ### The last name of a text

The last name may be empty, as it is behind a bracket, and whether it can be the name of a type is
asked later.  What decides where it starts is the character in front of it.
-/

/-- The text ends in `name`, and what stands in front of it does not go on a name. -/
def EndsIn (text name : List Char) : Prop :=
  ∃ front, text = front ++ name ∧ ∀ c ∈ front.getLast?, isDottedNamePart c = false

theorem endsIn_lastName (cs : List Char) : EndsIn cs (lastName cs) := by
  refine ⟨beforeName cs, (beforeName_append_lastName cs).symm, fun c hc => ?_⟩
  have hstop := List.head?_dropWhile_not isDottedNamePart cs.reverse
  rw [beforeName, List.getLast?_reverse] at hc
  rw [Option.mem_def.mp hc] at hstop
  simpa using hstop

theorem isDottedNamePart_of_mem_lastName {cs : List Char} {c : Char} (h : c ∈ lastName cs) :
    isDottedNamePart c = true :=
  List.mem_takeWhile_imp (List.mem_reverse.mp h)

/-- The last name is the one that a text ends in. -/
theorem EndsIn.lastName {text name : List Char} (h : EndsIn text name)
    (hname : ∀ c ∈ name, isDottedNamePart c = true) : lastName text = name := by
  obtain ⟨front, rfl, hfront⟩ := h
  have hstop : front.reverse.takeWhile isDottedNamePart = [] := by
    cases hrev : front.reverse with
    | nil => rfl
    | cons c cs =>
        have hc : isDottedNamePart c = false :=
          hfront c (by rw [← List.head?_reverse, hrev]; rfl)
        rw [List.takeWhile_cons, hc]
        rfl
  rw [TypeText.lastName, List.reverse_append,
    List.takeWhile_append_of_pos fun c hc => hname c (List.mem_reverse.mp hc), hstop,
    List.append_nil, List.reverse_reverse]

/-- Text in front that ends with a character in no name. -/
theorem EndsIn.prepend {text name : List Char} (h : EndsIn text name) (extra : List Char) {c : Char}
    (hc : isDottedNamePart c = false) : EndsIn (extra ++ c :: text) name := by
  obtain ⟨front, rfl, hfront⟩ := h
  refine ⟨extra ++ c :: front, by simp, fun d hd => ?_⟩
  rw [List.getLast?_append, List.getLast?_cons] at hd
  cases hlast : front.getLast? with
  | none =>
      rw [hlast] at hd
      obtain rfl : c = d := Option.some.inj hd
      exact hc
  | some e =>
      rw [hlast] at hd
      obtain rfl : e = d := Option.some.inj hd
      exact hfront e hlast

/-- **A heart is found exactly if the type is none of a function and its last name can be one.** -/
theorem base?_eq_some_iff {text base : List Char} :
    base? text = some base ↔ isFunctionType (Text.trim text) = false ∧
      lastName (Text.trim text) = base ∧ base ≠ [] ∧ ∀ c ∈ base.head?, c.isDigit = false := by
  unfold base?
  generalize Text.trim text = trimmed
  by_cases hfunction : isFunctionType trimmed = true
  · simp [hfunction]
  have hother : isFunctionType trimmed = false := Bool.eq_false_iff.mpr hfunction
  simp only [if_neg hfunction]
  cases hlast : lastName trimmed with
  | nil =>
      constructor
      · intro h
        cases h
      · rintro ⟨-, rfl, hfilled, -⟩
        exact absurd rfl hfilled
  | cons c cs =>
      by_cases hdigit : c.isDigit = true
      · simp only [if_pos hdigit]
        constructor
        · intro h
          cases h
        · rintro ⟨-, rfl, -, hfirst⟩
          exact absurd hdigit (Bool.eq_false_iff.mp (hfirst c rfl))
      · simp only [if_neg hdigit]
        constructor
        · intro h
          obtain rfl : c :: cs = base := Option.some.inj h
          refine ⟨hother, rfl, List.cons_ne_nil c cs, fun d hd => ?_⟩
          obtain rfl : c = d := Option.some.inj hd
          exact Bool.eq_false_iff.mpr hdigit
        · rintro ⟨-, rfl, -, -⟩
          rfl

/-! ### Names -/

/-- The codes of white space. -/
def blankCodes : List Nat :=
  [9, 10, 11, 12, 13, 32, 0x85, 0xa0, 0x1680, 0x2000, 0x2001, 0x2002, 0x2003, 0x2004, 0x2005,
    0x2006, 0x2007, 0x2008, 0x2009, 0x200a, 0x2028, 0x2029, 0x202f, 0x205f, 0x3000]

theorem mem_blankCodes {c : Char} (h : Text.isBlank c = true) : c.toNat ∈ blankCodes := by
  simp only [Text.isBlank, Bool.or_eq_true, Bool.and_eq_true, decide_eq_true_eq, beq_iff_eq] at h
  simp only [blankCodes, List.mem_cons, List.not_mem_nil, or_false]
  omega

/-- What makes up names is no white space, in any script. -/
theorem isBlank_of_isDottedNamePart {c : Char} (h : isDottedNamePart c = true) :
    Text.isBlank c = false := by
  by_contra hblank
  have hcode := mem_blankCodes (Bool.not_eq_false _ |>.mp hblank)
  -- The blanks are few enough to be looked up one by one; the characters of names are not.
  have hall : (blankCodes.all fun n => !isDottedNamePart (Char.ofNat n)) = true := by
    decide +kernel
  have hpart := List.all_eq_true.mp hall _ hcode
  rw [Char.ofNat_toNat, h] at hpart
  cases hpart

/-- A word of letters, digits and underscores of any script that starts with none of the ten digits
of ASCII. -/
structure Identifier where
  chars : List Char
  filled : chars ≠ []
  parts : ∀ c ∈ chars, isNamePart c = true
  first : ∀ c ∈ chars.head?, c.isDigit = false

/-- Whether a text is such a word. -/
def isIdentifier (chars : List Char) : Bool :=
  !chars.isEmpty && chars.all isNamePart && !chars.head?.any Char.isDigit

theorem isIdentifier_iff {chars : List Char} :
    isIdentifier chars = true ↔ chars ≠ [] ∧ (∀ c ∈ chars, isNamePart c = true) ∧
      ∀ c ∈ chars.head?, c.isDigit = false := by
  cases chars <;> simp [isIdentifier, and_assoc]

/-- A text that is such a word. -/
def Identifier.ofChars (chars : List Char) (h : isIdentifier chars = true) : Identifier :=
  have hword := isIdentifier_iff.mp h
  ⟨chars, hword.1, hword.2.1, hword.2.2⟩

/-- Identifiers with dots between them, one at least.  The first one is not the word `fn`. -/
structure DottedName where
  head : Identifier
  others : List Identifier
  notFn : (head.chars == ['f', 'n']) = false

namespace DottedName

variable (n : DottedName)

/-- What stands behind the first identifier. -/
def tail : List Char :=
  n.others.flatMap fun i => '.' :: i.chars

/-- The name as it is written. -/
def chars : List Char :=
  n.head.chars ++ n.tail

theorem chars_eq_cons : ∃ c cs, n.head.chars = c :: cs ∧ n.chars = c :: (cs ++ n.tail) := by
  cases hhead : n.head.chars with
  | nil => exact absurd hhead n.head.filled
  | cons c cs => exact ⟨c, cs, rfl, by rw [chars, hhead, List.cons_append]⟩

theorem head?_tail {c : Char} (h : c ∈ n.tail.head?) : c = '.' := by
  unfold tail at h
  cases hothers : n.others with
  | nil =>
      rw [hothers] at h
      cases h
  | cons i others =>
      rw [hothers] at h
      exact (Option.some.inj h).symm

theorem parts {c : Char} (h : c ∈ n.chars) : isDottedNamePart c = true := by
  have hpart : ∀ (i : Identifier), ∀ d ∈ i.chars, isDottedNamePart d = true := fun i d hd => by
    rw [isDottedNamePart, i.parts d hd, Bool.true_or]
  rcases List.mem_append.mp h with h | h
  · exact hpart n.head c h
  · obtain ⟨i, -, hc⟩ := List.mem_flatMap.mp h
    rcases List.mem_cons.mp hc with rfl | hc
    · rfl
    · exact hpart i c hc

/-- A name that starts with the letters of `fn` goes on with another one. -/
theorem isFunctionType_chars : isFunctionType n.chars = false := by
  obtain ⟨c, cs, hhead, hchars⟩ := n.chars_eq_cons
  unfold isFunctionType
  split
  · rename_i rest heq
    obtain ⟨rfl, hrest⟩ := List.cons.inj (hchars.symm.trans heq)
    cases cs with
    | nil =>
        have htail : n.tail = 'n' :: rest := hrest
        cases n.head?_tail (htail ▸ rfl : 'n' ∈ n.tail.head?)
    | cons d ds =>
        obtain ⟨rfl, rfl⟩ := List.cons.inj hrest
        cases ds with
        | nil => exact absurd hhead (beq_eq_false_iff_ne.mp n.notFn)
        | cons e es =>
            have he := n.head.parts e (by rw [hhead]; simp)
            simp [he]
  · rfl

end DottedName

/-! ### Types

The induction is on the prefixes.  Each of them is written in front of a type and ends with a
character that is in no name, so the last name of the whole is that of the type behind it.
-/

/-- A type that is a name under prefixes.  The size of an array can be anything. -/
inductive NamedType where
  | name (n : DottedName)
  | ref (t : NamedType)
  | option (t : NamedType)
  | array (t : NamedType)
  | sized (size : List Char) (t : NamedType)
  | map (key value : NamedType)
  | chan (t : NamedType)

namespace NamedType

/-- The type as it is written. -/
def text : NamedType → List Char
  | name n => n.chars
  | ref t => '&' :: t.text
  | option t => '?' :: t.text
  | array t => '[' :: ']' :: t.text
  | sized size t => '[' :: (size ++ ']' :: t.text)
  | map key value => 'm' :: 'a' :: 'p' :: '[' :: (key.text ++ ']' :: value.text)
  | chan t => 'c' :: 'h' :: 'a' :: 'n' :: ' ' :: t.text

/-- The name under all prefixes. -/
def innermost : NamedType → DottedName
  | name n => n
  | ref t => t.innermost
  | option t => t.innermost
  | array t => t.innermost
  | sized _ t => t.innermost
  | map _ value => value.innermost
  | chan t => t.innermost

/-- **A type ends in its innermost name.** -/
theorem endsIn_innermost (t : NamedType) : EndsIn t.text t.innermost.chars := by
  induction t with
  | name n => exact ⟨[], rfl, by simp⟩
  | ref t ih => exact ih.prepend [] rfl
  | option t ih => exact ih.prepend [] rfl
  | array t ih => exact ih.prepend ['['] rfl
  | sized size t ih => exact ih.prepend ('[' :: size) rfl
  | map key value _ ih => exact ih.prepend ('m' :: 'a' :: 'p' :: '[' :: key.text) rfl
  | chan t ih => exact ih.prepend ['c', 'h', 'a', 'n'] rfl

theorem trimmed_text (t : NamedType) : Trimmed t.text where
  first := by
    cases t with
    | name n =>
        obtain ⟨c, cs, -, hchars⟩ := n.chars_eq_cons
        have hc : c ∈ n.chars := hchars ▸ List.mem_cons_self
        exact ⟨c, _, hchars, isBlank_of_isDottedNamePart (n.parts hc)⟩
    | _ => exact ⟨_, _, rfl, rfl⟩
  last := by
    obtain ⟨front, htext, -⟩ := t.endsIn_innermost
    obtain ⟨c, cs, -, hchars⟩ := t.innermost.chars_eq_cons
    have hne : t.innermost.chars ≠ [] := hchars ▸ List.cons_ne_nil _ _
    refine ⟨front ++ t.innermost.chars.dropLast, t.innermost.chars.getLast hne, ?_,
      isBlank_of_isDottedNamePart (t.innermost.parts (List.getLast_mem hne))⟩
    rw [List.append_assoc, List.dropLast_concat_getLast, htext]

theorem isFunctionType_text (t : NamedType) : isFunctionType t.text = false := by
  cases t with
  | name n => exact n.isFunctionType_chars
  | _ => rfl

/-- **The heart of a type is its innermost name.** -/
theorem base?_text (t : NamedType) : base? t.text = some t.innermost.chars := by
  obtain ⟨c, cs, hhead, hchars⟩ := t.innermost.chars_eq_cons
  have hlast := t.endsIn_innermost.lastName fun c => t.innermost.parts
  rw [base?_eq_some_iff, t.trimmed_text.trim]
  refine ⟨t.isFunctionType_text, hlast, hchars ▸ List.cons_ne_nil _ _, fun d hd => ?_⟩
  refine t.innermost.head.first d ?_
  rw [hchars] at hd
  rw [hhead]
  exact hd

end NamedType

/--
**The heart of a type is the last name in it.**

Of any text at all, what is found is the end of the text without the blanks around it.  It starts
between two characters, behind one that is in no name or at the very start; it is not empty, holds
only characters of dotted names, and starts with no digit.  Of a name under prefixes it is that
name, however the prefixes are nested.  In the type of a function nothing is found.
-/
theorem heart_found :
    (∀ text, base? text = none ∨ ∃ front base, base? text = some base ∧
      Text.trim text = front ++ base ∧ Boundary (Text.trim text) (byteSize front) ∧ base ≠ [] ∧
      (∀ c ∈ base, isDottedNamePart c = true) ∧ (∀ c ∈ base.head?, c.isDigit = false) ∧
      ∀ c ∈ front.getLast?, isDottedNamePart c = false) ∧
    (∀ t : NamedType, base? t.text = some t.innermost.chars) ∧
    ∀ text rest, Text.trim text = 'f' :: 'n' :: rest →
      (∀ c ∈ rest.head?, isNamePart c = false) → base? text = none := by
  refine ⟨fun text => ?_, NamedType.base?_text, fun text rest htext hrest => ?_⟩
  · cases hbase : base? text with
    | none => exact .inl rfl
    | some base =>
        obtain ⟨-, hlast, hfilled, hfirst⟩ := base?_eq_some_iff.mp hbase
        obtain ⟨front, htrim, hfront⟩ := endsIn_lastName (Text.trim text)
        rw [hlast] at htrim
        refine .inr ⟨front, base, rfl, htrim, ?_, hfilled, fun c hc => ?_, hfirst, hfront⟩
        · rw [htrim]
          exact Text.boundary_append front base
        · rw [← hlast] at hc
          exact isDottedNamePart_of_mem_lastName hc
  · have hfunction : isFunctionType (Text.trim text) = true := by
      rw [htext]
      show (!(rest.head?.any isNamePart)) = true
      cases rest with
      | nil => rfl
      | cons c cs => simp [hrest c rfl]
    unfold base?
    simp only [if_pos hfunction]

/-- The type `map[&string]?[4]chan C.Größe`. -/
def sizeMap : NamedType :=
  .map (.ref (.name ⟨.ofChars ['s', 't', 'r', 'i', 'n', 'g'] rfl, [], rfl⟩))
    (.option (.sized ['4'] (.chan (.name
      ⟨.ofChars ['C'] rfl, [.ofChars ['G', 'r', 'ö', 'ß', 'e'] rfl], rfl⟩))))

theorem heart_found_sizeMap :
    base? "map[&string]?[4]chan C.Größe".toList = some "C.Größe".toList ∧
      base? "fn (int) bool ".toList = none := by
  obtain ⟨-, hnamed, hfunction⟩ := heart_found
  refine ⟨hnamed sizeMap, hfunction _ " (int) bool".toList (by decide) fun c hc => ?_⟩
  obtain rfl : ' ' = c := Option.some.inj hc
  rfl

end VServer.TypeText
