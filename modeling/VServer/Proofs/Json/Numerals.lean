/-
Texts whose numbers are integers are read as plain values.

The numerals of a text are the longest runs of characters of numbers that stand outside its
strings.  They are found without reading the values around them; a text that can be read at all has
its numbers where its numerals are.

What is read from a text with plain numerals only is a plain value with its fields in order:
`plain_of_read`.  The proof follows the reader, each part of which leaves a text behind whose
numerals are among those of the text in front.

The condition is stated about the text and not about the value.  It can be checked by itself, which
the instance of `Decidable` does, and it says nothing about whether a text can be read: that is
left to the reader.
-/
import VServer.Proofs.Json.Written
import Mathlib.Tactic.MkIffOfInductiveProp

namespace VServer.Json

/-! ### The numerals of a text

A scan with four states finds them: outside of everything, in a numeral, in a string, and behind a
backslash in a string.  It needs no stack, since brackets do not matter to what a numeral is.
-/

/-- What a character of a text is part of. -/
inductive Part where
  | outside
  /-- A numeral that has started with these characters. -/
  | numeral (run : List Char)
  | string
  /-- The character behind a backslash in a string. -/
  | escape

/-- A character that goes on with a numeral. -/
def isNumeral (c : Char) : Bool :=
  c.isDigit || c = '-' || c = '+' || c = '.' || c = 'e' || c = 'E'

/-- The numerals of a text that starts in a part. -/
def numeralsFrom : Part → List Char → List (List Char)
  | .numeral run, [] => [run]
  | .outside, [] => []
  | .string, [] => []
  | .escape, [] => []
  | .outside, c :: cs =>
    if c = '"' then numeralsFrom .string cs
    else if c.isDigit || c = '-' then numeralsFrom (.numeral [c]) cs
    else numeralsFrom .outside cs
  | .numeral run, c :: cs =>
    if isNumeral c then numeralsFrom (.numeral (run ++ [c])) cs
    else if c = '"' then run :: numeralsFrom .string cs
    else run :: numeralsFrom .outside cs
  | .string, c :: cs =>
    if c = '"' then numeralsFrom .outside cs
    else if c = '\\' then numeralsFrom .escape cs
    else numeralsFrom .string cs
  | .escape, _ :: cs => numeralsFrom .string cs

/-- The numerals of a text. -/
def numerals (text : List Char) : List (List Char) :=
  numeralsFrom .outside text

/-- Whether a numeral has a sign, and what stands behind the sign. -/
def splitSign : List Char → Bool × List Char
  | [] => (false, [])
  | c :: cs => if c = '-' then (true, cs) else (false, c :: cs)

/-- A numeral of digits, with or without a sign, that writes an integer of 64 bits. -/
@[mk_iff] structure IsPlain (numeral : List Char) : Prop where
  filled : (splitSign numeral).2 ≠ []
  digits : (splitSign numeral).2.all Char.isDigit = true
  fits : FitsSigned (splitSign numeral).1 (Nat.ofDigitChars 10 (splitSign numeral).2 0)

instance : DecidablePred IsPlain := fun numeral =>
  decidable_of_iff _ (isPlain_iff numeral).symm

/-- A text whose numbers are all plain integers. -/
def PlainText (text : List Char) : Prop :=
  ∀ n ∈ numerals text, IsPlain n

theorem plainText_iff {text : List Char} :
    PlainText text ↔ (numerals text).all (fun n => decide (IsPlain n)) = true := by
  simp [PlainText]

instance (text : List Char) : Decidable (PlainText text) :=
  decidable_of_iff _ plainText_iff.symm

/-! ### Passing over what is no number -/

/-- A character that starts neither a string nor a numeral. -/
def Passed (c : Char) : Prop :=
  c ≠ '"' ∧ c.isDigit = false ∧ c ≠ '-'

instance : DecidablePred Passed := fun c =>
  inferInstanceAs (Decidable (c ≠ '"' ∧ c.isDigit = false ∧ c ≠ '-'))

theorem numerals_cons {c : Char} (h : Passed c) (cs : List Char) :
    numerals (c :: cs) = numerals cs := by
  obtain ⟨hquote, hdigit, hminus⟩ := h
  simp [numerals, numeralsFrom, hquote, hdigit, hminus]

theorem numerals_append {word : List Char} (h : ∀ c ∈ word, Passed c) (cs : List Char) :
    numerals (word ++ cs) = numerals cs := by
  induction word with
  | nil => rfl
  | cons c word ih =>
      rw [List.cons_append, numerals_cons (h c List.mem_cons_self),
        ih fun d hd => h d (List.mem_cons_of_mem c hd)]

theorem passed_of_isSpace {c : Char} (h : isSpace c = true) : Passed c := by
  simp only [isSpace, Bool.or_eq_true, decide_eq_true_eq] at h
  rcases h with ((rfl | rfl) | rfl) | rfl
  · decide
  · decide
  · decide
  · decide

theorem numerals_skipSpace (cs : List Char) : numerals (skipSpace cs) = numerals cs := by
  induction cs with
  | nil => rfl
  | cons c cs ih =>
      by_cases h : isSpace c = true
      · have hskip : skipSpace (c :: cs) = skipSpace cs := by simp [skipSpace, h]
        rw [hskip, ih, numerals_cons (passed_of_isSpace h)]
      · rw [skipSpace_cons (by simpa using h)]

theorem plainText_skipSpace {cs : List Char} : PlainText (skipSpace cs) ↔ PlainText cs := by
  rw [PlainText, PlainText, numerals_skipSpace]

theorem plainText_cons {c : Char} (h : Passed c) {cs : List Char} :
    PlainText (c :: cs) ↔ PlainText cs := by
  rw [PlainText, PlainText, numerals_cons h]

/-- The text behind a mark, which is the first character that is no blank. -/
theorem plainText_of_skipSpace {cs rest : List Char} {c mark : Char} (h : PlainText cs)
    (hskip : skipSpace cs = c :: rest) (hc : c = mark) (hmark : Passed mark) : PlainText rest := by
  rw [← plainText_skipSpace, hskip, hc, plainText_cons hmark] at h
  exact h

/-! ### Words and strings

The reader and the scan have to agree on where a string ends.  The scan passes over one character
behind a backslash, and the reader may take more for an escape; but those are digits of a code, or
the escape of its second half, and none of them ends the string.
-/

/-- A map succeeds where what is mapped does. -/
theorem exists_of_map_ok {ε α β : Type} {x : Except ε α} {f : α → β} {b : β}
    (h : x.map f = .ok b) : ∃ a, x = .ok a ∧ f a = b := by
  cases x with
  | error e => cases h
  | ok a => exact ⟨a, rfl, Except.ok.inj h⟩

theorem eq_append_of_readWord {α : Type} {value v : α} {word cs rest : List Char}
    (h : readWord value word cs = .ok (v, rest)) : v = value ∧ cs = word ++ rest := by
  induction word generalizing cs with
  | nil =>
      rw [readWord] at h
      cases h
      exact ⟨rfl, rfl⟩
  | cons w word ih =>
      cases cs with
      | nil => cases h
      | cons c cs =>
          rw [readWord] at h
          split at h
          · rename_i hc
            obtain ⟨hv, hcs⟩ := ih h
            exact ⟨hv, by rw [hc, hcs, List.cons_append]⟩
          · cases h

theorem numeralsFrom_hexDigit {c : Char} {n : Nat} (h : hexValue? c = some n) (cs : List Char) :
    numeralsFrom .string (c :: cs) = numeralsFrom .string cs := by
  have hquote : c ≠ '"' := by
    rintro rfl
    cases h
  have hback : c ≠ '\\' := by
    rintro rfl
    cases h
  rw [numeralsFrom, if_neg hquote, if_neg hback]

theorem numeralsFrom_readHex {cs rest : List Char} {n : Nat} (h : readHex cs = .ok (n, rest)) :
    numeralsFrom .string cs = numeralsFrom .string rest := by
  unfold readHex at h
  split at h
  · cases h
  · rcases cs with _ | ⟨a, _ | ⟨b, _ | ⟨c, _ | ⟨d, cs⟩⟩⟩⟩
    · cases h
    · cases h
    · cases h
    · cases h
    · rcases ha : hexValue? a with _ | x
      · simp [ha] at h
      rcases hb : hexValue? b with _ | y
      · simp [ha, hb] at h
      rcases hc : hexValue? c with _ | z
      · simp [ha, hb, hc] at h
      rcases hd : hexValue? d with _ | w
      · simp [ha, hb, hc, hd] at h
      simp only [ha, hb, hc, hd, Option.bind_eq_bind, Option.bind_some] at h
      obtain ⟨-, rfl⟩ := Prod.mk.inj (Except.ok.inj h)
      rw [numeralsFrom_hexDigit ha, numeralsFrom_hexDigit hb, numeralsFrom_hexDigit hc,
        numeralsFrom_hexDigit hd]

theorem numeralsFrom_readLowSurrogate {high : Nat} {cs rest : List Char} {d : Char}
    (h : readLowSurrogate high cs = .ok (d, rest)) :
    numeralsFrom .string cs = numeralsFrom .string rest := by
  unfold readLowSurrogate at h
  split at h
  · cases h
  · rename_i c after
    split at h
    · cases h
    · rename_i hback
      obtain rfl : c = '\\' := Decidable.not_not.mp hback
      split at h
      · cases h
      · rename_i u digits
        split at h
        · cases h
        · split at h
          · cases h
          · rename_i low rest' hhex
            split at h
            · cases h
            · obtain ⟨-, rfl⟩ := Prod.mk.inj (Except.ok.inj h)
              rw [← numeralsFrom_readHex hhex]
              rfl

theorem numeralsFrom_readCode {cs rest : List Char} {d : Char}
    (h : readCode cs = .ok (d, rest)) :
    numeralsFrom .string cs = numeralsFrom .string rest := by
  unfold readCode at h
  split at h
  · cases h
  · rename_i n rest' hhex
    rw [numeralsFrom_readHex hhex]
    split at h
    · cases h
    · split at h
      · exact numeralsFrom_readLowSurrogate h
      · obtain ⟨-, rfl⟩ := Prod.mk.inj (Except.ok.inj h)
        rfl

theorem numeralsFrom_readEscape {cs rest : List Char} {d : Char}
    (h : readEscape cs = .ok (d, rest)) :
    numeralsFrom .escape cs = numeralsFrom .string rest := by
  cases cs with
  | nil => cases h
  | cons c cs =>
      have hdone : ∀ e : Char, (Except.ok (e, cs) : Outcome Char) = .ok (d, rest) →
          numeralsFrom .escape (c :: cs) = numeralsFrom .string rest := by
        intro e he
        obtain ⟨-, rfl⟩ := Prod.mk.inj (Except.ok.inj he)
        rfl
      unfold readEscape at h
      simp only at h
      split at h
      · exact hdone _ h
      split at h
      · exact hdone _ h
      split at h
      · exact hdone _ h
      split at h
      · exact hdone _ h
      split at h
      · exact hdone _ h
      split at h
      · exact hdone _ h
      split at h
      · exact numeralsFrom_readCode h
      · cases h

/-- A string ends where its numerals say that it ends. -/
theorem numeralsFrom_readChars {fuel : Nat} :
    ∀ {cs ds rest : List Char}, readChars fuel cs = .ok (ds, rest) →
      numeralsFrom .string cs = numerals rest := by
  induction fuel with
  | zero => intro cs ds rest h; cases h
  | succ fuel ih =>
      intro cs ds rest h
      cases cs with
      | nil => cases h
      | cons c cs =>
          rw [readChars] at h
          rw [numeralsFrom]
          by_cases hquote : c = '"'
          · rw [if_pos hquote] at h ⊢
            obtain ⟨-, rfl⟩ := Prod.mk.inj (Except.ok.inj h)
            rfl
          rw [if_neg hquote] at h ⊢
          by_cases hback : c = '\\'
          · rw [if_pos hback] at h ⊢
            split at h
            · cases h
            · rename_i d after hescape
              obtain ⟨⟨ds', rest'⟩, hrest, heq⟩ := exists_of_map_ok h
              obtain ⟨-, rfl⟩ := Prod.mk.inj heq
              rw [numeralsFrom_readEscape hescape, ih hrest]
          rw [if_neg hback] at h ⊢
          split at h
          · cases h
          · obtain ⟨⟨ds', rest'⟩, hrest, heq⟩ := exists_of_map_ok h
            obtain ⟨-, rfl⟩ := Prod.mk.inj heq
            exact ih hrest

theorem plainText_readString {cs rest : List Char} {s : String}
    (h : readString cs = .ok (s, rest)) (hcs : PlainText ('"' :: cs)) : PlainText rest := by
  obtain ⟨⟨ds, rest'⟩, hrest, heq⟩ := exists_of_map_ok h
  obtain ⟨-, rfl⟩ := Prod.mk.inj heq
  intro n hn
  rw [← numeralsFrom_readChars hrest] at hn
  exact hcs n hn

/-! ### Numbers -/

theorem numeralsFrom_numeral (run cs : List Char) :
    numeralsFrom (.numeral run) cs
      = (run ++ cs.takeWhile isNumeral) :: numerals (cs.dropWhile isNumeral) := by
  induction cs generalizing run with
  | nil => simp [numeralsFrom, numerals]
  | cons c cs ih =>
      rw [numeralsFrom]
      by_cases h : isNumeral c = true
      · rw [if_pos h, ih, List.takeWhile_cons_of_pos h, List.dropWhile_cons_of_pos h,
          List.append_assoc, List.singleton_append]
      · -- A character that ends a numeral starts none.
        have hstart : ¬ (c.isDigit || c = '-') = true := by
          simp only [isNumeral, Bool.or_eq_true, not_or] at h
          simp only [Bool.or_eq_true, not_or]
          exact ⟨h.1.1.1.1.1, h.1.1.1.1.2⟩
        rw [if_neg h, List.takeWhile_cons_of_neg h, List.dropWhile_cons_of_neg h,
          List.append_nil, numerals, numeralsFrom]
        by_cases hquote : c = '"'
        · rw [if_pos hquote, if_pos hquote]
        · rw [if_neg hquote, if_neg hquote, if_neg hstart]

/-- A digit or a sign starts a numeral, which goes on as long as it can. -/
theorem numerals_start {c : Char} (h : (c.isDigit || c = '-') = true) (cs : List Char) :
    numerals (c :: cs)
      = (c :: cs.takeWhile isNumeral) :: numerals (cs.dropWhile isNumeral) := by
  have hquote : c ≠ '"' := by
    rintro rfl
    cases h
  rw [numerals, numeralsFrom, if_neg hquote, if_pos h, numeralsFrom_numeral, List.singleton_append]

theorem isNumeral_of_isDigit {c : Char} (h : c.isDigit = true) : isNumeral c = true := by
  simp [isNumeral, h]

theorem endsNumber_dropWhile (cs : List Char) : EndsNumber (cs.dropWhile isNumeral) := by
  intro c hc
  have hnot : isNumeral c = false := by
    have := List.head?_dropWhile_not isNumeral cs
    rw [Option.mem_def.mp hc] at this
    simpa using this
  simp only [isNumeral, Bool.or_eq_false_iff, decide_eq_false_iff_not] at hnot
  obtain ⟨⟨⟨⟨⟨hdigit, -⟩, -⟩, hpoint⟩, hsmall⟩, hlarge⟩ := hnot
  exact ⟨hdigit, hpoint, hsmall, hlarge⟩

/-- A number of digits is read as the integer that they write, if it is read at all. -/
theorem readNumber_of_digits {negative : Bool} {ds : List Char} (hfilled : ds ≠ [])
    (hdigits : ∀ d ∈ ds, d.isDigit = true)
    (hfits : FitsSigned negative (Nat.ofDigitChars 10 ds 0)) {behind rest : List Char}
    (hbehind : EndsNumber behind) {n : Number}
    (h : readNumber negative (ds ++ behind) = .ok (n, rest)) :
    n = .integer (signed negative (Nat.ofDigitChars 10 ds 0)) ∧ rest = behind := by
  cases ds with
  | nil => exact absurd rfl hfilled
  | cons c ds =>
      by_cases hzero : c = '0' → ds = []
      · rw [readNumber_digits hdigits hzero hfits hbehind] at h
        obtain ⟨rfl, rfl⟩ := Prod.mk.inj (Except.ok.inj h)
        exact ⟨rfl, rfl⟩
      · -- Digits behind a zero are an error.
        obtain ⟨rfl, hmore⟩ := Classical.not_imp.mp hzero
        cases ds with
        | nil => exact absurd rfl hmore
        | cons d ds =>
            have hd := hdigits d (by simp)
            simp [readNumber, hd, failNext] at h

/-- What a reader finds in a text of plain numerals is plain and in order, and the numerals that are
left are plain. -/
def ReadsPlain (depth : Nat) (item : List Char → Outcome Json) : Prop :=
  ∀ cs v rest, item cs = .ok (v, rest) → PlainText cs →
    Plain depth v ∧ v.sorted = v ∧ PlainText rest

/-- A number at the start of a text of plain numerals is an integer. -/
theorem plain_of_readNumber {negative : Bool} {depth : Nat} {sign cs rest : List Char} {v : Json}
    (hsign : (sign = [] ∧ negative = false ∧ ∃ c ds, cs = c :: ds ∧ c.isDigit = true) ∨
      (sign = ['-'] ∧ negative = true))
    (h : ((readNumber negative cs).map fun (n, rest) => (number n, rest)) = .ok (v, rest))
    (hcs : PlainText (sign ++ cs)) : Plain depth v ∧ v.sorted = v ∧ PlainText rest := by
  -- Behind the sign the numeral is the characters of numbers up to the first other one.
  have hnumeral : numerals (sign ++ cs)
        = (sign ++ cs.takeWhile isNumeral) :: numerals (cs.dropWhile isNumeral) ∧
      splitSign (sign ++ cs.takeWhile isNumeral) = (negative, cs.takeWhile isNumeral) := by
    rcases hsign with ⟨rfl, rfl, c, ds, rfl, hc⟩ | ⟨rfl, rfl⟩
    · have hnum := isNumeral_of_isDigit hc
      rw [List.nil_append, List.nil_append, numerals_start (by simp [hc]),
        List.takeWhile_cons_of_pos hnum, List.dropWhile_cons_of_pos hnum, splitSign,
        if_neg (ne_of_isDigit hc rfl)]
      exact ⟨rfl, rfl⟩
    · exact ⟨numerals_start rfl cs, rfl⟩
  obtain ⟨hnumerals, hsplit⟩ := hnumeral
  have hplain : IsPlain (sign ++ cs.takeWhile isNumeral) :=
    hcs _ (by rw [hnumerals]; exact List.mem_cons_self)
  have hfilled := hplain.filled
  have hdigits := List.all_eq_true.mp hplain.digits
  have hfits := hplain.fits
  rw [hsplit] at hfilled hdigits hfits
  obtain ⟨⟨n, rest'⟩, hread, heq⟩ := exists_of_map_ok h
  obtain ⟨rfl, rfl⟩ := Prod.mk.inj heq
  rw [← List.takeWhile_append_dropWhile (p := isNumeral) (l := cs)] at hread
  obtain ⟨rfl, rfl⟩ :=
    readNumber_of_digits hfilled hdigits hfits (endsNumber_dropWhile cs) hread
  refine ⟨.integer hfits.fits64, sorted_number _, ?_⟩
  intro m hm
  exact hcs m (by rw [hnumerals]; exact List.mem_cons_of_mem _ hm)

/-! ### Arrays and objects

The loops over items and fields are given the reader of a value as an argument.  So what is shown
here assumes of that reader only what is to be shown of it, one level deeper.
-/

section Brackets

variable {depth : Nat} {item : List Char → Outcome Json}

/-- The values of a list are plain and in order. -/
def PlainValues (depth : Nat) (vs : List Json) : Prop :=
  ∀ v ∈ vs, Plain depth v ∧ v.sorted = v

theorem plain_array {vs : List Json} (h : PlainValues depth vs) :
    Plain (depth + 1) (array vs) ∧ (array vs).sorted = array vs :=
  ⟨.array fun v hv => (h v hv).1, sorted_array_eq_iff.mpr fun v hv => (h v hv).2⟩

theorem plain_of_readItems (hitem : ReadsPlain depth item) :
    ∀ (fuel : Nat) (cs : List Char) (vs : List Json) (rest : List Char),
      readItems item fuel cs = .ok (vs, rest) → PlainText cs →
      PlainValues depth vs ∧ PlainText rest := by
  intro fuel
  induction fuel with
  | zero => intro cs vs rest h; cases h
  | succ fuel ih =>
      intro cs vs rest h hcs
      rw [readItems] at h
      split at h
      · cases h
      rename_i value after hvalue
      obtain ⟨hplain, hsorted, hafter⟩ := hitem cs value after hvalue hcs
      split at h
      · cases h
      rename_i c behind hskip
      split at h
      · rename_i hc
        obtain ⟨rfl, rfl⟩ := Prod.mk.inj (Except.ok.inj h)
        refine ⟨?_, plainText_of_skipSpace hafter hskip hc (by decide)⟩
        intro w hw
        rw [List.mem_singleton.mp hw]
        exact ⟨hplain, hsorted⟩
      split at h
      · rename_i hc
        have hbehind := plainText_of_skipSpace hafter hskip hc (by decide)
        split at h
        · cases h
        rename_i d more hmore
        split at h
        · cases h
        obtain ⟨⟨ws, rest'⟩, hws, heq⟩ := exists_of_map_ok h
        obtain ⟨rfl, rfl⟩ := Prod.mk.inj heq
        rw [← plainText_skipSpace, hmore] at hbehind
        obtain ⟨hlater, hrest⟩ := ih _ ws rest' hws hbehind
        exact ⟨List.forall_mem_cons.mpr ⟨⟨hplain, hsorted⟩, hlater⟩, hrest⟩
      · cases h

theorem plain_of_readArray (hitem : ReadsPlain depth item) {cs rest : List Char} {v : Json}
    (h : readArray item cs = .ok (v, rest)) (hcs : PlainText cs) :
    Plain (depth + 1) v ∧ v.sorted = v ∧ PlainText rest := by
  rw [readArray] at h
  split at h
  · cases h
  rename_i c after hskip
  split at h
  · rename_i hc
    obtain ⟨rfl, rfl⟩ := Prod.mk.inj (Except.ok.inj h)
    have hnothing : PlainValues depth [] := fun v hv => absurd hv List.not_mem_nil
    obtain ⟨hplain, hsorted⟩ := plain_array hnothing
    exact ⟨hplain, hsorted,
      plainText_of_skipSpace hcs hskip hc (by decide)⟩
  · obtain ⟨⟨vs, rest'⟩, hvs, heq⟩ := exists_of_map_ok h
    obtain ⟨rfl, rfl⟩ := Prod.mk.inj heq
    rw [← plainText_skipSpace, hskip] at hcs
    obtain ⟨hvalues, hrest⟩ := plain_of_readItems hitem _ _ vs rest' hvs hcs
    obtain ⟨hplain, hsorted⟩ := plain_array hvalues
    exact ⟨hplain, hsorted, hrest⟩

/-- Fields in order, whose values are plain and in order. -/
structure PlainFields (depth : Nat) (fields : List (String × Json)) : Prop where
  increasing : Increasing fields
  values : ∀ f ∈ fields, Plain depth f.2 ∧ f.2.sorted = f.2

theorem PlainFields.object {fields : List (String × Json)} (h : PlainFields depth fields) :
    Plain (depth + 1) (.object fields) ∧ (Json.object fields).sorted = .object fields :=
  ⟨.object h.increasing.nodup fun f hf => (h.values f hf).1,
    sorted_object_eq_iff.mpr ⟨h.increasing, fun f hf => (h.values f hf).2⟩⟩

theorem PlainFields.putEntry {fields : List (String × Json)} (h : PlainFields depth fields)
    (name : String) {value : Json} (hvalue : Plain depth value ∧ value.sorted = value) :
    PlainFields depth (putEntry name value fields) where
  increasing := increasing_putEntry name value h.increasing
  values := by
    intro f hf
    rcases mem_putEntry hf with rfl | hf
    · exact hvalue
    · exact h.values f hf

theorem plain_of_readField (hitem : ReadsPlain depth item) {cs rest : List Char} {name : String}
    {value : Json} (h : readField item cs = .ok ((name, value), rest))
    (hcs : PlainText ('"' :: cs)) :
    (Plain depth value ∧ value.sorted = value) ∧ PlainText rest := by
  rw [readField] at h
  split at h
  · cases h
  rename_i name' after hname
  have hafter := plainText_readString hname hcs
  split at h
  · cases h
  rename_i c behind hskip
  split at h
  · rename_i hc
    have hbehind := plainText_of_skipSpace hafter hskip hc (by decide)
    obtain ⟨⟨value', rest'⟩, hvalue, heq⟩ := exists_of_map_ok h
    obtain ⟨hfield, rfl⟩ := Prod.mk.inj heq
    obtain ⟨-, rfl⟩ := Prod.mk.inj hfield
    obtain ⟨hplain, hsorted, hrest⟩ := hitem behind value' rest' hvalue hbehind
    exact ⟨⟨hplain, hsorted⟩, hrest⟩
  · cases h

theorem plain_of_readFields (hitem : ReadsPlain depth item) :
    ∀ (fuel : Nat) (known : List (String × Json)) (cs : List Char)
      (fields : List (String × Json)) (rest : List Char),
      readFields item fuel known cs = .ok (fields, rest) → PlainFields depth known →
      PlainText ('"' :: cs) → PlainFields depth fields ∧ PlainText rest := by
  intro fuel
  induction fuel with
  | zero => intro known cs fields rest h; cases h
  | succ fuel ih =>
      intro known cs fields rest h hknown hcs
      rw [readFields] at h
      split at h
      · cases h
      rename_i name value after hfield
      obtain ⟨hvalue, hafter⟩ := plain_of_readField hitem hfield hcs
      have hknown' := hknown.putEntry name hvalue
      simp only at h
      split at h
      · cases h
      rename_i c behind hskip
      split at h
      · rename_i hc
        obtain ⟨rfl, rfl⟩ := Prod.mk.inj (Except.ok.inj h)
        exact ⟨hknown', plainText_of_skipSpace hafter hskip hc (by decide)⟩
      split at h
      · rename_i hc
        have hbehind := plainText_of_skipSpace hafter hskip hc (by decide)
        split at h
        · cases h
        rename_i d more hmore
        split at h
        · rename_i hd
          rw [← plainText_skipSpace, hmore, hd] at hbehind
          exact ih _ more fields rest h hknown' hbehind
        split at h
        · cases h
        · cases h
      · cases h

theorem plain_of_readObject (hitem : ReadsPlain depth item) {cs rest : List Char} {v : Json}
    (h : readObject item cs = .ok (v, rest)) (hcs : PlainText cs) :
    Plain (depth + 1) v ∧ v.sorted = v ∧ PlainText rest := by
  have hnothing : PlainFields depth [] := ⟨List.Pairwise.nil, by simp⟩
  rw [readObject] at h
  split at h
  · cases h
  rename_i c after hskip
  split at h
  · rename_i hc
    obtain ⟨rfl, rfl⟩ := Prod.mk.inj (Except.ok.inj h)
    obtain ⟨hplain, hsorted⟩ := hnothing.object
    exact ⟨hplain, hsorted,
      plainText_of_skipSpace hcs hskip hc (by decide)⟩
  split at h
  · rename_i hc
    obtain ⟨⟨fields, rest'⟩, hfields, heq⟩ := exists_of_map_ok h
    obtain ⟨rfl, rfl⟩ := Prod.mk.inj heq
    rw [← plainText_skipSpace, hskip, hc] at hcs
    obtain ⟨hplain, hrest⟩ := plain_of_readFields hitem _ [] after fields rest' hfields hnothing hcs
    obtain ⟨hobject, hsorted⟩ := hplain.object
    exact ⟨hobject, hsorted, hrest⟩
  · cases h

end Brackets

/-! ### Values -/

theorem plain_of_readWord {depth : Nat} {c : Char} {value v : Json} {word cs rest : List Char}
    (hvalue : Plain depth value ∧ value.sorted = value)
    (hword : (c :: word).all (fun d => decide (Passed d)) = true)
    (h : readWord value word cs = .ok (v, rest)) (hcs : PlainText (c :: cs)) :
    Plain depth v ∧ v.sorted = v ∧ PlainText rest := by
  obtain ⟨rfl, rfl⟩ := eq_append_of_readWord h
  refine ⟨hvalue.1, hvalue.2, ?_⟩
  have hpassed : ∀ d ∈ c :: word, Passed d := fun d hd =>
    of_decide_eq_true (List.all_eq_true.mp hword d hd)
  intro n hn
  rw [← numerals_append hpassed, List.cons_append] at hn
  exact hcs n hn

/-- A value is read by one of the parts of the reader; `hinner` is for the values in brackets. -/
theorem readsPlain_step {depth : Nat}
    (hinner : ∀ inner, depth = inner + 1 → ReadsPlain inner (readValue inner)) :
    ReadsPlain depth (readValue depth) := by
  intro cs v rest h hcs
  unfold readValue at h
  rw [← plainText_skipSpace] at hcs
  split at h
  · cases h
  rename_i c after hskip
  rw [hskip] at hcs
  split at h
  · rename_i hc
    exact plain_of_readWord ⟨.null, sorted_null⟩ (by rw [hc]; rfl) h hcs
  split at h
  · rename_i hc
    exact plain_of_readWord ⟨.bool, sorted_bool _⟩ (by rw [hc]; rfl) h hcs
  split at h
  · rename_i hc
    exact plain_of_readWord ⟨.bool, sorted_bool _⟩ (by rw [hc]; rfl) h hcs
  split at h
  · rename_i hc
    rw [hc] at hcs
    exact plain_of_readNumber (.inr ⟨rfl, rfl⟩) h hcs
  split at h
  · rename_i hc
    exact plain_of_readNumber (.inl ⟨rfl, rfl, c, after, rfl, hc⟩) h hcs
  split at h
  · rename_i hc
    obtain ⟨⟨s, rest'⟩, hstring, heq⟩ := exists_of_map_ok h
    obtain ⟨rfl, rfl⟩ := Prod.mk.inj heq
    exact ⟨.string, sorted_string s, plainText_readString hstring (hc ▸ hcs)⟩
  split at h
  · rename_i hc
    rw [hc, plainText_cons (by decide)] at hcs
    split at h
    · cases h
    · rename_i inner
      exact plain_of_readArray (hinner inner rfl) h hcs
  split at h
  · rename_i hc
    rw [hc, plainText_cons (by decide)] at hcs
    split at h
    · cases h
    · rename_i inner
      exact plain_of_readObject (hinner inner rfl) h hcs
  · cases h

/-- The induction is on how deep brackets may still be nested. -/
theorem readsPlain_readValue (depth : Nat) : ReadsPlain depth (readValue depth) := by
  induction depth with
  | zero => exact readsPlain_step fun inner h => absurd h (by omega)
  | succ depth ih =>
      refine readsPlain_step fun inner h => ?_
      obtain rfl : depth = inner := by omega
      exact ih

/-- **What is read from a text of plain numerals is plain, and its fields are in order.** -/
theorem plain_of_read {text : List Char} {v : Json} (h : read text = .ok v)
    (htext : PlainText text) : Plain depthLimit v ∧ v.sorted = v := by
  rw [read] at h
  rcases hvalue : readValue depthLimit text with e | ⟨value, rest⟩
  · rw [hvalue] at h
    cases h
  · obtain ⟨hplain, hsorted, -⟩ := readsPlain_readValue depthLimit text value rest hvalue htext
    rw [hvalue] at h
    simp only at h
    split at h
    · obtain rfl : value = v := Except.ok.inj h
      exact ⟨hplain, hsorted⟩
    · cases h

end VServer.Json
