/-
A plain value is read back from its text.

The reader is given the text of a value and whatever stands behind it, and stops where the text
ends.  For most values the last character says so; a number ends where no character follows that
could go on with it, and of what the writer puts behind a value, a comma, a bracket or a brace,
none could.

What is read has the fields of its objects in order, so it is the value with its fields put in
order: `read_plain`.

The induction is on the derivation that the value is plain, whose depth is that of the reader.  For
arrays and objects the reader is a loop with a fuel of its own, the number of characters that are
left.  Every item takes at least one of them, so the fuel lasts, and the lemmas about the loops ask
only for a fuel that exceeds the number of items behind the first.
-/
import VServer.Json.Read
import VServer.Proofs.Json.Plain
import VServer.Proofs.Text.Digits

namespace VServer.Json

/-! ### Words and strings -/

theorem readWord_append {α : Type} (value : α) (word rest : List Char) :
    readWord value word (word ++ rest) = .ok (value, rest) := by
  induction word with
  | nil => cases rest <;> rfl
  | cons c word ih => rw [List.cons_append, readWord, if_pos rfl, ih]

theorem hexValue?_smallHexDigit {n : Nat} (h : n < 16) : hexValue? (smallHexDigit n) = some n := by
  have hall : ∀ n : Fin 16, hexValue? (smallHexDigit n) = some n.val := by decide
  exact hall ⟨n, h⟩

/-- A control character is read back from its code. -/
theorem readCode_control {n : Nat} (h : n < 32) (cs : List Char) :
    readCode ('0' :: '0' :: smallHexDigit (n / 16) :: smallHexDigit (n % 16) :: cs)
      = .ok (Char.ofNat n, cs) := by
  have hhigh : hexValue? (smallHexDigit (n / 16)) = some (n / 16) :=
    hexValue?_smallHexDigit (by omega)
  have hlow : hexValue? (smallHexDigit (n % 16)) = some (n % 16) :=
    hexValue?_smallHexDigit (by omega)
  have hzero : hexValue? '0' = some 0 := by decide
  have hsize : ¬ Text.byteSize
      ('0' :: '0' :: smallHexDigit (n / 16) :: smallHexDigit (n % 16) :: cs) < 4 := by
    have := (smallHexDigit (n / 16)).utf8Size_pos
    have := (smallHexDigit (n % 16)).utf8Size_pos
    have : '0'.utf8Size = 1 := rfl
    simp only [Text.byteSize]
    omega
  have hvalue : ((0 * 16 + 0) * 16 + n / 16) * 16 + n % 16 = n := by omega
  have hhex : readHex ('0' :: '0' :: smallHexDigit (n / 16) :: smallHexDigit (n % 16) :: cs)
      = .ok (n, cs) := by
    rw [readHex, if_neg hsize]
    simp only [hzero, hhigh, hlow, Option.bind_eq_bind, Option.bind_some, hvalue]
  rw [readCode, hhex]
  simp only
  rw [if_neg (by omega), if_neg (by omega)]

/-- The text of a character is read in one step. -/
theorem readChars_escapeChar (fuel : Nat) (c : Char) (cs : List Char) :
    readChars (fuel + 1) (escapeChar c ++ cs)
      = (readChars fuel cs).map fun (ds, rest) => (c :: ds, rest) := by
  have hescaped : ∀ d : Char, ∀ ds : List Char, readEscape (d :: ds) = .ok (c, cs) →
      readChars (fuel + 1) ('\\' :: d :: ds)
        = (readChars fuel cs).map fun (ds, rest) => (c :: ds, rest) := by
    intro d ds h
    rw [readChars, if_neg (by decide), if_pos rfl, h]
  have hcode : ∀ n : Nat, c.toNat = n → c = Char.ofNat n := by
    rintro n rfl
    exact c.ofNat_toNat.symm
  unfold escapeChar
  split
  · rename_i h
    exact hescaped _ _ (by rw [h]; rfl)
  split
  · rename_i h
    exact hescaped _ _ (by rw [h]; rfl)
  split
  · rename_i h
    exact hescaped _ _ (by rw [h]; rfl)
  split
  · rename_i h
    exact hescaped _ _ (by rw [h]; rfl)
  split
  · rename_i h
    exact hescaped _ _ (by rw [h]; rfl)
  split
  · rename_i h
    exact hescaped _ _ (by rw [hcode 8 h]; rfl)
  split
  · rename_i h
    exact hescaped _ _ (by rw [hcode 12 h]; rfl)
  split
  · rename_i h
    have hread := readCode_control h cs
    rw [c.ofNat_toNat] at hread
    exact hescaped _ _ hread
  · rename_i hquote hback _ _ _ _ _ hlarge
    rw [List.singleton_append, readChars, if_neg hquote, if_neg hback, if_neg hlarge]

theorem readChars_escaped (cs rest : List Char) :
    ∀ fuel, cs.length < fuel →
      readChars fuel (cs.flatMap escapeChar ++ '"' :: rest) = .ok (cs, rest) := by
  induction cs with
  | nil =>
      intro fuel hfuel
      obtain ⟨fuel, rfl⟩ : ∃ n, fuel = n + 1 := ⟨fuel - 1, by simp at hfuel; omega⟩
      rfl
  | cons c cs ih =>
      intro fuel hfuel
      rw [List.length_cons] at hfuel
      obtain ⟨fuel, rfl⟩ : ∃ n, fuel = n + 1 := ⟨fuel - 1, by omega⟩
      rw [List.flatMap_cons, List.append_assoc, readChars_escapeChar, ih fuel (by omega)]
      rfl

theorem escapeChar_ne_nil (c : Char) : escapeChar c ≠ [] := by
  unfold escapeChar
  repeat' split
  all_goals simp

theorem length_le_flatMap {α β : Type} (f : α → List β) (as : List α) (h : ∀ a ∈ as, f a ≠ []) :
    as.length ≤ (as.flatMap f).length := by
  induction as with
  | nil => exact Nat.le_refl _
  | cons a as ih =>
      have hfirst := List.length_pos_iff.mpr (h a List.mem_cons_self)
      have hlater := ih fun b hb => h b (List.mem_cons_of_mem a hb)
      rw [List.flatMap_cons, List.length_append, List.length_cons]
      omega

/-- A string is read back from its text, which the quote at the end closes. -/
theorem readString_text (s : String) (rest : List Char) :
    readString (s.toList.flatMap escapeChar ++ '"' :: rest) = .ok (s, rest) := by
  have hlength := length_le_flatMap escapeChar s.toList fun c _ => escapeChar_ne_nil c
  rw [readString, readChars_escaped s.toList rest _ (by rw [List.length_append]; omega)]
  simp [Except.map]

/-! ### Numbers

A number is the one kind of value without a character that ends it.  The lemmas about numbers, and
those about values in general, therefore ask of the text behind the value that it goes on with no
number.
-/

/-- No character follows that could go on with a number. -/
def EndsNumber (rest : List Char) : Prop :=
  ∀ c ∈ rest.head?, c.isDigit = false ∧ c ≠ '.' ∧ c ≠ 'e' ∧ c ≠ 'E'

theorem EndsNumber.isDigit {rest : List Char} (h : EndsNumber rest) :
    ∀ c ∈ rest.head?, c.isDigit = false :=
  fun c hc => (h c hc).1

theorem endsNumber_cons {c : Char} (h : c.isDigit = false ∧ c ≠ '.' ∧ c ≠ 'e' ∧ c ≠ 'E')
    (rest : List Char) : EndsNumber (c :: rest) := by
  intro d hd
  obtain rfl : c = d := Option.some.inj hd
  exact h

/-- Digits are collected to the end, since no number on the way is larger than the last. -/
theorem collectDigits_append {rest : List Char} (hrest : ∀ c ∈ rest.head?, c.isDigit = false)
    (ds : List Char) :
    ∀ significand count, (∀ c ∈ ds, c.isDigit = true) →
      Nat.ofDigitChars 10 ds significand ≤ largestSignificand →
      collectDigits significand count (ds ++ rest)
        = (Nat.ofDigitChars 10 ds significand, count + ds.length, rest) := by
  induction ds with
  | nil =>
      intro significand count _ _
      cases rest with
      | nil => rfl
      | cons c rest =>
          have hc := hrest c rfl
          simp [collectDigits, hc]
  | cons c ds ih =>
      intro significand count hdigits hle
      rw [Text.ofDigitChars_cons] at hle ⊢
      have hstep : significand * 10 + digitValue c ≤ largestSignificand :=
        Nat.le_trans (Text.le_ofDigitChars ds _) hle
      rw [List.cons_append, collectDigits, if_pos (hdigits c List.mem_cons_self)]
      simp only [if_pos hstep]
      rw [digitValue, ih _ _ (fun d hd => hdigits d (List.mem_cons_of_mem c hd)) hle,
        List.length_cons, Nat.add_assoc, Nat.add_comm 1]

/-- The number with this sign and this magnitude. -/
def signed (negative : Bool) (n : Nat) : Int :=
  if negative then -(n : Int) else n

/-- A magnitude that makes an integer of 64 bits.  There is no negative zero among them. -/
def FitsSigned (negative : Bool) (n : Nat) : Prop :=
  if negative then 0 < n ∧ n ≤ largestNegated else n ≤ largestSignificand

instance (negative : Bool) (n : Nat) : Decidable (FitsSigned negative n) :=
  match negative with
  | true => inferInstanceAs (Decidable (0 < n ∧ n ≤ largestNegated))
  | false => inferInstanceAs (Decidable (n ≤ largestSignificand))

theorem FitsSigned.le {negative : Bool} {n : Nat} (h : FitsSigned negative n) :
    n ≤ largestSignificand := by
  cases negative with
  | false => exact h
  | true =>
      have hle : n ≤ 9223372036854775808 := h.2
      show n ≤ 18446744073709551615
      omega

theorem FitsSigned.fits64 {negative : Bool} {n : Nat} (h : FitsSigned negative n) :
    Fits64 (signed negative n) := by
  cases negative with
  | false =>
      have hle : n ≤ 18446744073709551615 := h
      show -9223372036854775808 ≤ (n : Int) ∧ (n : Int) ≤ 18446744073709551615
      omega
  | true =>
      have hle : n ≤ 9223372036854775808 := h.2
      show -9223372036854775808 ≤ -(n : Int) ∧ -(n : Int) ≤ 18446744073709551615
      omega

theorem finishNumber_integer {negative : Bool} {n : Nat} (hfits : FitsSigned negative n)
    {rest : List Char} (hrest : EndsNumber rest) :
    finishNumber negative n 0 rest = .ok (.integer (signed negative n), rest) := by
  have hwhole : (if negative then
        if n = 0 ∨ largestNegated < n then makeDouble true n 0 rest
        else .ok (.integer (-(n : Int)), rest)
      else .ok (.integer n, rest) : Outcome Number)
      = .ok (.integer (signed negative n), rest) := by
    cases negative with
    | false => rfl
    | true =>
        obtain ⟨hpos, hle⟩ : 0 < n ∧ n ≤ largestNegated := hfits
        have hnot : ¬ (n = 0 ∨ largestNegated < n) := by omega
        simp only [if_true, if_neg hnot]
        rfl
  unfold finishNumber
  rw [if_pos rfl, hwhole]
  cases rest with
  | nil => rfl
  | cons c rest =>
      obtain ⟨-, hpoint, hsmall, hlarge⟩ := hrest c rfl
      simp only [if_neg hpoint, hsmall, hlarge, or_self, if_false]

/-- Digits without a zero in front are read as the number they write. -/
theorem readNumber_digits {negative : Bool} {c : Char} {ds : List Char}
    (hdigits : ∀ d ∈ c :: ds, d.isDigit = true) (hzero : c = '0' → ds = [])
    (hfits : FitsSigned negative (Nat.ofDigitChars 10 (c :: ds) 0)) {rest : List Char}
    (hrest : EndsNumber rest) :
    readNumber negative (c :: ds ++ rest)
      = .ok (.integer (signed negative (Nat.ofDigitChars 10 (c :: ds) 0)), rest) := by
  rw [List.cons_append, readNumber]
  by_cases hc : c = '0'
  · obtain rfl := hzero hc
    subst hc
    have hnext : rest.head?.any Char.isDigit = false := by
      rw [Option.any_eq_false]
      intro d hd
      simp [hrest.isDigit d hd]
    rw [if_pos rfl, List.nil_append, hnext]
    exact finishNumber_integer hfits hrest
  · have hvalue : Nat.ofDigitChars 10 (c :: ds) 0 = Nat.ofDigitChars 10 ds (digitValue c) := by
      rw [Text.ofDigitChars_cons, Nat.zero_mul, Nat.zero_add, digitValue]
    have hnone : rest.takeWhile Char.isDigit = [] ∧ rest.dropWhile Char.isDigit = rest := by
      cases rest with
      | nil => exact ⟨rfl, rfl⟩
      | cons d rest => simp [hrest.isDigit d rfl]
    rw [hvalue] at hfits ⊢
    rw [if_neg hc, if_pos (hdigits c List.mem_cons_self),
      collectDigits_append hrest.isDigit ds _ _
        (fun d hd => hdigits d (List.mem_cons_of_mem c hd)) hfits.le]
    simp only [hnone]
    exact finishNumber_integer hfits hrest

/-! ### Values -/

theorem skipSpace_cons {c : Char} (h : isSpace c = false) (cs : List Char) :
    skipSpace (c :: cs) = c :: cs := by
  simp [skipSpace, h]

/-- A character that is a digit is not a character that is none. -/
theorem ne_of_isDigit {c d : Char} (hc : c.isDigit = true) (hd : d.isDigit = false) : c ≠ d := by
  rintro rfl
  exact absurd hc (by simp [hd])

theorem isSpace_of_isDigit {c : Char} (h : c.isDigit = true) : isSpace c = false := by
  have hne : ∀ d : Char, d.isDigit = false → decide (c = d) = false := fun d hd =>
    decide_eq_false (ne_of_isDigit h hd)
  rw [isSpace, hne ' ' rfl, hne '\n' rfl, hne '\t' rfl, hne '\r' rfl]
  rfl

theorem readValue_digit (depth : Nat) {c : Char} (h : c.isDigit = true) (cs : List Char) :
    readValue depth (c :: cs)
      = (readNumber false (c :: cs)).map fun (n, rest) => (.number n, rest) := by
  unfold readValue
  rw [skipSpace_cons (isSpace_of_isDigit h)]
  simp only
  rw [if_neg (ne_of_isDigit h rfl), if_neg (ne_of_isDigit h rfl), if_neg (ne_of_isDigit h rfl),
    if_neg (ne_of_isDigit h rfl), if_pos h]

theorem readValue_minus (depth : Nat) (cs : List Char) :
    readValue depth ('-' :: cs)
      = (readNumber true cs).map fun (n, rest) => (.number n, rest) := by
  unfold readValue
  rfl

theorem readValue_quote (depth : Nat) (cs : List Char) :
    readValue depth ('"' :: cs)
      = (readString cs).map fun (s, rest) => (.string s, rest) := by
  unfold readValue
  rfl

theorem readValue_bracket (depth : Nat) (cs : List Char) :
    readValue (depth + 1) ('[' :: cs) = readArray (readValue depth) cs := by
  rw [readValue]
  rfl

theorem readValue_brace (depth : Nat) (cs : List Char) :
    readValue (depth + 1) ('\x7b' :: cs) = readObject (readValue depth) cs := by
  rw [readValue]
  rfl

theorem readValue_integer (depth : Nat) {i : Int} (h : Fits64 i) {rest : List Char}
    (hrest : EndsNumber rest) :
    readValue depth (integerText i ++ rest) = .ok (.number (.integer i), rest) := by
  obtain ⟨hlow, hhigh⟩ := h
  have hdigits : ∀ c ∈ Nat.toDigits 10 i.natAbs, c.isDigit = true :=
    fun _ => Text.isDigit_of_mem
  have hvalue : Nat.ofDigitChars 10 (Nat.toDigits 10 i.natAbs) 0 = i.natAbs :=
    Nat.ofDigitChars_ten_toDigits
  rw [integerText]
  rcases hds : Nat.toDigits 10 i.natAbs with _ | ⟨d, ds⟩
  · exact absurd hds Nat.toDigits_ne_nil
  rw [hds] at hdigits hvalue
  have hzero : d = '0' → ds = [] := by
    rintro rfl
    exact Text.toDigits_zero_cons hds
  split
  · rename_i hneg
    have hfits : FitsSigned true (Nat.ofDigitChars 10 (d :: ds) 0) := by
      rw [hvalue]
      show 0 < i.natAbs ∧ i.natAbs ≤ 9223372036854775808
      omega
    have hsigned : signed true i.natAbs = i := by
      show -(i.natAbs : Int) = i
      omega
    rw [List.cons_append, readValue_minus, readNumber_digits hdigits hzero hfits hrest, hvalue,
      hsigned]
    rfl
  · rename_i hneg
    have hfits : FitsSigned false (Nat.ofDigitChars 10 (d :: ds) 0) := by
      rw [hvalue]
      show i.natAbs ≤ 18446744073709551615
      omega
    have hsigned : signed false i.natAbs = i := by
      show (i.natAbs : Int) = i
      omega
    rw [List.cons_append, readValue_digit depth (hdigits d List.mem_cons_self),
      ← List.cons_append, readNumber_digits hdigits hzero hfits hrest, hvalue, hsigned]
    rfl

/-! ### Arrays and objects

`ReadBy` is the induction hypothesis: a reader reads a value wherever its text stands.  The loops
are given such a reader for the values inside, and it does not matter to them which one it is.
-/

/-- The text of a value starts neither with a blank nor with the end of an array. -/
theorem text_eq_cons {depth : Nat} {v : Json} (h : Plain depth v) :
    ∃ c cs, v.text = c :: cs ∧ isSpace c = false ∧ c ≠ ']' := by
  cases h with
  | null => exact ⟨_, _, rfl, rfl, by decide⟩
  | @bool _ b =>
      cases b with
      | true => exact ⟨_, _, rfl, rfl, by decide⟩
      | false => exact ⟨_, _, rfl, rfl, by decide⟩
  | @integer _ i h =>
      show ∃ c cs, integerText i = c :: cs ∧ _
      rw [integerText]
      split
      · exact ⟨_, _, rfl, rfl, by decide⟩
      · rcases hds : Nat.toDigits 10 i.natAbs with _ | ⟨d, ds⟩
        · exact absurd hds Nat.toDigits_ne_nil
        · have hd : d.isDigit = true := Text.isDigit_of_mem (hds ▸ List.mem_cons_self)
          exact ⟨d, ds, rfl, isSpace_of_isDigit hd, ne_of_isDigit hd rfl⟩
  | string => exact ⟨_, _, rfl, rfl, by decide⟩
  | array h => exact ⟨_, _, by rw [text, List.cons_append], rfl, by decide⟩
  | object hnames h => exact ⟨_, _, by rw [text, List.cons_append], rfl, by decide⟩

/-- The value is read by `item` wherever its text stands, if the text behind it can go on with no
number. -/
def ReadBy (item : List Char → Outcome Json) (v : Json) : Prop :=
  ∀ rest, EndsNumber rest → item (v.text ++ rest) = .ok (v.sorted, rest)

theorem itemsText_cons (item : Json) (items : List Json) :
    itemsText (item :: items) = item.text ++ items.flatMap fun v => ',' :: v.text := by
  induction items generalizing item with
  | nil => simp [itemsText]
  | cons next items ih => rw [itemsText, ih, List.flatMap_cons, List.cons_append]

theorem readItems_text {depth : Nat} {item : List Char → Outcome Json} {v : Json}
    {vs : List Json} (hplain : ∀ w ∈ v :: vs, Plain depth w)
    (hread : ∀ w ∈ v :: vs, ReadBy item w) (rest : List Char) :
    ∀ fuel, vs.length < fuel →
      readItems item fuel (itemsText (v :: vs) ++ ']' :: rest)
        = .ok ((v :: vs).map sorted, rest) := by
  induction vs generalizing v with
  | nil =>
      intro fuel hfuel
      obtain ⟨fuel, rfl⟩ : ∃ n, fuel = n + 1 := ⟨fuel - 1, by simp at hfuel; omega⟩
      have hitem := hread v List.mem_cons_self (']' :: rest)
        (endsNumber_cons (by decide) rest)
      rw [itemsText_cons, List.flatMap_nil, List.append_nil, readItems, hitem]
      rfl
  | cons next vs ih =>
      intro fuel hfuel
      rw [List.length_cons] at hfuel
      obtain ⟨fuel, rfl⟩ : ∃ n, fuel = n + 1 := ⟨fuel - 1, by omega⟩
      have hlater : ∀ w ∈ next :: vs, w ∈ v :: next :: vs := fun w => List.mem_cons_of_mem v
      have htail := ih (fun w hw => hplain w (hlater w hw)) (fun w hw => hread w (hlater w hw))
        fuel (by omega)
      obtain ⟨c, cs, hnext, hspace, hclose⟩ :=
        text_eq_cons (hplain next (hlater next List.mem_cons_self))
      have hhead : itemsText (next :: vs)
          = c :: (cs ++ vs.flatMap fun v => ',' :: v.text) := by
        rw [itemsText_cons, hnext, List.cons_append]
      have hwhole : itemsText (v :: next :: vs) ++ ']' :: rest
          = v.text ++ ',' :: (itemsText (next :: vs) ++ ']' :: rest) := by
        rw [itemsText_cons, itemsText_cons, List.flatMap_cons]
        simp
      rw [hwhole, readItems, hread v List.mem_cons_self _ (endsNumber_cons (by decide) _)]
      rw [hhead, List.cons_append] at htail ⊢
      simp only [skipSpace_cons (c := ',') rfl, skipSpace_cons hspace, if_neg hclose]
      rw [htail]
      rfl

theorem readArray_text {depth : Nat} {item : List Char → Outcome Json} {items : List Json}
    (hplain : ∀ v ∈ items, Plain depth v) (hread : ∀ v ∈ items, ReadBy item v)
    (rest : List Char) :
    readArray item (itemsText items ++ ']' :: rest)
      = .ok ((array items).sorted, rest) := by
  rw [sorted_array]
  cases items with
  | nil => rfl
  | cons v vs =>
      obtain ⟨c, cs, htext, hspace, hclose⟩ := text_eq_cons (hplain v List.mem_cons_self)
      have hlength : vs.length < (itemsText (v :: vs) ++ ']' :: rest).length := by
        have := length_le_flatMap (fun v : Json => ',' :: v.text) vs (by simp)
        rw [itemsText_cons, List.length_append, List.length_append, List.length_cons]
        omega
      have hitems := readItems_text hplain hread rest _ hlength
      have hhead : itemsText (v :: vs) ++ ']' :: rest
          = c :: (cs ++ (vs.flatMap fun v => ',' :: v.text) ++ ']' :: rest) := by
        rw [itemsText_cons, htext]
        simp
      rw [hhead] at hitems ⊢
      rw [readArray, skipSpace_cons hspace]
      simp only
      rw [if_neg hclose, hitems]
      rfl

/-- A field behind the quote that opens its name. -/
def fieldText (f : String × Json) : List Char :=
  f.1.toList.flatMap escapeChar ++ '"' :: ':' :: f.2.text

theorem fieldsText_cons (f : String × Json) (fields : List (String × Json)) :
    fieldsText (f :: fields)
      = '"' :: fieldText f ++ fields.flatMap fun g => ',' :: '"' :: fieldText g := by
  induction fields generalizing f with
  | nil => simp [fieldsText, stringText, fieldText]
  | cons next fields ih =>
      rw [fieldsText, ih, List.flatMap_cons]
      simp [stringText, fieldText]

theorem readField_text {item : List Char → Outcome Json} {f : String × Json}
    (hread : ReadBy item f.2) {rest : List Char} (hrest : EndsNumber rest) :
    readField item (fieldText f ++ rest) = .ok ((f.1, f.2.sorted), rest) := by
  have hwhole : fieldText f ++ rest
      = f.1.toList.flatMap escapeChar ++ '"' :: (':' :: (f.2.text ++ rest)) := by
    simp [fieldText]
  rw [hwhole, readField, readString_text]
  simp only [skipSpace_cons (c := ':') rfl, if_true]
  rw [hread rest hrest]
  rfl

/-- The fields of an object are put in one after another. -/
theorem readFields_text {item : List Char → Outcome Json} {f : String × Json}
    {fields : List (String × Json)} (hread : ∀ g ∈ f :: fields, ReadBy item g.2)
    (rest : List Char) :
    ∀ fuel known, fields.length < fuel →
      readFields item fuel known
          (fieldText f ++ (fields.flatMap fun g => ',' :: '"' :: fieldText g) ++ '\x7d' :: rest)
        = .ok ((f :: fields).foldl (fun known g => putEntry g.1 g.2.sorted known) known, rest) := by
  induction fields generalizing f with
  | nil =>
      intro fuel known hfuel
      obtain ⟨fuel, rfl⟩ : ∃ n, fuel = n + 1 := ⟨fuel - 1, by simp at hfuel; omega⟩
      have hfield := readField_text (hread f List.mem_cons_self)
        (endsNumber_cons (c := '\x7d') (by decide) rest)
      rw [List.flatMap_nil, List.append_nil, readFields, hfield]
      rfl
  | cons next fields ih =>
      intro fuel known hfuel
      rw [List.length_cons] at hfuel
      obtain ⟨fuel, rfl⟩ : ∃ n, fuel = n + 1 := ⟨fuel - 1, by omega⟩
      have htail := ih (fun g hg => hread g (List.mem_cons_of_mem f hg)) fuel
        (putEntry f.1 f.2.sorted known) (by omega)
      have hwhole : fieldText f ++ ((next :: fields).flatMap fun g => ',' :: '"' :: fieldText g)
            ++ '\x7d' :: rest
          = fieldText f ++ ',' :: '"' :: (fieldText next
            ++ (fields.flatMap fun g => ',' :: '"' :: fieldText g) ++ '\x7d' :: rest) := by
        simp
      have hfield := readField_text (hread f List.mem_cons_self)
        (endsNumber_cons (c := ',') (by decide) ('"' :: (fieldText next
          ++ (fields.flatMap fun g => ',' :: '"' :: fieldText g) ++ '\x7d' :: rest)))
      rw [hwhole, readFields, hfield]
      exact htail

/-- Fields with different names, put in one after another, are the fields in order. -/
theorem foldl_putEntry_sorted {fields : List (String × Json)}
    (hnames : (fields.map Prod.fst).Nodup) :
    fields.foldl (fun known g => putEntry g.1 g.2.sorted known) [] = sortedFields fields := by
  have hfind : ∀ (fields : List (String × Json)), (fields.map Prod.fst).Nodup →
      ∀ known name,
        (fields.foldl (fun known g => putEntry g.1 g.2.sorted known) known).lookup name
        = ((fields.lookup name).map sorted).or (known.lookup name) := by
    intro fields
    induction fields with
    | nil => intro _ known name; rfl
    | cons f fields ih =>
        intro hnames known name
        obtain ⟨hnew, hlater⟩ := List.nodup_cons.mp hnames
        rw [List.foldl_cons, ih hlater, lookup_putEntry, lookup_cons_eq_ite]
        by_cases hname : name = f.1
        · have hnone : fields.lookup name = none :=
            lookup_eq_none_iff_notMem.mpr (hname ▸ hnew)
          simp [hname ▸ hnone, hname]
        · simp [hname]
  have hincreasing : ∀ (fields known : List (String × Json)), Increasing known →
      Increasing (fields.foldl (fun known g => putEntry g.1 g.2.sorted known) known) := by
    intro fields
    induction fields with
    | nil => intro known h; exact h
    | cons f fields ih => intro known h; exact ih _ (increasing_putEntry _ _ h)
  refine eq_of_lookup (hincreasing fields [] List.Pairwise.nil)
    (increasing_sortedFields fields) fun name => ?_
  rw [hfind fields hnames, lookup_sortedFields, List.lookup_nil, Option.or_none]

theorem readObject_text {item : List Char → Outcome Json} {fields : List (String × Json)}
    (hnames : (fields.map Prod.fst).Nodup) (hread : ∀ f ∈ fields, ReadBy item f.2)
    (rest : List Char) :
    readObject item (fieldsText fields ++ '\x7d' :: rest)
      = .ok ((object fields).sorted, rest) := by
  rw [sorted_object, ← foldl_putEntry_sorted hnames]
  cases fields with
  | nil => rfl
  | cons f fields =>
      have hlength : fields.length < ('"' :: (fieldText f
          ++ (fields.flatMap fun g => ',' :: '"' :: fieldText g) ++ '\x7d' :: rest)).length := by
        have := length_le_flatMap (fun g => ',' :: '"' :: fieldText g) fields (by simp)
        rw [List.length_cons, List.length_append, List.length_append]
        omega
      have hfields := readFields_text hread rest _ [] hlength
      rw [fieldsText_cons, List.cons_append, List.cons_append, readObject,
        skipSpace_cons (c := '"') rfl]
      show Except.map _ (readFields item _ [] _) = _
      rw [hfields]
      rfl

/-- **A plain value is read back wherever its text stands.** -/
theorem readBy_readValue {depth : Nat} {v : Json} (h : Plain depth v) :
    ReadBy (readValue depth) v := by
  induction h with
  | @null depth =>
      intro rest _
      rw [sorted_null]
      unfold readValue
      exact readWord_append null ['u', 'l', 'l'] rest
  | @bool depth b =>
      intro rest _
      rw [sorted_bool]
      unfold readValue
      cases b with
      | true => exact readWord_append (bool true) ['r', 'u', 'e'] rest
      | false => exact readWord_append (bool false) ['a', 'l', 's', 'e'] rest
  | @integer depth i h =>
      intro rest hrest
      rw [sorted_number]
      exact readValue_integer depth h hrest
  | @string depth s =>
      intro rest _
      have htext : (string s).text ++ rest
          = '"' :: (s.toList.flatMap escapeChar ++ '"' :: rest) := by
        simp [text, stringText]
      rw [sorted_string, htext, readValue_quote, readString_text]
      rfl
  | @array depth items hplain hread =>
      intro rest _
      have htext : (array items).text ++ rest = '[' :: (itemsText items ++ ']' :: rest) := by
        simp [text]
      rw [htext, readValue_bracket]
      exact readArray_text hplain hread rest
  | @object depth fields hnames _ hread =>
      intro rest _
      have htext : (object fields).text ++ rest
          = '\x7b' :: (fieldsText fields ++ '\x7d' :: rest) := by
        simp [text]
      rw [htext, readValue_brace]
      exact readObject_text hnames hread rest

/-- **A plain value is read back from its text, with its fields in order.** -/
theorem read_plain {v : Json} (h : Plain depthLimit v) : read v.text = .ok v.sorted := by
  have hvalue := readBy_readValue h [] (fun c hc => absurd hc (by simp))
  rw [List.append_nil] at hvalue
  rw [read, hvalue]
  rfl

end VServer.Json
