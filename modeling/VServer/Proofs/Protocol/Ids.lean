/-
The number of an id that is read has 64 bits.

An id is a number or a text, and in the model a number can be of any size.  What is written can only
be read again if its numbers have the size of those on the wire, so something has to be known about
the ids of requests that come in, since an answer carries the id of its request.

The reader sees to that.  Digits are collected only as long as the number that they write fits
(`collectDigits_le`); a number that is larger, or has a fraction or an exponent, is a double, and
the number of an id is none.  So an integer that is read fits (`integersFit_readNumber`).

From there it goes up to the message.  The fields of an object are what the reader of values has
found behind their names (`readObject_keeps`).  A record is filled from these fields one by
one, and whatever each field keeps, the whole record has (`Decoder.fillFields_keeps`).  A request
starts out with an id that fits, and only the field `id` changes it.
-/
import VServer.Proofs.Protocol.Relay
import VServer.Protocol.Frame

namespace VServer

namespace Json

/-! ### Numbers

A number leaves the reader in one of two ways: as the integer that its digits write, or as a double.
Everything behind a point or an exponent takes the second way, so for these parts of the reader
there is nothing to count.  `IntegersFit` is stated of what any part gives, an error included, and
each part has it because the parts that it ends in have it.
-/

/-- If an integer is read, it has 64 bits. -/
def IntegersFit (out : Outcome Number) : Prop :=
  ∀ i rest, out = .ok (.integer i, rest) → Fits64 i

theorem integersFit_error (e : Failure) : IntegersFit (.error e) :=
  fun _ _ => (nomatch ·)

theorem integersFit_double (d : Double) (rest : List Char) : IntegersFit (.ok (.double d, rest)) :=
  fun _ _ => (nomatch ·)

theorem integersFit_integer {i : Int} (h : Fits64 i) (rest : List Char) :
    IntegersFit (.ok (.integer i, rest)) := by
  intro j rest' heq
  obtain ⟨hnumber, -⟩ := Prod.mk.inj (Except.ok.inj heq)
  exact Number.integer.inj hnumber ▸ h

theorem integersFit_makeDouble (negative : Bool) (significand : Nat) (exponent : Int)
    (rest : List Char) : IntegersFit (makeDouble negative significand exponent rest) := by
  fun_cases makeDouble negative significand exponent rest with
  | case1 d => exact integersFit_double d rest
  | case2 => exact integersFit_error _

theorem integersFit_readExponent (negative : Bool) (significand : Nat) (exponent : Int)
    (cs : List Char) : IntegersFit (readExponent negative significand exponent cs) := by
  fun_cases readExponent negative significand exponent cs with
  | case1 => exact integersFit_error _
  | case2 => exact integersFit_makeDouble _ _ _ _
  | case3 => exact integersFit_error _
  | case4 => exact integersFit_double _ _
  | case5 => exact integersFit_error _

theorem integersFit_finishFraction (negative : Bool) (significand : Nat) (exponent : Int)
    (cs : List Char) : IntegersFit (finishFraction negative significand exponent cs) := by
  fun_cases finishFraction negative significand exponent cs with
  | case1 => exact integersFit_readExponent _ _ _ _
  | case2 => exact integersFit_makeDouble _ _ _ _
  | case3 => exact integersFit_makeDouble _ _ _ _

theorem integersFit_readFraction (negative : Bool) (significand : Nat) (exponent : Int)
    (cs : List Char) : IntegersFit (readFraction negative significand exponent cs) := by
  fun_cases readFraction negative significand exponent cs with
  | case1 => exact integersFit_finishFraction _ _ _ _
  | case2 => exact integersFit_error _
  | case3 => exact integersFit_finishFraction _ _ _ _
  | case4 => exact integersFit_error _
  | case5 => exact integersFit_finishFraction _ _ _ _

/-- Digits are collected only as long as they fit. -/
theorem collectDigits_le (significand count : Nat) (cs : List Char)
    (h : significand ≤ largestSignificand) :
    (collectDigits significand count cs).1 ≤ largestSignificand := by
  fun_induction collectDigits significand count cs with
  | case1 => exact h
  | case2 significand count c cs hdigit next hfits ih => exact ih hfits
  | case3 => exact h
  | case4 => exact h

/-- The two bounds are those of the two kinds of integers: of 64 bits without a sign, and of 64 bits
with one. -/
theorem integersFit_finishNumber (negative : Bool) {significand : Nat} (dropped : Nat)
    (cs : List Char) (hfits : significand ≤ largestSignificand) :
    IntegersFit (finishNumber negative significand dropped cs) := by
  have hpositive : Fits64 significand := by
    simp only [largestSignificand] at hfits
    exact ⟨by omega, by omega⟩
  have hwhole : ∀ cs, IntegersFit (if dropped = 0 then
        if negative then
          if significand = 0 ∨ largestNegated < significand then makeDouble true significand 0 cs
          else .ok (.integer (-(significand : Int)), cs)
        else .ok (.integer significand, cs)
      else makeDouble negative significand dropped cs) := by
    intro cs
    split
    · split
      · split
        · exact integersFit_makeDouble _ _ _ _
        · rename_i hsmall
          have hle := Nat.le_of_not_lt (not_or.mp hsmall).2
          simp only [largestNegated] at hle
          exact integersFit_integer ⟨by omega, by omega⟩ cs
      · exact integersFit_integer hpositive cs
    · exact integersFit_makeDouble _ _ _ _
  fun_cases finishNumber negative significand dropped cs with
  | case1 => exact integersFit_readFraction _ _ _ _
  | case2 => exact integersFit_readExponent _ _ _ _
  | case3 => exact hwhole _
  | case4 => exact hwhole _

/-- **An integer that is read has 64 bits.** -/
theorem integersFit_readNumber (negative : Bool) (cs : List Char) :
    IntegersFit (readNumber negative cs) := by
  fun_cases readNumber negative cs with
  | case1 => exact integersFit_error _
  | case2 => exact integersFit_error _
  | case3 => exact integersFit_finishNumber _ _ _ (Nat.zero_le _)
  | case4 c rest hzero hdigit significand count behind hcollect more =>
      have hvalue : digitValue c ≤ largestSignificand := by
        have hrange : c.toNat ≤ 57 := (Char.isDigit_iff_toNat.mp hdigit).2
        simp only [digitValue, largestSignificand]
        omega
      have hle := collectDigits_le (digitValue c) 0 rest hvalue
      rw [hcollect] at hle
      exact integersFit_finishNumber _ _ _ hle
  | case5 => exact integersFit_error _

/-! ### Values and fields

A value that is a number comes from the reader of numbers, and one that is an object from the reader
of objects, whose fields again come from the reader of values.  That is all that has to be known of
the reader of values to follow the id of a message.
-/

/-- Where a value comes from, as far as it is a number or an object. -/
inductive ComesFrom : Json → Prop
  | number {negative : Bool} {cs rest : List Char} {n : Number}
      (hread : readNumber negative cs = .ok (n, rest)) : ComesFrom (.number n)
  | object {inner : Nat} {cs rest : List Char} {fields : List (String × Json)}
      (hread : readObject (readValue inner) cs = .ok (.object fields, rest)) :
      ComesFrom (.object fields)
  | other {v : Json} (hnumber : ∀ n, v ≠ .number n) (hobject : ∀ fields, v ≠ .object fields) :
      ComesFrom v

theorem comesFrom_readNumber {negative : Bool} {cs rest : List Char} {v : Json}
    (h : ((readNumber negative cs).map fun (n, rest) => (Json.number n, rest)) = .ok (v, rest)) :
    ComesFrom v := by
  obtain ⟨⟨n, rest'⟩, hread, heq⟩ := exists_of_map_ok h
  obtain ⟨rfl, rfl⟩ := Prod.mk.inj heq
  exact .number hread

theorem eq_array_of_readArray {item : List Char → Outcome Json} {cs rest : List Char} {v : Json}
    (h : readArray item cs = .ok (v, rest)) : ∃ items, v = .array items := by
  unfold readArray at h
  split at h
  · cases h
  split at h
  · obtain ⟨rfl, -⟩ := Prod.mk.inj (Except.ok.inj h)
    exact ⟨[], rfl⟩
  · obtain ⟨⟨items, rest'⟩, -, heq⟩ := exists_of_map_ok h
    exact ⟨items, (Prod.mk.inj heq).1.symm⟩

theorem eq_object_of_readObject {item : List Char → Outcome Json} {cs rest : List Char} {v : Json}
    (h : readObject item cs = .ok (v, rest)) : ∃ fields, v = .object fields := by
  unfold readObject at h
  split at h
  · cases h
  split at h
  · obtain ⟨rfl, -⟩ := Prod.mk.inj (Except.ok.inj h)
    exact ⟨[], rfl⟩
  split at h
  · obtain ⟨⟨fields, rest'⟩, -, heq⟩ := exists_of_map_ok h
    exact ⟨fields, (Prod.mk.inj heq).1.symm⟩
  · cases h

theorem comesFrom_readValue {depth : Nat} {cs rest : List Char} {v : Json}
    (h : readValue depth cs = .ok (v, rest)) : ComesFrom v := by
  unfold readValue at h
  split at h
  · cases h
  split at h
  · obtain ⟨rfl, -⟩ := eq_append_of_readWord h
    exact .other (by simp) (by simp)
  split at h
  · obtain ⟨rfl, -⟩ := eq_append_of_readWord h
    exact .other (by simp) (by simp)
  split at h
  · obtain ⟨rfl, -⟩ := eq_append_of_readWord h
    exact .other (by simp) (by simp)
  split at h
  · exact comesFrom_readNumber h
  split at h
  · exact comesFrom_readNumber h
  split at h
  · obtain ⟨⟨s, rest'⟩, -, heq⟩ := exists_of_map_ok h
    obtain ⟨rfl, -⟩ := Prod.mk.inj heq
    exact .other (by simp) (by simp)
  split at h
  · split at h
    · cases h
    · obtain ⟨items, rfl⟩ := eq_array_of_readArray h
      exact .other (by simp) (by simp)
  split at h
  · split at h
    · cases h
    · obtain ⟨fields, rfl⟩ := eq_object_of_readObject h
      exact .object h
  · cases h

/-- What each value that is read has, the values of all fields have. -/
theorem readFields_keeps {item : List Char → Outcome Json} {P : Json → Prop}
    (hitem : ∀ cs v rest, item cs = .ok (v, rest) → P v) :
    ∀ (fuel : Nat) (known : List (String × Json)) (cs : List Char)
      (fields : List (String × Json)) (rest : List Char),
      readFields item fuel known cs = .ok (fields, rest) → (∀ f ∈ known, P f.2) →
      ∀ f ∈ fields, P f.2 := by
  intro fuel
  induction fuel with
  | zero => intro known cs fields rest h; cases h
  | succ fuel ih =>
      intro known cs fields rest h hknown
      rw [readFields] at h
      split at h
      · cases h
      rename_i name value after hfield
      have hvalue : P value := by
        unfold readField at hfield
        split at hfield
        · cases hfield
        split at hfield
        · cases hfield
        split at hfield
        · obtain ⟨⟨value', rest'⟩, hread, heq⟩ := exists_of_map_ok hfield
          obtain ⟨hpair, -⟩ := Prod.mk.inj heq
          obtain ⟨-, rfl⟩ := Prod.mk.inj hpair
          exact hitem _ _ _ hread
        · cases hfield
      have hknown' : ∀ f ∈ putEntry name value known, P f.2 := by
        intro f hf
        rcases mem_putEntry hf with rfl | hf
        · exact hvalue
        · exact hknown f hf
      dsimp only at h
      split at h
      · cases h
      split at h
      · obtain ⟨rfl, -⟩ := Prod.mk.inj (Except.ok.inj h)
        exact hknown'
      split at h
      · split at h
        · cases h
        split at h
        · exact ih _ _ fields rest h hknown'
        split at h
        · cases h
        · cases h
      · cases h

theorem readObject_keeps {item : List Char → Outcome Json} {P : Json → Prop}
    (hitem : ∀ cs v rest, item cs = .ok (v, rest) → P v) {cs rest : List Char}
    {fields : List (String × Json)} (h : readObject item cs = .ok (.object fields, rest)) :
    ∀ f ∈ fields, P f.2 := by
  unfold readObject at h
  split at h
  · cases h
  split at h
  · obtain ⟨hfields, -⟩ := Prod.mk.inj (Except.ok.inj h)
    obtain rfl := object.inj hfields
    exact List.forall_mem_nil _
  split at h
  · obtain ⟨⟨fields', rest'⟩, hread, heq⟩ := exists_of_map_ok h
    obtain ⟨hfields, -⟩ := Prod.mk.inj heq
    obtain rfl := object.inj hfields
    exact readFields_keeps hitem _ [] _ _ _ hread (List.forall_mem_nil _)
  · cases h

/-- An id that is read from the value, if there is one, fits. -/
def IdFits (v : Json) : Prop :=
  ∀ id, RequestId.decode v = .ok id → id.Fits

theorem idFits_of_readValue {depth : Nat} {cs rest : List Char} {v : Json}
    (h : readValue depth cs = .ok (v, rest)) : IdFits v := by
  intro id hid
  unfold RequestId.decode at hid
  split at hid
  · rename_i i
    split at hid
    · obtain rfl := Except.ok.inj hid
      cases comesFrom_readValue h with
      | @number negative cs rest _ hread =>
          obtain ⟨-, hle⟩ := integersFit_readNumber negative cs i rest hread
          show i.toNat ≤ 18446744073709551615
          omega
      | other hnumber => exact absurd rfl (hnumber _)
    · cases hid
  · obtain rfl := Except.ok.inj hid
    trivial
  · cases hid

/-- **The fields of a text that is an object fit as ids.** -/
theorem idFits_of_read {text : List Char} {fields : List (String × Json)}
    (h : read text = .ok (.object fields)) : ∀ f ∈ fields, IdFits f.2 := by
  rw [read] at h
  rcases hvalue : readValue depthLimit text with e | ⟨value, rest⟩
  · rw [hvalue] at h
    cases h
  · rw [hvalue] at h
    dsimp only at h
    split at h
    · obtain rfl : value = .object fields := Except.ok.inj h
      cases comesFrom_readValue hvalue with
      | object hread => exact readObject_keeps (fun _ _ _ => idFits_of_readValue) hread
      | other _ hobject => exact absurd rfl (hobject fields)
    · cases h

end Json

/-! ### Requests

A request is read into a record that has the number zero for an id.  Of its fields only one is an
id; the others leave it alone.
-/

theorem Request.id_fits_of_decode {fields : List (String × Json)} {r : Request}
    (hfields : ∀ f ∈ fields, Json.IdFits f.2) (h : Request.decode (.object fields) = .ok r) :
    r.id.Fits := by
  rw [Request.decode, Json.Decoder.record] at h
  split at h
  · cases h
  rename_i r' hfill
  split at h
  · cases h
  obtain rfl := Except.ok.inj h
  refine Json.Decoder.fillFields_keeps (P := fun r => r.id.Fits) ?_ hfields ?_ hfill
  · simp only [List.forall_mem_cons]
    refine ⟨?_, ?_, ?_, ?_, List.forall_mem_nil _⟩
    · rintro x v y hx - hy
      obtain ⟨s, -, rfl⟩ := Json.exists_of_map_ok hy
      exact hx
    · rintro x v y - hv hy
      obtain ⟨id, hid, rfl⟩ := Json.exists_of_map_ok hy
      exact hv id hid
    · rintro x v y hx - hy
      obtain ⟨s, -, rfl⟩ := Json.exists_of_map_ok hy
      exact hx
    · rintro x v y hx - hy
      obtain ⟨s, -, rfl⟩ := Json.exists_of_map_ok hy
      exact hx
  · exact Nat.zero_le _

/-- **The id of a request that is read fits on the wire.** -/
theorem Message.id_fits_of_parse {text : List Char} {r : Request}
    (h : parse text = .ok (.request r)) : r.id.Fits := by
  rw [parse] at h
  split at h
  · cases h
  rename_i v hread
  unfold ofJson at h
  split at h
  · rename_i hid hmethod
    obtain ⟨r', hdecode, hr⟩ := exists_of_decoded h
    obtain rfl := request.inj hr
    cases v with
    | object fields => exact Request.id_fits_of_decode (Json.idFits_of_read hread) hdecode
    | _ => cases hid
  · obtain ⟨r', -, hr⟩ := exists_of_decoded h
    cases hr
  · obtain ⟨n, -, hn⟩ := exists_of_decoded h
    cases hn
  · cases h

end VServer
