/-
Numbers in decimal digits.

What is needed of digits in two places: lengths in headers and numerals in values are read from
left to right with the number so far at hand, and are written by `Nat.toDigits`.
-/

namespace VServer.Text

/-- Further digits only make a number larger. -/
theorem le_ofDigitChars (ds : List Char) (n : Nat) : n ≤ Nat.ofDigitChars 10 ds n := by
  rw [Nat.ofDigitChars_eq_ofDigitChars_zero]
  have hpos : 0 < 10 ^ ds.length := Nat.pow_pos (by decide)
  exact Nat.le_add_right_of_le (Nat.le_mul_of_pos_left n hpos)

theorem ofDigitChars_cons (c : Char) (ds : List Char) (n : Nat) :
    Nat.ofDigitChars 10 (c :: ds) n = Nat.ofDigitChars 10 ds (n * 10 + (c.toNat - 48)) := by
  rw [Nat.ofDigitChars_cons, Nat.mul_comm]
  rfl

theorem isDigit_of_mem {n : Nat} {c : Char} (hc : c ∈ Nat.toDigits 10 n) : c.isDigit = true :=
  Nat.isDigit_of_mem_toDigits (by decide) (by decide) hc

/-- The digits of a number start with a zero only if they are nothing else. -/
theorem toDigits_zero_cons {n : Nat} {ds : List Char} (h : Nat.toDigits 10 n = '0' :: ds) :
    ds = [] := by
  induction n using Nat.strongRecOn generalizing ds with
  | ind n ih =>
      by_cases hn : n < 10
      · rw [Nat.toDigits_of_lt_base hn] at h
        exact (List.cons.inj h).2.symm
      · rw [Nat.toDigits_of_base_le (by decide) (by omega)] at h
        rcases hhigh : Nat.toDigits 10 (n / 10) with _ | ⟨d, high⟩
        · exact absurd hhigh Nat.toDigits_ne_nil
        · -- The digits in front would be those of zero, and a number of two digits has others.
          rw [hhigh, List.cons_append] at h
          obtain ⟨rfl, -⟩ := List.cons.inj h
          have hnil := ih (n / 10) (by omega) hhigh
          have hvalue : Nat.ofDigitChars 10 (Nat.toDigits 10 (n / 10)) 0 = n / 10 :=
            Nat.ofDigitChars_ten_toDigits
          rw [hhigh, hnil] at hvalue
          have hzero : (0 : Nat) = n / 10 := hvalue
          omega

end VServer.Text
