/-
Binary floating point with 53 bits.

A double is a sign, a mantissa and an exponent of two.  It is kept in normal form: the mantissa
has at most 53 bits, and fewer only where the exponent is the least one.  All arithmetic is done
on exact fractions of natural numbers and rounded once, to the nearest double, ties to the even
mantissa.
-/

namespace VServer.Json

/-- The number `± mantissa · 2 ^ exponent`. -/
structure Double where
  negative : Bool
  mantissa : Nat
  exponent : Int
deriving DecidableEq, Repr, Inhabited

namespace Double

/-- The least number with more than 53 bits. -/
def mantissaBound : Nat := 9007199254740992

/-- The least number with 53 bits. -/
def leastFullMantissa : Nat := 4503599627370496

/-- The least exponent of two. -/
def leastExponent : Int := -1074

/-- The largest exponent of two. -/
def largestExponent : Int := 971

/-- Zero with a sign. -/
def zero (negative : Bool) : Double := ⟨negative, 0, leastExponent⟩

/-- A quotient rounded to the nearest natural number, ties to even. -/
def divRound (num den : Nat) : Nat :=
  let q := num / den
  let twice := 2 * (num % den)
  if twice < den then q
  else if den < twice then q + 1
  else if q % 2 = 0 then q else q + 1

/-- The fraction `num / (den · 2 ^ e)` as numerator and denominator. -/
def scaled (num den : Nat) (e : Int) : Nat × Nat :=
  if 0 ≤ e then (num, den * Nat.pow 2 e.toNat) else (num * Nat.pow 2 (-e).toNat, den)

/-- The double nearest to a fraction, if it is not beyond the largest one. -/
def ofRatio? (negative : Bool) (num den : Nat) : Option Double :=
  if num = 0 then some (zero negative)
  else
    let low : Int := (Nat.log2 num : Int) - (Nat.log2 den : Int) - 53
    let start := max low leastExponent
    let coarse := scaled num den start
    let e := if coarse.1 / coarse.2 < mantissaBound then start else start + 1
    let fine := scaled num den e
    let m := divRound fine.1 fine.2
    let (m, e) := if m = mantissaBound then (leastFullMantissa, e + 1) else (m, e)
    if largestExponent < e then none else some ⟨negative, m, e⟩

/-- The size of a double as a fraction. -/
def ratio (d : Double) : Nat × Nat :=
  if 0 ≤ d.exponent then (d.mantissa * Nat.pow 2 d.exponent.toNat, 1)
  else (d.mantissa, Nat.pow 2 (-d.exponent).toNat)

/-- The product, if it is not too large. -/
def mul? (a b : Double) : Option Double :=
  let (n, k) := a.ratio
  let (n', k') := b.ratio
  ofRatio? (a.negative != b.negative) (n * n') (k * k')

/-- The quotient, if it is not too large. -/
def div? (a b : Double) : Option Double :=
  let (n, k) := a.ratio
  let (n', k') := b.ratio
  ofRatio? (a.negative != b.negative) (n * k') (k * n')

/-- The double nearest to `10 ^ e`. -/
def tenPower? (e : Nat) : Option Double :=
  ofRatio? false (Nat.pow 10 e) 1

/-- Divide by `10 ^ 308` until at most `308` decimal places are left, in at most `fuel` steps. -/
def shrink (fuel : Nat) (d : Double) (places : Nat) : Option (Double × Nat) :=
  match fuel with
  | 0 => some (d, places)
  | fuel + 1 =>
    if places ≤ 308 || d.mantissa = 0 then some (d, places)
    else do
      let power ← tenPower? 308
      let d ← d.div? power
      shrink fuel d (places - 308)

/-- The double for `significand · 10 ^ exponent`.  The significand is rounded first and the
product or quotient with the power of ten is rounded again; `none` stands for a number that is too
large. -/
def ofDecimal? (negative : Bool) (significand : Nat) (exponent : Int) : Option Double := do
  let whole ← ofRatio? negative significand 1
  if 0 ≤ exponent then
    if exponent ≤ 308 then whole.mul? (← tenPower? exponent.toNat)
    else if significand = 0 then some whole
    else none
  else
    let (d, places) ← shrink 4 whole (-exponent).toNat
    if d.mantissa = 0 then some d else d.div? (← tenPower? places)

end Double

end VServer.Json
