/-
The shortest decimal text of a double.

Of all decimals that round to the double, one with the fewest digits is chosen, and of those the
nearest.  The search tries one digit, two digits and so on; for each number of digits only the two
neighbours of the value on that decimal grid can be the answer.
-/
import VServer.Json.Double

namespace VServer.Json.Double

/-- Decimal digits and the power of ten that the first of them counts. -/
structure Digits where
  digits : List Char
  exponent : Int
deriving DecidableEq, Repr

/-- How many places behind the point the first digit of `num / den < 1` stands, counted from
`place`, in at most `fuel` steps. -/
def firstPlace (fuel place num den : Nat) : Nat :=
  match fuel with
  | 0 => place
  | fuel + 1 => if den ≤ num * 10 then place else firstPlace fuel (place + 1) (num * 10) den

/-- The exponent of the first decimal digit of a fraction. -/
def leadingExponent (num den : Nat) : Int :=
  if den ≤ num then ((Nat.toDigits 10 (num / den)).length : Int) - 1
  else -(firstPlace 400 1 num den : Int)

/-- The interval of numbers that round to a double, in quarters of its last place: lower end,
value, upper end. -/
def quarters (d : Double) : Nat × Nat × Nat :=
  let low := if d.mantissa = leastFullMantissa ∧ leastExponent < d.exponent then 1 else 2
  (4 * d.mantissa - low, 4 * d.mantissa, 4 * d.mantissa + 2)

/-- A decimal `n · 10 ^ k` that rounds to the double, if one of the two neighbours of the value
does. -/
def onGrid? (d : Double) (k : Int) : Option Nat :=
  let (low, value, high) := d.quarters
  let unit := d.exponent - 2
  let scaleD := Nat.pow 10 k.toNat * Nat.pow 2 (-unit).toNat
  let scaleX := Nat.pow 10 (-k).toNat * Nat.pow 2 unit.toNat
  let below := value * scaleX / scaleD
  let above := below + 1
  let closed := d.mantissa % 2 = 0
  let lowHit := if closed then low * scaleX ≤ below * scaleD else low * scaleX < below * scaleD
  let highHit :=
    if closed then above * scaleD ≤ high * scaleX else above * scaleD < high * scaleX
  let toBelow := value * scaleX - below * scaleD
  let toAbove := above * scaleD - value * scaleX
  if lowHit ∧ below ≠ 0 then
    if highHit ∧ (toAbove < toBelow ∨ (toAbove = toBelow ∧ below % 2 = 1)) then some above
    else some below
  else if highHit then some above
  else none

/-- Drop the zeros at the end of digits. -/
def dropZeros (ds : List Char) : List Char :=
  (ds.reverse.dropWhile (· == '0')).reverse

/-- Try grids from coarse to fine, in at most `fuel` steps, down from the power `k` of ten. -/
def searchDigits (d : Double) (fuel : Nat) (k : Int) : Digits :=
  match fuel with
  | 0 => ⟨['0'], 0⟩
  | fuel + 1 =>
    match d.onGrid? k with
    | some n =>
      let ds := Nat.toDigits 10 n
      ⟨dropZeros ds, k + (ds.length : Int) - 1⟩
    | none => searchDigits d fuel (k - 1)

/-- The digits of a double other than zero. -/
def shortestDigits (d : Double) : Digits :=
  let (num, den) := d.ratio
  searchDigits d 20 (leadingExponent num den)

/-- Digits in positional notation, with at least one place behind the point. -/
def positional (ds : List Char) (exponent : Int) : List Char :=
  if 0 ≤ exponent then
    let whole := exponent.toNat + 1
    if ds.length ≤ whole then ds ++ List.replicate (whole - ds.length) '0' ++ ['.', '0']
    else ds.take whole ++ '.' :: ds.drop whole
  else ['0', '.'] ++ List.replicate ((-exponent).toNat - 1) '0' ++ ds

/-- Digits in scientific notation, with a sign in front of the exponent. -/
def scientific (ds : List Char) (exponent : Int) : List Char :=
  let lead := ds.take 1
  let tail := ds.drop 1
  let mantissa := if tail.isEmpty then lead else lead ++ '.' :: tail
  let sign := if 0 ≤ exponent then '+' else '-'
  mantissa ++ 'e' :: sign :: Nat.toDigits 10 exponent.natAbs

/-- The text of a double: positional where the first digit counts from `10 ^ -5` to `10 ^ 15`,
scientific elsewhere. -/
def text (d : Double) : List Char :=
  let sign := if d.negative then ['-'] else []
  if d.mantissa = 0 then sign ++ ['0', '.', '0']
  else
    let ⟨ds, e⟩ := d.shortestDigits
    sign ++ if -5 ≤ e ∧ e ≤ 15 then positional ds e else scientific ds e

end VServer.Json.Double
