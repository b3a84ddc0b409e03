/-
The fewest decimal digits that read back to a floating-point number.

The reals that round to a number form an interval around it; its ends belong to
it when the significand is even. For one digit, two digits and so on, the two
points of that decimal grid next to the number are tested against the interval
in exact arithmetic. The first grid with a hit gives the digits, the nearer
point if both are hits; an exact tie is left to the caller, since the texts this
library writes disagree about it.
-/
import RowMapping.Number.Floating

set_option autoImplicit false

namespace RowMapping

/-- A decimal number `digits · 10 ^ exponent`. -/
structure Decimal where
  digits : Nat
  exponent : Int
deriving DecidableEq, Repr

/-- Which of two equally near decimals is taken. -/
inductive DecimalTie where
  | up
  | even
deriving DecidableEq, Repr

namespace Decimal

/-- Strip the factors of ten of the digits into the exponent. -/
def normalize (digits : Nat) (exponent : Int) : Decimal :=
  if h : digits = 0 then ⟨0, 0⟩
  else if digits % 10 = 0 then normalize (digits / 10) (exponent + 1)
  else ⟨digits, exponent⟩
termination_by digits
decreasing_by omega

/-- The power of ten of the leading digit of `num / den`, for positive operands. -/
def leadingDigit (num den : Nat) : Int :=
  if den ≤ num then (Floating.decimalLength (num / den) : Int) - 1
  else -(Floating.decimalLength ((den - 1) / num) : Int)

/-- The significand written with all the bits its format allows. -/
def fullSignificand (f : FloatFormat) (m : Nat) (e : Int) : Nat × Int :=
  let spare := f.precision - (Nat.log2 m + 1)
  let room := (e - f.minExponent).toNat
  let shift := min spare room
  (m * Nat.pow 2 shift, e - shift)

/-- The interval of reals that round to a positive number, as numerators over a
common denominator. -/
structure RoundingInterval where
  lower : Nat
  value : Nat
  upper : Nat
  denominator : Nat
  closed : Bool

/-- Half a unit of the last place lies above the number, and below it as well
unless the number is the least of its binade, where it is a quarter. -/
def roundingInterval (f : FloatFormat) (m : Nat) (e : Int) : RoundingInterval :=
  let (m, e) := fullSignificand f m e
  let quarterBelow := m = Nat.pow 2 (f.precision - 1) ∧ f.minExponent < e
  let scale (n : Nat) : Nat := Floating.shiftUp n (e - 2)
  { lower := scale (4 * m - if quarterBelow then 1 else 2)
    value := scale (4 * m)
    upper := scale (4 * m + 2)
    denominator := Floating.shiftUp 1 (2 - e)
    closed := m % 2 = 0 }

/-- Whether `num / den` lies in the interval. -/
def RoundingInterval.contains (i : RoundingInterval) (num den : Nat) : Bool :=
  let n := num * i.denominator
  if i.closed then i.lower * den ≤ n ∧ n ≤ i.upper * den
  else i.lower * den < n ∧ n < i.upper * den

/-- The grid point of `10 ^ exponent` next to the number that lies in the
interval, the nearer one if both neighbours do. -/
def gridPoint (tie : DecimalTie) (i : RoundingInterval) (exponent : Int) : Option Decimal :=
  let up := Nat.pow 10 exponent.toNat
  let down := Nat.pow 10 (-exponent).toNat
  let num := i.value * down
  let den := i.denominator * up
  let below := num / den
  let above := below + 1
  -- no digits at all would be zero, which the number is not
  let belowIn := i.contains (below * up) down && below != 0
  let aboveIn := i.contains (above * up) down
  let twice := 2 * (num % den)
  let takeAbove :=
    if belowIn && aboveIn then
      if twice < den then false
      else if den < twice then true
      else match tie with
        | .up => true
        | .even => below % 2 == 1
    else aboveIn
  if belowIn || aboveIn then some ⟨if takeAbove then above else below, exponent⟩ else none

/-- The most digits ever needed for a number of at most 53 significant bits. -/
def maxDigits : Nat := 17

/-- The shortest decimal that reads back to the positive number `m · 2 ^ e`. -/
def shortest (f : FloatFormat) (tie : DecimalTie) (m : Nat) (e : Int) : Decimal :=
  let i := roundingInterval f m e
  let leading := leadingDigit i.value i.denominator
  match (List.range maxDigits).findSome? fun n : Nat => gridPoint tie i (leading - n) with
  | some d => normalize d.digits d.exponent
  | none => normalize (Floating.shiftUp m e) 0

end Decimal

end RowMapping
