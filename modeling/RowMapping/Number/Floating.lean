/-
Floating-point numbers by their exact values.

A finite number is a signed significand times a power of two, with the
significand odd unless it is zero. The width of a format plays no part in the
value itself: it matters only where a number is rounded, and there it is a
parameter. A single-precision number is therefore also a double-precision one
without any conversion, and two numbers are equal as data exactly when they are
the same number (zero keeps its sign).

Rounding goes to the nearest representable number, ties to the even
significand, and is carried out on a quotient of naturals, so it never rounds
twice.
-/
set_option autoImplicit false

namespace RowMapping

/-! ## Formats -/

/-- A binary format: the bits of a full significand, and the least and the
greatest exponent of a significand of that width. -/
structure FloatFormat where
  precision : Nat
  minExponent : Int
  maxExponent : Int
deriving DecidableEq, Repr

namespace FloatFormat

/-- The 64-bit format. -/
def double : FloatFormat := ⟨53, -1074, 971⟩

/-- The 32-bit format. -/
def single : FloatFormat := ⟨24, -149, 104⟩

end FloatFormat

/-! ## Numbers -/

/-- A significand is in normal form when it is odd, or zero with exponent zero. -/
def NormalForm (significand : Nat) (exponent : Int) : Prop :=
  significand % 2 = 1 ∨ (significand = 0 ∧ exponent = 0)

instance (significand : Nat) (exponent : Int) : Decidable (NormalForm significand exponent) :=
  inferInstanceAs (Decidable (_ ∨ _))

/-- A floating-point number: `±significand · 2 ^ exponent`, an infinity, or no
number at all. -/
inductive Floating where
  | nan
  | infinity (negative : Bool)
  | finite (negative : Bool) (significand : Nat) (exponent : Int)
      (normal : NormalForm significand exponent)
deriving DecidableEq

namespace Floating

/-- Zero, which keeps a sign. -/
def zero (negative : Bool) : Floating :=
  .finite negative 0 0 (.inr ⟨rfl, rfl⟩)

/-- Strip the factors of two of a significand into the exponent. -/
def normalize (negative : Bool) (significand : Nat) (exponent : Int) : Floating :=
  if h : significand = 0 then zero negative
  else if hodd : significand % 2 = 1 then .finite negative significand exponent (.inl hodd)
  else normalize negative (significand / 2) (exponent + 1)
termination_by significand
decreasing_by omega

/-- Whether the number is neither infinite nor undefined. -/
def isFinite : Floating → Bool
  | .finite .. => true
  | _ => false

/-- Whether the number is a zero of either sign. An undefined number is not. -/
def isZero : Floating → Bool
  | .finite _ m _ _ => m == 0
  | _ => false

/-! ## Rounding -/

/-- `n · 2 ^ e` for a non-negative exponent, and `n` for a negative one. -/
def shiftUp (n : Nat) (e : Int) : Nat := n * Nat.pow 2 e.toNat

/-- The quotient rounded to the nearest natural, ties to the even one. -/
def roundDiv (num den : Nat) : Nat :=
  let q := num / den
  let r := num % den
  if 2 * r < den then q
  else if den < 2 * r then q + 1
  else if q % 2 = 0 then q else q + 1

/-- The exponent of the leading bit of `num / den`, for positive operands. -/
def leadingBit (num den : Nat) : Int :=
  let guess : Int := (Nat.log2 num : Int) - (Nat.log2 den : Int)
  if shiftUp den guess ≤ shiftUp num (-guess) then guess else guess - 1

/-- The number of the format nearest to `±num / den`. A value beyond the
greatest finite number becomes an infinity. -/
def round (f : FloatFormat) (negative : Bool) (num den : Nat) : Floating :=
  if num = 0 then zero negative
  else
    let exponent := max (leadingBit num den - (f.precision - 1 : Int)) f.minExponent
    let significand := roundDiv (shiftUp num (-exponent)) (shiftUp den exponent)
    let overflows :=
      f.maxExponent < exponent ∨ (exponent = f.maxExponent ∧ Nat.pow 2 f.precision ≤ significand)
    if overflows then .infinity negative else normalize negative significand exponent

/-- The number of the format nearest to an integer. -/
def ofInt (f : FloatFormat) (i : Int) : Floating :=
  round f (decide (i < 0)) i.natAbs 1

/-- A number fitted into another format. -/
def fit (f : FloatFormat) : Floating → Floating
  | .finite negative m e _ => round f negative (shiftUp m e) (shiftUp 1 (-e))
  | x => x

/-- The product with a natural, rounded once. -/
def scale (f : FloatFormat) (k : Nat) : Floating → Floating
  | .finite negative m e _ => round f negative (k * shiftUp m e) (shiftUp 1 (-e))
  | .infinity negative => if k = 0 then .nan else .infinity negative
  | .nan => .nan

/-- Decimal orders of magnitude beyond which every supported format overflows,
and below whose negative every number rounds to zero. It keeps the powers of
ten small for texts with absurd exponents. -/
def decimalRange : Int := 400

/-- Decimal digits of a natural; none for zero. -/
def decimalLength (n : Nat) : Nat :=
  if h : n = 0 then 0 else decimalLength (n / 10) + 1
termination_by n
decreasing_by omega

/-- The number of the format nearest to `±digits · 10 ^ exponent`. -/
def ofDecimal (f : FloatFormat) (negative : Bool) (digits : Nat) (exponent : Int) : Floating :=
  if digits = 0 then zero negative
  else
    let magnitude := (decimalLength digits : Int) + exponent
    if decimalRange < magnitude then .infinity negative
    else if magnitude < -decimalRange then zero negative
    else round f negative (digits * Nat.pow 10 exponent.toNat) (Nat.pow 10 (-exponent).toNat)

/-! ## Integers -/

/-- The number as an integer, if it is one. -/
def toInt? : Floating → Option Int
  | .finite negative m e _ =>
    if 0 ≤ e then
      let n : Int := shiftUp m e
      some (if negative then -n else n)
    else none
  | _ => none

/-- The magnitude rounded to the nearest integer, halves away from zero. -/
def roundHalfAway : Floating → Option Int
  | .finite negative m e _ =>
    let n : Int := (2 * shiftUp m e + shiftUp 1 (-e)) / (2 * shiftUp 1 (-e))
    some (if negative then -n else n)
  | _ => none

end Floating

end RowMapping
