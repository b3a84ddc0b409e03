/-
The two decimal texts of floating-point numbers this library writes, and the one
it reads.

`Floating.display` is positional whatever the magnitude: no exponent, and no
fraction where there is none. `Floating.jsonText` always has a fraction or an
exponent and switches to exponents at both ends of a fixed range. Both lay out
the digits chosen by `Decimal.shortest`; what they decide beyond that is one
`NumberLayout` record each.
-/
import RowMapping.Number.Shortest

set_option autoImplicit false

namespace RowMapping

/-- What a text of a number decides beyond its digits. -/
structure NumberLayout where
  /-- Which of two equally near decimals is shown. -/
  tie : DecimalTie
  /-- The powers of ten of a leading digit that are written without an exponent;
  none stands for all of them. -/
  positional : Option (Int × Int)
  /-- Whether an integral number ends in `.0` when written without an exponent. -/
  wholeFraction : Bool

namespace NumberLayout

/-- Numbers shown to people. -/
def display : NumberLayout := ⟨.up, none, false⟩

/-- Numbers in JSON documents. -/
def json : NumberLayout := ⟨.even, some (-5, 15), true⟩

end NumberLayout

namespace Decimal

/-- The digits without an exponent: zeros fill up to the point on either side. -/
def positionalText (wholeFraction : Bool) (d : Decimal) : String :=
  let digits := Nat.toDigits 10 d.digits
  if 0 ≤ d.exponent then
    let whole := digits ++ List.replicate d.exponent.toNat '0'
    String.ofList whole ++ if wholeFraction then ".0" else ""
  else
    let places := (-d.exponent).toNat
    let padded := List.replicate (places + 1 - digits.length) '0' ++ digits
    let wholeLength := padded.length - places
    String.ofList (padded.take wholeLength ++ '.' :: padded.drop wholeLength)

/-- One digit before the point, and a signed exponent. -/
def exponentText (d : Decimal) : String :=
  let digits := Nat.toDigits 10 d.digits
  let exponent := d.exponent + (digits.length - 1 : Int)
  let fraction := match digits.drop 1 with
    | [] => []
    | rest => '.' :: rest
  let sign := if exponent < 0 then "-" else "+"
  String.ofList (digits.take 1 ++ fraction) ++ "e" ++ sign ++ toString exponent.natAbs

/-- The text of a positive decimal. -/
def text (layout : NumberLayout) (d : Decimal) : String :=
  match layout.positional with
  | none => d.positionalText layout.wholeFraction
  | some (least, greatest) =>
    let leading := d.exponent + ((Nat.toDigits 10 d.digits).length - 1 : Int)
    if least ≤ leading ∧ leading ≤ greatest then d.positionalText layout.wholeFraction
    else d.exponentText

end Decimal

namespace Floating

/-- The text of a finite number of a format. -/
def finiteText (f : FloatFormat) (layout : NumberLayout) (negative : Bool) (m : Nat) (e : Int) :
    String :=
  let digits : Decimal := if m = 0 then ⟨0, 0⟩ else Decimal.shortest f layout.tie m e
  (if negative then "-" else "") ++ digits.text layout

/-- The text shown for a number of a format, without an exponent. -/
def display (f : FloatFormat) : Floating → String
  | nan => "NaN"
  | infinity negative => if negative then "-inf" else "inf"
  | finite negative m e _ => finiteText f .display negative m e

/-- The JSON text of a double. JSON has no text for the numbers that are not finite. -/
def jsonText : Floating → String
  | finite negative m e _ => finiteText .double .json negative m e
  | _ => "null"

/-! ## Reading -/

/-- The value of a run of decimal digits. -/
def digitsValue (cs : List Char) : Nat :=
  cs.foldl (fun n c => 10 * n + (c.toNat - '0'.toNat)) 0

/-- A whole text that is a run of digits with an optional sign. -/
def signedDigits? : List Char → Option Int
  | '-' :: cs => if cs.all Char.isDigit && !cs.isEmpty then some (-(digitsValue cs : Int)) else none
  | '+' :: cs => if cs.all Char.isDigit && !cs.isEmpty then some (digitsValue cs) else none
  | cs => if cs.all Char.isDigit && !cs.isEmpty then some (digitsValue cs) else none

/-- An unsigned decimal text: digits with an optional point, at least one digit
on either side of it, and an optional exponent. -/
def ofUnsignedText (f : FloatFormat) (negative : Bool) (cs : List Char) : Option Floating :=
  let whole := cs.takeWhile Char.isDigit
  let rest := cs.dropWhile Char.isDigit
  let (fraction, rest) := match rest with
    | '.' :: r => (r.takeWhile Char.isDigit, r.dropWhile Char.isDigit)
    | r => ([], r)
  let exponent : Option Int := match rest with
    | [] => some 0
    | c :: r => if c = 'e' ∨ c = 'E' then signedDigits? r else none
  if whole.isEmpty && fraction.isEmpty then none
  else exponent.map fun e =>
    ofDecimal f negative (digitsValue (whole ++ fraction)) (e - fraction.length)

/-- Read a number of a format: a decimal text, `inf`, `infinity` or `nan`, the
words in any case, with an optional sign in front. -/
def ofText? (f : FloatFormat) (s : String) : Option Floating :=
  let (negative, cs) := match s.toList with
    | '-' :: r => (true, r)
    | '+' :: r => (false, r)
    | r => (false, r)
  let word := String.ofList (cs.map Char.toLower)
  if word = "inf" ∨ word = "infinity" then some (infinity negative)
  else if word = "nan" then some nan
  else ofUnsignedText f negative cs

end Floating

end RowMapping
