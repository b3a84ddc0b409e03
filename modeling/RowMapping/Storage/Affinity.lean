/-
What a column does to the cells that are put into it.

The declared type of a column is searched for words that give its affinity. A
text column writes numbers as text, the numeric columns take what is exactly an
integer as one, and a real column turns such integers into reals, so that its
zeros have no sign. Bytes and missing cells are kept by every column.

In a text column a real has at most fifteen significant digits, and a point in
any case; beyond the ten-thousandth and the hundred million millions it has an
exponent.
-/
import RowMapping.Number.Text
import RowMapping.Storage.Cell

set_option autoImplicit false

namespace RowMapping

/-! ## Reals as stored text -/

namespace Decimal

/-- The decimal of at most so many digits nearest to the positive number
`m · 2 ^ e`, halves upwards. -/
def ofSignificant (places m : Nat) (e : Int) : Decimal :=
  let num := Floating.shiftUp m e
  let den := Floating.shiftUp 1 (-e)
  let exponent := leadingDigit num den - (places - 1 : Int)
  let num := num * Nat.pow 10 (-exponent).toNat
  let den := den * Nat.pow 10 exponent.toNat
  normalize ((2 * num + den) / (2 * den)) exponent

/-- The text of a positive decimal in a text column. -/
def storedText (d : Decimal) : String :=
  let digits := Nat.toDigits 10 d.digits
  let leading := d.exponent + (digits.length - 1 : Int)
  if -4 ≤ leading ∧ leading ≤ 14 then d.positionalText true
  else
    let fraction := if digits.length = 1 then ['0'] else digits.drop 1
    let exponent := Nat.toDigits 10 leading.natAbs
    let padding := if exponent.length = 1 then ['0'] else []
    String.ofList (digits.take 1 ++ '.' :: fraction ++ 'e' :: (if leading < 0 then '-' else '+')
      :: padding ++ exponent)

end Decimal

/-- The text of a real in a text column. -/
def Floating.storedText : Floating → String
  | nan => ""
  | infinity negative => if negative then "-Inf" else "Inf"
  | finite negative m e _ =>
    if m = 0 then "0.0"
    else (if negative then "-" else "") ++ (Decimal.ofSignificant 15 m e).storedText

/-! ## Affinities -/

/-- What a column prefers its cells to be. -/
inductive Affinity where
  | integer
  | text
  | blob
  | real
  | numeric
deriving DecidableEq, Repr

namespace Affinity

/-- Whether a declared type has a word in it, in any case. -/
def mentions (word declared : String) : Bool :=
  let w := word.toList
  let cs := declared.toList.map Char.toUpper
  (List.range (cs.length + 1)).any fun i => w.isPrefixOf (cs.drop i)

/-- The affinity of a column by its declared type. The first rule that applies
counts. -/
def ofDeclared (declared : String) : Affinity :=
  if mentions "INT" declared then integer
  else if ["CHAR", "CLOB", "TEXT"].any (mentions · declared) then text
  else if declared.isEmpty || mentions "BLOB" declared then blob
  else if ["REAL", "FLOA", "DOUB"].any (mentions · declared) then real
  else numeric

/-- An integral real strictly between the least and the greatest word, as an integer. -/
def integralReal (x : Floating) : Cell :=
  match x.toInt? with
  | some i => if -0x8000000000000000 < i ∧ i < 0x7fffffffffffffff then .integer (Int64.ofInt i) else .real x
  | none => .real x

/-- A text without the ASCII blanks at its ends. -/
def trimAscii (cs : List Char) : List Char :=
  let isBlank (c : Char) : Bool := c == ' ' || (0x09 ≤ c.toNat && c.toNat ≤ 0x0d)
  ((cs.dropWhile isBlank).reverse.dropWhile isBlank).reverse

/-- The number a text is, if the whole of it is a decimal number. -/
def numberOfText? (s : String) : Option Cell :=
  let cs := trimAscii s.toList
  if cs.all (fun c => c.isDigit || c == '+' || c == '-' || c == '.' || c == 'e' || c == 'E') then
    match (Floating.signedDigits? cs).bind int64Of? with
    | some i => some (.integer i)
    | none => (Floating.ofText? .double (String.ofList cs)).map .real
  else none

/-- The number a text is, or else the text. -/
def textOrNumber (s : String) : Cell := (numberOfText? s).getD (.text s)

/-- An integer as a real. Other cells are kept. -/
def widen : Cell → Cell
  | .integer i => .real (Floating.ofInt .double i.toInt)
  | c => c

/-- An integral real as an integer. Other cells are kept. -/
def narrow : Cell → Cell
  | .real x => integralReal x
  | c => c

/-- What a column stores for a cell put into it. -/
def apply : Affinity → Cell → Cell
  | text, .integer i => .text (toString i.toInt)
  | text, .real x => .text x.storedText
  | real, .text s => widen (narrow (textOrNumber s))
  | real, c => widen (narrow c)
  | integer, .text s => narrow (textOrNumber s)
  | integer, c => narrow c
  | numeric, .text s => narrow (textOrNumber s)
  | numeric, c => narrow c
  | _, c => c

end Affinity

end RowMapping
