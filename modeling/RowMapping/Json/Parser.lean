/-
Reading JSON text.

The grammar is the strict one: no leading zeros, no trailing commas, no control
characters in strings, no half surrogate pairs, nothing after the document.
Documents nest at most 127 levels deep, and that bound is what the recursion
over nested documents descends on; runs of items descend on the text that is
left.

Fields are read as they are written, repetitions included, and then brought into
order.

A number with a fraction or an exponent, or too large for 64 bits, is read as
its leading digits as far as they fit 64 bits, rounded to a double, and then
multiplied or divided by the double nearest to the power of ten that remains.
Its value is therefore rounded twice. A number too large for a double is
refused.
-/
import RowMapping.Json.Basic
import RowMapping.Number.Text

set_option autoImplicit false

namespace RowMapping.Json

/-! ## Tokens -/

/-- The four blanks of the grammar. -/
def isBlank (c : Char) : Bool := c == ' ' || c == '\t' || c == '\n' || c == '\r'

/-- A text without its leading blanks. -/
def skipBlanks (cs : List Char) : List Char := cs.dropWhile isBlank

/-- The value of a hexadecimal digit in either case. -/
def hexValue? (c : Char) : Option Nat :=
  if '0' ≤ c ∧ c ≤ '9' then some (c.toNat - '0'.toNat)
  else if 'a' ≤ c ∧ c ≤ 'f' then some (c.toNat - 'a'.toNat + 10)
  else if 'A' ≤ c ∧ c ≤ 'F' then some (c.toNat - 'A'.toNat + 10)
  else none

/-- The value of four hexadecimal digits. -/
def hexUnit? (a b c d : Char) : Option Nat := do
  let a ← hexValue? a
  let b ← hexValue? b
  let c ← hexValue? c
  let d ← hexValue? d
  pure (((a * 16 + b) * 16 + c) * 16 + d)

/-- The character a single-letter escape stands for. -/
def unescape? (c : Char) : Option Char :=
  if c = '"' then some '"'
  else if c = '\\' then some '\\'
  else if c = '/' then some '/'
  else if c = 'b' then some '\x08'
  else if c = 'f' then some '\x0c'
  else if c = 'n' then some '\n'
  else if c = 'r' then some '\r'
  else if c = 't' then some '\t'
  else none

/-- The first half of a surrogate pair. -/
def isLeadingSurrogate (n : Nat) : Bool := 0xd800 ≤ n && n < 0xdc00

/-- The second half of a surrogate pair. -/
def isTrailingSurrogate (n : Nat) : Bool := 0xdc00 ≤ n && n < 0xe000

/-- Prepend a character to the string read from the rest. -/
def prepend (c : Char) : List Char × List Char → List Char × List Char
  | (s, rest) => (c :: s, rest)

/-- The rest of a string after its opening quotation mark, with the text that
follows the closing one. -/
def stringBody : List Char → Option (List Char × List Char)
  | [] => none
  | '"' :: rest => some ([], rest)
  | '\\' :: 'u' :: a :: b :: c :: d :: rest =>
    match hexUnit? a b c d with
    | none => none
    | some unit =>
      if isLeadingSurrogate unit then
        -- the character is written in two units, and only the other half may follow
        match rest with
        | '\\' :: 'u' :: e :: f :: g :: h :: rest =>
          match hexUnit? e f g h with
          | none => none
          | some low =>
            if isTrailingSurrogate low then
              let point := 0x10000 + (unit - 0xd800) * 0x400 + (low - 0xdc00)
              (stringBody rest).map (prepend (Char.ofNat point))
            else none
        | _ => none
      else if isTrailingSurrogate unit then none
      else (stringBody rest).map (prepend (Char.ofNat unit))
  | '\\' :: c :: rest =>
    match unescape? c with
    | none => none
    | some c => (stringBody rest).map (prepend c)
  | c :: rest => if c.toNat < 0x20 then none else (stringBody rest).map (prepend c)

/-! ## Numbers -/

/-- The greatest number of 64 bits. -/
def maxWord : Nat := 0xffffffffffffffff

/-- Append digits to a significand while they fit 64 bits; the second part is
how many did. -/
def appendDigits (significand : Nat) : List Char → Nat × Nat
  | [] => (significand, 0)
  | c :: rest =>
    let next := 10 * significand + (c.toNat - '0'.toNat)
    if next ≤ maxWord then
      let (s, n) := appendDigits next rest
      (s, n + 1)
    else (significand, 0)

/-- A significand times a power of ten in doubles: the significand is rounded,
the power of ten is rounded, and their product or quotient is rounded. Powers
beyond the range of doubles are taken in two steps. -/
def scaledDouble (negative : Bool) (significand : Nat) (exponent : Int) : Floating :=
  let ratio (x : Floating) (k : Nat) : Floating :=
    match x, Floating.round .double false (Nat.pow 10 k) 1 with
    | .finite _ m e _, .finite _ m' e' _ =>
      Floating.round .double negative (Floating.shiftUp m (e - e')) (Floating.shiftUp m' (e' - e))
    | x, _ => x
  let product (x : Floating) (k : Nat) : Floating :=
    match x, Floating.round .double false (Nat.pow 10 k) 1 with
    | .finite _ m e _, .finite _ m' e' _ =>
      Floating.round .double negative (Floating.shiftUp (m * m') (e + e'))
        (Floating.shiftUp 1 (-(e + e')))
    | x, _ => x
  let x := Floating.round .double negative significand 1
  if significand = 0 then x
  else if 308 < exponent then .infinity negative
  else if 0 ≤ exponent then product x exponent.toNat
  else if -308 ≤ exponent then ratio x (-exponent).toNat
  else if -616 ≤ exponent then ratio (ratio x 308) (-exponent - 308).toNat
  else Floating.zero negative

/-- A double as a number, unless it overflowed. -/
def finiteNumber? (x : Floating) : Option JsonNumber :=
  if x.isFinite then some (.real x) else none

/-- The exponent part of a number: none written, or a letter, an optional sign
and digits. Fails when the digits are missing. -/
def exponentPart (cs : List Char) : Option (Option Int × List Char) :=
  match cs with
  | c :: rest =>
    if c = 'e' ∨ c = 'E' then
      let (negative, rest) := match rest with
        | '-' :: r => (true, r)
        | '+' :: r => (false, r)
        | r => (false, r)
      let digits := rest.takeWhile Char.isDigit
      let n : Int := Floating.digitsValue digits
      if digits.isEmpty then none
      else some (some (if negative then -n else n), rest.dropWhile Char.isDigit)
    else some (none, cs)
  | [] => some (none, cs)

/-- The fraction part of a number: none written, or a point and digits. -/
def fractionPart : List Char → Option (Option (List Char) × List Char)
  | '.' :: rest =>
    let digits := rest.takeWhile Char.isDigit
    if digits.isEmpty then none else some (some digits, rest.dropWhile Char.isDigit)
  | cs => some (none, cs)

/-- A number read from its parts. -/
def numberOfParts (negative : Bool) (whole : List Char) (fraction : Option (List Char))
    (exponent : Option Int) : Option JsonNumber :=
  let value := Floating.digitsValue whole
  let integral := fraction.isNone && exponent.isNone
  if integral && !negative && value ≤ maxWord then some (.integer value)
  else if integral && negative && value != 0 && value ≤ 0x8000000000000000 then some (.integer (-(value : Int)))
  else
    let (significand, kept) := appendDigits 0 whole
    let (significand, places) := appendDigits significand (fraction.getD [])
    let shift : Int := (whole.length : Int) - kept - places + exponent.getD 0
    finiteNumber? (scaledDouble negative significand shift)

/-- A number at the start of a text, its sign already read. -/
def unsignedNumber (negative : Bool) (cs : List Char) : Option (JsonNumber × List Char) :=
  let whole := cs.takeWhile Char.isDigit
  let leadingZero := whole.head? == some '0' && 1 < whole.length
  if whole.isEmpty || leadingZero then none
  else do
    let (fraction, rest) ← fractionPart (cs.dropWhile Char.isDigit)
    let (exponent, rest) ← exponentPart rest
    let n ← numberOfParts negative whole fraction exponent
    pure (n, rest)

/-- A number at the start of a text. -/
def parseNumber : List Char → Option (JsonNumber × List Char)
  | '-' :: rest => unsignedNumber true rest
  | cs => unsignedNumber false cs

/-! ## Documents -/

/-- One or more items with commas between them, up to a closing character. -/
def parseItems {α : Type} (item : List Char → Option (α × List Char)) (close : Char)
    (cs : List Char) : Option (List α × List Char) :=
  match item cs with
  | none => none
  | some (x, rest) =>
    match skipBlanks rest with
    | [] => none
    | c :: r =>
      if c = close then some ([x], r)
      else if c = ',' ∧ r.length < cs.length then
        (parseItems item close r).map fun (xs, rest) => (x :: xs, rest)
      else none
termination_by cs.length
decreasing_by omega

/-- A field name, a colon and a value. -/
def parseField (value : List Char → Option (Json × List Char)) (cs : List Char) :
    Option ((String × Json) × List Char) :=
  match skipBlanks cs with
  | '"' :: rest => do
    let (name, rest) ← stringBody rest
    match skipBlanks rest with
    | ':' :: rest =>
      let (x, rest) ← value rest
      pure ((String.ofList name, x), rest)
    | _ => none
  | _ => none

/-- A word of the grammar at the start of a text. -/
def parseWord (word : List Char) (j : Json) (cs : List Char) : Option (Json × List Char) :=
  if word.isPrefixOf cs then some (j, cs.drop word.length) else none

/-- A document that is neither an array nor an object. -/
def parseScalar (cs : List Char) : Option (Json × List Char) :=
  match cs with
  | '"' :: rest => (stringBody rest).map fun (s, rest) => (.string (String.ofList s), rest)
  | 'n' :: _ => parseWord ['n', 'u', 'l', 'l'] .null cs
  | 't' :: _ => parseWord ['t', 'r', 'u', 'e'] (.boolean true) cs
  | 'f' :: _ => parseWord ['f', 'a', 'l', 's', 'e'] (.boolean false) cs
  | _ => (parseNumber cs).map fun (n, rest) => (.number n, rest)

/-- A document at the start of a text, nested at most `levels` deep. -/
def parseValue : Nat → List Char → Option (Json × List Char)
  | 0, cs =>
    match skipBlanks cs with
    | '[' :: _ => none
    | '\x7b' :: _ => none
    | cs => parseScalar cs
  | levels + 1, cs =>
    match skipBlanks cs with
    | '[' :: rest =>
      match skipBlanks rest with
      | ']' :: rest => some (.array [], rest)
      | rest => (parseItems (parseValue levels) ']' rest).map fun (xs, rest) => (.array xs, rest)
    | '\x7b' :: rest =>
      match skipBlanks rest with
      | '\x7d' :: rest => some (.object [], rest)
      | rest =>
        (parseItems (parseField (parseValue levels)) '\x7d' rest).map fun (fields, rest) =>
          (.object fields, rest)
    | cs => parseScalar cs

/-- The deepest nesting that is read. -/
def maxNesting : Nat := 127

/-- Read a document that is the whole text, with the fields of its objects as
they are written. -/
def parseVerbatim (cs : List Char) : Option Json :=
  match parseValue maxNesting cs with
  | some (j, rest) => if (skipBlanks rest).isEmpty then some j else none
  | none => none

/-- Read a document that is the whole text. -/
def parse (cs : List Char) : Option Json := (parseVerbatim cs).map normalize

/-- Read a document that is the whole text. -/
def ofText? (s : String) : Option Json := parse s.toList

end RowMapping.Json
