/-
The texts of dates and times.

A date is written `2024-02-29`, a year before the year zero with a minus sign in
front. A time of day is written `09:05:00`, with a fraction only when there are
nanoseconds, and then without trailing zeros. A date with a time puts a blank
between them. A timestamp follows RFC 3339: `T` in between and the offset at the
end, `Z` for none. It has no text when its year needs a sign or its offset has
seconds or is a day or more.
-/
import RowMapping.Calendar.Basic

set_option autoImplicit false

namespace RowMapping

/-! ## Digits -/

/-- The last `width` decimal digits of a number, with leading zeros. -/
def paddedDigits : Nat → Nat → List Char
  | 0, _ => []
  | width + 1, n => paddedDigits width (n / 10) ++ [Char.ofNat ('0'.toNat + n % 10)]

/-- Digits without trailing zeros. -/
def dropTrailingZeros (cs : List Char) : List Char :=
  (cs.reverse.dropWhile (· == '0')).reverse

/-- A point and the nanoseconds without trailing zeros; nothing when there are none. -/
def fractionText (nanosecond : Nat) : List Char :=
  if nanosecond = 0 then [] else '.' :: dropTrailingZeros (paddedDigits 9 nanosecond)

/-! ## Texts -/

/-- The characters of a date. -/
def Date.write (d : Date) : List Char :=
  (if d.year < 0 then ['-'] else []) ++ paddedDigits 4 d.year.natAbs
    ++ '-' :: (paddedDigits 2 d.month ++ '-' :: paddedDigits 2 d.day)

/-- The characters of a time of day. -/
def Time.write (t : Time) : List Char :=
  paddedDigits 2 t.hour ++ ':' :: (paddedDigits 2 t.minute ++ ':' ::
    (paddedDigits 2 t.second ++ fractionText t.nanosecond))

/-- The characters of a date with a time. -/
def DateTime.write (t : DateTime) : List Char :=
  t.date.write ++ ' ' :: t.time.write

/-- The characters of an offset of whole minutes. -/
def offsetText (offset : Int) : List Char :=
  if offset = 0 then ['Z']
  else
    let minutes := offset.natAbs / 60
    (if offset < 0 then '-' else '+')
      :: (paddedDigits 2 (minutes / 60) ++ ':' :: paddedDigits 2 (minutes % 60))

/-- Whether a timestamp has a text: an unsigned year and an offset of whole minutes that is
less than a day. -/
def Timestamp.hasText (t : Timestamp) : Bool :=
  0 ≤ t.moment.date.year && t.offset % 60 == 0 && t.offset.natAbs < 86400

/-- The characters of a timestamp, if it has a text. -/
def Timestamp.write? (t : Timestamp) : Option (List Char) :=
  if t.hasText then
    some (t.moment.date.write ++ 'T' :: (t.moment.time.write ++ offsetText t.offset))
  else none

end RowMapping
