/-
Reading dates and times.

White space at either end of a text is ignored. All fields have a fixed number
of ASCII digits; a fraction is a point and one to thirty-two digits, of which
those beyond the ninth are dropped. A date with a time has a blank or a `T`
between them. Timestamps follow RFC 3339, with any one character between date
and time, fractions of any length, and a leap second read as the last nanosecond
before it where one can occur.
-/
import RowMapping.Calendar.Basic
import RowMapping.Number.Text
import RowMapping.Text.Blank

set_option autoImplicit false

namespace RowMapping

/-! ## Fields -/

/-- Exactly `width` digits at the start of a text. -/
def takeDigits : Nat → List Char → Option (List Char × List Char)
  | 0, cs => some ([], cs)
  | width + 1, c :: cs =>
    if c.isDigit then (takeDigits width cs).map fun (ds, rest) => (c :: ds, rest) else none
  | _ + 1, [] => none

/-- A number of exactly `width` digits at the start of a text. -/
def takeNumber (width : Nat) (cs : List Char) : Option (Nat × List Char) :=
  (takeDigits width cs).map fun (ds, rest) => (Floating.digitsValue ds, rest)

/-- The rest of a text after one given character. -/
def takeChar (c : Char) : List Char → Option (List Char)
  | d :: rest => if d = c then some rest else none
  | [] => none

/-- Nanoseconds from the digits of a fraction: nine of them count. -/
def fractionValue (digits : List Char) : Nat :=
  Floating.digitsValue ((digits ++ List.replicate 9 '0').take 9)

/-- A year of four digits with an optional sign. -/
def takeYear : List Char → Option (Int × List Char)
  | '-' :: cs => (takeNumber 4 cs).map fun (n, rest) => (-(n : Int), rest)
  | '+' :: cs => (takeNumber 4 cs).map fun (n, rest) => ((n : Int), rest)
  | cs => (takeNumber 4 cs).map fun (n, rest) => ((n : Int), rest)

/-- A fraction if a point and a digit follow, of at most `limit` digits. -/
def takeFraction (limit : Nat) (cs : List Char) : Nat × List Char :=
  match cs with
  | '.' :: rest =>
    let digits := (rest.take limit).takeWhile Char.isDigit
    if digits.isEmpty then (0, cs) else (fractionValue digits, rest.drop digits.length)
  | _ => (0, cs)

/-- The most digits of a fraction. -/
def maxFractionDigits : Nat := 32

/-! ## Dates and times -/

/-- A date at the start of a text. -/
def takeDate (cs : List Char) : Option (Date × List Char) := do
  let (year, cs) ← takeYear cs
  let cs ← takeChar '-' cs
  let (month, cs) ← takeNumber 2 cs
  let cs ← takeChar '-' cs
  let (day, cs) ← takeNumber 2 cs
  let date ← Date.of? year month day
  pure (date, cs)

/-- A time of day at the start of a text. -/
def takeTime (cs : List Char) : Option (Time × List Char) := do
  let (hour, cs) ← takeNumber 2 cs
  let cs ← takeChar ':' cs
  let (minute, cs) ← takeNumber 2 cs
  let cs ← takeChar ':' cs
  let (second, cs) ← takeNumber 2 cs
  let (nanosecond, cs) := takeFraction maxFractionDigits cs
  let time ← Time.of? hour minute second nanosecond
  pure (time, cs)

/-- A result that has used up its text. -/
def complete {α : Type} : Option (α × List Char) → Option α
  | some (x, []) => some x
  | _ => none

/-- The date that is the whole text. -/
def Date.parse (cs : List Char) : Option Date := complete (takeDate (Text.trimBlanks cs))

/-- The time of day that is the whole text. -/
def Time.parse (cs : List Char) : Option Time := complete (takeTime (Text.trimBlanks cs))

/-- A date and a time of day with one given character between them. -/
def takeDateTime (separator : Char) (cs : List Char) : Option (DateTime × List Char) := do
  let (date, cs) ← takeDate cs
  let cs ← takeChar separator cs
  let (time, cs) ← takeTime cs
  pure (⟨date, time⟩, cs)

/-- The date and time that is the whole text. -/
def DateTime.parse (cs : List Char) : Option DateTime :=
  let cs := Text.trimBlanks cs
  (complete (takeDateTime ' ' cs)).or (complete (takeDateTime 'T' cs))

/-! ## Timestamps -/

/-- The offset that ends a timestamp: `Z` in either case, or a sign, hours and minutes. -/
def takeOffset : List Char → Option (Int × List Char)
  | [] => none
  | c :: cs =>
    if c = 'Z' ∨ c = 'z' then some (0, cs)
    else if c = '+' ∨ c = '-' then do
      let (hours, cs) ← takeNumber 2 cs
      let cs ← takeChar ':' cs
      let (minutes, cs) ← takeNumber 2 cs
      if hours < 24 ∧ minutes < 60 then
        let seconds : Int := (hours * 60 + minutes) * 60
        pure (if c = '-' then -seconds else seconds, cs)
      else none
    else none

/-- The last nanosecond before a leap second, which is 23:59:60 in universal time
on the last day of a month. -/
def beforeLeapSecond? (t : Timestamp) : Option Timestamp := do
  let time ← Time.of? t.moment.time.hour t.moment.time.minute 59 999999999
  let last : Timestamp := ⟨⟨t.moment.date, time⟩, t.offset⟩
  let utc := last.epochSeconds
  let day ← Date.ofEpochDays? (utc / 86400)
  if utc % 86400 = 86399 ∧ day.day = daysInMonth day.year day.month then pure last else none

/-- The timestamp that is the whole text. -/
def Timestamp.parse (cs : List Char) : Option Timestamp := do
  let (year, cs) ← takeNumber 4 (Text.trimBlanks cs)
  let cs ← takeChar '-' cs
  let (month, cs) ← takeNumber 2 cs
  let cs ← takeChar '-' cs
  let (day, cs) ← takeNumber 2 cs
  let separator ← cs.head?
  let (hour, cs) ← if separator.utf8Size = 1 then takeNumber 2 cs.tail else none
  let cs ← takeChar ':' cs
  let (minute, cs) ← takeNumber 2 cs
  let cs ← takeChar ':' cs
  let (second, cs) ← takeNumber 2 cs
  let (nanosecond, cs) := takeFraction cs.length cs
  let (offset, cs) ← takeOffset cs
  let date ← Date.of? year month day
  if !cs.isEmpty then none
  else if second = 60 then
    let time ← Time.of? hour minute 59 nanosecond
    beforeLeapSecond? ⟨⟨date, time⟩, offset⟩
  else
    let time ← Time.of? hour minute second nanosecond
    pure ⟨⟨date, time⟩, offset⟩

end RowMapping
