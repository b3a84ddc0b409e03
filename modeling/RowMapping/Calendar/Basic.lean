/-
Dates, times of day, and their combinations with and without an offset.

All four types hold valid components only: a date is a day of the proleptic
Gregorian calendar in the years -9999 to 9999, a time of day has no leap second.
A timestamp keeps the components of its own place and the offset of that place
in seconds; two timestamps are the same instant when their seconds since the
epoch agree.
-/
set_option autoImplicit false

namespace RowMapping

/-! ## Dates -/

/-- Whether a year has a leap day. -/
def isLeapYear (year : Int) : Bool :=
  year % 4 == 0 && (year % 100 != 0 || year % 400 == 0)

/-- The number of days of a month; none for a month that does not exist. -/
def daysInMonth (year : Int) (month : Nat) : Nat :=
  match month with
  | 1 | 3 | 5 | 7 | 8 | 10 | 12 => 31
  | 4 | 6 | 9 | 11 => 30
  | 2 => if isLeapYear year then 29 else 28
  | _ => 0

/-- Year, month and day name a day of the calendar. -/
def ValidDate (year : Int) (month day : Nat) : Prop :=
  -9999 ≤ year ∧ year ≤ 9999 ∧ 1 ≤ day ∧ day ≤ daysInMonth year month

instance (year : Int) (month day : Nat) : Decidable (ValidDate year month day) :=
  inferInstanceAs (Decidable (_ ∧ _))

/-- A day of the calendar. -/
structure Date where
  year : Int
  month : Nat
  day : Nat
  valid : ValidDate year month day
deriving DecidableEq

/-- The date with these components, if there is one. -/
def Date.of? (year : Int) (month day : Nat) : Option Date :=
  if h : ValidDate year month day then some ⟨year, month, day, h⟩ else none

/-- Days since the first of March of the year zero. -/
def Date.dayNumber (d : Date) : Int :=
  let y := if d.month ≤ 2 then d.year - 1 else d.year
  let m : Int := (d.month + 9) % 12
  365 * y + y / 4 - y / 100 + y / 400 + (153 * m + 2) / 5 + (d.day - 1 : Int)

/-- The day number of the first of January 1970. -/
def epochDayNumber : Int := 719468

/-- Days since the first of January 1970. -/
def Date.epochDays (d : Date) : Int := d.dayNumber - epochDayNumber

/-- The date this many days after the first of January 1970, if it is in range. -/
def Date.ofEpochDays? (days : Int) : Option Date :=
  let z := days + epochDayNumber
  let era := z / 146097
  let dayOfEra := z % 146097
  let yearOfEra := (dayOfEra - dayOfEra / 1460 + dayOfEra / 36524 - dayOfEra / 146096) / 365
  let dayOfYear := dayOfEra - (365 * yearOfEra + yearOfEra / 4 - yearOfEra / 100)
  let m := (5 * dayOfYear + 2) / 153
  let day := dayOfYear - (153 * m + 2) / 5 + 1
  let month := if m < 10 then m + 3 else m - 9
  let year := yearOfEra + 400 * era + (if month ≤ 2 then 1 else 0)
  Date.of? year month.toNat day.toNat

/-! ## Times of day -/

/-- A time of day to the nanosecond. -/
structure Time where
  hour : Nat
  minute : Nat
  second : Nat
  nanosecond : Nat
  hour_lt : hour < 24
  minute_lt : minute < 60
  second_lt : second < 60
  nanosecond_lt : nanosecond < 1000000000
deriving DecidableEq

/-- The time of day with these components, if there is one. -/
def Time.of? (hour minute second nanosecond : Nat) : Option Time :=
  if h : hour < 24 ∧ minute < 60 ∧ second < 60 ∧ nanosecond < 1000000000 then
    some ⟨hour, minute, second, nanosecond, h.1, h.2.1, h.2.2.1, h.2.2.2⟩
  else none

/-- The first moment of a day. -/
def Time.midnight : Time := ⟨0, 0, 0, 0, by decide, by decide, by decide, by decide⟩

/-- Seconds since midnight. -/
def Time.seconds (t : Time) : Nat := (t.hour * 60 + t.minute) * 60 + t.second

/-- The whole second this many seconds after midnight, if it is on the same day. -/
def Time.ofSeconds? (n : Nat) : Option Time :=
  Time.of? (n / 3600) (n / 60 % 60) (n % 60) 0

/-! ## Dates with times -/

/-- A date and a time of day, of no particular place. -/
structure DateTime where
  date : Date
  time : Time
deriving DecidableEq

/-- A date and a time of day at a place whose clocks are `offset` seconds ahead
of universal time. -/
structure Timestamp where
  moment : DateTime
  offset : Int
deriving DecidableEq

/-- A date and time read as universal time. -/
def DateTime.utc (t : DateTime) : Timestamp := ⟨t, 0⟩

/-- Seconds since the epoch. -/
def Timestamp.epochSeconds (t : Timestamp) : Int :=
  t.moment.date.epochDays * 86400 + t.moment.time.seconds - t.offset

/-- Whether two timestamps are the same instant. -/
def Timestamp.sameInstant (a b : Timestamp) : Bool :=
  a.epochSeconds == b.epochSeconds && a.moment.time.nanosecond == b.moment.time.nanosecond

/-- The instant this many seconds after the epoch, in universal time, if its
date is in range. -/
def Timestamp.ofEpochSeconds? (seconds : Int) : Option Timestamp := do
  let date ← Date.ofEpochDays? (seconds / 86400)
  let time ← Time.ofSeconds? (seconds % 86400).toNat
  pure ⟨⟨date, time⟩, 0⟩

/-! ## Lemmas -/

/-- A date is found again from its components. -/
theorem Date.of?_components (d : Date) : Date.of? d.year d.month d.day = some d := by
  simp [Date.of?, d.valid]

/-- A time of day is found again from its components. -/
theorem Time.of?_components (t : Time) :
    Time.of? t.hour t.minute t.second t.nanosecond = some t := by
  simp [Time.of?, t.hour_lt, t.minute_lt, t.second_lt, t.nanosecond_lt]

end RowMapping
