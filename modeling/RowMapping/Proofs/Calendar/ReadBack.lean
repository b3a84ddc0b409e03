/-
Written dates and times are read back as they were.

Each reader is shown to take exactly the text its writer wrote, whatever follows, as long as
what follows cannot be taken for more of it. A fraction without its trailing zeros still has
nine digits that count, so no nanosecond is lost. What a timestamp ends in is left over by the
readers of dates with times, so that they do not take a timestamp for one.
-/
import RowMapping.Calendar.Parser
import RowMapping.Proofs.Number.Digits

set_option autoImplicit false

namespace RowMapping

/-! ## Fields -/

theorem takeDigits_append {ds : List Char} (h : ∀ c ∈ ds, c.isDigit = true) (rest : List Char) :
    takeDigits ds.length (ds ++ rest) = some (ds, rest) := by
  induction ds with
  | nil => rfl
  | cons c ds ih =>
    have hc := h c List.mem_cons_self
    have hds := ih fun d hd => h d (List.mem_cons_of_mem c hd)
    simp [takeDigits, hc, hds]

/-- A field is read back, whatever follows it. -/
theorem takeNumber_paddedDigits {width n : Nat} (h : n < 10 ^ width) (rest : List Char) :
    takeNumber width (paddedDigits width n ++ rest) = some (n, rest) := by
  have hdigits : ∀ c ∈ paddedDigits width n, c.isDigit = true := fun _ => isDigit_of_mem_paddedDigits
  have htake := takeDigits_append hdigits rest
  rw [length_paddedDigits] at htake
  have hvalue := digitsValue_paddedDigits width n
  rw [Nat.mod_eq_of_lt h] at hvalue
  simp [takeNumber, htake, hvalue]

theorem isBlank_of_mem_paddedDigits {width n : Nat} {c : Char} (h : c ∈ paddedDigits width n) :
    Text.isBlank c = false :=
  Text.isBlank_of_isDigit (isDigit_of_mem_paddedDigits h)

@[simp] theorem takeChar_cons (c : Char) (rest : List Char) : takeChar c (c :: rest) = some rest := by
  simp [takeChar]

theorem takeChar_cons_of_ne {c d : Char} (h : d ≠ c) (rest : List Char) :
    takeChar c (d :: rest) = none := by
  simp [takeChar, h]

/-! ## Fractions -/

/-- The digits of a fraction have the value of the nanoseconds. -/
theorem fractionValue_dropTrailingZeros {n : Nat} (h : n < 10 ^ 9) :
    fractionValue (dropTrailingZeros (paddedDigits 9 n)) = n := by
  have hvalue := digitsValue_paddedDigits 9 n
  have hwidth := length_paddedDigits 9 n
  obtain ⟨k, hk⟩ := dropTrailingZeros_append (paddedDigits 9 n)
  generalize paddedDigits 9 n = field at hvalue hwidth hk ⊢
  generalize dropTrailingZeros field = ds at hk ⊢
  have hlength : ds.length + k = 9 := by
    rw [← hwidth, ← hk, List.length_append, List.length_replicate]
  have hzeros : (List.replicate 9 '0').take (9 - ds.length) = List.replicate k '0' := by
    rw [List.take_replicate, show min (9 - ds.length) 9 = k by omega]
  rw [fractionValue, List.take_append, List.take_of_length_le (by omega), hzeros, hk, hvalue,
    Nat.mod_eq_of_lt h]

/-- Nanoseconds that are not zero have a digit that is kept. -/
theorem dropTrailingZeros_paddedDigits_ne_nil {n : Nat} (h : n < 10 ^ 9) (hn : n ≠ 0) :
    dropTrailingZeros (paddedDigits 9 n) ≠ [] := by
  intro hnil
  obtain ⟨k, hk⟩ := dropTrailingZeros_append (paddedDigits 9 n)
  have hvalue := digitsValue_paddedDigits 9 n
  rw [← hk, hnil, List.nil_append, Floating.digitsValue_zeros, Nat.mod_eq_of_lt h] at hvalue
  exact hn hvalue.symm

theorem isDigit_of_mem_dropTrailingZeros {n : Nat} {c : Char}
    (h : c ∈ dropTrailingZeros (paddedDigits 9 n)) : c.isDigit = true :=
  isDigit_of_mem_paddedDigits (mem_of_mem_dropTrailingZeros h)

theorem length_fractionText_le (n : Nat) : (fractionText n).length ≤ 10 := by
  unfold fractionText
  split
  · simp
  · obtain ⟨k, hk⟩ := dropTrailingZeros_append (paddedDigits 9 n)
    have hlength := congrArg List.length hk
    simp only [List.length_append, List.length_replicate, length_paddedDigits] at hlength
    simp only [List.length_cons]
    omega

/-- What can follow a time of day: nothing that would be taken for more of its fraction. -/
def EndsTime (rest : List Char) : Prop :=
  ∀ c ∈ rest.head?, c.isDigit = false ∧ c ≠ '.'

theorem endsTime_nil : EndsTime [] := by
  simp [EndsTime]

/-- A fraction is read back if the limit leaves room for it. -/
theorem takeFraction_fractionText {n : Nat} (limit : Nat) (h : n < 10 ^ 9)
    (hlimit : (fractionText n).length ≤ limit + 1) {rest : List Char} (hrest : EndsTime rest) :
    takeFraction limit (fractionText n ++ rest) = (n, rest) := by
  by_cases hn : n = 0
  · -- nothing is written, so nothing that follows may look like a fraction
    subst hn
    rcases rest with _ | ⟨c, rest⟩
    · rfl
    · have hc : c ≠ '.' := (hrest c rfl).2
      simp only [fractionText, if_true, List.nil_append]
      unfold takeFraction
      split
      · rename_i heq
        exact absurd (List.cons.inj heq).1 hc
      · rfl
  · rw [fractionText, if_neg hn, List.length_cons] at hlimit
    have hdigits (c : Char) (hc : c ∈ dropTrailingZeros (paddedDigits 9 n)) : c.isDigit = true :=
      isDigit_of_mem_dropTrailingZeros hc
    have hne := dropTrailingZeros_paddedDigits_ne_nil h hn
    have hvalue := fractionValue_dropTrailingZeros h
    rw [fractionText, if_neg hn]
    generalize dropTrailingZeros (paddedDigits 9 n) = ds at hlimit hdigits hne hvalue
    have htake : ((ds ++ rest).take limit).takeWhile Char.isDigit = ds := by
      rw [List.take_append, List.take_of_length_le (by omega),
        List.takeWhile_append_of_pos hdigits, List.append_right_eq_self]
      rcases rest with _ | ⟨c, rest⟩
      · simp
      · have hc : c.isDigit = false := (hrest c rfl).1
        rcases limit - ds.length with _ | room
        · simp
        · simp [hc]
    have hempty : ds.isEmpty = false := by simpa using hne
    simp [takeFraction, htake, hempty, hvalue]

/-! ## Dates -/

theorem takeYear_digits {c : Char} (h : c.isDigit = true) (cs : List Char) :
    takeYear (c :: cs) = (takeNumber 4 (c :: cs)).map fun (n, rest) => ((n : Int), rest) := by
  unfold takeYear
  split
  · rename_i heq
    obtain ⟨rfl, -⟩ := List.cons.inj heq
    cases h
  · rename_i heq
    obtain ⟨rfl, -⟩ := List.cons.inj heq
    cases h
  · rfl

/-- A year is read back with its sign. -/
theorem takeYear_write {year : Int} (h : year.natAbs < 10 ^ 4) (rest : List Char) :
    takeYear ((if year < 0 then ['-'] else []) ++ paddedDigits 4 year.natAbs ++ rest)
      = some (year, rest) := by
  have htake := takeNumber_paddedDigits h rest
  by_cases hsign : year < 0
  · have hvalue : -(year.natAbs : Int) = year := by omega
    rw [if_pos hsign, List.append_assoc, List.singleton_append, takeYear, htake]
    exact congrArg (fun y => some (y, rest)) hvalue
  · rw [if_neg hsign, List.nil_append]
    obtain ⟨c, cs, hcs⟩ : ∃ c cs, paddedDigits 4 year.natAbs = c :: cs :=
      List.exists_cons_of_length_eq_add_one (length_paddedDigits 4 _)
    have hmem : c ∈ paddedDigits 4 year.natAbs := hcs ▸ List.mem_cons_self
    have hc := isDigit_of_mem_paddedDigits hmem
    rw [hcs, List.cons_append] at htake ⊢
    have hvalue : (year.natAbs : Int) = year := by omega
    simp [takeYear_digits hc, htake, hvalue]

theorem daysInMonth_le (year : Int) (month : Nat) : daysInMonth year month ≤ 31 := by
  unfold daysInMonth
  split <;> try decide
  split <;> decide

/-- The months of dates have two digits. -/
theorem Date.month_lt (d : Date) : d.month < 10 ^ 2 := by
  obtain ⟨-, -, hday, hdays⟩ := d.valid
  unfold daysInMonth at hdays
  split at hdays
  all_goals omega

/-- The days of dates have two digits. -/
theorem Date.day_lt (d : Date) : d.day < 10 ^ 2 := by
  obtain ⟨-, -, -, hdays⟩ := d.valid
  have := daysInMonth_le d.year d.month
  omega

theorem Date.natAbs_year_lt (d : Date) : d.year.natAbs < 10 ^ 4 := by
  obtain ⟨hleast, hgreatest, -, -⟩ := d.valid
  omega

/-- A date is read back, whatever follows it. -/
theorem takeDate_write (d : Date) (rest : List Char) : takeDate (d.write ++ rest) = some (d, rest) := by
  have hyear := takeYear_write d.natAbs_year_lt
  simp only [List.append_assoc] at hyear
  simp [takeDate, Date.write, hyear, takeNumber_paddedDigits d.month_lt,
    takeNumber_paddedDigits d.day_lt, d.of?_components]

/-! ## Times of day -/

theorem Time.hour_lt_pow (t : Time) : t.hour < 10 ^ 2 :=
  Nat.lt_trans t.hour_lt (by decide)

theorem Time.minute_lt_pow (t : Time) : t.minute < 10 ^ 2 :=
  Nat.lt_trans t.minute_lt (by decide)

theorem Time.second_lt_pow (t : Time) : t.second < 10 ^ 2 :=
  Nat.lt_trans t.second_lt (by decide)

/-- A time of day is read back, whatever ends it. -/
theorem takeTime_write (t : Time) {rest : List Char} (hrest : EndsTime rest) :
    takeTime (t.write ++ rest) = some (t, rest) := by
  have hfraction := takeFraction_fractionText maxFractionDigits t.nanosecond_lt
    (Nat.le_trans (length_fractionText_le _) (by decide)) hrest
  simp [takeTime, Time.write, takeNumber_paddedDigits t.hour_lt_pow,
    takeNumber_paddedDigits t.minute_lt_pow, takeNumber_paddedDigits t.second_lt_pow, hfraction,
    t.of?_components]

/-! ## Whole texts -/

/-- The characters of a date: digits and hyphens. -/
theorem Date.isBlank_of_mem_write {d : Date} {c : Char} (h : c ∈ d.write) :
    Text.isBlank c = false := by
  have hhyphen : Text.isBlank '-' = false := by decide
  simp only [Date.write, List.mem_append, List.mem_cons] at h
  rcases h with (hsign | hyear) | rfl | hmonth | rfl | hday
  · split at hsign
    · rwa [List.mem_singleton.mp hsign]
    · cases hsign
  · exact isBlank_of_mem_paddedDigits hyear
  · exact hhyphen
  · exact isBlank_of_mem_paddedDigits hmonth
  · exact hhyphen
  · exact isBlank_of_mem_paddedDigits hday

/-- The characters of a time of day: digits, colons and a point. -/
theorem Time.isBlank_of_mem_write {t : Time} {c : Char} (h : c ∈ t.write) :
    Text.isBlank c = false := by
  have hcolon : Text.isBlank ':' = false := by decide
  simp only [Time.write, List.mem_append, List.mem_cons] at h
  rcases h with hhour | rfl | hminute | rfl | hsecond | hfraction
  · exact isBlank_of_mem_paddedDigits hhour
  · exact hcolon
  · exact isBlank_of_mem_paddedDigits hminute
  · exact hcolon
  · exact isBlank_of_mem_paddedDigits hsecond
  · unfold fractionText at hfraction
    split at hfraction
    · cases hfraction
    · rcases List.mem_cons.mp hfraction with rfl | hkept
      · decide
      · exact Text.isBlank_of_isDigit (isDigit_of_mem_dropTrailingZeros hkept)

theorem Date.write_ne_nil (d : Date) : d.write ≠ [] := by
  simp [Date.write]

theorem Time.write_ne_nil (t : Time) : t.write ≠ [] := by
  simp [Time.write]

/-- A date is read back. -/
theorem Date.parse_write (d : Date) : Date.parse d.write = some d := by
  have htake := takeDate_write d []
  rw [List.append_nil] at htake
  rw [Date.parse, Text.trimBlanks_of_forall fun _ hc => Date.isBlank_of_mem_write hc, htake]
  rfl

/-- A time of day is read back. -/
theorem Time.parse_write (t : Time) : Time.parse t.write = some t := by
  have htake := takeTime_write t endsTime_nil
  rw [List.append_nil] at htake
  rw [Time.parse, Text.trimBlanks_of_forall fun _ hc => Time.isBlank_of_mem_write hc, htake]
  rfl

theorem trimBlanks_dateTime (t : DateTime) : Text.trimBlanks t.write = t.write := by
  have htrim := Text.trimBlanks_between [' '] t.date.write_ne_nil t.time.write_ne_nil
    (fun _ hc => Date.isBlank_of_mem_write hc) fun _ hc => Time.isBlank_of_mem_write hc
  rwa [List.append_assoc, List.singleton_append] at htrim

/-- A date with a time is read back. -/
theorem DateTime.parse_write (t : DateTime) : DateTime.parse t.write = some t := by
  have hdate := takeDate_write t.date (' ' :: t.time.write)
  have htime := takeTime_write t.time endsTime_nil
  rw [List.append_nil] at htime
  rw [DateTime.parse, trimBlanks_dateTime]
  simp [takeDateTime, DateTime.write, hdate, htime, complete]

/-! ## Timestamps -/

/-- What is known of a timestamp that has a text, and the text. -/
theorem Timestamp.eq_of_write? {t : Timestamp} {cs : List Char} (h : t.write? = some cs) :
    (0 ≤ t.moment.date.year ∧ t.offset % 60 = 0 ∧ t.offset.natAbs < 86400) ∧
      cs = t.moment.date.write ++ 'T' :: (t.moment.time.write ++ offsetText t.offset) := by
  unfold Timestamp.write? at h
  split at h
  · rename_i htext
    exact ⟨by simpa [Timestamp.hasText, and_assoc] using htext, (Option.some.inj h).symm⟩
  · cases h

/-- An offset ends a time of day. -/
theorem endsTime_offsetText (offset : Int) : EndsTime (offsetText offset) := by
  intro c hc
  unfold offsetText at hc
  split at hc
  · obtain rfl : 'Z' = c := by simpa using hc
    decide
  · obtain rfl : (if offset < 0 then '-' else '+') = c := by simpa using hc
    split <;> decide

theorem isBlank_of_mem_offsetText {offset : Int} {c : Char} (h : c ∈ offsetText offset) :
    Text.isBlank c = false := by
  unfold offsetText at h
  split at h
  · obtain rfl := List.mem_singleton.mp h
    decide
  · simp only [List.mem_cons, List.mem_append] at h
    rcases h with rfl | hhours | rfl | hminutes
    · split <;> decide
    · exact isBlank_of_mem_paddedDigits hhours
    · decide
    · exact isBlank_of_mem_paddedDigits hminutes

theorem offsetText_ne_nil (offset : Int) : offsetText offset ≠ [] := by
  unfold offsetText
  split <;> simp

/-- An offset of whole minutes is read back with its sign. -/
theorem takeOffset_offsetText {offset : Int} (hwhole : offset % 60 = 0)
    (hday : offset.natAbs < 86400) : takeOffset (offsetText offset) = some (offset, []) := by
  unfold offsetText
  split
  · rename_i hzero
    simp [takeOffset, hzero]
  · have hbounds : offset.natAbs / 60 / 60 < 24 ∧ offset.natAbs / 60 % 60 < 60 := by omega
    dsimp only
    -- only that both have two digits matters from here on
    generalize hhours : offset.natAbs / 60 / 60 = hours at hbounds ⊢
    generalize hminutes : offset.natAbs / 60 % 60 = minutes at hbounds ⊢
    have hhour : hours < 10 ^ 2 := Nat.lt_trans hbounds.1 (by decide)
    have hminute : minutes < 10 ^ 2 := Nat.lt_trans hbounds.2 (by decide)
    have htakeHour := takeNumber_paddedDigits hhour
    have htakeMinute := takeNumber_paddedDigits hminute []
    rw [List.append_nil] at htakeMinute
    split
    all_goals
      simp [takeOffset, htakeHour, htakeMinute, hbounds]
      omega

theorem trimBlanks_timestamp {t : Timestamp} {cs : List Char} (h : t.write? = some cs) :
    Text.trimBlanks cs = cs := by
  have htrim := Text.trimBlanks_between ('T' :: t.moment.time.write)
    t.moment.date.write_ne_nil (offsetText_ne_nil t.offset)
    (fun _ hc => Date.isBlank_of_mem_write hc) fun _ hc => isBlank_of_mem_offsetText hc
  obtain ⟨-, rfl⟩ := Timestamp.eq_of_write? h
  rwa [List.append_assoc, List.cons_append] at htrim

/-- A timestamp that has a text is read back from it, offset included. -/
theorem Timestamp.parse_write {t : Timestamp} {cs : List Char} (h : t.write? = some cs) :
    Timestamp.parse cs = some t := by
  have htrim := trimBlanks_timestamp h
  obtain ⟨⟨hyear, hminutes, hday⟩, rfl⟩ := Timestamp.eq_of_write? h
  have hsign : ¬ t.moment.date.year < 0 := Int.not_lt.mpr hyear
  have hyearLt := t.moment.date.natAbs_year_lt
  have hvalue : (t.moment.date.year.natAbs : Int) = t.moment.date.year := by omega
  have hfraction := takeFraction_fractionText
    ((fractionText t.moment.time.nanosecond).length + (offsetText t.offset).length)
    t.moment.time.nanosecond_lt (by omega) (endsTime_offsetText t.offset)
  have hnotLeap : t.moment.time.second ≠ 60 := Nat.ne_of_lt t.moment.time.second_lt
  have hsize : Char.utf8Size 'T' = 1 := by decide
  simp only [Date.write, hsign, if_false, List.nil_append, Time.write, List.append_assoc,
    List.cons_append] at htrim ⊢
  rw [Timestamp.parse, htrim]
  generalize t.moment.date.year.natAbs = year at hyearLt hvalue ⊢
  -- one step of the parser after another
  refine Option.bind_eq_some_iff.mpr ⟨_, takeNumber_paddedDigits hyearLt _, ?_⟩
  refine Option.bind_eq_some_iff.mpr ⟨_, takeChar_cons .., ?_⟩
  refine Option.bind_eq_some_iff.mpr ⟨_, takeNumber_paddedDigits t.moment.date.month_lt _, ?_⟩
  refine Option.bind_eq_some_iff.mpr ⟨_, takeChar_cons .., ?_⟩
  refine Option.bind_eq_some_iff.mpr ⟨_, takeNumber_paddedDigits t.moment.date.day_lt _, ?_⟩
  refine Option.bind_eq_some_iff.mpr ⟨'T', rfl, ?_⟩
  rw [if_pos hsize]
  refine Option.bind_eq_some_iff.mpr ⟨_, takeNumber_paddedDigits t.moment.time.hour_lt_pow _, ?_⟩
  refine Option.bind_eq_some_iff.mpr ⟨_, takeChar_cons .., ?_⟩
  refine Option.bind_eq_some_iff.mpr ⟨_, takeNumber_paddedDigits t.moment.time.minute_lt_pow _, ?_⟩
  refine Option.bind_eq_some_iff.mpr ⟨_, takeChar_cons .., ?_⟩
  refine Option.bind_eq_some_iff.mpr ⟨_, takeNumber_paddedDigits t.moment.time.second_lt_pow _, ?_⟩
  simp only [List.length_append, hfraction]
  refine Option.bind_eq_some_iff.mpr ⟨_, takeOffset_offsetText hminutes hday, ?_⟩
  rw [hvalue]
  refine Option.bind_eq_some_iff.mpr ⟨_, t.moment.date.of?_components, ?_⟩
  rw [if_neg (by simp), if_neg hnotLeap]
  exact Option.bind_eq_some_iff.mpr ⟨_, t.moment.time.of?_components, rfl⟩

/-- The text of a timestamp is not taken for a date with a time: its offset is left over. -/
theorem DateTime.parse_timestamp {t : Timestamp} {cs : List Char} (h : t.write? = some cs) :
    DateTime.parse cs = none := by
  have htrim := trimBlanks_timestamp h
  obtain ⟨-, rfl⟩ := Timestamp.eq_of_write? h
  have htime := takeTime_write t.moment.time (endsTime_offsetText t.offset)
  obtain ⟨c, rest, hoffset⟩ := List.exists_cons_of_ne_nil (offsetText_ne_nil t.offset)
  rw [hoffset] at htrim htime ⊢
  rw [DateTime.parse, htrim]
  simp [takeDateTime, takeDate_write, htime, takeChar_cons_of_ne, complete]

end RowMapping
