/-
No text is both of two things.

A date, a time of day, a date with a time, and a timestamp are told from each other by their
texts, whatever sign, fraction or offset they have. A date has no colon and the others have; the
third character of a time is a colon and that of the others is a digit; and what follows the
seconds is a fraction to the end of a date with a time, while a timestamp ends in an offset. So
it does not matter in which order a text is offered to the readers.
-/
import Mathlib.Data.List.TakeWhile
import RowMapping.Calendar.Parser

set_option autoImplicit false

namespace RowMapping

/-! ## The shape of what is read -/

/-- A field of a certain number of digits. -/
structure Digits (n : Nat) (ds : List Char) : Prop where
  length : ds.length = n
  digits : ∀ c ∈ ds, c.isDigit = true

theorem takeDigits_eq_some {n : Nat} {cs ds rest : List Char}
    (h : takeDigits n cs = some (ds, rest)) : Digits n ds ∧ cs = ds ++ rest := by
  induction n generalizing cs ds with
  | zero =>
    cases h
    exact ⟨⟨rfl, nofun⟩, rfl⟩
  | succ n ih =>
    cases cs with
    | nil => cases h
    | cons c cs =>
      rw [takeDigits] at h
      split at h
      · next hc =>
        obtain ⟨⟨tail, rest'⟩, htail, heq⟩ := Option.map_eq_some_iff.mp h
        cases heq
        obtain ⟨⟨hlength, hdigits⟩, rfl⟩ := ih htail
        exact ⟨⟨congrArg Nat.succ hlength, List.forall_mem_cons.mpr ⟨hc, hdigits⟩⟩, rfl⟩
      · cases h

theorem takeNumber_eq_some {n k : Nat} {cs rest : List Char}
    (h : takeNumber n cs = some (k, rest)) : ∃ ds, Digits n ds ∧ cs = ds ++ rest := by
  obtain ⟨⟨ds, rest'⟩, hds, heq⟩ := Option.map_eq_some_iff.mp h
  cases heq
  exact ⟨ds, takeDigits_eq_some hds⟩

theorem takeChar_eq_some {c : Char} {cs rest : List Char} (h : takeChar c cs = some rest) :
    cs = c :: rest := by
  cases cs with
  | nil => cases h
  | cons d cs =>
    rw [takeChar] at h
    split at h
    · next hd =>
      cases h
      rw [hd]
    · cases h

/-- A sign, or none. -/
def IsSign (sign : List Char) : Prop := sign = [] ∨ sign = ['-'] ∨ sign = ['+']

theorem takeYear_eq_some {year : Int} {cs rest : List Char} (h : takeYear cs = some (year, rest)) :
    ∃ sign ds, IsSign sign ∧ Digits 4 ds ∧ cs = sign ++ ds ++ rest := by
  unfold takeYear at h
  split at h
  all_goals
    obtain ⟨⟨n, rest'⟩, hn, heq⟩ := Option.map_eq_some_iff.mp h
    cases heq
    obtain ⟨ds, hds, rfl⟩ := takeNumber_eq_some hn
  · exact ⟨['-'], ds, .inr (.inl rfl), hds, rfl⟩
  · exact ⟨['+'], ds, .inr (.inr rfl), hds, rfl⟩
  · exact ⟨[], ds, .inl rfl, hds, rfl⟩

/-- The text of a date without its sign. -/
def IsDateText (text : List Char) : Prop :=
  ∃ year month day, Digits 4 year ∧ Digits 2 month ∧ Digits 2 day ∧
    text = year ++ '-' :: (month ++ '-' :: day)

/-- The text of a time of day without its fraction. -/
def IsClockText (text : List Char) : Prop :=
  ∃ hour minute second, Digits 2 hour ∧ Digits 2 minute ∧ Digits 2 second ∧
    text = hour ++ ':' :: (minute ++ ':' :: second)

theorem takeDate_eq_some {date : Date} {cs rest : List Char} (h : takeDate cs = some (date, rest)) :
    ∃ sign text, IsSign sign ∧ IsDateText text ∧ cs = sign ++ text ++ rest := by
  simp only [takeDate, bind, Option.bind_eq_some_iff] at h
  obtain ⟨⟨year, cs₁⟩, hyear, cs₂, hfirst, ⟨month, cs₃⟩, hmonth, cs₄, hsecond, ⟨day, cs₅⟩, hday,
    date', -, heq⟩ := h
  cases heq
  obtain ⟨sign, y, hsign, hy, rfl⟩ := takeYear_eq_some hyear
  obtain rfl := takeChar_eq_some hfirst
  obtain ⟨m, hm, rfl⟩ := takeNumber_eq_some hmonth
  obtain rfl := takeChar_eq_some hsecond
  obtain ⟨d, hd, rfl⟩ := takeNumber_eq_some hday
  exact ⟨sign, _, hsign, ⟨y, m, d, hy, hm, hd, rfl⟩, by simp⟩

theorem takeTime_eq_some {time : Time} {cs rest : List Char} (h : takeTime cs = some (time, rest)) :
    ∃ text fraction, IsClockText text ∧ cs = text ++ fraction ∧
      (takeFraction maxFractionDigits fraction).2 = rest := by
  simp only [takeTime, bind, Option.bind_eq_some_iff] at h
  obtain ⟨⟨hour, cs₁⟩, hhour, cs₂, hfirst, ⟨minute, cs₃⟩, hminute, cs₄, hsecond, ⟨second, cs₅⟩,
    hseconds, time', -, heq⟩ := h
  cases heq
  obtain ⟨hh, hhh, rfl⟩ := takeNumber_eq_some hhour
  obtain rfl := takeChar_eq_some hfirst
  obtain ⟨mm, hmm, rfl⟩ := takeNumber_eq_some hminute
  obtain rfl := takeChar_eq_some hsecond
  obtain ⟨ss, hss, rfl⟩ := takeNumber_eq_some hseconds
  exact ⟨_, cs₅, ⟨hh, mm, ss, hhh, hmm, hss, rfl⟩, by simp, rfl⟩

theorem complete_eq_some {β : Type} {result : Option (β × List Char)} {x : β}
    (h : complete result = some x) : result = some (x, []) := by
  unfold complete at h
  split at h
  · cases h
    rfl
  · cases h

/-! ## The shape of whole texts -/

/-- A date is a sign or none, and the text of a date. -/
theorem Date.shape_of_parse {cs : List Char} {date : Date} (h : Date.parse cs = some date) :
    ∃ sign text, IsSign sign ∧ IsDateText text ∧ Text.trimBlanks cs = sign ++ text := by
  obtain ⟨sign, text, hsign, htext, hcs⟩ := takeDate_eq_some (complete_eq_some h)
  exact ⟨sign, text, hsign, htext, by rw [hcs, List.append_nil]⟩

/-- A time of day starts with the text of one. -/
theorem Time.shape_of_parse {cs : List Char} {time : Time} (h : Time.parse cs = some time) :
    ∃ text fraction, IsClockText text ∧ Text.trimBlanks cs = text ++ fraction := by
  obtain ⟨text, fraction, htext, hcs, -⟩ := takeTime_eq_some (complete_eq_some h)
  exact ⟨text, fraction, htext, hcs⟩

/-- A date with a time ends after its seconds or their fraction. -/
theorem DateTime.shape_of_parse {cs : List Char} {moment : DateTime}
    (h : DateTime.parse cs = some moment) :
    ∃ sign date separator clock fraction, IsSign sign ∧ IsDateText date ∧ IsClockText clock ∧
      Text.trimBlanks cs = sign ++ date ++ separator :: (clock ++ fraction) ∧
      (takeFraction maxFractionDigits fraction).2 = [] := by
  have hshape : ∀ separator,
      complete (takeDateTime separator (Text.trimBlanks cs)) = some moment →
      ∃ sign date separator clock fraction, IsSign sign ∧ IsDateText date ∧ IsClockText clock ∧
        Text.trimBlanks cs = sign ++ date ++ separator :: (clock ++ fraction) ∧
        (takeFraction maxFractionDigits fraction).2 = [] := by
    intro separator hcomplete
    have htake := complete_eq_some hcomplete
    simp only [takeDateTime, bind, Option.bind_eq_some_iff] at htake
    obtain ⟨⟨date, cs₁⟩, hdate, cs₂, hseparator, ⟨time, cs₃⟩, htime, heq⟩ := htake
    cases heq
    obtain ⟨sign, text, hsign, htext, hcs⟩ := takeDate_eq_some hdate
    obtain rfl := takeChar_eq_some hseparator
    obtain ⟨clock, fraction, hclock, rfl, hfraction⟩ := takeTime_eq_some htime
    exact ⟨sign, text, separator, clock, fraction, hsign, htext, hclock, hcs, hfraction⟩
  rcases Option.or_eq_some_iff.mp h with hblank | ⟨-, hletter⟩
  · exact hshape ' ' hblank
  · exact hshape 'T' hletter

/-- A timestamp has no sign, and something follows its fraction. -/
theorem Timestamp.shape_of_parse {cs : List Char} {t : Timestamp}
    (h : Timestamp.parse cs = some t) :
    ∃ date separator clock fraction, IsDateText date ∧ IsClockText clock ∧
      Text.trimBlanks cs = date ++ separator :: (clock ++ fraction) ∧
      (takeFraction fraction.length fraction).2 ≠ [] := by
  obtain ⟨⟨year, cs₁⟩, hyear, h⟩ := Option.bind_eq_some_iff.mp h
  obtain ⟨cs₂, hfirst, h⟩ := Option.bind_eq_some_iff.mp h
  obtain ⟨⟨month, cs₃⟩, hmonth, h⟩ := Option.bind_eq_some_iff.mp h
  obtain ⟨cs₄, hsecond, h⟩ := Option.bind_eq_some_iff.mp h
  obtain ⟨⟨day, cs₅⟩, hday, h⟩ := Option.bind_eq_some_iff.mp h
  obtain ⟨separator, hseparator, h⟩ := Option.bind_eq_some_iff.mp h
  split at h
  · obtain ⟨⟨hour, cs₆⟩, hhour, h⟩ := Option.bind_eq_some_iff.mp h
    obtain ⟨cs₇, hthird, h⟩ := Option.bind_eq_some_iff.mp h
    obtain ⟨⟨minute, cs₈⟩, hminute, h⟩ := Option.bind_eq_some_iff.mp h
    obtain ⟨cs₉, hfourth, h⟩ := Option.bind_eq_some_iff.mp h
    obtain ⟨⟨second, cs₁₀⟩, hseconds, h⟩ := Option.bind_eq_some_iff.mp h
    obtain ⟨offset, hoffset, -⟩ :
        ∃ offset, takeOffset (takeFraction cs₁₀.length cs₁₀).2 = some offset ∧ _ :=
      Option.bind_eq_some_iff.mp h
    obtain ⟨y, hy, hcs⟩ := takeNumber_eq_some hyear
    obtain rfl := takeChar_eq_some hfirst
    obtain ⟨m, hm, rfl⟩ := takeNumber_eq_some hmonth
    obtain rfl := takeChar_eq_some hsecond
    obtain ⟨d, hd, rfl⟩ := takeNumber_eq_some hday
    obtain ⟨rest, rfl⟩ := List.head?_eq_some_iff.mp hseparator
    obtain ⟨hh, hhh, rfl⟩ := takeNumber_eq_some hhour
    obtain rfl := takeChar_eq_some hthird
    obtain ⟨mm, hmm, rfl⟩ := takeNumber_eq_some hminute
    obtain rfl := takeChar_eq_some hfourth
    obtain ⟨ss, hss, rfl⟩ := takeNumber_eq_some hseconds
    refine ⟨_, separator, _, cs₁₀, ⟨y, m, d, hy, hm, hd, rfl⟩, ⟨hh, mm, ss, hhh, hmm, hss, rfl⟩,
      by simp [hcs], fun hnil => ?_⟩
    -- an offset is never empty
    rw [hnil] at hoffset
    cases hoffset
  · simp at h

/-! ## Where the texts differ -/

theorem Digits.colon_notMem {n : Nat} {ds : List Char} (h : Digits n ds) : ':' ∉ ds := fun hmem =>
  absurd (h.digits _ hmem) (by decide)

theorem IsSign.colon_notMem {sign : List Char} (h : IsSign sign) : ':' ∉ sign := by
  rcases h with rfl | rfl | rfl <;> decide

theorem IsDateText.colon_notMem {text : List Char} (h : IsDateText text) : ':' ∉ text := by
  obtain ⟨year, month, day, hyear, hmonth, hday, rfl⟩ := h
  simp [hyear.colon_notMem, hmonth.colon_notMem, hday.colon_notMem]

theorem IsClockText.colon_mem {text : List Char} (h : IsClockText text) : ':' ∈ text := by
  obtain ⟨hour, minute, second, -, -, -, rfl⟩ := h
  simp

theorem IsDateText.length {text : List Char} (h : IsDateText text) : text.length = 10 := by
  obtain ⟨year, month, day, hyear, hmonth, hday, rfl⟩ := h
  simp [hyear.length, hmonth.length, hday.length]

theorem IsClockText.length {text : List Char} (h : IsClockText text) : text.length = 8 := by
  obtain ⟨hour, minute, second, hhour, hminute, hsecond, rfl⟩ := h
  simp [hhour.length, hminute.length, hsecond.length]

/-- The third character of a time of day is a colon. -/
theorem IsClockText.third_eq_colon {text : List Char} (h : IsClockText text) (rest : List Char) :
    (text ++ rest)[2]? = some ':' := by
  obtain ⟨hour, minute, second, hhour, -, -, rfl⟩ := h
  rw [List.append_assoc, List.getElem?_append_right (by simp [hhour.length]), hhour.length]
  rfl

/-- The first four characters of a date without its sign are digits. -/
theorem IsDateText.isDigit_of_getElem? {text rest : List Char} (h : IsDateText text) {i : Nat}
    (hi : i < 4) {c : Char} (hc : (text ++ rest)[i]? = some c) : c.isDigit = true := by
  obtain ⟨year, month, day, hyear, -, -, rfl⟩ := h
  rw [List.append_assoc, List.getElem?_append_left (hyear.length.symm ▸ hi)] at hc
  exact hyear.digits c (List.mem_of_getElem? hc)

/-- The third character of a date, with a sign or without, is not a colon. -/
theorem IsDateText.third_ne_colon {sign text : List Char} (hsign : IsSign sign)
    (h : IsDateText text) (rest : List Char) : (sign ++ text ++ rest)[2]? ≠ some ':' := by
  intro hcolon
  -- the sign takes the place of one digit, and the year has four
  rcases hsign with rfl | rfl | rfl
  · exact absurd (h.isDigit_of_getElem? (i := 2) (by decide) hcolon) (by decide)
  all_goals exact absurd (h.isDigit_of_getElem? (i := 1) (by decide) hcolon) (by decide)

/-- A fraction that uses up a text uses it up whatever the limit. -/
theorem takeFraction_eq_nil {limit : Nat} {cs : List Char} (h : (takeFraction limit cs).2 = []) :
    (takeFraction cs.length cs).2 = [] := by
  rcases cs with _ | ⟨c, rest⟩
  · rfl
  by_cases hpoint : c = '.'
  · subst hpoint
    simp only [takeFraction] at h ⊢
    split at h
    · cases h
    · next hdigits =>
      -- all that is left are digits, so that a longer fraction has the same ones
      have hlength : rest.length ≤ ((rest.take limit).takeWhile Char.isDigit).length :=
        List.drop_eq_nil_iff.mp h
      have hprefix := (List.takeWhile_prefix (l := rest.take limit) Char.isDigit).trans
        (List.take_prefix limit rest)
      have hall := hprefix.eq_of_length_le hlength
      have hrest : rest.takeWhile Char.isDigit = rest :=
        List.takeWhile_eq_self_iff.mpr fun c hc => by
          rw [← hall] at hc
          exact List.mem_takeWhile_imp hc
      rw [hall] at hdigits
      rw [List.take_of_length_le (by simp), hrest, if_neg hdigits, List.drop_length]
  · simp [takeFraction, hpoint] at h

/-! ## The one thing a text can be -/

/-- What a text can be that tells a date or a time of day. -/
inductive TemporalForm where
  | date
  | time
  | dateTime
  | timestamp
  deriving DecidableEq

/-- There is no sign, and something other than a fraction follows the seconds. -/
def EndsInOffset (cs : List Char) : Prop :=
  (∀ c ∈ cs.head?, c.isDigit = true) ∧ (takeFraction (cs.drop 19).length (cs.drop 19)).2 ≠ []

instance : DecidablePred EndsInOffset := fun _ => inferInstanceAs (Decidable (_ ∧ _))

/-- The one thing a text can be. -/
def temporalForm (text : List Char) : TemporalForm :=
  let cs := Text.trimBlanks text
  if ':' ∉ cs then .date
  else if cs[2]? = some ':' then .time
  else if EndsInOffset cs then .timestamp
  else .dateTime

theorem Date.form_of_parse {cs : List Char} {date : Date} (h : Date.parse cs = some date) :
    temporalForm cs = .date := by
  obtain ⟨sign, text, hsign, htext, hcs⟩ := Date.shape_of_parse h
  have hcolon : ':' ∉ sign ++ text := by simp [hsign.colon_notMem, htext.colon_notMem]
  dsimp only [temporalForm]
  rw [hcs, if_pos hcolon]

theorem Time.form_of_parse {cs : List Char} {time : Time} (h : Time.parse cs = some time) :
    temporalForm cs = .time := by
  obtain ⟨text, fraction, htext, hcs⟩ := Time.shape_of_parse h
  have hcolon : ':' ∈ text ++ fraction := List.mem_append_left _ htext.colon_mem
  dsimp only [temporalForm]
  rw [hcs, if_neg (not_not_intro hcolon), if_pos (htext.third_eq_colon fraction)]

theorem DateTime.form_of_parse {cs : List Char} {moment : DateTime}
    (h : DateTime.parse cs = some moment) : temporalForm cs = .dateTime := by
  obtain ⟨sign, date, separator, clock, fraction, hsign, hdate, hclock, hcs, hfraction⟩ :=
    DateTime.shape_of_parse h
  have hcolon : ':' ∈ sign ++ date ++ separator :: (clock ++ fraction) := by simp [hclock.colon_mem]
  have hends : ¬EndsInOffset (sign ++ date ++ separator :: (clock ++ fraction)) := by
    rintro ⟨hhead, hoffset⟩
    -- a sign alone tells it from a timestamp; without one both have their fractions in one place
    rcases hsign with rfl | rfl | rfl
    · have hdrop : ([] ++ date ++ separator :: (clock ++ fraction)).drop 19 = fraction := by
        simp [List.drop_append, hdate.length, hclock.length]
      rw [hdrop] at hoffset
      exact hoffset (takeFraction_eq_nil hfraction)
    · exact absurd (hhead '-' rfl) (by decide)
    · exact absurd (hhead '+' rfl) (by decide)
  dsimp only [temporalForm]
  rw [hcs, if_neg (not_not_intro hcolon),
    if_neg (hdate.third_ne_colon hsign _), if_neg hends]

theorem Timestamp.form_of_parse {cs : List Char} {t : Timestamp}
    (h : Timestamp.parse cs = some t) : temporalForm cs = .timestamp := by
  obtain ⟨date, separator, clock, fraction, hdate, hclock, hcs, hfraction⟩ :=
    Timestamp.shape_of_parse h
  have hcolon : ':' ∈ date ++ separator :: (clock ++ fraction) := by simp [hclock.colon_mem]
  have hdrop : (date ++ separator :: (clock ++ fraction)).drop 19 = fraction := by
    simp [List.drop_append, hdate.length, hclock.length]
  have hends : EndsInOffset (date ++ separator :: (clock ++ fraction)) := by
    refine ⟨fun c hc => ?_, by rwa [hdrop]⟩
    rw [List.head?_eq_getElem?] at hc
    exact hdate.isDigit_of_getElem? (by decide) hc
  have hthird : (date ++ separator :: (clock ++ fraction))[2]? ≠ some ':' :=
    hdate.third_ne_colon (.inl rfl) _
  dsimp only [temporalForm]
  rw [hcs, if_neg (not_not_intro hcolon), if_neg hthird, if_pos hends]

/-! ## What a text cannot be -/

theorem Date.parse_eq_none {cs : List Char} (h : temporalForm cs ≠ .date) : Date.parse cs = none :=
  Option.eq_none_iff_forall_ne_some.mpr fun _ hparse => h (form_of_parse hparse)

theorem Time.parse_eq_none {cs : List Char} (h : temporalForm cs ≠ .time) : Time.parse cs = none :=
  Option.eq_none_iff_forall_ne_some.mpr fun _ hparse => h (form_of_parse hparse)

theorem DateTime.parse_eq_none {cs : List Char} (h : temporalForm cs ≠ .dateTime) :
    DateTime.parse cs = none :=
  Option.eq_none_iff_forall_ne_some.mpr fun _ hparse => h (form_of_parse hparse)

theorem Timestamp.parse_eq_none {cs : List Char} (h : temporalForm cs ≠ .timestamp) :
    Timestamp.parse cs = none :=
  Option.eq_none_iff_forall_ne_some.mpr fun _ hparse => h (form_of_parse hparse)

end RowMapping
