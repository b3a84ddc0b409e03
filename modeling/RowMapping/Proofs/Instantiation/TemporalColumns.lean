/-
Dates and times in columns that are declared for them, and in columns of text.

A date, a time of day, a date with a time or a timestamp can be read from a column of text. In a
column declared for dates, times or moments the text is refined first, if it is of the form the
column is declared for, and is read natively, or by the conversion of another kind then. Nothing
is lost by that, because a text is of one form only: a column refines the texts that are read as
its own types, or as timestamps in universal time, and keeps all others, which are read as text.
So the two readers of moments may be tried in either order, as the column and the conversion do.
-/
import RowMapping.Proofs.Calendar.Disjoint
import RowMapping.Proofs.Conversion.StoredLists
import RowMapping.Proofs.Instantiation.StoredColumns
import RowMapping.Proofs.Storage.TypedColumns

set_option autoImplicit false

namespace RowMapping

variable {α : Type}

/-! ## Types -/

/-- The types of dates, times of day, and both. -/
inductive TargetType.Temporal : TargetType → Prop where
  | date : Temporal .date
  | time : Temporal .time
  | dateTime : Temporal .dateTime
  | timestamp : Temporal .timestamp

/-- The types that columns of dates, times of day, and both are declared with. -/
inductive DeclaredType.Temporal : DeclaredType → Prop where
  | date : Temporal .date
  | time : Temporal .time
  | dateTime : Temporal .dateTime

/-- Each of the types has a conversion from text, and from each of the columns. -/
theorem TargetType.Temporal.isSome_find? {type : TargetType} (htype : type.Temporal) :
    (Conversion.find? (Registry.withDefaults : Registry α) type .text).isSome = true ∧
    ∀ {declared : DeclaredType}, declared.Temporal →
      (Conversion.find? (Registry.withDefaults : Registry α) type declared.kind).isSome = true := by
  constructor
  · cases htype <;> rfl
  · rintro _ (_ | _)
    all_goals cases htype <;> rfl

/-! ## Texts -/

/-- A text is converted by a parser to what the parser reads in it. -/
theorem Conversion.dynamic_text_eq_ok_iff {r : Registry α} {t : TargetType} {β : Type}
    {make : β → Object α} (hmake : ∀ b, (make b).type = t) {name : String}
    {parse : List Char → Option β}
    (hdirect : direct? r t .text
      = some ⟨.registered, (TypeConversion.ofFunction t make hmake (readParsed name parse)).convert⟩)
    {s : String} {x : Object α} :
    dynamic r t (.text s) = .ok x ↔ ∃ b, parse s.toList = some b ∧ make b = x := by
  rw [dynamic_of_direct? (v := .text s) hdirect]
  show (readParsed name parse (.text s)).map make = .ok x ↔ _
  cases hparse : parse s.toList with
  | none => simp [readParsed, Value.asText?, hparse, Except.map]
  | some b => simp [readParsed, Value.asText?, hparse, Except.map]

/-- The columns that refine the texts of a form. -/
def TemporalForm.column : TemporalForm → DeclaredType
  | date => .date
  | time => .time
  | dateTime => .dateTime
  | timestamp => .dateTime

/-- A column keeps the texts of other forms. -/
theorem refine_text_of_ne {declared : DeclaredType} {s : String}
    (h : (temporalForm s.toList).column ≠ declared) :
    refine declared.kind (.text s) = .text s := by
  have hother (form : TemporalForm) (hcolumn : form.column = declared) :
      temporalForm s.toList ≠ form := fun heq => h (heq ▸ hcolumn)
  cases declared with
  | date =>
    have hdate : Date.parse s.toList = none := Date.parse_eq_none (hother .date rfl)
    simp [DeclaredType.kind, refine, hdate]
  | time =>
    have htime : Time.parse s.toList = none := Time.parse_eq_none (hother .time rfl)
    simp [DeclaredType.kind, refine, htime]
  | dateTime =>
    have hdateTime : DateTime.parse s.toList = none := DateTime.parse_eq_none (hother .dateTime rfl)
    have htimestamp : Timestamp.parse s.toList = none :=
      Timestamp.parse_eq_none (hother .timestamp rfl)
    simp [DeclaredType.kind, refine, readMoment, hdateTime, htimestamp]
  | _ => rfl

/-- What is read in a text is read in it as a column refines it. -/
theorem dynamic_refine_text {t : TargetType} (ht : t.Temporal) (declared : DeclaredType)
    {s : String} {x : Object α} (h : Conversion.dynamic .withDefaults t (.text s) = .ok x) :
    Conversion.dynamic .withDefaults t (refine declared.kind (.text s)) = .ok x := by
  -- only the column that refines texts of this form sees another value
  by_cases hcolumn : (temporalForm s.toList).column = declared
  case neg => rwa [refine_text_of_ne hcolumn]
  subst hcolumn
  cases ht with
  | date =>
    obtain ⟨d, hparse, rfl⟩ :=
      (Conversion.dynamic_text_eq_ok_iff (t := .date) (fun _ => rfl) rfl).mp h
    rw [Date.form_of_parse hparse, TemporalForm.column, DeclaredType.kind, refine, hparse]
    rfl
  | time =>
    obtain ⟨d, hparse, rfl⟩ :=
      (Conversion.dynamic_text_eq_ok_iff (t := .time) (fun _ => rfl) rfl).mp h
    rw [Time.form_of_parse hparse, TemporalForm.column, DeclaredType.kind, refine, hparse]
    rfl
  | dateTime =>
    obtain ⟨m, hparse, rfl⟩ :=
      (Conversion.dynamic_text_eq_ok_iff (t := .dateTime) (fun _ => rfl) rfl).mp h
    rw [DateTime.form_of_parse hparse, TemporalForm.column, DeclaredType.kind, refine, readMoment,
      hparse]
    rfl
  | timestamp =>
    obtain ⟨m, hparse, rfl⟩ :=
      (Conversion.dynamic_text_eq_ok_iff (t := .timestamp) (fun _ => rfl) rfl).mp h
    rcases Option.or_eq_some_iff.mp hparse with htimestamp | ⟨-, hutc⟩
    · -- the column offers the text to the other reader first, which must refuse it
      have hform := Timestamp.form_of_parse htimestamp
      have hdateTime : DateTime.parse s.toList = none := DateTime.parse_eq_none (by simp [hform])
      rw [hform, TemporalForm.column, DeclaredType.kind, refine, readMoment, hdateTime, htimestamp]
      rfl
    · -- the column reads a moment without an offset, which is converted as one
      obtain ⟨moment, hmoment, rfl⟩ := Option.map_eq_some_iff.mp hutc
      rw [DateTime.form_of_parse hmoment, TemporalForm.column, DeclaredType.kind, refine, readMoment,
        hmoment]
      rfl

/-- What is read in a value is read in it as a column of dates or times refines it: all values but
texts are kept. -/
theorem dynamic_refine {t : TargetType} (ht : t.Temporal) {declared : DeclaredType}
    (hdeclared : declared.Temporal) {v : Value} {x : Object α}
    (h : Conversion.dynamic .withDefaults t v = .ok x) :
    Conversion.dynamic .withDefaults t (refine declared.kind v) = .ok x := by
  cases v with
  | text s => exact dynamic_refine_text ht declared h
  | _ => cases hdeclared <;> exact h

/-! ## Columns -/

/-- **Columns of dates and times.** What is read as a date, a time of day, a date with a time or a
timestamp from a column of text is read as the same from a column that is declared for dates, for
times of day or for moments. This holds for the conversions of two such columns wherever they
stand, which exist, and for the instances from stored tables with one column. -/
theorem instances_temporal {t : Target α} (ht : t.type.Temporal) {declared : DeclaredType}
    (hdeclared : declared.Temporal) :
    (∀ column column' : Column, column.kind = .text → column'.kind = declared.kind →
      ∃ c c' : ColumnConversion α, ColumnConversion.find? .withDefaults column t.type = some c ∧
        ColumnConversion.find? .withDefaults column' t.type = some c' ∧
        ∀ v x, c.convert .withDefaults v = .ok x →
          c'.convert .withDefaults (refine declared.kind v) = .ok x) ∧
    ∀ (name : String) (cells : List Cell) (xs : List (Object α)),
      (StoredTable.single ⟨name, some .text⟩ cells).instances .withDefaults t = .ok xs →
      (StoredTable.single ⟨name, some declared⟩ cells).instances .withDefaults t = .ok xs := by
  obtain ⟨htext, hfind⟩ := ht.isSome_find? (α := α)
  constructor
  · intro column column' hkind hkind'
    obtain ⟨c, hc⟩ := Option.isSome_iff_exists.mp
      (ColumnConversion.isSome_find? (.inr (hkind ▸ htext)))
    obtain ⟨c', hc'⟩ := Option.isSome_iff_exists.mp
      (ColumnConversion.isSome_find? (.inr (hkind' ▸ hfind hdeclared)))
    refine ⟨c, c', hc, hc', fun v x h => ?_⟩
    rw [ColumnConversion.convert_eq_dynamic hc, mapError_eq_ok_iff] at h
    rw [ColumnConversion.convert_eq_dynamic hc', mapError_eq_ok_iff]
    exact dynamic_refine ht hdeclared h
  · intro name cells xs h
    have hkept (v : Value) : refine DeclaredType.text.kind v = v := by cases v <;> rfl
    rw [StoredTable.instances_declared_iff htext, mapM_eq_ok_iff] at h
    rw [StoredTable.instances_declared_iff (hfind hdeclared), mapM_eq_ok_iff]
    refine h.imp fun cell x hcell => ?_
    obtain ⟨v, hvalue, hread⟩ := bind_eq_ok_iff.mp hcell
    rw [hkept] at hread
    exact bind_eq_ok_iff.mpr ⟨v, hvalue, dynamic_refine ht hdeclared hread⟩

/-- A moment without an offset and one with an offset are read as timestamps from a column of text,
and from a column of moments, where they are values of two kinds. -/
theorem instances_temporal_moments :
    let t : Target Empty := ⟨.timestamp, {}⟩
    let cells : List Cell := [.text "2024-02-29 23:05:07.12", .text "2024-02-29T23:05:07.12-03:30"]
    let xs : List (Object Empty) :=
      [.timestamp leapEvening.moment.utc, .timestamp leapEvening]
    (t.type.Temporal ∧ DeclaredType.dateTime.Temporal ∧
      (StoredTable.single ⟨"at", some .text⟩ cells).instances .withDefaults t = .ok xs) ∧
    (StoredTable.single ⟨"at", some .dateTime⟩ cells).instances .withDefaults t = .ok xs := by
  intro t cells xs
  have htext : (StoredTable.single ⟨"at", some .text⟩ cells).instances .withDefaults t = .ok xs := rfl
  exact ⟨⟨.timestamp, .dateTime, htext⟩,
    (instances_temporal (t := t) .timestamp .dateTime).2 "at" cells xs htext⟩

end RowMapping
