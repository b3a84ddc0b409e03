/-
Values that come back from columns declared for them.

A date, a time of day, a date with a time, a timestamp that has a text, and a boolean are bound
as cells that no longer tell what they were. A column declared with their type reads the cells
as the same values again, in any table and next to whatever else is stored in it, and whichever
of the two forms the dialect binds: the value itself, or the text it is stored as.
-/
import RowMapping.Dialect.Basic
import RowMapping.Proofs.Calendar.ReadBack
import RowMapping.Storage.Decode

set_option autoImplicit false

namespace RowMapping

variable {α : Type}

/-! ## Columns and their values -/

/-- The values that a column of a declared type gives back: its own kind, and in a column of
moments also the timestamps of an unsigned year at an offset of whole minutes below a day. -/
inductive DeclaredType.Keeps : DeclaredType → Value → Prop where
  | boolean (b : Bool) : Keeps .boolean (.boolean b)
  | date (d : Date) : Keeps .date (.date d)
  | time (t : Time) : Keeps .time (.time t)
  | dateTime (t : DateTime) : Keeps .dateTime (.dateTime t)
  | timestamp (t : Timestamp) (hyear : 0 ≤ t.moment.date.year) (hminutes : t.offset % 60 = 0)
      (hday : t.offset.natAbs < 24 * 3600) : Keeps .dateTime (.timestamp t)

/-- A dialect that binds values as they are, or in the stored form. -/
def Dialect.BindsPlainly (d : Dialect α) : Prop :=
  (∀ v, d.write v = .ok v) ∨ ∀ v, d.write v = .ok (Dialect.storedForm v)

theorem Dialect.bindsPlainly_sqlite : (Dialect.sqlite : Dialect α).BindsPlainly :=
  .inr fun _ => rfl

theorem Dialect.bindsPlainly_generic : (Dialect.generic : Dialect α).BindsPlainly :=
  .inl fun _ => rfl

/-- Binding the stored form of a value is binding the value. -/
theorem Cell.ofValue_storedForm (v : Value) : Cell.ofValue (Dialect.storedForm v) = Cell.ofValue v := by
  cases v with
  | timestamp t =>
    simp only [Dialect.storedForm, Cell.ofValue]
    cases t.write? <;> rfl
  | _ => rfl

/-- The cell of a value, whichever form is bound. -/
theorem Dialect.BindsPlainly.cell {d : Dialect α} (hd : d.BindsPlainly) (v : Value) :
    (d.write v).map Cell.ofValue = .ok (Cell.ofValue v) := by
  rcases hd with hd | hd
  · rw [hd]
    rfl
  · rw [hd, ← Cell.ofValue_storedForm v]
    rfl

/-! ## One cell -/

theorem Timestamp.write?_eq_some {t : Timestamp} (hyear : 0 ≤ t.moment.date.year)
    (hminutes : t.offset % 60 = 0) (hday : t.offset.natAbs < 24 * 3600) :
    ∃ cs, t.write? = some cs := by
  have htext : t.hasText = true := by
    simp [Timestamp.hasText, hyear, hminutes]
    omega
  exact ⟨_, by rw [Timestamp.write?, if_pos htext]⟩

/-- A cell of a value that the column keeps is read as the value. -/
theorem refine_ofValue {t : DeclaredType} {v : Value} (h : t.Keeps v) :
    (Cell.ofValue v).value.map (refine t.kind) = .ok v := by
  cases h with
  | boolean b => cases b <;> rfl
  | date d =>
    simp [Cell.ofValue, Cell.ofText?, Cell.value, Except.map, DeclaredType.kind, refine,
      Date.parse_write]
  | time t =>
    simp [Cell.ofValue, Cell.ofText?, Cell.value, Except.map, DeclaredType.kind, refine,
      Time.parse_write]
  | dateTime t =>
    simp [Cell.ofValue, Cell.ofText?, Cell.value, Except.map, DeclaredType.kind, refine, readMoment,
      DateTime.parse_write]
  | timestamp t hyear hminutes hday =>
    -- the text is offered to the reader of dates with times first, which must refuse it
    obtain ⟨cs, hcs⟩ := t.write?_eq_some hyear hminutes hday
    simp [Cell.ofValue, hcs, Cell.ofText?, Cell.value, Except.map, DeclaredType.kind, refine,
      readMoment, DateTime.parse_timestamp hcs, Timestamp.parse_write hcs]

/-! ## Whole tables -/

/-- A table in which every text can be read. -/
def StoredTable.Readable (t : StoredTable) : Prop :=
  ∀ row ∈ t.rows, ∀ cell ∈ row, ∀ fault, cell ≠ .malformedText fault

/-- The value of a cell, if it can be read. -/
def Cell.plain (c : Cell) : Value :=
  match c.value with
  | .ok v => v
  | .error _ => .null

theorem Cell.value_eq_plain {c : Cell} (h : ∀ fault, c ≠ .malformedText fault) :
    c.value = .ok c.plain := by
  cases c with
  | malformedText fault => exact absurd rfl (h fault)
  | _ => rfl

/-- Reading a table reads every cell for itself, and then as its column says. -/
theorem StoredTable.read_eq {t : StoredTable} (h : t.Readable) :
    t.read = .ok (ResultTable.mk
      (t.columns.mapIdx fun i c => c.resultColumn (t.rows.map fun row => row.map Cell.plain) i)
      ((t.rows.map fun row => row.map Cell.plain).map (refineRow
        (t.columns.mapIdx fun i c => c.resultColumn (t.rows.map fun row => row.map Cell.plain) i)))) := by
  have hrows : t.rows.mapM (fun row => row.mapM Cell.value)
      = .ok (t.rows.map fun row => row.map Cell.plain) :=
    mapM_eq_ok fun row hrow => mapM_eq_ok fun cell hcell => Cell.value_eq_plain (h row hrow cell hcell)
  rw [StoredTable.read, hrows]
  rfl

/-- A value bound through a dialect and stored in a column declared for it is read back as it
was, whatever else is in the table. -/
theorem read_bound_value {d : Dialect α} (hd : d.BindsPlainly) {t : DeclaredType} {v : Value}
    (hv : t.Keeps v) :
    ∃ cell, (d.write v).map Cell.ofValue = .ok cell ∧
      ∀ (table : StoredTable) (i j : Nat) (column : StoredColumn) (row : List Cell),
        table.Readable → table.columns[j]? = some column → column.declared = some t →
        table.rows[i]? = some row → row[j]? = some cell →
        ∃ result, table.read = .ok result ∧ result.get? i j = some v := by
  refine ⟨Cell.ofValue v, hd.cell v, fun table i j column row htable hcolumn hdeclared hrow hcell => ?_⟩
  refine ⟨_, StoredTable.read_eq htable, ?_⟩
  have hplain := Cell.value_eq_plain
    (htable row (List.mem_of_getElem? hrow) _ (List.mem_of_getElem? hcell))
  have hread : refine t.kind (Cell.ofValue v).plain = v := by
    have hrefine := refine_ofValue hv
    rw [hplain] at hrefine
    exact Except.ok.inj hrefine
  simp [ResultTable.get?, hrow, refineRow, hcell, hcolumn, StoredColumn.resultColumn, hdeclared, hread]

/-- Late on a leap day, at an offset behind universal time that is no whole hour. -/
def leapEvening : Timestamp :=
  ⟨⟨⟨2024, 2, 29, by decide⟩,
    ⟨23, 5, 7, 120000000, by decide, by decide, by decide, by decide⟩⟩, -12600⟩

/-- A table with a moment next to a cell of another type, below a row without one. -/
def twoMoments : StoredTable :=
  { columns := [⟨"at", some .dateTime⟩, ⟨"note", none⟩]
    rows := [[.null, .text "2024-02-29"], [.text "2024-02-29T23:05:07.12-03:30", .integer 1]] }

theorem read_bound_value_leapEvening :
    ((Dialect.sqlite : Dialect Empty).BindsPlainly ∧
      DeclaredType.Keeps .dateTime (.timestamp leapEvening) ∧ twoMoments.Readable) ∧
    ∃ result, twoMoments.read = .ok result ∧ result.get? 1 0 = some (.timestamp leapEvening) := by
  have hd : (Dialect.sqlite : Dialect Empty).BindsPlainly := Dialect.bindsPlainly_sqlite
  have hv : DeclaredType.Keeps .dateTime (.timestamp leapEvening) :=
    .timestamp leapEvening (by decide) (by decide) (by decide)
  have htable : twoMoments.Readable := by
    intro row hrow cell hcell fault heq
    subst heq
    simp only [twoMoments, List.mem_cons, List.not_mem_nil, or_false] at hrow
    rcases hrow with rfl | rfl
    all_goals simp at hcell
  obtain ⟨cell, hcell, hread⟩ := read_bound_value hd hv
  have hbound : ((Dialect.sqlite : Dialect Empty).write (.timestamp leapEvening)).map Cell.ofValue
      = .ok (.text "2024-02-29T23:05:07.12-03:30") := by
    have htext : Cell.ofValue (.timestamp leapEvening) = .text "2024-02-29T23:05:07.12-03:30" := by
      decide
    rw [hd.cell, htext]
  obtain rfl := Except.ok.inj (hcell.symm.trans hbound)
  exact ⟨⟨hd, hv, htable⟩, hread twoMoments 1 0 _ _ htable rfl rfl rfl rfl⟩

end RowMapping
