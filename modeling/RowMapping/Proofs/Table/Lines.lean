/-
The lines of a result that is written as a grid.

The widths of the columns are taken in one pass over the names and all rows, and capped after it;
a text is cut and filled up later, with only the width of its column at hand. So a text is never
wider than its column before the cap, and it is cut only if the cap made the column narrower than
the text: then the column has the greatest width of all, and a text of that width is what is left
with the points. Every field has the width of its column, and the bars stand below each other.
-/
import RowMapping.Table.Layout
import Mathlib.Algebra.GroupWithZero.Nat
import Mathlib.Data.List.Forall2
import Mathlib.Data.List.GetD
import Mathlib.Data.List.MinMax

set_option autoImplicit false

namespace RowMapping.ResultTable

/-! ## What is to be written -/

/-- The texts of a grid: the names of the columns, then the cells of each row. -/
def gridTexts (t : ResultTable) : List (List (List Char)) :=
  t.columnNames.map String.toList :: t.rows.map (·.map cellText)

/-- The greatest number of characters of a text in a column. -/
def greatestLength (texts : List (List (List Char))) (i : ℕ) : ℕ :=
  (texts.map fun line => (line.getD i []).length).foldr max 0

/-- The widths of the columns: the greatest number of characters, but at most fifty. -/
def columnWidths (t : ResultTable) : List ℕ :=
  (List.range t.columns.length).map fun i => min (greatestLength t.gridTexts i) 50

/-- A text of at most fifty characters is shown in full, with blanks behind it up to the width of
its column; of a longer one the first forty-seven characters are shown, and three points. -/
def shown (width : ℕ) (text : List Char) : List Char :=
  if text.length ≤ 50 then text ++ List.replicate (width - text.length) ' '
  else text.take 47 ++ ['.', '.', '.']

/-- The fields of a line of texts. -/
def fields (t : ResultTable) (texts : List (List Char)) : List (List Char) :=
  t.columnWidths.zipWith shown texts

/-- The fields of all lines: names, hyphens, and the rows. -/
def gridFields (t : ResultTable) : List (List (List Char)) :=
  t.fields (t.columnNames.map String.toList) :: t.columnWidths.map (List.replicate · '-') ::
    t.rows.map fun row => t.fields (row.map cellText)

/-- A line with bars: one at the start, and one behind each field, with a blank before and after
the field. -/
def ruled (fields : List (List Char)) : List Char :=
  '|' :: fields.flatMap fun field => ' ' :: (field ++ [' ', '|'])

/-! ## Widths -/

/-- No text in a column is longer than the greatest length. -/
theorem length_le_greatestLength {texts : List (List (List Char))} {line : List (List Char)}
    (h : line ∈ texts) (i : ℕ) : (line.getD i []).length ≤ greatestLength texts i := by
  have hmem : (line.getD i []).length ∈ texts.map fun line => (line.getD i []).length :=
    List.mem_map.mpr ⟨line, h, rfl⟩
  exact List.le_max_of_le' 0 hmem le_rfl

/-- A row widens each column to its cell. -/
theorem getElem?_widen (widths : List ℕ) (cells : List (List Char)) (i : ℕ) :
    (widen widths cells)[i]? = widths[i]?.map (max · (cells.getD i []).length) := by
  fun_induction widen widths cells generalizing i with
  | case1 width widths cell cells ih =>
    cases i with
    | zero => simp
    | succ i => simp [ih]
  | case2 widths cells hends =>
    cases widths with
    | nil => simp
    | cons width widths =>
      cases cells with
      | nil => simp
      | cons cell cells => exact absurd rfl (hends width widths cell cells rfl)

/-- All rows widen each column to the greatest length of its cells. -/
theorem getElem?_foldl_widen (rows : List (List (List Char))) (widths : List ℕ) (i : ℕ) :
    (rows.foldl widen widths)[i]? = widths[i]?.map (max · (greatestLength rows i)) := by
  induction rows generalizing widths with
  | nil => simp [greatestLength]
  | cons cells rows ih =>
    -- the cells of a row come before the rest here, and inside the maximum there
    rw [List.foldl_cons, ih, getElem?_widen, Option.map_map]
    congr 1
    funext width
    exact max_assoc _ _ _

/-- The widths that are taken are those of the texts. -/
theorem widths_eq (t : ResultTable) :
    widths (t.columnNames.map String.toList) (t.rows.map (·.map cellText)) = t.columnWidths := by
  refine List.ext_getElem? fun i => ?_
  rw [widths, List.getElem?_map, getElem?_foldl_widen, columnWidths, List.getElem?_map]
  by_cases hi : i < t.columns.length
  · simp [hi, columnNames, gridTexts, greatestLength, maxWidth]
  · simp [hi, columnNames]

/-- A width is enough for a text, up to the cap. -/
structure Fits (width : ℕ) (text : List Char) : Prop where
  atLeast : min text.length 50 ≤ width
  atMost : width ≤ 50

theorem length_columnWidths (t : ResultTable) : t.columnWidths.length = t.columns.length := by
  simp [columnWidths]

/-- The columns are wide enough for all texts. -/
theorem fits_columnWidths {t : ResultTable} {texts : List (List Char)} (h : texts ∈ t.gridTexts)
    (hlength : texts.length = t.columns.length) :
    List.Forall₂ Fits t.columnWidths texts := by
  refine List.forall₂_iff_get.mpr ⟨by rw [length_columnWidths, hlength], fun i _ hi => ?_⟩
  have hgreatest := length_le_greatestLength h i
  rw [List.getD_eq_getElem _ _ hi] at hgreatest
  have hwidth : t.columnWidths.get ⟨i, by rwa [length_columnWidths, ← hlength]⟩
      = min (greatestLength t.gridTexts i) 50 := by
    simp [columnWidths]
  rw [hwidth, List.get_eq_getElem]
  exact ⟨min_le_min_right 50 hgreatest, min_le_right _ _⟩

/-! ## Fields -/

/-- A text is cut only at the cap, and then it is filled up by nothing. -/
theorem pad_truncate {width : ℕ} {text : List Char} (h : Fits width text) :
    pad ' ' width (truncate width text) = shown width text := by
  have hleast := h.atLeast
  have hmost := h.atMost
  by_cases hshort : text.length ≤ 50
  · have hwide : text.length ≤ width := by omega
    rw [truncate, if_pos hwide, shown, if_pos hshort, pad]
  · -- the text is longer than the cap, so its column has the width of the cap
    obtain rfl : width = 50 := by omega
    have hpoints : ¬ 50 < ellipsis.length := by decide
    have hlength : (text.take 47 ++ ellipsis).length = 50 := by
      simp only [List.length_append, List.length_take, ellipsis, List.length_cons,
        List.length_nil]
      omega
    rw [truncate, if_neg hshort, if_neg hpoints, shown, if_neg hshort, pad]
    show text.take 47 ++ ellipsis ++ List.replicate (50 - (text.take 47 ++ ellipsis).length) ' ' = _
    rw [hlength, Nat.sub_self, List.replicate_zero, List.append_nil, ellipsis]

/-- What is shown of a text is as wide as its column. -/
theorem length_shown {width : ℕ} {text : List Char} (h : Fits width text) :
    (shown width text).length = width := by
  have hleast := h.atLeast
  have hmost := h.atMost
  rw [shown]
  split_ifs with hshort
  · simp only [List.length_append, List.length_replicate]
    omega
  · simp only [List.length_append, List.length_take, List.length_cons, List.length_nil]
    omega

/-- The fields of a line are as wide as their columns. -/
theorem map_length_zipWith_shown {widths : List ℕ} {texts : List (List Char)}
    (h : List.Forall₂ Fits widths texts) :
    (widths.zipWith shown texts).map List.length = widths := by
  induction h with
  | nil => rfl
  | cons hfits _ ih => rw [List.zipWith_cons_cons, List.map_cons, ih, length_shown hfits]

/-! ## Lines -/

/-- A line of texts has the texts as its fields. -/
theorem writeLine_texts {widths : List ℕ} {texts : List (List Char)}
    (h : List.Forall₂ Fits widths texts) :
    writeLine ' ' texts widths = ruled (widths.zipWith shown texts) ++ ['\n'] := by
  have hcells : (texts.zipWith (writeCell ' ') widths).flatten
      = (widths.zipWith shown texts).flatMap fun field => ' ' :: (field ++ [' ', '|']) := by
    induction h with
    | nil => rfl
    | cons hfits _ ih =>
      rw [List.zipWith_cons_cons, List.flatten_cons, ih, List.zipWith_cons_cons,
        List.flatMap_cons, writeCell, pad_truncate hfits]
  rw [writeLine, ruled, hcells]
  rfl

/-- The line below the names has hyphens as its fields. -/
theorem writeLine_hyphens (widths : List ℕ) :
    writeLine '-' (widths.map fun _ => []) widths
      = ruled (widths.map (List.replicate · '-')) ++ ['\n'] := by
  have hcells : ((widths.map fun _ => []).zipWith (writeCell '-') widths).flatten
      = (widths.map (List.replicate · '-')).flatMap fun field => ' ' :: (field ++ [' ', '|']) := by
    induction widths with
    | nil => rfl
    | cons width widths ih =>
      rw [List.map_cons, List.zipWith_cons_cons, List.flatten_cons, ih, List.map_cons,
        List.flatMap_cons]
      rfl
  rw [writeLine, ruled, hcells]
  rfl

/-- A line has three characters more than its field for each column, and the first bar. -/
theorem length_ruled (fields : List (List Char)) :
    (ruled fields).length = 1 + ((fields.map List.length).map (· + 3)).sum := by
  have hfields : (fields.flatMap fun field => ' ' :: (field ++ [' ', '|'])).length
      = ((fields.map List.length).map (· + 3)).sum := by
    induction fields with
    | nil => rfl
    | cons field fields ih =>
      rw [List.flatMap_cons, List.length_append, ih]
      simp
  rw [ruled, List.length_cons, hfields, Nat.add_comm]

/-- **The grid of a result.** If every row has one value per column, a result is written as lines
with bars, each of them closed by a line break: the names, hyphens below them, and the rows. In
every line the fields are as wide as their columns, so the bars stand below each other, and all
lines have the same number of characters. -/
theorem display_linesUp {t : ResultTable} (h : ∀ row ∈ t.rows, row.length = t.columns.length) :
    t.display.toList = t.gridFields.flatMap (fun fields => ruled fields ++ ['\n']) ∧
    ∀ fields ∈ t.gridFields, fields.map List.length = t.columnWidths ∧
      (ruled fields).length = 1 + (t.columnWidths.map (· + 3)).sum := by
  have hnames : List.Forall₂ Fits t.columnWidths (t.columnNames.map String.toList) :=
    fits_columnWidths List.mem_cons_self (by simp [columnNames])
  have hrows : ∀ row ∈ t.rows, List.Forall₂ Fits t.columnWidths (row.map cellText) :=
    fun row hrow => fits_columnWidths (List.mem_cons_of_mem _ (List.mem_map_of_mem hrow))
      (by rw [List.length_map, h row hrow])
  have hlengths : ∀ fields ∈ t.gridFields, fields.map List.length = t.columnWidths := by
    simp only [gridFields, List.forall_mem_cons, List.forall_mem_map]
    exact ⟨map_length_zipWith_shown hnames, by simp [Function.comp_def],
      fun row hrow => map_length_zipWith_shown (hrows row hrow)⟩
  refine ⟨?_, fun fields hfields => ⟨hlengths fields hfields, ?_⟩⟩
  · have hbody := List.flatMap_congr fun row hrow => writeLine_texts (hrows row hrow)
    rw [display, String.toList_ofList, writeGrid, widths_eq, writeLine_texts hnames,
      writeLine_hyphens, List.flatMap_map, hbody]
    simp only [gridFields, fields, List.flatMap_cons, List.flatMap_map, List.append_assoc]
  · rw [length_ruled, hlengths fields hfields]

/-- A text of eighty characters in a column of its own. -/
def longText : ResultTable :=
  ⟨[⟨0, "v", .text, none⟩], [[.text (String.ofList (List.replicate 80 'x'))]]⟩

/-- The column is fifty characters wide, and three of them are points in the last line. -/
theorem display_linesUp_longText :
    longText.gridFields.getLast? = some [List.replicate 47 'x' ++ ['.', '.', '.']] ∧
    ∀ fields ∈ longText.gridFields, (ruled fields).length = 54 := by
  obtain ⟨-, hlines⟩ := display_linesUp (t := longText) (by simp [longText])
  have hwidths : longText.columnWidths = [50] := by
    cbv
  refine ⟨by cbv, fun fields hfields => ?_⟩
  rw [(hlines fields hfields).2, hwidths]
  rfl

end RowMapping.ResultTable
