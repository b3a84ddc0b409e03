/-
Objects that are stored in a table of one column, and read from it.

Each object is bound as a value, and a record with the cell of the value is inserted. The column
may turn the cell into another one before it is stored, and the value that is read from the cell
may be refined by the kind of the column before it is converted. Where both keep the value, what
is read depends on the value alone, and a list of objects is read if each of them is.
-/
import Mathlib.Data.List.TakeWhile
import RowMapping.Dialect.Basic
import RowMapping.Proofs.Instantiation.UndeclaredColumns
import RowMapping.Storage.Records

set_option autoImplicit false

namespace RowMapping

variable {α : Type}

/-! ## Texts of arrays in columns -/

namespace Affinity

/-- The ASCII blanks are all that is taken from the ends of a text. -/
theorem mem_trimAscii {c : Char} {cs : List Char} (h : c ∈ cs) (hspace : c ≠ ' ')
    (hcontrol : 0x0d < c.toNat) : c ∈ trimAscii cs := by
  have hkept (p : Char → Bool) (hp : p c = false) {cs : List Char} (hmem : c ∈ cs) :
      c ∈ cs.dropWhile p := by
    rw [← List.takeWhile_append_dropWhile (p := p) (l := cs)] at hmem
    refine (List.mem_append.mp hmem).resolve_left fun htaken => ?_
    rw [List.mem_takeWhile_imp htaken] at hp
    cases hp
  have hblank : (c == ' ' || (decide (0x09 ≤ c.toNat) && decide (c.toNat ≤ 0x0d))) = false := by
    simp only [beq_eq_false_iff_ne.mpr hspace, Bool.false_or, Bool.and_eq_false_iff,
      decide_eq_false_iff_not]
    omega
  rw [trimAscii]
  refine List.mem_reverse.mpr (hkept _ hblank (List.mem_reverse.mpr (hkept _ hblank h)))

/-- Every column keeps the text of an array. -/
theorem apply_text_array (a : Affinity) (items : List Json) :
    a.apply (.text (Json.array items).text) = .text (Json.array items).text := by
  have hmem : '[' ∈ trimAscii (Json.array items).text.toList := by
    refine mem_trimAscii ?_ (by decide) (by decide)
    simp [Json.text, Json.write]
  have hnumber : numberOfText? (Json.array items).text = none := by
    rw [numberOfText?]
    refine if_neg fun hall => ?_
    exact absurd (List.all_eq_true.mp hall '[' hmem) (by decide)
  have htext : textOrNumber (Json.array items).text = .text (Json.array items).text := by
    rw [textOrNumber, hnumber]
    rfl
  cases a <;> simp [apply, htext, narrow, widen]

end Affinity

/-! ## Tables of one column -/

namespace Records

/-- A table of one column after a record is inserted for each of some cells. -/
def ofColumn (c : ColumnDeclaration) (cells : List Cell) : Records :=
  cells.foldl (fun s cell => (insert [c] [cell] s).contents) []

/-- The new record is the last of those that are selected. -/
theorem after_insert (c : ColumnDeclaration) (cell : Cell) (s : Records) :
    after (.integer 0) (insert [c] [cell] s).contents
      = after (.integer 0) s ++ [[(Affinity.ofDeclared c.declared).apply cell]] := by
  have hafter : isAfter (s.length + 1) (.integer 0) = true := by
    simp [isAfter]
  simp [after, insert, hafter]

theorem after_foldl (c : ColumnDeclaration) (cells : List Cell) (s : Records) :
    after (.integer 0) (cells.foldl (fun s cell => (insert [c] [cell] s).contents) s)
      = after (.integer 0) s
        ++ cells.map fun cell => [(Affinity.ofDeclared c.declared).apply cell] := by
  induction cells generalizing s with
  | nil => simp
  | cons cell cells ih =>
    rw [List.foldl_cons, ih, after_insert, List.append_assoc, List.singleton_append, List.map_cons]

/-- The two ways of selecting a column have two texts. -/
theorem selectSql_true_ne (c : ColumnDeclaration) : selectSql true [c] ≠ selectSql false [c] := by
  intro heq
  have hlength := congrArg String.length heq
  simp [selectSql, selectItem, Text.join] at hlength

/-- All cells are selected, as the column prefers them. -/
theorem select_ofColumn (c : ColumnDeclaration) (expressions : Bool) (cells : List Cell) :
    select [c] (selectSql expressions [c]) [.integer 0] (ofColumn c cells)
      = .ok (StoredTable.single
          ⟨c.name, if expressions then none else DeclaredType.ofText? c.declared⟩
          (cells.map (Affinity.ofDeclared c.declared).apply)) := by
  have hrows : after (.integer 0) (ofColumn c cells)
      = (cells.map (Affinity.ofDeclared c.declared).apply).map ([·]) := by
    rw [ofColumn, after_foldl, List.map_map]
    rfl
  cases expressions with
  | false => simp [select, resultColumns, hrows, StoredTable.single]
  | true => simp [select, selectSql_true_ne, resultColumns, hrows, StoredTable.single]

end Records

/-! ## Objects in tables -/

/-- If it is known of each value when it is converted and to what, it is known of a list. -/
theorem Conversion.mapM_dynamic_iff {r : Registry α} {t : TargetType} {β : Type} {p : β → Prop}
    {f : β → Object α} {ws : List β} {vs : List Value}
    (h : List.Forall₂ (fun w v => ∀ x, dynamic r t v = .ok x ↔ p w ∧ f w = x) ws vs)
    (xs : List (Object α)) :
    vs.mapM (dynamic r t) = .ok xs ↔ (∀ w ∈ ws, p w) ∧ ws.map f = xs := by
  rw [mapM_eq_ok_iff]
  induction h generalizing xs with
  | nil => simp [eq_comm]
  | @cons w v ws vs hfirst _ ih =>
    rw [List.forall₂_cons_left_iff]
    simp only [hfirst, ih, List.forall_mem_cons, List.map_cons]
    constructor
    · rintro ⟨x, rest, ⟨hw, rfl⟩, ⟨hws, rfl⟩, rfl⟩
      exact ⟨⟨hw, hws⟩, rfl⟩
    · rintro ⟨⟨hw, hws⟩, rfl⟩
      exact ⟨_, _, ⟨hw, rfl⟩, ⟨hws, rfl⟩, rfl⟩

namespace Records

/-- The table of one column after objects are bound and inserted one after the other. -/
def store (style : Argument.Style α) (mode : EnumMode) (c : ColumnDeclaration)
    (xs : List (Object α)) : Except Error Records :=
  (xs.mapM fun x => (Argument.ofObject style x).bound Dialect.sqlite Registry.withDefaults mode).map
    fun vs => ofColumn c (vs.map Cell.ofValue)

/-- Instances of a type from all records. -/
def read (c : ColumnDeclaration) (expressions : Bool) (t : Target α) (s : Records) :
    Except Error (List (Object α)) :=
  ((select [c] (selectSql expressions [c]) [.integer 0] s).mapError
    (Error.query · (selectSql expressions [c]))).bind (·.instances Registry.withDefaults t)

section

variable {c : ColumnDeclaration} {expressions : Bool} {t : Target α} {β : Type} {ws : List β}
  {write : β → Value} {p : β → Prop} {f : β → Object α}

/-- Stored cells that are read as the values of the cells, and as the kind of the column, are
converted as the values are. -/
theorem read_ofColumn_iff (hplain : t.description.constructors = [])
    (hcells : ∀ w, ((Affinity.ofDeclared c.declared).apply (Cell.ofValue (write w))).value
      = .ok (write w))
    (hcolumn : ∀ d ∈ if expressions then none else DeclaredType.ofText? c.declared,
      (Conversion.find? (Registry.withDefaults : Registry α) t.type d.kind).isSome = true ∧
        ∀ w, refine d.kind (write w) = write w)
    (hread : ∀ w x, Conversion.dynamic Registry.withDefaults t.type (write w) = .ok x ↔
      p w ∧ f w = x) (xs : List (Object α)) :
    read c expressions t (ofColumn c ((ws.map write).map Cell.ofValue)) = .ok xs ↔
      (∀ w ∈ ws, p w) ∧ ws.map f = xs := by
  have hall : List.Forall₂ (fun w v => ∀ x,
      Conversion.dynamic Registry.withDefaults t.type v = .ok x ↔ p w ∧ f w = x) ws (ws.map write) :=
    List.forall₂_map_right_iff.mpr (List.forall₂_same.mpr fun w _ => hread w)
  have hvalues : (((ws.map write).map Cell.ofValue).map
      (Affinity.ofDeclared c.declared).apply).mapM Cell.value = .ok (ws.map write) := by
    simp only [List.map_map, List.mapM_map]
    exact mapM_eq_ok fun w _ => hcells w
  rw [← Conversion.mapM_dynamic_iff hall, read, select_ofColumn]
  show (StoredTable.single _ _).instances _ t = .ok xs ↔ _
  -- from here on it only matters what the cells hold
  generalize hstored : ((ws.map write).map Cell.ofValue).map
    (Affinity.ofDeclared c.declared).apply = cells at hvalues
  cases hdeclared : if expressions then none else DeclaredType.ofText? c.declared with
  | none =>
    show (StoredTable.undeclared c.name cells).instances _ t = .ok xs ↔ _
    rw [StoredTable.instances, StoredTable.read_undeclared, hvalues]
    exact instances_singleColumn_iff hplain rfl xs
  | some d =>
    -- a declared type refines each value first, which keeps what is written here
    obtain ⟨hfind, hkept⟩ := hcolumn d hdeclared
    rw [StoredTable.instances_declared_iff hfind, ← mapM_bind_eq_ok_iff, hvalues]
    show (ws.map write).mapM (fun v => Conversion.dynamic _ t.type (refine d.kind v)) = .ok xs ↔ _
    rw [List.mapM_map, List.mapM_map]
    simp only [Function.comp_def, hkept]

theorem store_eq {style : Argument.Style α} {mode : EnumMode} {object : β → Object α}
    (hbound : ∀ w, (Argument.ofObject style (object w)).bound Dialect.sqlite Registry.withDefaults
      mode = .ok (write w)) :
    store style mode c (ws.map object) = .ok (ofColumn c ((ws.map write).map Cell.ofValue)) := by
  have hwritten : (ws.map object).mapM (fun x => (Argument.ofObject style x).bound Dialect.sqlite
      Registry.withDefaults mode) = .ok (ws.map write) := by
    rw [List.mapM_map]
    exact mapM_eq_ok fun w _ => hbound w
  rw [store, hwritten]
  rfl

end

end Records

end RowMapping
