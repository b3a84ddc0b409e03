/-
Texts of JSON arrays, read as lists of documents.

A text that holds an array can be read as the document, or as a list of documents. The second way
is longer. The array is cut into its items, each becomes a value, and the value is converted by
what its own kind calls for. On that way two kinds of items do not stay what they are in the
document. A `null` is a missing value, which is no document, and makes the list fail. A string is
text, and text that holds a document of its own is read as that document. All other items come
back as they are: what a value forgets of a document, a document does not tell.
-/
import RowMapping.Proofs.Conversion.StoredLists
import RowMapping.Proofs.Instantiation.DirectColumns
import RowMapping.Proofs.Json.Numbers

set_option autoImplicit false

namespace RowMapping

variable {α : Type}

/-! ## Documents that values keep -/

/-- A number that is a double, or an integer that a word holds. -/
def JsonNumber.FitsWord : JsonNumber → Prop
  | .integer i => fitsInt64 i = true
  | .real _ => True

namespace Json

theorem Numbers.and {p q : JsonNumber → Prop} {j : Json} (hp : j.Numbers p) (hq : j.Numbers q) :
    j.Numbers fun n => p n ∧ q n := by
  induction hp with
  | null => exact .null
  | boolean b => exact .boolean b
  | string s => exact .string s
  | object fields => exact .object fields
  | number hn =>
    cases hq with
    | number hm => exact .number ⟨hn, hm⟩
  | array _ ih =>
    cases hq with
    | array hitems => exact .array fun k hk => ih k hk (hitems k hk)

/-- The numbers of a document are finite, and its integers are held by words. -/
abbrev Kept (j : Json) : Prop := j.Numbers fun n => n.FitsWord ∧ n.IsFinite

end Json

/-- A document is found again from the value it becomes. -/
theorem Value.toJson_ofJson {j : Json} (h : j.Kept) : (ofJson j).toJson = j := by
  induction h with
  | @number n hn =>
    cases n with
    | integer i =>
      have hfits : fitsInt64 i = true := hn.1
      simp [ofJson, ofJsonNumber, int64Of?, hfits, toJson, toInt_ofInt_of_fits hfits, Json.ofInt]
    | real x =>
      have hfinite : x.isFinite = true := hn.2
      simp [ofJson, ofJsonNumber, toJson, Json.ofFloating, hfinite]
  | @array items _ ih =>
    have hitems : items.map (toJson ∘ ofJson) = items.map id := List.map_congr_left ih
    rw [ofJson, toJson, ofJsonItems_eq, toJsonItems_eq, List.map_map, hitems, List.map_id]
  | _ => rfl

/-! ## One item -/

/-- The document that an item of an array is read as: a string that holds a document as that, and
everything else as it is. -/
def Json.reread : Json → Json
  | .string s => (Json.ofText? s).getD (.string s)
  | j => j

namespace Conversion

/-- Values of the kinds that only have the conversion for all kinds are read as their documents. -/
theorem dynamic_json_of_any {v : Value} (hnull : v.isNull = false)
    (hnative : native? (α := α) v.kind .json = none)
    (hfind : (Registry.withDefaults : Registry α).find? v.kind .json = some jsonFromAny) :
    dynamic (Registry.withDefaults : Registry α) .json v = .ok (.json v.toJson) := by
  rw [dynamic_of_find? (t := .json) nofun hnative hfind]
  simp [TypeConversion.convert, hnull, jsonFromAny, TypeConversion.ofFunction, Except.map]

theorem dynamic_json_text (s : String) :
    dynamic (Registry.withDefaults : Registry α) .json (.text s)
      = .ok (.json ((Json.ofText? s).getD (.string s))) := by
  have hfind : (Registry.withDefaults : Registry α).find? .text .json = some jsonFromText := rfl
  rw [dynamic_of_find? (t := .json) (v := .text s) nofun rfl hfind]
  rfl

/-- An item that is there is read as a document. -/
theorem dynamic_item {j : Json} (h : j.Kept) (hnull : j ≠ .null) :
    dynamic (Registry.withDefaults : Registry α) .json (Value.ofJson j) = .ok (.json j.reread) := by
  have hkept := Value.toJson_ofJson h
  cases j with
  | null => exact absurd rfl hnull
  | boolean b => exact dynamic_json_of_any rfl rfl rfl
  | string s => exact dynamic_json_text s
  | array items =>
    have hread := dynamic_json_of_any (α := α) (v := Value.ofJson (.array items)) rfl rfl rfl
    rw [hread, hkept]
    rfl
  | object fields =>
    rw [Value.ofJson, dynamic_of_direct? (v := .json (.object fields)) (c := ⟨.exact, _⟩) rfl]
    rfl
  | number n =>
    have hread : dynamic (Registry.withDefaults : Registry α) .json (Value.ofJson (.number n))
        = .ok (.json (Value.ofJson (.number n)).toJson) := by
      cases n with
      | real x => exact dynamic_json_of_any rfl rfl rfl
      | integer i =>
        simp only [Value.ofJson, Value.ofJsonNumber]
        cases int64Of? i <;> exact dynamic_json_of_any rfl rfl rfl
    rw [hread, hkept]
    rfl

/-! ## Whole arrays -/

/-- A function that fails in one way only fails so on a list with an item that it fails on. -/
theorem mapM_eq_error_of_mem {β γ ε : Type} {f : β → Except ε γ} {xs : List β} {x : β} {e : ε}
    (hmem : x ∈ xs) (hx : f x = .error e) (honly : ∀ y ∈ xs, ∀ e', f y = .error e' → e' = e) :
    xs.mapM f = .error e := by
  cases hresult : xs.mapM f with
  | ok ys =>
    obtain ⟨e', he'⟩ := exists_mapM_error_iff.mpr ⟨x, hmem, e, hx⟩
    cases hresult.symm.trans he'
  | error e' =>
    obtain ⟨y, hy, hfailed⟩ := exists_of_mapM_error hresult
    rw [honly y hy e' hfailed]

/-- The text of an array is read as a list by reading its items. -/
theorem dynamic_text_list {s : String} {items : List Json}
    (hparse : Json.ofText? s = some (.array items)) (t : TargetType) :
    dynamic (Registry.withDefaults : Registry α) (.list t) (.text s) = (do
      let objects ← (items.map Value.ofJson).mapM (dynamic Registry.withDefaults t)
      let objects ← objects.mapM (·.expect t)
      pure (.list t objects)) := by
  have hitems : listItems (.text s) = .ok (items.map Value.ofJson) := by
    simp [listItems, Value.asText?, hparse, Value.ofJsonItems_eq]
  rw [dynamic_list rfl, readList, hitems]
  rfl

/-- Items that are all there are read as documents, one by one. -/
theorem dynamic_text_present {s : String} {items : List Json}
    (hparse : Json.ofText? s = some (.array items)) (hkept : ∀ j ∈ items, j.Kept)
    (hpresent : .null ∉ items) :
    dynamic (Registry.withDefaults : Registry α) (.list .json) (.text s)
      = .ok (.list .json (items.map fun j => .json j.reread)) := by
  have hread : (items.map Value.ofJson).mapM (dynamic (Registry.withDefaults : Registry α) .json)
      = .ok (items.map fun j => .json j.reread) := by
    rw [List.mapM_map]
    refine mapM_eq_ok fun j hj => dynamic_item (hkept j hj) ?_
    rintro rfl
    exact hpresent hj
  have htypes : ∀ x ∈ items.map (fun j => (.json j.reread : Object α)), x.type = .json := by
    intro x hx
    obtain ⟨j, -, rfl⟩ := List.mem_map.mp hx
    rfl
  rw [dynamic_text_list hparse, hread]
  simp only [bind, Except.bind, Object.mapM_expect htypes]
  rfl

/-- A single item that is missing makes the list fail. -/
theorem dynamic_text_missing {s : String} {items : List Json}
    (hparse : Json.ofText? s = some (.array items)) (hkept : ∀ j ∈ items, j.Kept)
    (hmissing : .null ∈ items) :
    dynamic (Registry.withDefaults : Registry α) (.list .json) (.text s)
      = .error (.conversion (.null .json)) := by
  have hread : (items.map Value.ofJson).mapM (dynamic (Registry.withDefaults : Registry α) .json)
      = .error (.conversion (.null .json)) := by
    rw [List.mapM_map]
    refine mapM_eq_error_of_mem hmissing rfl fun j hj e hfailed => ?_
    -- no other item fails
    by_cases hnull : j = .null
    · subst hnull
      cases hfailed
      rfl
    · cases (dynamic_item (hkept j hj) hnull).symm.trans hfailed
  rw [dynamic_text_list hparse, hread]
  rfl

/-- A column of any kind can be read as documents. -/
theorem isSome_find?_json (source : ValueKind) :
    (find? (Registry.withDefaults : Registry α) .json source).isSome = true := by
  cases source <;> rfl

end Conversion

/-! ## Columns of texts -/

/-- A cell with the text of an array, whose integers outside of objects are held by words, is read
as the document in a column of any kind. In a column of lists or of unknown values it is read as a
list of documents exactly if no item is `null`: the items of the document, but for the strings
that hold documents of their own, in place of which those stand. With a `null` among the items the
list fails for that. -/
theorem arrayText_readBothWays {s : String} {items : List Json}
    (hparse : Json.ofText? s = some (.array items))
    (hwords : ∀ j ∈ items, j.Numbers JsonNumber.FitsWord) {column : Column}
    (hcolumn : column.kind = .null ∨ Conversion.canBeList column.kind = true) :
    ∃ whole list,
      findPlan Registry.withDefaults (⟨.json, {}⟩ : Target α) [column] = .ok whole ∧
      findPlan Registry.withDefaults (⟨.list .json, {}⟩ : Target α) [column] = .ok list ∧
      whole.instantiate Registry.withDefaults .json [.text s] = .ok (.json (.array items)) ∧
      (.null ∉ items → list.instantiate Registry.withDefaults (.list .json) [.text s]
        = .ok (.list .json (items.map fun j => .json j.reread))) ∧
      (.null ∈ items → list.instantiate Registry.withDefaults (.list .json) [.text s]
        = .error (.inColumn column.name (.conversion (.null .json)))) := by
  -- the parser gives out finite numbers only; how large integers are it does not limit
  have hkept : ∀ j ∈ items, j.Kept := by
    cases Json.numbers_of_ofText? hparse with
    | array hfinite => exact fun j hj => (hwords j hj).and (hfinite j hj)
  obtain ⟨whole, hwhole, hreadWhole⟩ := exists_directPlan
    (ColumnConversion.isSome_find? (α := α) (.inr (Conversion.isSome_find?_json column.kind)))
  have hconversion : (ColumnConversion.find? (Registry.withDefaults : Registry α) column
      (.list .json)).isSome = true :=
    Option.isSome_iff_exists.mpr (exists_conversion_list hcolumn)
  obtain ⟨list, hlist, hreadList⟩ := exists_directPlan hconversion
  refine ⟨whole, list, hwhole, hlist, ?_, fun hpresent => ?_, fun hmissing => ?_⟩
  · rw [hreadWhole, Conversion.dynamic_json_text, hparse]
    rfl
  · rw [hreadList, Conversion.dynamic_text_present hparse hkept hpresent]
    rfl
  · rw [hreadList, Conversion.dynamic_text_missing hparse hkept hmissing]
    rfl

/-- A column of texts. -/
def documentColumn : Column := ⟨0, "c", .text, none⟩

theorem canBeList_documentColumn :
    documentColumn.kind = .null ∨ Conversion.canBeList documentColumn.kind = true := .inr rfl

/-- A number, a string with a number in it, an array with a missing item, and a truth value. -/
def mixedItems : List Json :=
  [Json.ofInt 1, .string "2", .array [.null, .string "3"], .boolean true]

theorem ofText?_mixedItems :
    Json.ofText? "[1,\"2\",[null,\"3\"],true]" = some (.array mixedItems) := by
  have hplain : (Json.array mixedItems).Plain Json.maxNesting := by
    refine .array ?_
    simp only [mixedItems, List.forall_mem_cons, List.not_mem_nil, false_implies, implies_true,
      and_true]
    refine ⟨.integer _ ⟨by decide, by decide⟩, .string _ _, .array ?_, .boolean _ _⟩
    exact List.forall_mem_cons.mpr ⟨.null _, List.forall_mem_singleton.mpr (.string _ _)⟩
  have htext : (Json.array mixedItems).text = "[1,\"2\",[null,\"3\"],true]" := by decide
  rw [← htext]
  exact Json.ofText?_text hplain

/-- The text of a small number is a document. -/
theorem Json.reread_digit : (Json.string "2").reread = Json.ofInt 2 := by
  have htext : (Json.ofInt 2).text = "2" := by decide
  have hread : Json.ofText? (Json.ofInt 2).text = some (Json.ofInt 2) :=
    Json.ofText?_text (.integer _ ⟨by decide, by decide⟩)
  rw [reread, ← htext, hread]
  rfl

theorem arrayText_readBothWays_mixedItems :
    Json.ofText? "[1,\"2\",[null,\"3\"],true]" = some (.array mixedItems) ∧
    (∀ j ∈ mixedItems, j.Numbers JsonNumber.FitsWord) ∧
    ∃ whole list,
      findPlan Registry.withDefaults (⟨.json, {}⟩ : Target Empty) [documentColumn] = .ok whole ∧
      findPlan Registry.withDefaults (⟨.list .json, {}⟩ : Target Empty) [documentColumn]
        = .ok list ∧
      whole.instantiate Registry.withDefaults .json [.text "[1,\"2\",[null,\"3\"],true]"]
        = .ok (.json (.array mixedItems)) ∧
      list.instantiate Registry.withDefaults (.list .json) [.text "[1,\"2\",[null,\"3\"],true]"]
        = .ok (.list .json [.json (Json.ofInt 1), .json (Json.ofInt 2),
            .json (.array [.null, .string "3"]), .json (.boolean true)]) := by
  have hwords : ∀ j ∈ mixedItems, j.Numbers JsonNumber.FitsWord := by
    simp only [mixedItems, List.forall_mem_cons, List.not_mem_nil, false_implies, implies_true,
      and_true]
    refine ⟨.number rfl, .string _, .array ?_, .boolean _⟩
    exact List.forall_mem_cons.mpr ⟨.null, List.forall_mem_singleton.mpr (.string _)⟩
  have hpresent : .null ∉ mixedItems := by simp [mixedItems, Json.ofInt]
  obtain ⟨whole, list, hwhole, hlist, hdocument, hitems, -⟩ :=
    arrayText_readBothWays (α := Empty) ofText?_mixedItems hwords canBeList_documentColumn
  refine ⟨ofText?_mixedItems, hwords, whole, list, hwhole, hlist, hdocument, ?_⟩
  rw [hitems hpresent, mixedItems]
  simp only [List.map_cons, List.map_nil, Json.reread_digit]
  rfl

/-- As a list of documents, `[null]` is no list, and `["2"]` is the list of the number 2. -/
theorem arrayText_otherItems :
    Json.ofText? "[null]" = some (.array [.null]) ∧
    Json.ofText? "[\"2\"]" = some (.array [.string "2"]) ∧
    ∃ list,
      findPlan Registry.withDefaults (⟨.list .json, {}⟩ : Target Empty) [documentColumn]
        = .ok list ∧
      list.instantiate Registry.withDefaults (.list .json) [.text "[null]"]
        = .error (.inColumn "c" (.conversion (.null .json))) ∧
      list.instantiate Registry.withDefaults (.list .json) [.text "[\"2\"]"]
        = .ok (.list .json [.json (Json.ofInt 2)]) := by
  have hnull : Json.ofText? "[null]" = some (.array [.null]) := by
    have htext : (Json.array [.null]).text = "[null]" := by decide
    rw [← htext]
    exact Json.ofText?_text (.array (List.forall_mem_singleton.mpr (.null _)))
  have hstring : Json.ofText? "[\"2\"]" = some (.array [.string "2"]) := by
    have htext : (Json.array [.string "2"]).text = "[\"2\"]" := by decide
    rw [← htext]
    exact Json.ofText?_text (.array (List.forall_mem_singleton.mpr (.string _ _)))
  have hconversion : (ColumnConversion.find? (Registry.withDefaults : Registry Empty)
      documentColumn (.list .json)).isSome = true :=
    Option.isSome_iff_exists.mpr (exists_conversion_list canBeList_documentColumn)
  obtain ⟨list, hlist, hread⟩ := exists_directPlan hconversion
  refine ⟨hnull, hstring, list, hlist, ?_, ?_⟩
  · rw [hread, Conversion.dynamic_text_missing hnull (List.forall_mem_singleton.mpr .null)
      (List.mem_singleton.mpr rfl)]
    rfl
  · rw [hread, Conversion.dynamic_text_present hstring
      (List.forall_mem_singleton.mpr (.string _)) (by simp), List.map_singleton,
      Json.reread_digit]
    rfl

end RowMapping
