/-
Variants of enumerations that are stored and read back.

A variant is known by its name: no two variants of an enumeration have the same. It is written as
its name, or as a number that the application may choose. It is read by its name, or by its place
among the variants. So what is written as a name is always found again, and what is written as a
number is found again exactly if the variant stands at the place of that number. The numbers that
variants have if the application chooses none are their places; others need not be, although they
are only numbers to the one that writes them.

Options and lists of variants are stored and read back just as far as the variants are. Inside of
a list a variant is a string or a number of a document, and comes out of the document as the value
that it went in as.
-/
import RowMapping.Example.Conversions
import RowMapping.Proofs.Conversion.StoredLists
import RowMapping.Proofs.Instantiation.DirectColumns
import RowMapping.Storage.Cell

set_option autoImplicit false

namespace RowMapping

variable {α : Type}

/-! ## One variant -/

namespace Conversion

/-- The numbers that variants have of themselves are their places, as far as these are words. -/
theorem variantAt?_ordinalOf {e : EnumType} (hcount : e.variants.length ≤ 2 ^ 63) {name : String}
    (h : name ∈ e.variants) : variantAt? e (Argument.ordinalOf e name).toInt = some name := by
  cases hplace : e.variants.idxOf? name with
  | none => exact absurd h (List.idxOf?_eq_none_iff.mp hplace)
  | some i =>
    obtain ⟨hlt, hget, -⟩ := List.idxOf?_eq_some_iff.mp hplace
    rw [Argument.ordinalOf, hplace, Int64.toInt_ofNat_of_lt (hlt.trans_le hcount)]
    simp [variantAt?, hlt, hget]

/-- A variant is always found by what it is written as by name, and by its number exactly if it
stands at that place. -/
theorem variantOf?_variantValue_iff {e : EnumType} {name : String} (h : name ∈ e.variants)
    (mode : EnumMode) (ordinal : Int64) :
    variantOf? e (Argument.variantValue mode name ordinal) = some name ↔
      (mode = .ordinal → variantAt? e ordinal.toInt = some name) := by
  cases mode with
  | ordinal => simp [Argument.variantValue, variantOf?]
  | name =>
    have hfound : e.variants.find? (· == name) = some name := by
      obtain ⟨found, hfound⟩ := Option.isSome_iff_exists.mp
        ((List.find?_isSome (p := (· == name))).mpr ⟨name, h, beq_self_eq_true name⟩)
      have heq : found = name := eq_of_beq (List.find?_some (p := (· == name)) hfound)
      rw [hfound, heq]
    simp [Argument.variantValue, variantOf?, Value.asText?, hfound]

/-- No built-in conversion is to an enumeration, and none is native: its shape is asked. -/
theorem dynamic_enumeration {e : EnumType} {v : Value} (hkind : canBeVariant v.kind = true) :
    dynamic (Registry.withDefaults : Registry α) (.enumeration e) v = readVariant e v := by
  have hnative : native? (α := α) v.kind (.enumeration e) = none := by
    cases v.kind <;> rfl
  have hregistered : (Registry.withDefaults : Registry α).find? v.kind (.enumeration e) = none := by
    refine Registry.find?_eq_none (fun c hc heq => ?_) _
    rcases Registry.target_of_mem_withDefaults hc with ⟨u, rfl⟩ | htarget
    · cases heq
    · simp [heq] at htarget
  have hdirect : direct? (Registry.withDefaults : Registry α) (.enumeration e) v.kind = none := by
    simp [direct?, hnative, hregistered]
  simp [dynamic, dynamicBy, find?, hdirect, hkind]

/-- A value that something is read from has a conversion for its kind. -/
theorem isSome_find?_of_dynamic {r : Registry α} {t : TargetType} {v : Value} {x : Object α}
    (h : dynamic r t v = .ok x) : (find? r t v.kind).isSome = true := by
  unfold dynamic dynamicBy at h
  cases hfind : find? r t v.kind with
  | some c => rfl
  | none =>
    rw [hfind] at h
    revert h
    cases v.isNull <;> nofun

/-- What a variant is written as is read as the variant that is found by it. -/
theorem dynamic_variantValue (e : EnumType) (mode : EnumMode) (name : String) (ordinal : Int64) :
    dynamic (Registry.withDefaults : Registry α) (.enumeration e)
        (Argument.variantValue mode name ordinal)
      = readVariant e (Argument.variantValue mode name ordinal) := by
  cases mode <;> exact dynamic_enumeration rfl

end Conversion

/-- What a variant is written as comes out of a document as it went in. -/
theorem Value.ofJson_toJson_variantValue (mode : EnumMode) (name : String) (ordinal : Int64) :
    ofJson (Argument.variantValue mode name ordinal).toJson
      = Argument.variantValue mode name ordinal := by
  cases mode with
  | name => rfl
  | ordinal =>
    simp [Argument.variantValue, toJson, Json.ofInt, ofJson, ofJsonNumber, int64Of?,
      fitsInt64_toInt]

theorem Value.plain_variantValue (levels : Nat) (mode : EnumMode) (name : String) (ordinal : Int64) :
    (Argument.variantValue mode name ordinal).toJson.Plain levels := by
  cases mode with
  | name => exact .string levels name
  | ordinal =>
    have hleast := ordinal.le_toInt
    have hgreatest := ordinal.toInt_lt
    exact .integer levels ⟨by omega, by omega⟩

/-- The value that a variant is written as, in a document, is read as the variant. -/
theorem Value.readAs_variant (levels : Nat) {e : EnumType} {mode : EnumMode} {name : String}
    {ordinal : Int64}
    (h : Conversion.variantOf? e (Argument.variantValue mode name ordinal) = some name) :
    ReadAs levels (.enumeration e) (.variant e name : Object α)
      (Argument.variantValue mode name ordinal) where
  plain := plain_variantValue levels mode name ordinal
  present _ := by
    rw [ofJson_toJson_variantValue]
    cases mode <;> rfl
  read := by
    rw [ofJson_toJson_variantValue, Conversion.dynamic_variantValue, Conversion.readVariant, h]

/-! ## Options and lists of variants -/

/-- The types of options and lists of variants of an enumeration, with lists nested at most so
many levels deep and no option directly inside an option. -/
inductive TargetType.Nests (e : EnumType) : Nat → TargetType → Prop where
  | enumeration (levels : Nat) : Nests e levels (.enumeration e)
  | option {levels : Nat} {inner : TargetType} (h : Nests e levels inner)
      (hinner : ∀ t, inner ≠ .option t) : Nests e levels (.option inner)
  | list {levels : Nat} {element : TargetType} (h : Nests e levels element) :
      Nests e (levels + 1) (.list element)

namespace TargetType.Nests

variable {e : EnumType} {levels : Nat} {t : TargetType}

/-- Columns of texts are read as variants, and as options and lists of them. -/
theorem isSome_find?_text (h : t.Nests e levels) :
    (Conversion.find? (Registry.withDefaults : Registry α) t .text).isSome = true := by
  induction h with
  | enumeration levels =>
    rw [Conversion.find?]
    split <;> rfl
  | option _ _ ih =>
    rw [Conversion.find?, Conversion.direct?_option]
    simpa using ih
  | list _ _ =>
    rw [Conversion.find?]
    split <;> rfl

variable {style : Argument.Style α} {mode : EnumMode}

/-- If variants are found by what they are written as, so are options and lists of them that stand
in a document. -/
theorem exists_resolve (h : t.Nests e levels)
    (hfound : ∀ name ∈ e.variants, Conversion.variantOf? e
      (Argument.variantValue mode name (style.ordinal e name)) = some name)
    {x : Object α} (hx : x.Fits t) :
    ∃ v, (Argument.ofObject style x).resolve Registry.withDefaults mode = .ok v ∧
      v.ReadAs levels t x := by
  induction h generalizing x with
  | enumeration levels =>
    cases x with
    | variant f name =>
      obtain ⟨rfl, hname⟩ := hx
      exact ⟨_, rfl, Value.readAs_variant levels (hfound name hname)⟩
    | _ => cases hx
  | @option levels inner _ hinner ih =>
    cases x with
    | missing u =>
      obtain rfl : u = inner := hx
      exact ⟨_, rfl, Value.readAs_null levels u⟩
    | present y =>
      obtain ⟨v, hresolve, hread⟩ := ih hx
      exact ⟨v, hresolve, hread.some hinner (Object.Fits.type_eq hx)⟩
    | _ => cases hx
  | list _ ih =>
    cases x with
    | list u items =>
      obtain ⟨rfl, hitems⟩ := hx
      obtain ⟨vs, hresolve, hread⟩ := exists_resolveAll fun y hy => ih (hitems y hy)
      refine ⟨.array vs, ?_, .list hread fun y hy => (hitems y hy).type_eq⟩
      rw [Argument.ofObject, Argument.resolve, hresolve]
      rfl
    | _ => cases hx

end TargetType.Nests

/-! ## Through a column -/

/-- A value that a cell keeps, and that every plan for a column builds an object from. There are
plans for columns of the kind of the value, of texts, and of unknown values. -/
structure Value.Restores (t : TargetType) (x : Object α) (v : Value) : Prop where
  kept : (Cell.ofValue v).value = .ok v
  planned : ∀ column : Column, column.kind = v.kind ∨ column.kind = .text ∨ column.kind = .null →
    ∃ plan, findPlan Registry.withDefaults (⟨t, {}⟩ : Target α) [column] = .ok plan
  built : ∀ (column : Column) (plan : Plan α),
    findPlan Registry.withDefaults ⟨t, {}⟩ [column] = .ok plan →
      plan.instantiate Registry.withDefaults t [v] = .ok x

namespace TargetType.Nests

variable {e : EnumType} {t : TargetType} {style : Argument.Style α} {mode : EnumMode}

/-- What is bound for an option or a list of variants is kept by a cell and read as it, and is
missing for a missing option only. -/
theorem exists_bound {levels : Nat} (h : t.Nests e levels) (hlevels : levels = Json.maxNesting)
    (hfound : ∀ name ∈ e.variants, Conversion.variantOf? e
      (Argument.variantValue mode name (style.ordinal e name)) = some name)
    {x : Object α} (hx : x.Fits t) :
    ∃ v, (Argument.ofObject style x).bound Dialect.sqlite Registry.withDefaults mode = .ok v ∧
      (Cell.ofValue v).value = .ok v ∧ ((∀ u, t ≠ .option u) → v.isNull = false) ∧
      Conversion.dynamic Registry.withDefaults t v = .ok x := by
  induction h generalizing x with
  | enumeration levels =>
    cases x with
    | variant f name =>
      obtain ⟨rfl, hname⟩ := hx
      refine ⟨Argument.variantValue mode name (style.ordinal f name), ?_, ?_, fun _ => ?_, ?_⟩
      · cases mode <;> rfl
      · cases mode <;> rfl
      · cases mode <;> rfl
      · rw [Conversion.dynamic_variantValue, Conversion.readVariant, hfound name hname]
    | _ => cases hx
  | @option levels inner _ hinner ih =>
    cases x with
    | missing u =>
      obtain rfl : u = inner := hx
      exact ⟨.null, rfl, rfl, fun hoption => absurd rfl (hoption u),
        (Value.readAs_null levels u).read⟩
    | present y =>
      obtain ⟨v, hbound, hkept, hpresent, hread⟩ := ih hlevels hx
      exact ⟨v, hbound, hkept, fun hoption => absurd rfl (hoption inner),
        Conversion.dynamic_present (hpresent hinner) hread (Object.Fits.type_eq hx)⟩
    | _ => cases hx
  | list helement _ =>
    cases x with
    | list u items =>
      obtain ⟨rfl, hitems⟩ := hx
      -- the items go through a document, so they need what holds in documents, not the induction
      obtain ⟨vs, hresolve, hread⟩ :=
        exists_resolveAll fun y hy => helement.exists_resolve hfound (hitems y hy)
      refine ⟨.text (Value.array vs).toJson.text, ?_, rfl, fun _ => rfl,
        Value.dynamic_text hread (fun y hy => (hitems y hy).type_eq) hlevels⟩
      rw [Argument.bound, Argument.ofObject, Argument.resolve, hresolve]
      rfl
    | _ => cases hx

/-- If variants are found by what they are written as, so are options and lists of them that are
stored. -/
theorem exists_restores (h : t.Nests e Json.maxNesting)
    (hfound : ∀ name ∈ e.variants, Conversion.variantOf? e
      (Argument.variantValue mode name (style.ordinal e name)) = some name)
    {x : Object α} (hx : x.Fits t) :
    ∃ v, (Argument.ofObject style x).bound Dialect.sqlite Registry.withDefaults mode = .ok v ∧
      v.Restores t x := by
  obtain ⟨v, hbound, hkept, -, hread⟩ := h.exists_bound rfl hfound hx
  refine ⟨v, hbound, hkept, fun column hcolumn => ?_, fun column plan hplan => ?_⟩
  · have hconversion : column.kind = .null ∨
        (Conversion.find? (Registry.withDefaults : Registry α) t column.kind).isSome = true := by
      rcases hcolumn with hkind | hkind | hkind
      · exact .inr (hkind ▸ Conversion.isSome_find?_of_dynamic hread)
      · exact .inr (hkind ▸ h.isSome_find?_text)
      · exact .inl hkind
    obtain ⟨plan, hplan, -⟩ := exists_directPlan (ColumnConversion.isSome_find? hconversion)
    exact ⟨plan, hplan⟩
  · rw [instantiate_of_findPlan hplan, hread]
    exact Object.expect_of_type hx.type_eq

end TargetType.Nests

/-- Variants with the numbers that they have of themselves are read back in both ways of writing,
and so are options and lists of them. -/
theorem TargetType.Nests.exists_restores_ordinalOf {e : EnumType}
    (hcount : e.variants.length ≤ 2 ^ 63) {t : TargetType} (h : t.Nests e Json.maxNesting)
    {x : Object α} (hx : x.Fits t) (describe : α → String) (mode : EnumMode) :
    ∃ v, (Argument.ofObject ⟨describe, Argument.ordinalOf⟩ x).bound Dialect.sqlite
        Registry.withDefaults mode = .ok v ∧ v.Restores t x := by
  refine h.exists_restores (fun name hname => ?_) hx
  rw [Conversion.variantOf?_variantValue_iff hname]
  exact fun _ => Conversion.variantAt?_ordinalOf hcount hname

/-- Whatever numbers an application writes its variants as: all variants of an enumeration, and
all options and lists of them, are read back as they were stored exactly if either variants are
written by name, or each of them stands at the place of its number. -/
theorem storedVariants_readBack_iff (e : EnumType) (style : Argument.Style α) (mode : EnumMode) :
    (mode = .ordinal → ∀ name ∈ e.variants,
        Conversion.variantAt? e (style.ordinal e name).toInt = some name) ↔
      ∀ (t : TargetType) (x : Object α), t.Nests e Json.maxNesting → x.Fits t →
        ∃ v, (Argument.ofObject style x).bound Dialect.sqlite Registry.withDefaults mode = .ok v ∧
          v.Restores t x := by
  constructor
  · intro hplaces t x ht hx
    refine ht.exists_restores (fun name hname => ?_) hx
    exact (Conversion.variantOf?_variantValue_iff hname mode _).mpr fun hmode =>
      hplaces hmode name hname
  · -- a variant by itself is enough, read from a column of unknown kind
    intro hrestores hmode name hname
    obtain ⟨v, hbound, hrestored⟩ :=
      hrestores (.enumeration e) (.variant e name) (.enumeration _) ⟨rfl, hname⟩
    obtain rfl : Argument.variantValue mode name (style.ordinal e name) = v := by
      subst hmode
      exact Except.ok.inj hbound
    obtain ⟨plan, hplan⟩ := hrestored.planned ⟨0, "", .null, none⟩ (.inr (.inr rfl))
    have hbuilt := hrestored.built _ _ hplan
    rw [instantiate_of_findPlan hplan, Conversion.dynamic_variantValue,
      Conversion.readVariant] at hbuilt
    refine (Conversion.variantOf?_variantValue_iff hname mode _).mp ?_ hmode
    cases hfound : Conversion.variantOf? e
        (Argument.variantValue mode name (style.ordinal e name)) with
    | none => simp [hfound, Except.mapError, Except.bind] at hbuilt
    | some found =>
      have hsame : (.variant e found : Object α) = .variant e name := by
        rw [hfound] at hbuilt
        exact Except.ok.inj ((Object.expect_of_type rfl).symm.trans hbuilt)
      cases hsame
      rfl

/-- Green, and no colour. -/
def optionalColors : Object Empty :=
  .list (.option (.enumeration Example.color))
    [.present (.variant Example.color "GREEN"), .missing (.enumeration Example.color)]

theorem storedVariants_readBack_optionalColors :
    (Argument.ofObject ⟨Empty.elim, Argument.ordinalOf⟩ optionalColors).bound Dialect.sqlite
        Registry.withDefaults .ordinal = .ok (.text "[1,null]") ∧
      Value.Restores (.list (.option (.enumeration Example.color))) optionalColors
        (.text "[1,null]") := by
  have hnests : (TargetType.list (.option (.enumeration Example.color))).Nests Example.color
      Json.maxNesting := .list (.option (.enumeration _) nofun)
  have hfits : optionalColors.Fits (.list (.option (.enumeration Example.color))) :=
    ⟨rfl, List.forall_mem_cons.mpr ⟨⟨rfl, by decide⟩, List.forall_mem_singleton.mpr rfl⟩⟩
  have htext : (Argument.ofObject ⟨Empty.elim, Argument.ordinalOf⟩ optionalColors).bound
      Dialect.sqlite Registry.withDefaults .ordinal = .ok (.text "[1,null]") := by
    rfl
  obtain ⟨v, hbound, hrestores⟩ :=
    (storedVariants_readBack_iff Example.color ⟨Empty.elim, Argument.ordinalOf⟩ .ordinal).mp
      (fun _ _ hname => Conversion.variantAt?_ordinalOf (by decide) hname) _ _ hnests hfits
  obtain rfl := Except.ok.inj (hbound.symm.trans htext)
  exact ⟨htext, hrestores⟩

/-- Levels are written as tens. The lower one stands at the place zero and is written as ten, where
no level stands. -/
theorem storedVariants_readBack_level :
    Example.level.variants.Nodup ∧ "Low" ∈ Example.level.variants ∧
    (Argument.ofObject Example.style (.variant Example.level "Low")).bound Dialect.sqlite
      Registry.withDefaults .ordinal = .ok (.integer 10) ∧
    (Cell.ofValue (.integer 10)).value = .ok (.integer 10) ∧
    ∃ plan,
      findPlan Registry.withDefaults (⟨.enumeration Example.level, {}⟩ : Target Example.Sample)
        [⟨0, "c", .integer, none⟩] = .ok plan ∧
      plan.instantiate Registry.withDefaults (.enumeration Example.level) [.integer 10]
        = .error (.inColumn "c" (.conversion (.notVariant (.integer 10) Example.level))) := by
  refine ⟨by decide, by decide, rfl, rfl, ?_⟩
  have hconversion : (ColumnConversion.find? (Registry.withDefaults : Registry Example.Sample)
      ⟨0, "c", .integer, none⟩ (.enumeration Example.level)).isSome = true := rfl
  obtain ⟨plan, hplan, hreads⟩ := exists_directPlan hconversion
  refine ⟨plan, hplan, ?_⟩
  rw [hreads, Conversion.dynamic_enumeration rfl]
  rfl

end RowMapping
