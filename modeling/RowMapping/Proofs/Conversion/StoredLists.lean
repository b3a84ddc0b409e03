/-
Lists that are stored as JSON text and read back.

A list is bound as the text of a document: its objects are written as values, the values as
documents. Reading the text goes the other way, but meets values of other kinds than were
written: a date is a string in the document and text among the items, and is found again by the
conversions of text. So for every object it is shown which value it is written as, and that the
value of the document of that value is read as the object. Nothing in an option or a list
depends on which type is inside, so the proof goes by the object, one case for each kind.
-/
import RowMapping.Dialect.Basic
import RowMapping.Proofs.Calendar.ReadBack
import RowMapping.Proofs.Conversion.Outcomes
import RowMapping.Proofs.Instantiation.Places
import RowMapping.Proofs.Json.ReadBack
import RowMapping.Proofs.Url.Edges
import RowMapping.Proofs.Uuid

set_option autoImplicit false

namespace RowMapping

variable {α : Type}

/-! ## Objects that lists of are stored -/

/-- The objects that a list may hold to be stored and read back, by their types and with lists
nested at most so many levels deep: integers of 64 bits, timestamps of an unsigned year at an
offset of whole minutes below a day, URLs whose texts are read as them, and options that are
not directly inside an option. -/
inductive Object.Storable : Nat → TargetType → Object α → Prop where
  | boolean (levels : Nat) (b : Bool) : Storable levels .boolean (.boolean b)
  | integer (levels : Nat) {t : IntegerType} {i : Int} (hcontains : t.contains i = true)
      (hword : fitsInt64 i = true) : Storable levels (.integer t) (.integer t i)
  | string (levels : Nat) (s : String) : Storable levels .string (.string s)
  | date (levels : Nat) (d : Date) : Storable levels .date (.date d)
  | time (levels : Nat) (t : Time) : Storable levels .time (.time t)
  | dateTime (levels : Nat) (t : DateTime) : Storable levels .dateTime (.dateTime t)
  | timestamp (levels : Nat) {t : Timestamp} (h : t.hasText = true) :
      Storable levels .timestamp (.timestamp t)
  | uuid (levels : Nat) (u : Uuid) : Storable levels .uuid (.uuid u)
  | url (levels : Nat) {u : Url} (h : Url.parse u.write = .ok u) : Storable levels .url (.url u)
  | missing (levels : Nat) (inner : TargetType) : Storable levels (.option inner) (.missing inner)
  | present {levels : Nat} {inner : TargetType} {x : Object α} (h : Storable levels inner x)
      (hinner : ∀ t, inner ≠ .option t) : Storable levels (.option inner) (.present x)
  | list {levels : Nat} {element : TargetType} {items : List (Object α)}
      (h : ∀ x ∈ items, Storable levels element x) :
      Storable (levels + 1) (.list element) (.list element items)

theorem Object.Storable.type_eq {levels : Nat} {t : TargetType} {x : Object α}
    (h : Storable levels t x) : x.type = t := by
  induction h with
  | present _ _ ih => exact congrArg _ ih
  | _ => rfl

/-! ## The built-in conversions -/

namespace Conversion

/-- No built-in conversion is to a list or to an option. -/
theorem target_withDefaults {c : RegisteredConversion α}
    (h : c ∈ (Registry.withDefaults : Registry α).fromDatabase) (t : TargetType) :
    c.conversion.target ≠ .list t ∧ c.conversion.target ≠ .option t := by
  rcases Registry.target_of_mem_withDefaults h with ⟨u, rfl⟩ | htarget
  · exact ⟨nofun, nofun⟩
  · constructor
    all_goals
      intro heq
      simp [heq] at htarget

end Conversion

theorem Registry.find?_eq_none {r : Registry α} {t : TargetType}
    (h : ∀ c ∈ r.fromDatabase, c.conversion.target ≠ t) (source : ValueKind) :
    r.find? source t = none := by
  cases hfind : r.find? source t with
  | none => rfl
  | some c =>
    obtain ⟨entry, hmem, rfl, -⟩ := exists_of_find? hfind
    exact absurd (target_of_find? hfind) (h entry hmem)

namespace Conversion

/-- A conversion that a type has without its shape is the one that is used. -/
theorem dynamic_of_direct? {r : Registry α} {t : TargetType} {v : Value} {c : Conversion α}
    (h : direct? r t v.kind = some c) : dynamic r t v = c.run v := by
  have hfind : find? r t v.kind = some c := by
    cases t <;> simp [find?, h]
  simp [dynamic, dynamicBy, hfind]

/-- A registered conversion is used where there is no native one. -/
theorem dynamic_of_find? {r : Registry α} {t : TargetType} {v : Value} {c : TypeConversion α}
    (hvalue : t ≠ .value) (hnative : native? (α := α) v.kind t = none)
    (hfind : r.find? v.kind t = some c) : dynamic r t v = c.convert v := by
  refine dynamic_of_direct? (c := ⟨.registered, c.convert⟩) ?_
  simp [direct?, hvalue, hnative, hfind]

theorem direct?_option (t : TargetType) (source : ValueKind) :
    direct? (Registry.withDefaults : Registry α) (.option t) source = none := by
  have hnative : native? (α := α) source (.option t) = none := by
    cases source <;> rfl
  rw [direct?, if_neg nofun, hnative]
  simp [Registry.find?_eq_none fun c hc => (target_withDefaults hc t).2]

/-- A value that is there is read as an option of what it is read as. -/
theorem dynamic_present {inner : TargetType} {x : Object α} {v : Value} (hpresent : v.isNull = false)
    (hread : dynamic Registry.withDefaults inner v = .ok x) (htype : x.type = inner) :
    dynamic Registry.withDefaults (.option inner) v = .ok (.present x) := by
  have hdirect := direct?_option (α := α) inner v.kind
  have hkind : v.kind ≠ .null := by
    rw [ne_eq, Value.kind_eq_null_iff]
    rintro rfl
    cases hpresent
  unfold dynamic dynamicBy at hread ⊢
  rw [find?, hdirect]
  simp only [if_neg hkind]
  cases hfind : find? (Registry.withDefaults : Registry α) inner v.kind with
  | none => simp [hfind, hpresent] at hread
  | some c =>
    rw [hfind] at hread
    simp only [Option.map_some, readOption, hpresent, Bool.false_eq_true, if_false, hread,
      Except.bind, Object.expect_of_type htype, Except.map]

/-- A value that holds items is read as a list item by item. -/
theorem dynamic_list {t : TargetType} {v : Value} (hlist : canBeList v.kind = true) :
    dynamic (Registry.withDefaults : Registry α) (.list t) v
      = readList t (dynamic Registry.withDefaults t) v := by
  have hnative : native? (α := α) v.kind (.list t) = none := by
    revert hlist
    cases v.kind <;> first | exact fun _ => rfl | nofun
  have hdirect : direct? (Registry.withDefaults : Registry α) (.list t) v.kind = none := by
    rw [direct?, if_neg nofun, hnative]
    simp [Registry.find?_eq_none fun c hc => (target_withDefaults hc t).1]
  simp [dynamic, dynamicBy, find?, hdirect, hlist]
  rfl

/-- A number is read as an integer of a type by the check of the type. -/
theorem dynamic_integer (t : IntegerType) {v : Value}
    (hkind : v.kind = .integer ∨ v.kind = .real) :
    dynamic (Registry.withDefaults : Registry α) (.integer t) v
      = (readInteger t v).map (.integer t) := by
  have hfind : (Registry.withDefaults : Registry α).find? v.kind (.integer t)
      = some (integer t) := by
    rcases hkind with hkind | hkind
    all_goals
      rw [hkind]
      cases t <;> rfl
  have hnull : v.isNull = false := by
    cases v <;> first | rfl | simp [Value.kind] at hkind
  have hvalue : TargetType.integer t ≠ .value := by simp
  by_cases hnative : native? (α := α) v.kind (.integer t) = none
  · rw [dynamic_of_find? hvalue hnative hfind]
    simp [integer, TypeConversion.ofFunction, TypeConversion.convert, hnull]
  · -- one of the integer types is that of the values, and no check is made, nor needed
    cases v with
    | integer i =>
      obtain rfl : t = .i64 := by
        cases t <;> first | rfl | exact absurd rfl hnative
      have hcontains : IntegerType.i64.contains i.toInt = true :=
        (IntegerType.contains_iff _ _).mpr ⟨i.le_toInt, Int.le_of_lt_add_one i.toInt_lt⟩
      rw [dynamic_of_direct? (v := .integer i) (c := ⟨.exact, _⟩) rfl]
      simp [readInteger, Value.asInt64?, hcontains, Except.map]
    | real x =>
      refine absurd ?_ hnative
      cases t <;> rfl
    | _ => simp [Value.kind] at hkind

end Conversion

/-! ## Values that documents keep -/

/-- A value whose document is plain, and the value of the document is read as an object. -/
structure Value.ReadAs (levels : Nat) (t : TargetType) (x : Object α) (v : Value) : Prop where
  plain : v.toJson.Plain levels
  present : (∀ u, t ≠ .option u) → (Value.ofJson v.toJson).isNull = false
  read : Conversion.dynamic Registry.withDefaults t (Value.ofJson v.toJson) = .ok x

namespace Value

theorem readAs_boolean (levels : Nat) (b : Bool) :
    ReadAs levels .boolean (.boolean b : Object α) (.boolean b) where
  plain := .boolean levels b
  present _ := rfl
  read := rfl

theorem readAs_string (levels : Nat) (s : String) :
    ReadAs levels .string (.string s : Object α) (.text s) where
  plain := .string levels s
  present _ := rfl
  read := rfl

theorem readAs_null (levels : Nat) (inner : TargetType) :
    ReadAs levels (.option inner) (.missing inner : Object α) .null where
  plain := .null levels
  present h := absurd rfl (h inner)
  read := by
    have hdirect := Conversion.direct?_option (α := α) inner .null
    simp [toJson, ofJson, Conversion.dynamic, Conversion.dynamicBy, kind, Conversion.find?, hdirect]

/-- A string in a document is converted by the conversion of text to the type. -/
theorem readAs_text (levels : Nat) {t : TargetType} {x : Object α} {v : Value} {s : String}
    {c : TypeConversion α} (hdocument : v.toJson = .string s) (hvalue : t ≠ .value)
    (hnative : Conversion.native? (α := α) .text t = none)
    (hfind : (Registry.withDefaults : Registry α).find? .text t = some c)
    (hrun : c.run (.text s) = .ok x) : ReadAs levels t x v where
  plain := hdocument ▸ .string levels s
  present _ := by rw [hdocument]; rfl
  read := by
    rw [hdocument, ofJson]
    exact (Conversion.dynamic_of_find? (v := .text s) hvalue hnative hfind).trans hrun

/-- A string that a parser reads is converted by the conversion that uses the parser. -/
theorem readAs_parsed (levels : Nat) {t : TargetType} {β : Type} (make : β → Object α)
    (hmake : ∀ b, (make b).type = t) {name : String} {parse : List Char → Option β} {cs : List Char}
    {b : β} {v : Value} (hdocument : v.toJson = .string (String.ofList cs)) (hvalue : t ≠ .value)
    (hnative : Conversion.native? (α := α) .text t = none)
    (hfind : (Registry.withDefaults : Registry α).find? .text t
      = some (.ofFunction t make hmake (Conversion.readParsed name parse)))
    (hparse : parse cs = some b) : ReadAs levels t (make b) v := by
  refine readAs_text levels hdocument hvalue hnative hfind ?_
  simp [TypeConversion.ofFunction, Conversion.readParsed, asText?, hparse, Except.map]

theorem readAs_date (levels : Nat) (d : Date) :
    ReadAs levels .date (.date d : Object α) (.date d) :=
  readAs_parsed levels .date (fun _ => rfl) rfl nofun rfl rfl (Date.parse_write d)

theorem readAs_time (levels : Nat) (t : Time) :
    ReadAs levels .time (.time t : Object α) (.time t) :=
  readAs_parsed levels .time (fun _ => rfl) rfl nofun rfl rfl (Time.parse_write t)

theorem readAs_dateTime (levels : Nat) (t : DateTime) :
    ReadAs levels .dateTime (.dateTime t : Object α) (.dateTime t) :=
  readAs_parsed levels .dateTime (fun _ => rfl) rfl nofun rfl rfl (DateTime.parse_write t)

theorem readAs_timestamp (levels : Nat) {t : Timestamp} (h : t.hasText = true) :
    ReadAs levels .timestamp (.timestamp t : Object α) (.timestamp t) := by
  obtain ⟨cs, hcs⟩ : ∃ cs, t.write? = some cs := ⟨_, if_pos h⟩
  have hdocument : (Value.timestamp t).toJson = .string (String.ofList cs) := by
    simp [toJson, hcs]
  have hparse : Conversion.parseTimestamp cs = some t := by
    simp [Conversion.parseTimestamp, Timestamp.parse_write hcs]
  exact readAs_parsed levels .timestamp (fun _ => rfl) hdocument nofun rfl rfl hparse

theorem readAs_uuid (levels : Nat) (u : Uuid) :
    ReadAs levels .uuid (.uuid u : Object α) (.text u.text) := by
  refine readAs_text levels (c := Conversion.uuidFromText) rfl nofun rfl rfl ?_
  have htrim : Text.trimBlanks (Uuid.hyphenate u.digits) = Uuid.hyphenate u.digits :=
    Text.trimBlanks_of_forall fun _ => Uuid.isBlank_of_mem_hyphenate
  simp [Conversion.uuidFromText, TypeConversion.ofFunction, Conversion.readText, asText?, Uuid.text,
    bind, Except.bind, htrim, Uuid.parse_hyphenate_digits, Except.map]

theorem readAs_url (levels : Nat) {u : Url} (h : Url.parse u.write = .ok u) :
    ReadAs levels .url (.url u : Object α) (.text u.text) := by
  refine readAs_text levels (c := Conversion.urlFromText) rfl nofun rfl rfl ?_
  have htrim := (Url.tidy_of_parse h).trimBlanks_write
  simp [Conversion.urlFromText, TypeConversion.ofFunction, Conversion.readText, asText?, Url.text,
    bind, Except.bind, htrim, h, Except.map]

theorem readAs_integer (levels : Nat) {t : IntegerType} {i : Int} (hcontains : t.contains i = true)
    (hword : fitsInt64 i = true) :
    ReadAs levels (.integer t) (.integer t i : Object α) (.integer (Int64.ofInt i)) := by
  have htoInt := toInt_ofInt_of_fits hword
  have hdocument : (Value.integer (Int64.ofInt i)).toJson = Json.ofInt i := by
    rw [toJson, htoInt]
  have hvalue : Value.ofJson (Json.ofInt i) = .integer (Int64.ofInt i) := by
    simp [Json.ofInt, ofJson, ofJsonNumber, int64Of?, hword]
  have hread : Conversion.readInteger t (.integer (Int64.ofInt i)) = .ok i := by
    simp [Conversion.readInteger, asInt64?, htoInt, hcontains]
  refine ⟨?_, fun _ => ?_, ?_⟩
  · rw [hdocument]
    obtain ⟨hleast, hgreatest⟩ := (fitsInt64_iff i).mp hword
    exact .integer levels ⟨hleast, by omega⟩
  · rw [hdocument, hvalue]
    rfl
  · rw [hdocument, hvalue, Conversion.dynamic_integer t (.inl rfl), hread]
    rfl

/-- An option that is there is read as what is in it. -/
theorem ReadAs.some {levels : Nat} {inner : TargetType} {x : Object α} {v : Value}
    (h : ReadAs levels inner x v) (hinner : ∀ t, inner ≠ .option t) (htype : x.type = inner) :
    ReadAs levels (.option inner) (.present x) v where
  plain := h.plain
  present hoption := absurd rfl (hoption inner)
  read := Conversion.dynamic_present (h.present hinner) h.read htype

/-- A value that holds values of documents is read as the list of their objects. -/
theorem dynamic_listItems {levels : Nat} {element : TargetType} {items : List (Object α)}
    {vs : List Value} (h : List.Forall₂ (ReadAs levels element) items vs)
    (htypes : ∀ x ∈ items, x.type = element) {w : Value} (hlist : Conversion.canBeList w.kind = true)
    (hitems : Conversion.listItems w = .ok (ofJsonItems (vs.map toJson))) :
    Conversion.dynamic Registry.withDefaults (.list element) w = .ok (.list element items) := by
  have hread : (ofJsonItems (vs.map toJson)).mapM
      (Conversion.dynamic Registry.withDefaults element) = .ok items := by
    rw [ofJsonItems_eq, List.map_map]
    refine mapM_eq_ok_iff.mpr (List.forall₂_map_left_iff.mpr ?_)
    exact (h.imp fun _ _ hv => hv.read).flip
  rw [Conversion.dynamic_list hlist, Conversion.readList, hitems]
  simp only [bind, Except.bind, hread, Object.mapM_expect htypes]
  rfl

/-- Values whose documents are read as objects, as a list. -/
theorem ReadAs.list {levels : Nat} {element : TargetType} {items : List (Object α)}
    {vs : List Value} (h : List.Forall₂ (ReadAs levels element) items vs)
    (htypes : ∀ x ∈ items, x.type = element) :
    ReadAs (levels + 1) (.list element) (.list element items) (.array vs) where
  plain := by
    rw [toJson, toJsonItems_eq]
    refine .array fun j hj => ?_
    obtain ⟨v, hv, rfl⟩ := List.mem_map.mp hj
    obtain ⟨x, -, hread⟩ := exists_of_forall₂ h hv
    exact hread.plain
  present _ := rfl
  read := by
    rw [toJson, toJsonItems_eq, ofJson]
    exact dynamic_listItems h htypes rfl rfl

end Value

/-! ## Writing -/

/-- Objects that are each written as a value are written as the values. -/
theorem exists_resolveAll {r : Registry α} {mode : EnumMode} {style : Argument.Style α}
    {R : Object α → Value → Prop} {xs : List (Object α)}
    (h : ∀ x ∈ xs, ∃ v, (Argument.ofObject style x).resolve r mode = .ok v ∧ R x v) :
    ∃ vs, Argument.resolveAll r mode (Argument.ofObjects style xs) = .ok vs ∧
      List.Forall₂ R xs vs := by
  induction xs with
  | nil => exact ⟨[], rfl, .nil⟩
  | cons x rest ih =>
    obtain ⟨v, hv, hrelated⟩ := h x List.mem_cons_self
    obtain ⟨vs, hvs, hall⟩ := ih fun y hy => h y (List.mem_cons_of_mem x hy)
    refine ⟨v :: vs, ?_, .cons hrelated hall⟩
    simp [Argument.ofObjects, Argument.resolveAll, hv, hvs, bind, Except.bind, pure, Except.pure]

/-- An object that can be stored is written as a value that is read as it. -/
theorem Object.Storable.exists_resolve {levels : Nat} {t : TargetType} {x : Object α}
    (h : x.Storable levels t) (style : Argument.Style α) (mode : EnumMode) :
    ∃ v, (Argument.ofObject style x).resolve Registry.withDefaults mode = .ok v ∧
      v.ReadAs levels t x := by
  induction h with
  | boolean levels b => exact ⟨_, rfl, Value.readAs_boolean levels b⟩
  | @integer levels t i hcontains hword =>
    refine ⟨_, ?_, Value.readAs_integer levels hcontains hword⟩
    simp [Argument.ofObject, Argument.resolve, Argument.integerValue, int64Of?, hword]
  | string levels s => exact ⟨_, rfl, Value.readAs_string levels s⟩
  | date levels d => exact ⟨_, rfl, Value.readAs_date levels d⟩
  | time levels t => exact ⟨_, rfl, Value.readAs_time levels t⟩
  | dateTime levels t => exact ⟨_, rfl, Value.readAs_dateTime levels t⟩
  | timestamp levels htext => exact ⟨_, rfl, Value.readAs_timestamp levels htext⟩
  | uuid levels u => exact ⟨_, rfl, Value.readAs_uuid levels u⟩
  | url levels hurl => exact ⟨_, rfl, Value.readAs_url levels hurl⟩
  | missing levels inner => exact ⟨_, rfl, Value.readAs_null levels inner⟩
  | present hx hinner ih =>
    obtain ⟨v, hresolve, hread⟩ := ih
    exact ⟨v, hresolve, hread.some hinner hx.type_eq⟩
  | list hitems ih =>
    obtain ⟨vs, hresolve, hread⟩ := exists_resolveAll ih
    refine ⟨.array vs, ?_, .list hread fun x hx => (hitems x hx).type_eq⟩
    rw [Argument.ofObject, Argument.resolve, hresolve]
    rfl

/-- The text of a list is read as the list. -/
theorem Value.dynamic_text {levels : Nat} {element : TargetType} {items : List (Object α)}
    {vs : List Value} (h : List.Forall₂ (ReadAs levels element) items vs)
    (htypes : ∀ x ∈ items, x.type = element) (hlevels : levels + 1 = Json.maxNesting) :
    Conversion.dynamic Registry.withDefaults (.list element) (.text (Value.array vs).toJson.text)
      = .ok (.list element items) := by
  have hplain := (ReadAs.list h htypes).plain
  rw [hlevels] at hplain
  have hparse := Json.ofText?_text hplain
  refine dynamic_listItems h htypes rfl ?_
  rw [toJson, toJsonItems_eq] at hparse ⊢
  simp [Conversion.listItems, asText?, hparse]

/-- A column of unknown values, or of values that can be lists, is converted to lists. -/
theorem exists_conversion_list {r : Registry α} {element : TargetType} {column : Column}
    (h : column.kind = .null ∨ Conversion.canBeList column.kind = true) :
    ∃ c, ColumnConversion.find? r column (.list element) = some c := by
  unfold ColumnConversion.find?
  split
  · exact ⟨_, rfl⟩
  · rename_i hnull
    rw [Conversion.find?]
    split
    · exact ⟨_, rfl⟩
    · rw [if_pos (h.resolve_left hnull)]
      exact ⟨_, rfl⟩

/-- A list that nests no deeper than documents do is bound as a text, whichever way variants are
written. A plan for instances of its type is found for any column of lists or of unknown values,
and builds the list from a row with the text. -/
theorem storedList_readBack {element : TargetType} {x : Object α}
    (h : x.Storable Json.maxNesting (.list element)) (style : Argument.Style α) (mode : EnumMode) :
    ∃ s, (Argument.ofObject style x).bound Dialect.sqlite Registry.withDefaults mode = .ok (.text s) ∧
      ∀ column : Column, column.kind = .null ∨ Conversion.canBeList column.kind = true →
        ∃ plan, findPlan Registry.withDefaults ⟨.list element, {}⟩ [column] = .ok plan ∧
          plan.instantiate Registry.withDefaults (.list element) [.text s] = .ok x := by
  cases h with
  | @list levels _ items hitems =>
    obtain ⟨vs, hresolve, hread⟩ := exists_resolveAll fun x hx => (hitems x hx).exists_resolve style mode
    have htypes : ∀ x ∈ items, x.type = element := fun x hx => (hitems x hx).type_eq
    refine ⟨(Value.array vs).toJson.text, ?_, fun column hcolumn => ?_⟩
    · rw [Argument.bound, Argument.ofObject, Argument.resolve, hresolve]
      rfl
    · obtain ⟨c, hfind⟩ : ∃ c, ColumnConversion.find? (Registry.withDefaults : Registry α) column
          (.list element) = some c := exists_conversion_list hcolumn
      have hplan : directPlan? Registry.withDefaults (⟨.list element, {}⟩ : Target α) [column]
          = some c := by
        simp [directPlan?, hfind]
      have hconvert := ColumnConversion.convert_eq_dynamic hfind (.text (Value.array vs).toJson.text)
      rw [Value.dynamic_text hread htypes rfl] at hconvert
      refine ⟨.direct c, by rw [findPlan, hplan], ?_⟩
      rw [Plan.instantiate_eq_read _ _ _ (.direct c) (List.nodup_singleton 0), Plan.read]
      simp only [readConverted, rowValue, List.getElem?_cons_zero, bind, Except.bind, hconvert,
        Except.mapError]
      exact Object.expect_of_type rfl

/-- The address of a mailbox. -/
def mailbox : Url := { scheme := "mailto".toList, path := .opaquePath "a@b".toList }

/-- Lists of addresses, of which some are missing. -/
def mailboxLists : Object Empty :=
  .list (.list (.option .url))
    [.list (.option .url) [.present (.url mailbox), .missing .url], .list (.option .url) []]

theorem storedList_readBack_mailboxLists :
    mailboxLists.Storable Json.maxNesting (.list (.list (.option .url))) ∧
    ∃ s, (Argument.ofObject ⟨Empty.elim, Argument.ordinalOf⟩ mailboxLists).bound Dialect.sqlite
        Registry.withDefaults .name = .ok (.text s) ∧
      ∃ plan, findPlan Registry.withDefaults ⟨.list (.list (.option .url)), {}⟩
          [⟨0, "links", .text, none⟩] = .ok plan ∧
        plan.instantiate Registry.withDefaults (.list (.list (.option .url))) [.text s]
          = .ok mailboxLists := by
  have hmailbox : Url.parse mailbox.write = .ok mailbox := by rfl
  have hstorable : mailboxLists.Storable Json.maxNesting (.list (.list (.option .url))) := by
    refine .list (List.forall_mem_cons.mpr ⟨.list ?_, List.forall_mem_singleton.mpr (.list (by simp))⟩)
    exact List.forall_mem_cons.mpr
      ⟨.present (.url _ hmailbox) nofun, List.forall_mem_singleton.mpr (.missing _ _)⟩
  obtain ⟨s, hbound, hread⟩ :=
    storedList_readBack hstorable ⟨Empty.elim, Argument.ordinalOf⟩ .name
  exact ⟨hstorable, s, hbound, hread ⟨0, "links", .text, none⟩ (.inr rfl)⟩

end RowMapping
