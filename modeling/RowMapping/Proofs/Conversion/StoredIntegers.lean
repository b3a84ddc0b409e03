/-
Integers that are stored and read back as integers of the same or another type.

An integer is written as a word if a word holds it, and else as the nearest double, which may be
another number. What is read is never that number: a double of at least 2 ^ 63 is no word, and
rounding an integer of at least 2 ^ 63 gives no less. The same two cases are left wherever the
value goes. A column keeps words and wide doubles, and so does a document, although it may turn a
wide double into another one. So it is enough to follow which of the two stands for the integer.
-/
import RowMapping.Proofs.Conversion.JsonItems
import RowMapping.Proofs.Instantiation.OneColumn
import RowMapping.Proofs.Json.WideNumbers

set_option autoImplicit false

namespace RowMapping

variable {α : Type}

/-! ## Numbers of integer types -/

/-- A number of an integer type. -/
structure TypedInteger where
  type : IntegerType
  value : Int
  contained : type.contains value = true

namespace TypedInteger

/-- The number as an object. -/
def object (w : TypedInteger) : Object α := .integer w.type w.value

/-- Words and numbers of the other type are all that is read as the other type. -/
def ReadableAs (u : IntegerType) (w : TypedInteger) : Prop :=
  fitsInt64 w.value = true ∧ u.contains w.value = true

instance (u : IntegerType) (w : TypedInteger) : Decidable (w.ReadableAs u) :=
  inferInstanceAs (Decidable (_ ∧ _))

/-- All integer types are of at most 64 bits. -/
theorem isWord (w : TypedInteger) : Json.IsWord w.value := by
  have hbounds := (IntegerType.contains_iff _ _).mp w.contained
  have hall (t : IntegerType) :
      -0x8000000000000000 ≤ t.least ∧ t.greatest ≤ 0xffffffffffffffff := by
    cases t <;> decide
  exact ⟨(hall w.type).1.trans hbounds.1, hbounds.2.trans (hall w.type).2⟩

end TypedInteger

/-! ## Values that stand for integers -/

/-- The values that stand for an integer: the word, if there is one, and else any wide double. -/
inductive Value.StandsFor (i : Int) : Value → Prop where
  | word (h : fitsInt64 i = true) : StandsFor i (.integer (Int64.ofInt i))
  | wide (h : fitsInt64 i = false) {x : Floating} (hwide : x.IsWide) : StandsFor i (.real x)

namespace Value.StandsFor

variable {i : Int} {v : Value}

/-- An integer is read from what stands for it, and only if it is a word of the type. -/
theorem dynamic_eq_ok_iff (h : v.StandsFor i) (u : IntegerType) (x : Object α) :
    Conversion.dynamic Registry.withDefaults (.integer u) v = .ok x ↔
      (fitsInt64 i = true ∧ u.contains i = true) ∧ .integer u i = x := by
  cases h with
  | word hword =>
    have htoInt := toInt_ofInt_of_fits hword
    rw [Conversion.dynamic_integer u (.inl rfl), map_eq_ok_iff]
    by_cases hcontains : u.contains i = true
    · simp [Conversion.readInteger, asInt64?, htoInt, hcontains, hword]
    · simp [Conversion.readInteger, asInt64?, htoInt, hcontains]
  | @wide hnone x hwide =>
    obtain ⟨n, hn, hlarge⟩ := hwide
    -- the number is beyond the words, so it is read as none of them
    have hout : int64Of? n = none := by
      have hfits : fitsInt64 n = false := by
        rw [Bool.eq_false_iff, ne_eq, fitsInt64_iff]
        omega
      simp [int64Of?, hfits]
    rw [Conversion.dynamic_integer u (.inr rfl), map_eq_ok_iff]
    simp [Conversion.readInteger, asInt64?, hn, hout, hnone]

/-- A column for integers, for all numbers or for nothing in particular keeps the value. -/
theorem value_apply (h : v.StandsFor i) {a : Affinity} (htext : a ≠ .text) (hreal : a ≠ .real) :
    (a.apply (Cell.ofValue v)).value = .ok v := by
  cases h with
  | word => cases a <;> first | rfl | contradiction
  | @wide hnone x hwide =>
    have hcell : Cell.ofValue (.real x) = .real x := by
      cases x <;> first | rfl | cases hwide.isFinite
    have hkept : Affinity.integralReal x = .real x := by
      -- the column would turn whole doubles into words, but only those below 2 ^ 63 - 1
      obtain ⟨n, hn, hlarge⟩ := hwide
      have hrange : ¬ (-0x8000000000000000 < n ∧ n < 0x7fffffffffffffff) := by omega
      simp only [Affinity.integralReal, hn, if_neg hrange]
    rw [hcell]
    cases a with
    | text => contradiction
    | real => contradiction
    | blob => rfl
    | integer => exact congrArg Cell.value hkept
    | numeric => exact congrArg Cell.value hkept

/-- A column of integers reads the value as it is. -/
theorem refine_integer (h : v.StandsFor i) : refine DeclaredType.integer.kind v = v := by
  cases h <;> rfl

end Value.StandsFor

namespace Json.IsWord

variable {i : Int}

/-- An integer that is no word is a natural of 64 bits. -/
theorem exists_natural (h : IsWord i) (hnone : fitsInt64 i = false) :
    ∃ n : Nat, i = n ∧ 2 ^ 63 ≤ n ∧ n < 2 ^ 64 := by
  obtain ⟨hleast, hgreatest⟩ := h
  rw [Bool.eq_false_iff, ne_eq, fitsInt64_iff] at hnone
  exact ⟨i.toNat, by omega, by omega, by omega⟩

end Json.IsWord

namespace Argument

theorem integerValue_of_fits {i : Int} (h : fitsInt64 i = true) :
    integerValue i = .integer (Int64.ofInt i) := by
  simp [integerValue, int64Of?, h]

theorem integerValue_natural {n : Nat} (h : fitsInt64 n = false) :
    integerValue n = .real (.round .double false n 1) := by
  have hnone : int64Of? n = none := by simp [int64Of?, h]
  have hsign : decide ((n : Int) < 0) = false := by simp
  rw [integerValue, hnone]
  show Value.real (Floating.ofInt .double n) = _
  rw [Floating.ofInt, hsign, Int.natAbs_natCast]

/-- An integer of 64 bits is written as a value that stands for it. -/
theorem standsFor_integerValue {i : Int} (h : Json.IsWord i) : (integerValue i).StandsFor i := by
  cases hfits : fitsInt64 i with
  | true =>
    rw [integerValue_of_fits hfits]
    exact .word hfits
  | false =>
    obtain ⟨n, rfl, hwide, hword⟩ := h.exists_natural hfits
    have hround := Floating.isWide_round hwide (hword.trans (by norm_num))
    rw [integerValue_natural hfits]
    exact .wide hfits hround

end Argument

/-! ## Documents -/

/-- A number that the document of a value is read as, whatever follows it in an array. -/
structure Value.ReadAsNumber (v : Value) (k : JsonNumber) : Prop where
  starts : ∃ c cs, v.toJson.write = c :: cs ∧ (c.isDigit = true ∨ c = '-')
  read : ∀ (levels : Nat) (rest : List Char), Json.EndsNumber rest →
    Json.parseValue levels (v.toJson.write ++ rest) = some (.number k, rest)

/-- The document of an integer is read as a number of which the value stands for the integer. -/
theorem Argument.exists_readAsNumber {i : Int} (h : Json.IsWord i) :
    ∃ k, (integerValue i).ReadAsNumber k ∧ (Value.ofJson (.number k)).StandsFor i := by
  cases hfits : fitsInt64 i with
  | true =>
    have hdocument : (integerValue i).toJson.write = Json.numberText (.integer i) := by
      rw [integerValue_of_fits hfits, Value.toJson, toInt_ofInt_of_fits hfits]
      rfl
    have hvalue : Value.ofJson (.number (.integer i)) = .integer (Int64.ofInt i) := by
      simp [Value.ofJson, Value.ofJsonNumber, int64Of?, hfits]
    obtain ⟨c, cs, hcons, hfirst⟩ := Json.exists_cons_numberText i
    refine ⟨.integer i, ⟨⟨c, cs, hdocument.trans hcons, hfirst⟩, fun levels rest hrest => ?_⟩,
      hvalue ▸ .word hfits⟩
    have hread := Json.parseNumber_numberText h hrest
    rw [hcons, List.cons_append] at hread
    rw [hdocument, hcons, List.cons_append]
    exact Json.parseValue_number levels hfirst hread
  | false =>
    obtain ⟨n, rfl, hwide, hword⟩ := h.exists_natural hfits
    have hfinite := (Floating.isWide_round hwide (hword.trans (by norm_num))).isFinite
    have hdocument : (integerValue n).toJson.write
        = Json.numberText (.real (.round .double false n 1)) := by
      rw [integerValue_natural hfits, Value.toJson, Json.ofFloating, if_pos hfinite]
      rfl
    -- the double that is read need not be the one that was written
    obtain ⟨y, hy, ⟨c, cs, hcons, hfirst⟩, hread⟩ := Json.exists_parseNumber_wide hwide hword
    refine ⟨.real y, ⟨⟨c, cs, hdocument.trans hcons, .inl hfirst⟩, fun levels rest hrest => ?_⟩,
      .wide hfits hy⟩
    have hread := hread rest hrest
    rw [hcons, List.cons_append] at hread
    rw [hdocument, hcons, List.cons_append]
    exact Json.parseValue_number levels (.inl hfirst) hread

/-- The text of an array of numbers is read as the numbers. -/
theorem Json.ofText?_arrayOfNumbers {vs : List Value} {ks : List JsonNumber}
    (h : List.Forall₂ Value.ReadAsNumber vs ks) :
    ofText? (Value.array vs).toJson.text = some (.array (ks.map .number)) := by
  -- inside of the array there is one level less than there is for the document
  have hitems : List.Forall₂ (fun j k => ∀ rest, EndsNumber rest →
      parseValue 126 (write j ++ rest) = some (k, rest)) (vs.map Value.toJson)
      (ks.map .number) :=
    List.forall₂_map_left_iff.mpr (List.forall₂_map_right_iff.mpr (h.imp fun v k hv => hv.read 126))
  have hstarts : ∀ j ∈ vs.map Value.toJson, ∃ c cs, write j = c :: cs ∧
      (c = '[' ∨ StartsScalar c) := by
    intro j hj
    obtain ⟨v, hv, rfl⟩ := List.mem_map.mp hj
    obtain ⟨k, -, hnumber⟩ := exists_of_forall₂ h.flip hv
    obtain ⟨c, cs, hcons, hfirst⟩ := hnumber.starts
    exact ⟨c, cs, hcons, .inr (startsScalar_of_number hfirst)⟩
  have hread := parseValue_writeArray hstarts hitems []
  rw [List.append_nil] at hread
  have hnormal : normalizeItems (ks.map .number) = ks.map .number := by
    rw [normalizeItems_eq, List.map_map]
    rfl
  rw [Value.toJson, Value.toJsonItems_eq]
  simp [ofText?, text, parse, parseVerbatim, maxNesting, hread, skipBlanks, normalize, hnormal]

/-- The text of an array of integers is read as integers of a type if and only if all of them are
words of the type. -/
theorem Conversion.dynamic_arrayOfIntegers (ws : List TypedInteger) (u : IntegerType)
    (x : Object α) :
    dynamic Registry.withDefaults (.list (.integer u))
        (.text (Value.array (ws.map fun w => Argument.integerValue w.value)).toJson.text) = .ok x ↔
      (∀ w ∈ ws, w.ReadableAs u) ∧ .list (.integer u) (ws.map fun w => .integer u w.value) = x := by
  choose k hnumber hstands using fun w : TypedInteger => Argument.exists_readAsNumber w.isWord
  have hnumbers : List.Forall₂ Value.ReadAsNumber (ws.map fun w => Argument.integerValue w.value)
      (ws.map k) :=
    List.forall₂_map_left_iff.mpr (List.forall₂_map_right_iff.mpr
      (List.forall₂_same.mpr fun w _ => hnumber w))
  -- an item need not be the number that was written, but it is read as the same integer
  have hread : List.Forall₂ (fun w v => ∀ x : Object α,
      dynamic Registry.withDefaults (.integer u) v = .ok x ↔
        w.ReadableAs u ∧ .integer u w.value = x) ws
      (((ws.map k).map Json.number).map Value.ofJson) := by
    simp only [List.map_map, List.forall₂_map_right_iff, List.forall₂_same]
    exact fun w _ x => (hstands w).dynamic_eq_ok_iff u x
  have htypes : ∀ y ∈ ws.map (fun w => (.integer u w.value : Object α)), y.type = .integer u := by
    intro y hy
    obtain ⟨w, -, rfl⟩ := List.mem_map.mp hy
    rfl
  rw [dynamic_text_list (Json.ofText?_arrayOfNumbers hnumbers)]
  show Except.bind _ _ = _ ↔ _
  rw [bind_eq_ok_iff]
  simp only [mapM_dynamic_iff hread]
  constructor
  · rintro ⟨_, ⟨hreadable, rfl⟩, hlist⟩
    rw [Object.mapM_expect htypes] at hlist
    exact ⟨hreadable, Except.ok.inj hlist⟩
  · rintro ⟨hreadable, rfl⟩
    refine ⟨_, ⟨hreadable, rfl⟩, ?_⟩
    rw [Object.mapM_expect htypes]
    rfl

/-! ## Integers in tables -/

namespace Argument

variable (style : Argument.Style α) (mode : EnumMode)

theorem bound_integer (w : TypedInteger) :
    (ofObject style w.object).bound Dialect.sqlite Registry.withDefaults mode
      = .ok (integerValue w.value) := by
  show Except.ok (Dialect.storedForm (integerValue w.value)) = _
  have hstands := standsFor_integerValue w.isWord
  generalize integerValue w.value = v at hstands
  cases hstands <;> rfl

theorem resolveAll_integers (ws : List TypedInteger) :
    resolveAll Registry.withDefaults mode (ofObjects style (ws.map TypedInteger.object))
      = .ok (ws.map fun w => integerValue w.value) := by
  induction ws with
  | nil => rfl
  | cons w ws ih =>
    rw [List.map_cons, ofObjects, resolveAll, ih]
    rfl

theorem bound_arrayOfIntegers (element : TargetType) (ws : List TypedInteger) :
    (ofObject style (.list element (ws.map TypedInteger.object))).bound Dialect.sqlite
        Registry.withDefaults mode
      = .ok (.text (Value.array (ws.map fun w => integerValue w.value)).toJson.text) := by
  rw [bound, ofObject, resolve, resolveAll_integers]
  rfl

end Argument

/-- A column declared for integers, and one that is not declared. -/
theorem integerColumn_cases {declared : String} (h : declared ∈ ["INTEGER", ""]) :
    (Affinity.ofDeclared declared = .integer ∧ DeclaredType.ofText? declared = some .integer) ∨
      (Affinity.ofDeclared declared = .blob ∧ DeclaredType.ofText? declared = none) := by
  rcases List.mem_pair.mp h with rfl | rfl
  · exact .inl ⟨by decide, by decide⟩
  · exact .inr ⟨by decide, by decide⟩

/-- **Stored integers.** Numbers of integer types are stored by themselves, in a column declared for
integers or in one that is not declared, or in arrays, in a column of texts or of no known type.
Whichever integer type they are read as then, the numbers that are read are exactly those that
were stored, and they are read if and only if each of them is a word and a number of the type.
Else reading fails. -/
theorem integers_readBackExactly (style : Argument.Style α) (mode : EnumMode) (name : String)
    (u : IntegerType) :
    (∀ declared ∈ ["INTEGER", ""], ∀ ws : List TypedInteger, ∃ s,
      Records.store style mode ⟨name, declared⟩ (ws.map TypedInteger.object) = .ok s ∧
      ∀ (expressions : Bool) (xs : List (Object α)),
        Records.read ⟨name, declared⟩ expressions ⟨.integer u, {}⟩ s = .ok xs ↔
          (∀ w ∈ ws, w.ReadableAs u) ∧ ws.map (fun w => .integer u w.value) = xs) ∧
    ∀ (declared : String) (element : TargetType) (rows : List (List TypedInteger)), ∃ s,
      Records.store style mode ⟨name, declared⟩
        (rows.map fun ws => .list element (ws.map TypedInteger.object)) = .ok s ∧
      ∀ (expressions : Bool) (xs : List (Object α)),
        (expressions = true ∨ DeclaredType.ofText? declared ∈ [none, some .text]) →
        (Records.read ⟨name, declared⟩ expressions ⟨.list (.integer u), {}⟩ s = .ok xs ↔
          (∀ ws ∈ rows, ∀ w ∈ ws, w.ReadableAs u) ∧
            rows.map (fun ws => .list (.integer u) (ws.map fun w => .integer u w.value)) = xs) := by
  constructor
  · intro declared hdeclared ws
    have hstands (w : TypedInteger) := Argument.standsFor_integerValue w.isWord
    refine ⟨_, Records.store_eq (Argument.bound_integer style mode), fun expressions xs => ?_⟩
    -- a column of texts or of reals would store the number as another cell
    have hcolumn : Affinity.ofDeclared declared ≠ .text ∧ Affinity.ofDeclared declared ≠ .real ∧
        ∀ d ∈ DeclaredType.ofText? declared, d = .integer := by
      rcases integerColumn_cases hdeclared with ⟨haffinity, htype⟩ | ⟨haffinity, htype⟩
      · simp [haffinity, htype]
      · simp [haffinity, htype]
    refine Records.read_ofColumn_iff rfl (fun w => ?_) (fun d hd => ?_)
      (fun w x => (hstands w).dynamic_eq_ok_iff u x) xs
    · exact (hstands w).value_apply hcolumn.1 hcolumn.2.1
    · cases expressions with
      | true => cases hd
      | false =>
        obtain rfl := hcolumn.2.2 d hd
        exact ⟨by cases u <;> rfl, fun w => (hstands w).refine_integer⟩
  · intro declared element rows
    refine ⟨_, Records.store_eq (Argument.bound_arrayOfIntegers style mode element),
      fun expressions xs hcolumn => ?_⟩
    refine Records.read_ofColumn_iff rfl (fun ws => ?_) (fun d hd => ?_)
      (fun ws x => Conversion.dynamic_arrayOfIntegers ws u x) xs
    · rw [Cell.ofValue, Value.toJson, Affinity.apply_text_array]
      rfl
    · cases expressions with
      | true => cases hd
      | false =>
        obtain rfl : d = .text := by simp_all
        exact ⟨by cases u <;> rfl, fun ws => rfl⟩

/-- The greatest word, as an unsigned number. -/
def greatestWord : TypedInteger := ⟨.u64, 0x7fffffffffffffff, by decide⟩

/-- The least number that is no word. -/
def leastWide : TypedInteger := ⟨.u64, 0x8000000000000000, by decide⟩

/-- By itself the greatest word is read as another type, and in an array with a number that is no
word not even as its own. -/
theorem integers_readBackExactly_greatestWord :
    (∃ s, Records.store ⟨Empty.elim, Argument.ordinalOf⟩ .name ⟨"n", "INTEGER"⟩
        [greatestWord.object] = .ok s ∧
      Records.read ⟨"n", "INTEGER"⟩ false (⟨.integer .isize, {}⟩ : Target Empty) s
        = .ok [.integer .isize 0x7fffffffffffffff]) ∧
    ∃ s, Records.store ⟨Empty.elim, Argument.ordinalOf⟩ .name ⟨"n", "TEXT"⟩
        [.list (.integer .u64) [greatestWord.object, leastWide.object]] = .ok s ∧
      ∀ xs, Records.read ⟨"n", "TEXT"⟩ false (⟨.list (.integer .u64), {}⟩ : Target Empty) s
        ≠ .ok xs := by
  constructor
  · obtain ⟨s, hstored, hread⟩ := (integers_readBackExactly (α := Empty)
      ⟨Empty.elim, Argument.ordinalOf⟩ .name "n" .isize).1 "INTEGER" (by decide) [greatestWord]
    have hreadable : greatestWord.ReadableAs .isize := by decide
    exact ⟨s, hstored, (hread false _).mpr ⟨List.forall_mem_singleton.mpr hreadable, rfl⟩⟩
  · obtain ⟨s, hstored, hread⟩ := (integers_readBackExactly (α := Empty)
      ⟨Empty.elim, Argument.ordinalOf⟩ .name "n" .u64).2 "TEXT" (.integer .u64)
      [[greatestWord, leastWide]]
    refine ⟨s, hstored, fun xs hxs => ?_⟩
    obtain ⟨hall, -⟩ := (hread false xs (.inr (by decide))).mp hxs
    have hwide : leastWide.ReadableAs .u64 := hall _ (List.mem_singleton.mpr rfl) _ (by simp)
    exact absurd hwide (by decide)

end RowMapping
