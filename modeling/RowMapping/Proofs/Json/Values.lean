/-
Documents and the values they become.

The two ways between documents and values cut the data differently. A document becomes a value of
its kind, its numbers become integers or doubles, its arrays are taken apart, and its objects stay
the documents they are. A value becomes a document, and those without a counterpart, such as dates
and bytes, become strings. So each way undoes the other on a part of the data only, and the parts
are given here exactly: documents whose integers are words, and values made of what documents are
made of. The doubles of both are finite, since a document has no others.

The fields of a document that name the parameters of a query are bound through both ways, one
after the other. What is bound for an array or an object is therefore its own text.
-/
import RowMapping.Dialect.Basic
import RowMapping.Proofs.Conversion.JsonItems
import RowMapping.Proofs.Query.NamedPlaceholders

set_option autoImplicit false

namespace RowMapping

variable {α : Type}

/-! ## Documents -/

/-- A number is found again exactly if it is a word, or a finite double. -/
theorem Value.toJson_ofJsonNumber_iff (n : JsonNumber) :
    (ofJsonNumber n).toJson = .number n ↔ n.FitsWord ∧ n.IsFinite := by
  constructor
  · intro h
    cases n with
    | integer i =>
      refine ⟨?_, trivial⟩
      by_contra hword
      -- an integer beyond words becomes a double, and that is no integer of any document
      have hunfit : fitsInt64 i = false := by simpa [JsonNumber.FitsWord] using hword
      have hwide : ofJsonNumber (.integer i) = .real (Floating.ofInt .double i) := by
        simp [ofJsonNumber, int64Of?, hunfit]
      rw [hwide, toJson, Json.ofFloating] at h
      split at h <;> cases h
    | real x =>
      refine ⟨trivial, ?_⟩
      by_contra hfinite
      simp only [JsonNumber.IsFinite] at hfinite
      simp [ofJsonNumber, toJson, Json.ofFloating, hfinite] at h
  · intro h
    exact toJson_ofJson (.number h)

/-- A document is found again from the value it becomes exactly if its numbers outside of objects
are words and finite doubles. -/
theorem Value.toJson_ofJson_iff (j : Json) : (ofJson j).toJson = j ↔ j.Kept := by
  refine ⟨fun h => ?_, toJson_ofJson⟩
  match j with
  | .null => exact .null
  | .boolean b => exact .boolean b
  | .string s => exact .string s
  | .object fields => exact .object fields
  | .number n => exact .number ((toJson_ofJsonNumber_iff n).mp h)
  | .array items =>
    rw [ofJson, toJson, ofJsonItems_eq, toJsonItems_eq, List.map_map, Json.array.injEq] at h
    have hitems : ∀ k ∈ items, (ofJson k).toJson = k :=
      List.map_inj_left.mp (h.trans (List.map_id items).symm)
    exact .array fun k hk => (toJson_ofJson_iff k).mp (hitems k hk)
termination_by sizeOf j
decreasing_by
  have := List.sizeOf_lt_of_mem hk
  simp only [Json.array.sizeOf_spec]
  omega

/-! ## Values -/

namespace Value

/-- The values that documents are turned into: what is missing, truth values, integers, finite
reals, texts, objects, and arrays of such values. -/
inductive Documentary : Value → Prop where
  | null : Documentary .null
  | boolean (b : Bool) : Documentary (.boolean b)
  | integer (i : Int64) : Documentary (.integer i)
  | real {x : Floating} (h : x.isFinite = true) : Documentary (.real x)
  | text (s : String) : Documentary (.text s)
  | object (fields : List (String × Json)) : Documentary (.json (.object fields))
  | array {items : List Value} (h : ∀ v ∈ items, Documentary v) : Documentary (.array items)

/-- A document only becomes such values. -/
theorem documentary_ofJson {j : Json} (h : j.Kept) : (ofJson j).Documentary := by
  induction h with
  | null => exact .null
  | boolean b => exact .boolean b
  | string s => exact .text s
  | object fields => exact .object fields
  | @number n hn =>
    cases n with
    | integer i =>
      have hword : fitsInt64 i = true := hn.1
      simpa [ofJson, ofJsonNumber, int64Of?, hword] using .integer _
    | real x => exact .real hn.2
  | @array items _ ih =>
    rw [ofJson, ofJsonItems_eq]
    refine .array fun v hv => ?_
    obtain ⟨k, hk, rfl⟩ := List.mem_map.mp hv
    exact ih k hk

/-- A value that documents are turned into is found again from its document. -/
theorem ofJson_toJson {v : Value} (h : v.Documentary) : ofJson v.toJson = v := by
  induction h with
  | integer i =>
    simp [toJson, Json.ofInt, ofJson, ofJsonNumber, int64Of?, fitsInt64_toInt]
  | real hfinite => simp [toJson, Json.ofFloating, hfinite, ofJson, ofJsonNumber]
  | @array items _ ih =>
    have hitems : items.map (ofJson ∘ toJson) = items.map id := List.map_congr_left ih
    rw [toJson, ofJson, toJsonItems_eq, ofJsonItems_eq, List.map_map, hitems, List.map_id]
  | _ => rfl

/-- A value is found again from its document exactly if documents are turned into it. -/
theorem ofJson_toJson_iff (v : Value) : ofJson v.toJson = v ↔ v.Documentary := by
  refine ⟨fun h => ?_, ofJson_toJson⟩
  -- the document of such a value is found again from the value
  have hdocument : (ofJson v.toJson).toJson = v.toJson := congrArg toJson h
  exact h ▸ documentary_ofJson ((toJson_ofJson_iff v.toJson).mp hdocument)

end Value

/-! ## Fields as arguments -/

/-- An array, or an object. -/
def Json.IsNested : Json → Prop
  | .array _ => True
  | .object _ => True
  | _ => False

/-- An array or an object is bound as its text. -/
theorem bound_ofJson {j : Json} (hnested : j.IsNested) (hkept : j.Kept) (r : Registry α)
    (mode : EnumMode) :
    (Argument.value (Value.ofJson j)).bound Dialect.sqlite r mode = .ok (.text j.text) := by
  have hdocument := Value.toJson_ofJson hkept
  cases j with
  | object fields => rfl
  | array items =>
    rw [Value.ofJson] at hdocument ⊢
    show Except.ok (Value.text (Value.array (Value.ofJsonItems items)).toJson.text) = _
    rw [hdocument]
  | _ => cases hnested

/-- A parameter that a field gives its value is bound to the field. -/
theorem ofFields_eq_ok_iff {fields : List (String × Json)} {name : String} {a : Argument α} :
    Resolver.ofFields fields name = .ok a ↔
      ∃ j, Json.field? name fields = some j ∧ a = .value (Value.ofJson j) := by
  rw [Resolver.ofFields]
  cases Json.field? name fields with
  | none => simp
  | some j => simp [eq_comm]

/-- A document is found again from the value it becomes exactly if all its numbers that stand
outside of objects are words or finite doubles, and a value is found again from its document
exactly if it is made of what documents become. A query that takes its parameters from the fields
of a document binds one field to each of its parameters, and those that are arrays or objects are
bound as the text that they have in the document. -/
theorem documents_keptByValues :
    (∀ j : Json, (Value.ofJson j).toJson = j ↔ j.Kept) ∧
    (∀ v : Value, Value.ofJson v.toJson = v ↔ v.Documentary) ∧
    ∀ (sql : String) (fields : List (String × Json)) (q : Query α),
      (Query.namedFrom sql (.ok (.object fields)) = .ok q ∨
        Query.named sql (Resolver.ofFields fields) = .ok q) →
      ∃ parts, NamedSql.segments sql.toList = .ok parts ∧
        List.Forall₂ (fun name a => ∃ j, Json.field? name fields = some j ∧
          a = Argument.value (Value.ofJson j) ∧
          (j.IsNested → j.Kept → ∀ (r : Registry α) (mode : EnumMode),
            a.bound Dialect.sqlite r mode = .ok (.text j.text)))
          (NamedSql.names parts) q.arguments := by
  refine ⟨Value.toJson_ofJson_iff, Value.ofJson_toJson_iff, fun sql fields q hquery => ?_⟩
  have hnamed : Query.named sql (Resolver.ofFields fields) = .ok q := hquery.elim id id
  obtain ⟨parts, hscan, -, harguments⟩ := Query.named_eq_ok_iff.mp hnamed
  refine ⟨parts, NamedSql.segments_eq_ok_iff.mpr hscan, harguments.imp fun name a ha => ?_⟩
  obtain ⟨j, hfield, rfl⟩ := ofFields_eq_ok_iff.mp ha
  exact ⟨j, hfield, rfl, bound_ofJson⟩

/-- The tags of a note, of which one is missing. -/
def noteTags : Json := .array [Json.ofInt 1, .string "x", .null]

/-- The writer of a note. -/
def noteWriter : Json := .object [("id", Json.ofInt 7)]

/-- The query that writes a note down. -/
def noteQuery : Query Empty :=
  ⟨"VALUES (?, ?)", [.value (Value.ofJson noteTags), .value (Value.ofJson noteWriter)]⟩

/-- The text of the query is cut into its characters and the names of two fields. -/
theorem segments_note : NamedSql.segments "VALUES (:tags, :by)".toList = .ok
    ("VALUES (".toList.map .plain ++ [.parameter "tags".toList] ++ ", ".toList.map .plain ++
      [.parameter "by".toList, .plain ')']) := by
  simp [NamedSql.segments, NamedSql.segment, NamedSql.parameter, NamedSql.isNameChar,
    SqlSegment.source, bind, Except.bind, pure, Except.pure]

theorem documents_keptByValues_note :
    noteTags.Kept ∧ (Value.ofJson noteTags).toJson = noteTags ∧
    Value.ofJson (Value.ofJson noteTags).toJson = Value.ofJson noteTags ∧
    Query.namedFrom "VALUES (:tags, :by)"
      (.ok (.object [("by", noteWriter), ("tags", noteTags)])) = .ok noteQuery ∧
    noteQuery.arguments.map (·.bound Dialect.sqlite Registry.withDefaults .name)
      = [.ok (.text "[1,\"x\",null]"), .ok (.text "\x7b\"id\":7\x7d")] := by
  have hkept : noteTags.Kept := by
    refine .array ?_
    simp only [List.forall_mem_cons, List.not_mem_nil, false_implies, implies_true, and_true]
    exact ⟨.number ⟨rfl, trivial⟩, .string "x", .null⟩
  obtain ⟨hdocuments, hvalues, hqueries⟩ := documents_keptByValues (α := Empty)
  have hquery : Query.namedFrom "VALUES (:tags, :by)"
      (.ok (.object [("by", noteWriter), ("tags", noteTags)])) = .ok noteQuery :=
    (Query.named_of_segments segments_note _).trans rfl
  refine ⟨hkept, (hdocuments noteTags).mpr hkept,
    (hvalues _).mpr (Value.documentary_ofJson hkept), hquery, ?_⟩
  obtain ⟨parts, hparts, harguments⟩ := hqueries _ _ _ (.inl hquery)
  obtain rfl := Except.ok.inj (segments_note.symm.trans hparts)
  obtain ⟨⟨tags, htags, -, hboundTags⟩, ⟨writer, hwriter, -, hboundWriter⟩, -⟩ :=
    (List.forall₂_cons.mp harguments).imp_right List.forall₂_cons.mp
  obtain rfl : noteTags = tags := Option.some.inj htags
  obtain rfl : noteWriter = writer := Option.some.inj hwriter
  have htext : noteTags.text = "[1,\"x\",null]" := by decide
  have hwriterText : noteWriter.text = "\x7b\"id\":7\x7d" := by decide
  rw [noteQuery, List.map_cons, List.map_singleton, hboundTags trivial hkept,
    hboundWriter trivial (.object _), htext, hwriterText]

end RowMapping
