/-
Placeholders of queries that are built piece by piece.

A step adds text at the end of a builder's text and arguments at the end of its arguments. What it
adds is a piece of a query, and the steps of a sequence add their pieces one after another. A
refused step adds the empty piece: it looks at what it is given before it changes anything, so
this is so even where what a failing step has done stays done.

An argument is bound to a question mark by its index alone. So a piece keeps its bindings behind
another one if that has as many question marks as arguments. Steps come in units whose pieces are
of this kind, and by induction on the units so is all that is built of them.
-/
import RowMapping.Query.Builder
import Mathlib.Data.List.Basic

set_option autoImplicit false

namespace RowMapping

variable {α : Type}

/-! ## Pieces of queries -/

/-- Within what stands between two lists an index is moved by the length of the first. -/
theorem getElem?_between {β : Type} (before after : List β) {here : List β} {i : Nat}
    (hi : i < here.length) : (before ++ (here ++ after))[before.length + i]? = here[i]? := by
  rw [List.getElem?_append_right (Nat.le_add_right ..), Nat.add_sub_cancel_left,
    List.getElem?_append_left hi]

namespace Query

/-- One piece of a query behind another. -/
instance : Append (Query α) where
  append q q' := { sql := q.sql ++ q'.sql, arguments := q.arguments ++ q'.arguments }

@[simp] theorem sql_append (q q' : Query α) : (q ++ q').sql = q.sql ++ q'.sql := rfl

@[simp] theorem arguments_append (q q' : Query α) :
    (q ++ q').arguments = q.arguments ++ q'.arguments := rfl

/-- As many question marks in the text as there are arguments. -/
def Balanced (q : Query α) : Prop := q.sql.toList.count '?' = q.arguments.length

/-- The argument that a place of the text is bound to. A question mark is bound to the argument
before which there are as many arguments as there are question marks before it. -/
def boundAt? (q : Query α) (place : Nat) : Option (Argument α) :=
  if q.sql.toList[place]? = some '?' then q.arguments[(q.sql.toList.take place).count '?']?
  else none

theorem boundAt?_eq_some_iff {q : Query α} {place : Nat} {a : Argument α} :
    q.boundAt? place = some a ↔ q.sql.toList[place]? = some '?' ∧
      q.arguments[(q.sql.toList.take place).count '?']? = some a := by
  unfold boundAt?
  split <;> simp [*]

theorem Balanced.append {q q' : Query α} (h : q.Balanced) (h' : q'.Balanced) :
    (q ++ q').Balanced := by
  rw [Balanced, sql_append, arguments_append, String.toList_append, List.count_append,
    List.length_append, h, h']

/-- With as many arguments as question marks no question mark is left without an argument. -/
theorem Balanced.exists_boundAt? {q : Query α} (h : q.Balanced) {place : Nat}
    (hplace : q.sql.toList[place]? = some '?') : ∃ a, q.boundAt? place = some a := by
  have hhere : '?' ∈ q.sql.toList.drop place := by
    rw [List.mem_iff_getElem?]
    exact ⟨0, by rw [List.getElem?_drop, Nat.add_zero, hplace]⟩
  have hbefore : (q.sql.toList.take place).count '?' < q.arguments.length := calc
    _ < (q.sql.toList.take place).count '?' + (q.sql.toList.drop place).count '?' :=
      Nat.lt_add_of_pos_right (List.count_pos_iff.mpr hhere)
    _ = q.sql.toList.count '?' := by rw [← List.count_append, List.take_append_drop]
    _ = q.arguments.length := h
  exact ⟨_, boundAt?_eq_some_iff.mpr ⟨hplace, List.getElem?_eq_getElem hbefore⟩⟩

/-- A piece behind one with as many question marks as arguments keeps its bindings, whatever
follows it. -/
theorem Balanced.boundAt?_append {q piece : Query α} (h : q.Balanced) (rest : Query α)
    {place : Nat} {a : Argument α} (hbound : piece.boundAt? place = some a) :
    (q ++ (piece ++ rest)).boundAt? (q.sql.length + place) = some a := by
  obtain ⟨hmark, hargument⟩ := boundAt?_eq_some_iff.mp hbound
  obtain ⟨hplace, -⟩ := List.getElem?_eq_some_iff.mp hmark
  obtain ⟨hindex, -⟩ := List.getElem?_eq_some_iff.mp hargument
  -- before the place stand the question marks of `q` and those before it in its own piece
  have hbefore : ((q ++ (piece ++ rest)).sql.toList.take (q.sql.toList.length + place)).count '?'
      = q.arguments.length + (piece.sql.toList.take place).count '?' := by
    rw [sql_append, sql_append, String.toList_append, String.toList_append,
      List.take_length_add_append, List.take_append_of_le_length (Nat.le_of_lt hplace),
      List.count_append, h]
  rw [boundAt?_eq_some_iff, ← String.length_toList, hbefore]
  constructor
  · rw [sql_append, sql_append, String.toList_append, String.toList_append,
      getElem?_between _ _ hplace, hmark]
  · rw [arguments_append, arguments_append, getElem?_between _ _ hindex, hargument]

end Query

/-! ## Pieces that steps add -/

namespace QueryBuilder

/-- Each placeholder but the last has a comma behind it. -/
theorem placeholders_succ_succ (n : Nat) :
    placeholders (n + 2) = "?," ++ placeholders (n + 1) := by
  rw [← String.toList_inj]
  simp only [placeholders, String.toList_append, String.toList_ofList, List.replicate_succ,
    List.intercalate_cons_cons]
  rfl

/-- Placeholders are a question mark and others, each of them behind a comma. -/
theorem placeholders_succ (n : Nat) :
    placeholders (n + 1) = "?" ++ String.join (List.replicate n ",?") := by
  induction n with
  | zero => rfl
  | succ n ih =>
    rw [placeholders_succ_succ, ih, List.replicate_succ, String.join_cons,
      ← String.append_assoc, ← String.append_assoc]
    rfl

theorem count_placeholders : ∀ n, (placeholders n).toList.count '?' = n
  | 0 | 1 => rfl
  | n + 2 => by
    rw [placeholders_succ_succ, String.toList_append, List.count_append,
      count_placeholders (n + 1), Nat.add_comm]
    rfl

/-- The query that a builder stands for. -/
def contents (b : QueryBuilder α) : Query α := { sql := b.sql, arguments := b.arguments }

end QueryBuilder

namespace BuildingStep

open QueryBuilder

/-- The text that a step adds, with the arguments that are given with it. -/
def contribution : BuildingStep α → Query α
  | append sql => { sql }
  | addArguments arguments => { sql := "", arguments }
  | appendWith sql arguments => { sql, arguments }
  | appendQuery q => q
  | appendPlaceholders count => { sql := placeholders count }
  | appendPlaceholdersFor arguments => { sql := placeholders arguments.length, arguments }

/-- The steps that fail. -/
inductive Refused : BuildingStep α → Prop
  | appendPlaceholders : Refused (.appendPlaceholders 0)
  | appendPlaceholdersFor : Refused (.appendPlaceholdersFor [])

/-- All that some steps add. -/
def contributions (steps : List (BuildingStep α)) : Query α where
  sql := String.join (steps.map (·.contribution.sql))
  arguments := steps.flatMap (·.contribution.arguments)

theorem contributions_cons (step : BuildingStep α) (steps : List (BuildingStep α)) :
    contributions (step :: steps) = step.contribution ++ contributions steps := by
  rw [contributions, List.map_cons, String.join_cons, List.flatMap_cons]
  rfl

theorem contributions_append (steps steps' : List (BuildingStep α)) :
    contributions (steps ++ steps') = contributions steps ++ contributions steps' := by
  rw [contributions, List.map_append, String.join_append, List.flatMap_append]
  rfl

end BuildingStep

namespace QueryBuilder

open BuildingStep

theorem sql_appendQuery (b : QueryBuilder α) (q : Query α) :
    (b.appendQuery q).sql = b.sql ++ q.sql := rfl

theorem contents_appendQuery (b : QueryBuilder α) (q : Query α) :
    (b.appendQuery q).contents = b.contents ++ q := rfl

theorem appendQuery_appendQuery (b : QueryBuilder α) (q q' : Query α) :
    (b.appendQuery q).appendQuery q' = b.appendQuery (q ++ q') := by
  simp [appendQuery, appendWith, append, addArguments, String.append_assoc]

/-- A refused step says that there are no placeholders to append. -/
theorem perform_of_refused {step : BuildingStep α} (h : step.Refused) (b : QueryBuilder α) :
    b.perform step = .error (.invalidArgument .noPlaceholders) := by
  cases h <;> rfl

/-- A step that is not refused appends what it contributes. -/
theorem perform_of_not_refused {step : BuildingStep α} (h : ¬ step.Refused) (b : QueryBuilder α) :
    b.perform step = .ok (b.appendQuery step.contribution) := by
  cases step with
  | append sql => simp [perform, appendQuery, appendWith, addArguments, contribution]
  | addArguments arguments => simp [perform, appendQuery, appendWith, append, contribution]
  | appendWith sql arguments => rfl
  | appendQuery q => rfl
  | appendPlaceholders count =>
    have hcount : count ≠ 0 := fun hzero => h (hzero ▸ .appendPlaceholders)
    simp [perform, appendPlaceholders, hcount, appendQuery, appendWith, addArguments, contribution]
  | appendPlaceholdersFor arguments =>
    have hcount : arguments.length ≠ 0 := fun hzero =>
      h (List.length_eq_zero_iff.mp hzero ▸ .appendPlaceholdersFor)
    simp [perform, appendPlaceholdersFor, appendPlaceholders, hcount, Except.map, appendQuery,
      appendWith, contribution]

/-- A refused step contributes nothing. -/
theorem appendQuery_of_refused {step : BuildingStep α} (h : step.Refused) (b : QueryBuilder α) :
    b.appendQuery step.contribution = b := by
  cases h <;> simp [appendQuery, appendWith, append, addArguments, contribution, placeholders]

/-- Steps append what they contribute, those that are refused as well. -/
theorem performAll_eq (b : QueryBuilder α) (steps : List (BuildingStep α)) :
    b.performAll steps = b.appendQuery (contributions steps) := by
  induction steps generalizing b with
  | nil => simp [performAll, contributions, appendQuery, appendWith, append, addArguments]
  | cons step steps ih =>
    -- a refused step leaves the builder, and its contribution is empty
    have hstep : (b.perform step).toOption.getD b = b.appendQuery step.contribution := by
      by_cases h : step.Refused
      · rw [perform_of_refused h, appendQuery_of_refused h]
        rfl
      · rw [perform_of_not_refused h]
        rfl
    rw [contributions_cons, ← appendQuery_appendQuery, ← ih, ← hstep]
    rfl

theorem performAll_append (b : QueryBuilder α) (steps steps' : List (BuildingStep α)) :
    b.performAll (steps ++ steps') = (b.performAll steps).performAll steps' :=
  List.foldl_append

/-- A builder with a text is built to the query that it stands for. -/
theorem build_of_mem {b : QueryBuilder α} {c : Char} (h : c ∈ b.sql.toList) :
    b.build = .ok b.contents := by
  have hempty : ¬ b.sql.isEmpty = true := by
    rw [String.isEmpty_iff]
    intro hempty
    rw [hempty] at h
    cases h
  rw [build, if_neg hempty]
  rfl

end QueryBuilder

/-! ## Steps in place -/

namespace Building

variable {ρ κ : Type}

/-- A sequence goes on with the builder that its first part leaves, and ends with its failure. -/
theorem perform_bind (work : Building α ρ) (f : ρ → Building α κ) (b : QueryBuilder α) :
    (work >>= f).perform b = match work.perform b with
      | (.ok x, b') => (f x).perform b'
      | (.error e, b') => (.error e, b') := by
  simp only [perform, bind, ExceptT.bind, ExceptT.mk, ExceptT.bindCont, StateT.bind]
  rcases work b with ⟨_ | _, _⟩ <;> rfl

theorem perform_append (sql : String) (b : QueryBuilder α) :
    (append sql).perform b = (.ok (), b.append sql) := rfl

/-- Texts that are put at the end one by one stand there together. -/
theorem perform_forM_append (texts : List String) (b : QueryBuilder α) :
    (texts.forM append : Building α Unit).perform b = (.ok (), b.append (String.join texts)) := by
  induction texts generalizing b with
  | nil =>
    rw [String.join_nil, QueryBuilder.append, String.append_empty]
    rfl
  | cons text texts ih =>
    rw [List.forM, perform_bind, perform_append]
    simp only [ih, QueryBuilder.append, String.join_cons, String.append_assoc]

/-- Placeholders put at the end one by one are those that are put there at once, and if there are
to be none nothing is put there. -/
theorem perform_appendPlaceholders (count : Nat) (b : QueryBuilder α) :
    (appendPlaceholders count).perform b = ((b.appendPlaceholders count).map fun _ => (),
      (b.appendPlaceholders count).toOption.getD b) := by
  cases count with
  | zero => rfl
  | succ n =>
    have hloop := perform_forM_append (List.replicate n ",?") (b.append "?")
    rw [QueryBuilder.append, QueryBuilder.append, String.append_assoc,
      ← QueryBuilder.placeholders_succ] at hloop
    exact hloop

/-- A step in place comes to what the step does, and if that is nothing the builder stays as it
was. -/
theorem perform_ofStep (step : BuildingStep α) (b : QueryBuilder α) :
    (ofStep step).perform b = ((b.perform step).map fun _ => (),
      (b.perform step).toOption.getD b) := by
  cases step with
  | append | addArguments | appendWith | appendQuery => rfl
  | appendPlaceholders count => exact perform_appendPlaceholders count b
  | appendPlaceholdersFor arguments =>
    rw [ofStep, appendPlaceholdersFor, perform_bind, perform_appendPlaceholders,
      QueryBuilder.perform, QueryBuilder.appendPlaceholdersFor]
    -- the arguments follow only where the placeholders are
    cases b.appendPlaceholders arguments.length <;> rfl

theorem performAll_eq (b : QueryBuilder α) (steps : List (BuildingStep α)) :
    performAll b steps = b.performAll steps := by
  simp only [performAll, QueryBuilder.performAll, perform_ofStep]

end Building

/-! ## Units -/

namespace BuildingStep

/-- The units in which steps keep the text and the arguments of a builder together: text without
question marks, text or a query with an argument for each question mark, placeholders that are
followed at once by as many arguments, placeholders for arguments, and any step that is refused. -/
inductive Matched : List (BuildingStep α) → Prop
  | append {sql : String} (h : '?' ∉ sql.toList) : Matched [.append sql]
  | appendWith {sql : String} {arguments : List (Argument α)}
      (h : sql.toList.count '?' = arguments.length) : Matched [.appendWith sql arguments]
  | appendQuery {q : Query α} (h : q.sql.toList.count '?' = q.arguments.length) :
      Matched [.appendQuery q]
  | appendPlaceholders {count : Nat} {arguments : List (Argument α)} (hcount : count ≠ 0)
      (h : arguments.length = count) :
      Matched [.appendPlaceholders count, .addArguments arguments]
  | appendPlaceholdersFor (arguments : List (Argument α)) :
      Matched [.appendPlaceholdersFor arguments]
  | refused {step : BuildingStep α} (h : step.Refused) : Matched [step]

/-- A unit contributes as many question marks as arguments. -/
theorem Matched.balanced {unit : List (BuildingStep α)} (h : Matched unit) :
    (contributions unit).Balanced := by
  have hone {step : BuildingStep α} (hstep : step.contribution.Balanced) :
      (contributions [step]).Balanced := by
    rw [contributions_cons]
    exact hstep.append rfl
  cases h with
  | append h => exact hone (List.count_eq_zero.mpr h)
  | appendWith h => exact hone h
  | appendQuery h => exact hone h
  | @appendPlaceholders count arguments _ h =>
    -- the question marks come from the first step, the arguments from the second
    simp [Query.Balanced, contributions, contribution, QueryBuilder.count_placeholders, h]
  | appendPlaceholdersFor arguments => exact hone (QueryBuilder.count_placeholders _)
  | refused h => cases h <;> exact hone rfl

/-- So do units one after another. -/
theorem balanced_flatten {units : List (List (BuildingStep α))}
    (h : ∀ unit ∈ units, Matched unit) : (contributions units.flatten).Balanced := by
  induction units with
  | nil => rfl
  | cons unit units ih =>
    obtain ⟨hunit, hunits⟩ := List.forall_mem_cons.mp h
    rw [List.flatten_cons, contributions_append]
    exact hunit.balanced.append (ih hunits)

end BuildingStep

namespace QueryBuilder

open BuildingStep

/-- A builder begins with as many question marks as arguments if its text has none. -/
theorem balanced_of_notMem {sql : String} (h : '?' ∉ sql.toList) :
    ({ sql } : QueryBuilder α).contents.Balanced :=
  List.count_eq_zero.mpr h

/-- Units keep as many question marks as arguments. -/
theorem balanced_performAll {start : QueryBuilder α} (hstart : start.contents.Balanced)
    {units : List (List (BuildingStep α))} (hunits : ∀ unit ∈ units, Matched unit) :
    (start.performAll units.flatten).contents.Balanced := by
  rw [performAll_eq, contents_appendQuery]
  exact hstart.append (balanced_flatten hunits)

/-- How a piece stands in what is built of a builder: the builder was `b` before the piece was
added and `b'` after it, and `built` is the query in the end. -/
structure Bound (b : QueryBuilder α) (piece : Query α) (b' : QueryBuilder α)
    (built : Except Error (Query α)) : Prop where
  sql : b'.sql = b.sql ++ piece.sql
  arguments : b'.arguments = b.arguments ++ piece.arguments
  /-- The question marks and the arguments of the piece begin at the same index. -/
  first : b.contents.Balanced
  /-- They end at the same index. -/
  last : b'.contents.Balanced
  /-- Each question mark of the piece is bound to the argument that is given with it. -/
  marks (place : Nat) : piece.sql.toList[place]? = some '?' → ∃ q a, built = .ok q ∧
    piece.boundAt? place = some a ∧ q.boundAt? (b.sql.length + place) = some a

/-- A piece with as many question marks as arguments is bound, if the builder it is added to has
as many of them as well, whatever is added after it. -/
theorem bound_of_balanced {b : QueryBuilder α} {piece : Query α} (hb : b.contents.Balanced)
    (hpiece : piece.Balanced) (rest : Query α) :
    Bound b piece (b.appendQuery piece) ((b.appendQuery piece).appendQuery rest).build where
  sql := rfl
  arguments := rfl
  first := hb
  last := hb.append hpiece
  marks place hplace := by
    obtain ⟨a, ha⟩ := hpiece.exists_boundAt? hplace
    have htext : '?' ∈ ((b.appendQuery piece).appendQuery rest).sql.toList := by
      have hmark := List.mem_of_getElem? hplace
      simp [sql_appendQuery, hmark]
    refine ⟨_, a, build_of_mem htext, ha, ?_⟩
    rw [appendQuery_appendQuery]
    exact hb.boundAt?_append rest ha

/-- What stands in a text behind the one that the building began with was added by a unit. -/
theorem exists_unit {start : QueryBuilder α} {units : List (List (BuildingStep α))} {place : Nat}
    {c : Char} (hstart : start.sql.length ≤ place)
    (hplace : (start.performAll units.flatten).sql.toList[place]? = some c) :
    ∃ before unit after inner, units = before ++ unit :: after ∧
      place = (start.performAll before.flatten).sql.length + inner ∧
      (contributions unit).sql.toList[inner]? = some c := by
  -- behind the first unit the builder that it leaves is the beginning
  induction units generalizing start with
  | nil =>
    rw [← String.length_toList] at hstart
    cases (List.getElem?_eq_none hstart).symm.trans hplace
  | cons unit units ih =>
    rw [List.flatten_cons, performAll_append] at hplace
    by_cases hunit : (start.performAll unit).sql.length ≤ place
    · obtain ⟨before, unit', after, inner, rfl, rfl, hinner⟩ := ih hunit hplace
      refine ⟨unit :: before, unit', after, inner, rfl, ?_, hinner⟩
      rw [List.flatten_cons, performAll_append]
    · obtain ⟨inner, rfl⟩ := Nat.exists_eq_add_of_le hstart
      have hinner : inner < (contributions unit).sql.toList.length := by
        rw [performAll_eq, sql_appendQuery, String.length_append] at hunit
        rw [String.length_toList]
        omega
      refine ⟨[], unit, units, inner, rfl, rfl, ?_⟩
      rw [performAll_eq, performAll_eq, sql_appendQuery, sql_appendQuery, String.append_assoc,
        String.toList_append, String.toList_append, ← String.length_toList,
        getElem?_between _ _ hinner] at hplace
      exact hplace

/-- **Question marks and arguments of built queries.** Let a query be built in units that keep
question marks and arguments together, from a builder with as many of the ones as of the others.
After each unit there are as many of them again, so what the unit adds has the same indices among
the question marks and among the arguments. In the query that is built each question mark of a
unit is bound to the argument that was given with it, and each question mark is one of a unit or
was there at the beginning. The steps are the same when they are carried out in place: a step that
is refused, at any point, leaves the text and the arguments exactly as they were. -/
theorem performAll_bindsUnits {start : QueryBuilder α} (hstart : start.contents.Balanced)
    {units : List (List (BuildingStep α))} (hunits : ∀ unit ∈ units, Matched unit) :
    (∀ before unit after, units = before ++ unit :: after →
      Bound (start.performAll before.flatten) (contributions unit)
        (start.performAll (before ++ [unit]).flatten) (start.performAll units.flatten).build) ∧
    (∀ place, (start.performAll units.flatten).sql.toList[place]? = some '?' →
      place < start.sql.length ∨
      ∃ before unit after inner, units = before ++ unit :: after ∧
        place = (start.performAll before.flatten).sql.length + inner ∧
        (contributions unit).sql.toList[inner]? = some '?') ∧
    (∀ steps : List (BuildingStep α),
      Building.performAll start steps = start.performAll steps) ∧
    ∀ (b : QueryBuilder α) (step : BuildingStep α),
      (step.Refused →
        (Building.ofStep step).perform b = (.error (.invalidArgument .noPlaceholders), b)) ∧
      (¬ step.Refused →
        (Building.ofStep step).perform b = (.ok (), b.appendQuery step.contribution)) := by
  refine ⟨fun before unit after hsplit => ?_, fun place hplace => ?_, Building.performAll_eq start,
    fun b step => ⟨fun h => ?_, fun h => ?_⟩⟩
  · subst hsplit
    have hbefore : (start.performAll before.flatten).contents.Balanced :=
      balanced_performAll hstart fun unit hunit => hunits unit (List.mem_append_left _ hunit)
    have hunit : (contributions unit).Balanced :=
      (hunits unit (List.mem_append_right _ List.mem_cons_self)).balanced
    have hbound := bound_of_balanced hbefore hunit (contributions after.flatten)
    rw [← performAll_eq, ← performAll_eq, ← performAll_append, ← performAll_append,
      List.append_assoc] at hbound
    simpa only [List.flatten_append, List.flatten_cons, List.flatten_nil, List.append_nil]
      using hbound
  · rcases Nat.lt_or_ge place start.sql.length with hinside | hbehind
    · exact .inl hinside
    · exact .inr (exists_unit hbehind hplace)
  · rw [Building.perform_ofStep, perform_of_refused h]
    rfl
  · rw [Building.perform_ofStep, perform_of_not_refused h]
    rfl

/-- The beginning of a query for rows of a table. -/
def selection : QueryBuilder Empty := { sql := "SELECT * FROM t WHERE a IN (" }

/-- Conditions on three columns. No placeholders are to be appended at first, and again after two
of them are. -/
def conditions : List (List (BuildingStep Empty)) :=
  [[.appendPlaceholdersFor []],
    [.appendPlaceholders 2, .addArguments [.value (.integer 1), .value (.integer 2)]],
    [.appendPlaceholders 0],
    [.append ") AND "],
    [.appendQuery { sql := "b = ?", arguments := [.value (.text "Ann")] }],
    [.appendWith " AND c > ?" [.confidential (.value (.integer 3))]]]

/-- The question mark at place 41 is that of the query that was appended. Its argument is the third
one, after those of the placeholders. -/
theorem performAll_bindsUnits_conditions :
    selection.contents.Balanced ∧ (∀ unit ∈ conditions, Matched unit) ∧
      (selection.performAll conditions.flatten).build.map (fun q => q.display.text) =
        .ok "SELECT * FROM t WHERE a IN (?,?) AND b = ? AND c > ? [1, 2, 'Ann', ****]" ∧
      ∃ q, (selection.performAll conditions.flatten).build = .ok q ∧
        q.boundAt? 41 = some (.value (.text "Ann")) := by
  have hstart : selection.contents.Balanced := balanced_of_notMem (by decide)
  have hunits : ∀ unit ∈ conditions, Matched unit := by
    simp only [conditions, List.forall_mem_cons]
    exact ⟨.appendPlaceholdersFor _, .appendPlaceholders (by decide) rfl,
      .refused .appendPlaceholders, .append (by decide), .appendQuery rfl, .appendWith rfl,
      List.forall_mem_nil _⟩
  obtain ⟨hbound, -⟩ := performAll_bindsUnits hstart hunits
  obtain ⟨q, a, hbuilt, hgiven, hq⟩ :=
    (hbound (conditions.take 4) _ (conditions.drop 5) rfl).marks 4 rfl
  cases hgiven
  exact ⟨hstart, hunits, rfl, q, hbuilt, hq⟩

end QueryBuilder

end RowMapping
