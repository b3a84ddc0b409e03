/-
The order of the columns.

Columns are used by their places everywhere: parameters are bound to places, places are crossed
off, and values are taken from places. Where no two columns have matching names, and every
constructor that could be used finds a column of its name for each of its parameters, none of
this depends on which places these are. A parameter finds the same column wherever it stands, the
columns left over are the same, and so are the conversions; only the properties are set in
another order. The ranks of the constructors do not change, so the same one is chosen.
-/
import RowMapping.Proofs.Instantiation.ColumnsOnce
import RowMapping.Proofs.Instantiation.Moved

set_option autoImplicit false

namespace RowMapping

variable {α : Type} {e : Equiv.Perm ℕ} {columns columns' : List Column}

/-! ## Columns in other places -/

/-- What the search for a plan sees of a column. -/
def Column.label (c : Column) : String × ValueKind := (c.name, c.kind)

/-- The same columns in other places, as far as the search sees them. -/
def ColumnsMoved (e : Equiv.Perm ℕ) (columns columns' : List Column) : Prop :=
  Moved e (columns.map Column.label) (columns'.map Column.label)

namespace ColumnsMoved

theorem symm (h : ColumnsMoved e columns columns') : ColumnsMoved e.symm columns' columns :=
  Moved.symm h

theorem length_eq (h : ColumnsMoved e columns columns') : columns'.length = columns.length := by
  have hlength := Moved.length_eq h
  rwa [List.length_map, List.length_map] at hlength

/-- A column is found again in its new place. -/
theorem column (h : ColumnsMoved e columns columns') {i : ℕ} {column : Column}
    (hi : columns[i]? = some column) :
    ∃ column', columns'[e i]? = some column' ∧ column'.label = column.label := by
  have hplace := h i
  rw [List.getElem?_map, List.getElem?_map, hi] at hplace
  exact Option.map_eq_some_iff.mp hplace

end ColumnsMoved

/-- Every name is that of one column only. -/
def OneEach (columns : List Column) : Prop :=
  ∀ (i j : ℕ) (a b : Column), columns[i]? = some a → columns[j]? = some b →
    namesMatch a.name b.name = true → i = j

theorem oneEach_of_pairwise (h : columns.Pairwise fun a b => namesMatch a.name b.name = false) :
    OneEach columns := by
  intro i j a b hi hj hmatch
  obtain ⟨hlti, rfl⟩ := List.getElem?_eq_some_iff.mp hi
  obtain ⟨hltj, rfl⟩ := List.getElem?_eq_some_iff.mp hj
  rw [List.pairwise_iff_getElem] at h
  rcases Nat.lt_trichotomy i j with hlt | heq | hgt
  · exact absurd hmatch (by simp [h i j hlti hltj hlt])
  · exact heq
  · exact absurd (namesMatch_symm hmatch) (by simp [h j i hltj hlti hgt])

theorem OneEach.moved (h : OneEach columns) (hmoved : ColumnsMoved e columns columns') :
    OneEach columns' := by
  intro i j a b hi hj hmatch
  obtain ⟨a', ha', hlabela⟩ := hmoved.symm.column hi
  obtain ⟨b', hb', hlabelb⟩ := hmoved.symm.column hj
  have hnames : namesMatch a'.name b'.name = true := by
    rw [show a'.name = a.name from congrArg Prod.fst hlabela,
      show b'.name = b.name from congrArg Prod.fst hlabelb]
    exact hmatch
  exact e.symm.injective (h _ _ a' b' ha' hb' hnames)

/-! ## Binding by name -/

/-- The column of a place has a name. -/
def NamedAt (columns : List Column) (name : String) (i : ℕ) : Prop :=
  ∃ column, columns[i]? = some column ∧ namesMatch name column.name = true

theorem NamedAt.moved {name : String} {i : ℕ} (h : NamedAt columns name i)
    (hmoved : ColumnsMoved e columns columns') : NamedAt columns' name (e i) := by
  obtain ⟨column, hi, hname⟩ := h
  obtain ⟨column', hi', hlabel⟩ := hmoved.column hi
  refine ⟨column', hi', ?_⟩
  rwa [show column'.name = column.name from congrArg Prod.fst hlabel]

theorem NamedAt.unique (hone : OneEach columns) {name : String} {i j : ℕ}
    (hi : NamedAt columns name i) (hj : NamedAt columns name j) : i = j := by
  obtain ⟨a, ha, hnamea⟩ := hi
  obtain ⟨b, hb, hnameb⟩ := hj
  exact hone i j a b ha hb (namesMatch_trans (namesMatch_symm hnamea) hnameb)

/-- The first unused column of a name is the only column of the name. -/
theorem firstUnused_eq_some_iff (hone : OneEach columns) {used : List ℕ} {name : String} {i : ℕ} :
    firstUnused columns used name = some i ↔ i ∉ used ∧ NamedAt columns name i := by
  have haccepts : ∀ j,
      (!used.contains j && (columns[j]?).any fun c => namesMatch name c.name) = true ↔
        j ∉ used ∧ NamedAt columns name j := by
    intro j
    simp [NamedAt, Option.any_eq_true]
  constructor
  · intro h
    have hfound := List.find?_some h
    exact (haccepts i).mp hfound
  · intro h
    cases hsearch : firstUnused columns used name with
    | some j =>
      have hfound := List.find?_some hsearch
      rw [((haccepts j).mp hfound).2.unique hone h.2]
    | none =>
      obtain ⟨column, hi, -⟩ := h.2
      have hmem := List.mem_range.mpr (List.getElem?_eq_some_iff.mp hi).1
      exact absurd ((haccepts i).mpr h) (List.find?_eq_none.mp hsearch i hmem)

theorem firstUnused_moved (hone : OneEach columns) (hmoved : ColumnsMoved e columns columns')
    (used : List ℕ) (name : String) :
    firstUnused columns' (used.map e) name = (firstUnused columns used name).map e := by
  ext j
  rw [Option.map_eq_some_iff, firstUnused_eq_some_iff (hone.moved hmoved)]
  constructor
  · rintro ⟨hfree, hnamed⟩
    refine ⟨e.symm j, (firstUnused_eq_some_iff hone).mpr ⟨fun hused => hfree ?_,
      hnamed.moved hmoved.symm⟩, e.apply_symm_apply j⟩
    exact List.mem_map.mpr ⟨_, hused, e.apply_symm_apply j⟩
  · rintro ⟨i, hi, rfl⟩
    obtain ⟨hfree, hnamed⟩ := (firstUnused_eq_some_iff hone).mp hi
    exact ⟨fun hused => hfree ((List.mem_map_of_injective e.injective).mp hused),
      hnamed.moved hmoved⟩

/-- Parameters are bound by name to the same columns, wherever they stand. -/
theorem bindByName_moved (hone : OneEach columns) (hmoved : ColumnsMoved e columns columns')
    (ps : List Parameter) (used : List ℕ) :
    bindByName columns' ps (used.map e) = (bindByName columns ps used).map (List.map e) := by
  induction ps generalizing used with
  | nil => rfl
  | cons p rest ih =>
    rw [bindByName, bindByName, firstUnused_moved hone hmoved]
    cases firstUnused columns used p.name with
    | none => rfl
    | some i =>
      have hrest := ih (i :: used)
      rw [List.map_cons] at hrest
      rw [Option.map_some]
      dsimp only
      rw [hrest, Option.map_map, Option.map_map]
      rfl

/-- There is a column of its name for every parameter of a constructor, another one for each. -/
def Constructor.NamedAmong (c : Constructor α) (columns : List Column) : Prop :=
  ∃ places : List ℕ, places.Nodup ∧
    List.Forall₂ (fun p i => NamedAt columns p.name i) c.parameters places

theorem Constructor.NamedAmong.moved {c : Constructor α} (h : c.NamedAmong columns)
    (hmoved : ColumnsMoved e columns columns') : c.NamedAmong columns' := by
  obtain ⟨places, hnodup, hnamed⟩ := h
  refine ⟨places.map e, hnodup.map e.injective, List.forall₂_map_right_iff.mpr ?_⟩
  exact hnamed.imp fun _ _ h => h.moved hmoved

/-- If there is a column for every parameter, these are the columns that are found. -/
theorem bindByName_eq_some (hone : OneEach columns) {ps : List Parameter} {places used : List ℕ}
    (hnamed : List.Forall₂ (fun p i => NamedAt columns p.name i) ps places)
    (hnodup : places.Nodup) (hfree : ∀ i ∈ places, i ∉ used) :
    bindByName columns ps used = some places := by
  induction hnamed generalizing used with
  | nil => rfl
  | @cons p i rest places hp _ ih =>
    obtain ⟨hnew, hnodup⟩ := List.nodup_cons.mp hnodup
    have hfirst := (firstUnused_eq_some_iff hone).mpr ⟨hfree i List.mem_cons_self, hp⟩
    rw [bindByName, hfirst]
    dsimp only
    rw [ih hnodup]
    · rfl
    · intro j hj
      rw [List.mem_cons, not_or]
      exact ⟨fun heq => hnew (heq ▸ hj), hfree j (List.mem_cons_of_mem i hj)⟩

/-! ## Columns left over -/

theorem mem_leftOver {used : List ℕ} {column : Column} {i : ℕ} :
    (column, i) ∈ leftOver columns used ↔ columns[i]? = some column ∧ i ∉ used := by
  rw [leftOver, List.mem_filter, List.mem_zipIdx_iff_getElem?]
  simp

/-- The columns that are left over are the same, in the order of their new places. -/
theorem leftOver_moved (hmoved : ColumnsMoved e columns columns') (used : List ℕ) :
    ∃ entries, entries.Perm (leftOver columns used) ∧
      List.Forall₂ (fun entry entry' => entry'.2 = e entry.2 ∧ entry'.1.label = entry.1.label)
        entries (leftOver columns' (used.map e)) := by
  have hnodup : ∀ (columns : List Column) (used : List ℕ),
      ((leftOver columns used).map Prod.snd).Nodup := fun columns used => by
    rw [leftOver_places]
    exact List.nodup_range.filter _
  -- by label and new place the columns left over are the same, and none is there twice
  have hperm : ((leftOver columns' (used.map e)).map fun entry => (entry.1.label, entry.2)).Perm
      ((leftOver columns used).map fun entry => (entry.1.label, e entry.2)) := by
    refine (List.perm_ext_iff_of_nodup ?_ ?_).mpr ?_
    · refine List.Nodup.of_map Prod.snd ?_
      rw [List.map_map]
      exact hnodup _ _
    · refine List.Nodup.of_map (fun entry => e.symm entry.2) ?_
      rw [List.map_map]
      have hback : (leftOver columns used).map ((fun entry : (String × ValueKind) × ℕ =>
          e.symm entry.2) ∘ fun entry => (entry.1.label, e entry.2))
          = (leftOver columns used).map Prod.snd :=
        List.map_congr_left fun entry _ => e.symm_apply_apply entry.2
      rw [hback]
      exact hnodup columns used
    · rintro ⟨label, j⟩
      rw [List.mem_map, List.mem_map]
      constructor
      · rintro ⟨⟨column', j⟩, hentry, ⟨⟩⟩
        obtain ⟨hj, hfree⟩ := mem_leftOver.mp hentry
        obtain ⟨column, hi, hlabel⟩ := hmoved.symm.column hj
        refine ⟨(column, e.symm j), mem_leftOver.mpr ⟨hi, fun hused => hfree ?_⟩, ?_⟩
        · exact List.mem_map.mpr ⟨_, hused, e.apply_symm_apply j⟩
        · rw [e.apply_symm_apply, hlabel]
      · rintro ⟨⟨column, i⟩, hentry, ⟨⟩⟩
        obtain ⟨hi, hfree⟩ := mem_leftOver.mp hentry
        obtain ⟨column', hj, hlabel⟩ := hmoved.column hi
        refine ⟨(column', e i), mem_leftOver.mpr ⟨hj, fun hused => hfree ?_⟩, ?_⟩
        · exact (List.mem_map_of_injective e.injective).mp hused
        · rw [hlabel]
  have hsame : List.Forall₂ (fun key entry => key = (entry.1.label, e entry.2))
      ((leftOver columns used).map fun entry => (entry.1.label, e entry.2))
      (leftOver columns used) :=
    List.forall₂_map_left_iff.mpr (List.forall₂_same.mpr fun _ _ => rfl)
  obtain ⟨entries, hentries, hback⟩ := List.perm_comp_forall₂ hperm hsame
  refine ⟨entries, hback, ?_⟩
  refine (List.forall₂_map_left_iff.mp hentries).flip.imp fun entry entry' h => ?_
  exact ⟨congrArg Prod.snd h, congrArg Prod.fst h⟩

/-! ## Candidates -/

/-- A conversion does the same, for a column of the same label. -/
structure ColumnConversion.Alike (c c' : ColumnConversion α) : Prop where
  label : c'.column.label = c.column.label
  target : c'.target = c.target
  conversion : c'.conversion = c.conversion

namespace ColumnConversion.Alike

variable {c c' : ColumnConversion α}

theorem compatibility (h : c.Alike c') : c'.compatibility = c.compatibility := by
  rw [ColumnConversion.compatibility, ColumnConversion.compatibility, h.conversion]

theorem name (h : c.Alike c') : c'.column.name = c.column.name := congrArg Prod.fst h.label

theorem convert (h : c.Alike c') (r : Registry α) (v : Value) : c'.convert r v = c.convert r v := by
  have hkind : c'.column.kind = c.column.kind := congrArg Prod.snd h.label
  rw [ColumnConversion.convert, ColumnConversion.convert, h.conversion, h.target, h.name, hkind]

/-- What is found for a column is found for every column of its label. -/
theorem exists_of_find? {r : Registry α} {column column' : Column} {t : TargetType}
    (hlabel : column'.label = column.label) (h : find? r column t = some c) :
    ∃ c', find? r column' t = some c' ∧ c.Alike c' := by
  have hkind : column'.kind = column.kind := congrArg Prod.snd hlabel
  unfold find? at h ⊢
  rw [hkind]
  split at h
  · next hunknown =>
    cases h
    exact ⟨_, if_pos hunknown, hlabel, rfl, rfl⟩
  · next hknown =>
    obtain ⟨conversion, hconversion, rfl⟩ := Option.map_eq_some_iff.mp h
    rw [if_neg hknown, hconversion]
    exact ⟨_, rfl, hlabel, rfl, rfl⟩

end ColumnConversion.Alike

/-- A parameter is bound to the new place of its column. -/
structure BoundParameter.Follows (e : Equiv.Perm ℕ) (p p' : BoundParameter α) : Prop where
  index : p'.index = e p.index
  conversion : p.conversion.Alike p'.conversion

/-- A property is bound to the new place of its column. -/
structure BoundProperty.Follows (e : Equiv.Perm ℕ) (p p' : BoundProperty α) : Prop where
  index : p'.index = e p.index
  conversion : p.conversion.Alike p'.conversion
  set : p'.set = p.set

/-- A candidate for columns that stand in other places. Its properties may be in another order. -/
structure Candidate.Follows (e : Equiv.Perm ℕ) (c c' : Candidate α) : Prop where
  constructor : c'.constructor = c.constructor
  named : c'.named = c.named
  parameters : List.Forall₂ (BoundParameter.Follows e) c.parameters c'.parameters
  properties : ∃ ps, ps.Perm c.properties ∧ List.Forall₂ (BoundProperty.Follows e) ps c'.properties

theorem ColumnConversion.Alike.symm {c c' : ColumnConversion α} (h : c.Alike c') : c'.Alike c :=
  ⟨h.label.symm, h.target.symm, h.conversion.symm⟩

/-- On the way back every candidate follows. -/
theorem Candidate.Follows.symm {c c' : Candidate α} (h : c.Follows e c') : c'.Follows e.symm c := by
  obtain ⟨ps, hperm, hps⟩ := h.properties
  obtain ⟨ps', hps', hperm'⟩ := List.perm_comp_forall₂ hperm.symm hps
  refine ⟨h.constructor.symm, h.named.symm, h.parameters.flip.imp fun p' p hp => ?_, ps', hperm',
    hps'.flip.imp fun p' p hp => ?_⟩
  · exact ⟨by rw [hp.index, e.symm_apply_apply], hp.conversion.symm⟩
  · exact ⟨by rw [hp.index, e.symm_apply_apply], hp.conversion.symm, hp.set.symm⟩

theorem bindParameter_moved (hmoved : ColumnsMoved e columns columns') {r : Registry α}
    {p : Parameter} {i : ℕ} {b : BoundParameter α} (h : bindParameter r columns p i = .ok b) :
    ∃ b', bindParameter r columns' p (e i) = .ok b' ∧ b.Follows e b' := by
  obtain ⟨rfl, column, hcolumn, hfind⟩ := bindParameter_eq_ok h
  obtain ⟨column', hcolumn', hlabel⟩ := hmoved.column hcolumn
  obtain ⟨conversion', hfind', halike⟩ := ColumnConversion.Alike.exists_of_find? hlabel hfind
  exact ⟨⟨e b.index, conversion'⟩, by simp [bindParameter, hcolumn', hfind'], rfl, halike⟩

theorem bindProperty_moved {r : Registry α} {d : TypeDescription α} {column column' : Column}
    (hlabel : column'.label = column.label) {i : ℕ} {p : BoundProperty α}
    (h : bindProperty r d column i = .ok p) :
    ∃ p', bindProperty r d column' (e i) = .ok p' ∧ p.Follows e p' := by
  obtain ⟨rfl, b, hb, hfind, hset⟩ := bindProperty_eq_ok h
  obtain ⟨conversion', hfind', halike⟩ := ColumnConversion.Alike.exists_of_find? hlabel hfind
  have hname : column'.name = column.name := congrArg Prod.fst hlabel
  exact ⟨⟨e p.index, conversion', b.set⟩, by simp [bindProperty, hname, hb, hfind'], rfl, halike,
    hset.symm⟩

/-- What holds of related items one by one holds of the lists. -/
theorem forall₂_transport {β β' γ γ' : Type} {S : β → β' → Prop} {B : β → γ → Prop}
    {C : β' → γ' → Prop} {A : γ → γ' → Prop} {xs : List β} {xs' : List β'} {ys : List γ}
    (hS : List.Forall₂ S xs xs') (hB : List.Forall₂ B xs ys)
    (h : ∀ x x' y, S x x' → B x y → ∃ y', C x' y' ∧ A y y') :
    ∃ ys', List.Forall₂ C xs' ys' ∧ List.Forall₂ A ys ys' := by
  induction hS generalizing ys with
  | nil =>
    cases hB
    exact ⟨[], .nil, .nil⟩
  | cons hx _ ih =>
    cases hB with
    | cons hy hrest =>
      obtain ⟨y', hy', ha⟩ := h _ _ _ hx hy
      obtain ⟨ys', hys', has⟩ := ih hrest
      exact ⟨y' :: ys', .cons hy' hys', .cons ha has⟩

/-- What an accepted constructor comes to. -/
theorem evaluate_eq_ok_iff {r : Registry α} {d : TypeDescription α} {c : Constructor α}
    {candidate : Candidate α} :
    evaluate r d columns c = .ok candidate ↔ c.parameters.length ≤ columns.length ∧
      candidate.constructor = c ∧
      candidate.named = (bindByName columns c.parameters []).isSome ∧
      List.Forall₂ (fun entry b => bindParameter r columns entry.1 entry.2 = .ok b)
        (c.parameters.zip (parameterPlaces columns c.parameters)) candidate.parameters ∧
      List.Forall₂ (fun entry p => bindProperty r d entry.1 entry.2 = .ok p)
        (leftOver columns (parameterPlaces columns c.parameters)) candidate.properties := by
  constructor
  · intro h
    obtain ⟨hcolumns, hconstructor, hparameters, hproperties⟩ := evaluate_eq_ok h
    refine ⟨hcolumns, hconstructor, ?_, hparameters, hproperties⟩
    -- it is noted with the candidate whether the places were found by name
    rw [evaluate, if_neg (Nat.not_lt.mpr hcolumns)] at h
    simp only [bind, Except.bind] at h
    split at h
    · cases h
    · split at h
      · cases h
      · cases h
        rfl
  · rintro ⟨hcolumns, rfl, hnamed, hparameters, hproperties⟩
    rw [evaluate, if_neg (Nat.not_lt.mpr hcolumns)]
    have hps := mapM_eq_ok_iff.mpr hparameters
    have hprops := mapM_eq_ok_iff.mpr hproperties
    unfold parameterPlaces at hps hprops
    simp only [bind, Except.bind, hps, hprops, pure, Except.pure, ← hnamed]

/-- A constructor that binds its parameters by name is accepted for the same columns in other
places. -/
theorem evaluate_moved (hone : OneEach columns) (hmoved : ColumnsMoved e columns columns')
    {r : Registry α} {d : TypeDescription α} {c : Constructor α}
    (hnamed : columns.length < c.parameters.length ∨ c.NamedAmong columns)
    {candidate : Candidate α} (h : evaluate r d columns c = .ok candidate) :
    ∃ candidate', evaluate r d columns' c = .ok candidate' ∧ candidate.Follows e candidate' := by
  obtain ⟨hcolumns, hconstructor, hbyName, hparameters, hproperties⟩ := evaluate_eq_ok_iff.mp h
  -- an accepted constructor has not too many parameters, so it is one that binds by name
  obtain ⟨places, hnodup, hplaces⟩ := hnamed.resolve_left (Nat.not_lt.mpr hcolumns)
  have hfound : bindByName columns c.parameters [] = some places :=
    bindByName_eq_some hone hplaces hnodup fun _ _ => List.not_mem_nil
  have hfound' : bindByName columns' c.parameters [] = some (places.map e) := by
    have hbinds := bindByName_moved hone hmoved c.parameters []
    rwa [hfound, Option.map_some] at hbinds
  have hat : parameterPlaces columns c.parameters = places := by
    rw [parameterPlaces, hfound, Option.getD_some]
  have hat' : parameterPlaces columns' c.parameters = places.map e := by
    rw [parameterPlaces, hfound', Option.getD_some]
  rw [hat] at hparameters hproperties
  have hzip : List.Forall₂ (fun entry entry' => entry' = (entry.1, e entry.2))
      (c.parameters.zip places) (c.parameters.zip (places.map e)) := by
    rw [List.zip_map_right]
    exact List.forall₂_map_right_iff.mpr (List.forall₂_same.mpr fun _ _ => rfl)
  obtain ⟨bs, hbs, hbsMoved⟩ := forall₂_transport (A := BoundParameter.Follows e)
    (C := fun entry b => bindParameter r columns' entry.1 entry.2 = .ok b) hzip hparameters
    fun entry entry' b hentry hb => hentry ▸ bindParameter_moved hmoved hb
  obtain ⟨entries, hentries, hleft⟩ := leftOver_moved hmoved places
  obtain ⟨ps, hps, hperm⟩ := List.perm_comp_forall₂ hentries hproperties
  obtain ⟨ps', hps', hpsMoved⟩ := forall₂_transport (A := BoundProperty.Follows e)
    (C := fun entry p => bindProperty r d entry.1 entry.2 = .ok p) hleft hps
    fun entry entry' p hentry hp => hentry.1 ▸ bindProperty_moved hentry.2 hp
  refine ⟨⟨c, candidate.named, bs, ps'⟩, evaluate_eq_ok_iff.mpr ⟨?_, rfl, ?_, ?_, ?_⟩,
    hconstructor.symm, rfl, hbsMoved, ps, hperm, hpsMoved⟩
  · rwa [hmoved.length_eq]
  · rw [hbyName, hfound, hfound']
    rfl
  · rwa [hat']
  · rwa [hat']

/-! ## The choice -/

/-- A rank does not depend on the places of the columns. -/
theorem Candidate.Follows.rank_eq {c c' : Candidate α} (h : c.Follows e c') : c'.rank = c.rank := by
  obtain ⟨ps, hperm, hps⟩ := h.properties
  have hparameters := map_eq_of_forall₂ (f := fun p : BoundParameter α =>
      p.conversion.compatibility.points) (g := fun p => p.conversion.compatibility.points)
    (fun _ _ hp => congrArg Compatibility.points hp.conversion.compatibility) h.parameters
  have hproperties := map_eq_of_forall₂ (f := fun p : BoundProperty α =>
      p.conversion.compatibility.points) (g := fun p => p.conversion.compatibility.points)
    (fun _ _ hp => congrArg Compatibility.points hp.conversion.compatibility) hps
  have hscore : c'.score = c.score := by
    rw [score, score, hparameters, hproperties]
    exact congrArg _ ((hperm.map _).foldl_op_eq)
  rw [rank, rank, h.constructor, h.named, hscore]

/-- Candidates of the same ranks have those of the greatest rank in the same places. -/
theorem Candidate.forall₂_best {R : Candidate α → Candidate α → Prop}
    (hrank : ∀ c c', R c c' → c'.rank = c.rank) {cs cs' : List (Candidate α)}
    (h : List.Forall₂ R cs cs') : List.Forall₂ R (best cs) (best cs') := by
  have hranks := map_eq_of_forall₂ (f := rank) (g := rank) hrank h
  refine List.rel_filter (fun c c' hc => ?_) h
  have hgreatest : ∀ (cs : List (Candidate α)) (k : ℕ ×ₗ Bool ×ₗ ℕ),
      (∀ d ∈ cs, d.rank ≤ k) ↔ ∀ l ∈ cs.map rank, l ≤ k := fun cs k => by
    rw [List.forall_mem_map]
  show decide _ = true ↔ decide _ = true
  rw [decide_eq_true_iff, decide_eq_true_iff, hgreatest, hgreatest, hranks, hrank c c' hc]

/-- If the same constructors are accepted for two lists of columns, their candidates are related
one by one as those of each constructor are. -/
theorem forall₂_accepted {r : Registry α} {d : TypeDescription α}
    {R : Candidate α → Candidate α → Prop} {cs : List (Constructor α)}
    (hthere : ∀ c ∈ cs, ∀ candidate, evaluate r d columns c = .ok candidate →
      ∃ candidate', evaluate r d columns' c = .ok candidate' ∧ R candidate candidate')
    (hback : ∀ c ∈ cs, ∀ candidate', evaluate r d columns' c = .ok candidate' →
      ∃ candidate, evaluate r d columns c = .ok candidate) :
    List.Forall₂ R (accepted r d columns cs) (accepted r d columns' cs) := by
  induction cs with
  | nil => exact .nil
  | cons c rest ih =>
    have hrest := ih (fun c hc => hthere c (List.mem_cons_of_mem _ hc))
      fun c hc => hback c (List.mem_cons_of_mem _ hc)
    cases hevaluate : evaluate r d columns c with
    | ok candidate =>
      obtain ⟨candidate', hevaluate', hcandidate⟩ := hthere c List.mem_cons_self _ hevaluate
      rw [accepted_cons_of_ok hevaluate, accepted_cons_of_ok hevaluate']
      exact .cons hcandidate hrest
    | error reason =>
      cases hevaluate' : evaluate r d columns' c with
      | ok candidate' =>
        -- excluded: what is accepted there is accepted here
        obtain ⟨candidate, haccepted⟩ := hback c List.mem_cons_self _ hevaluate'
        rw [hevaluate] at haccepted
        cases haccepted
      | error reason' =>
        rw [accepted_cons_of_error hevaluate, accepted_cons_of_error hevaluate']
        exact hrest

/-- The candidates are the same, in the same order. -/
theorem candidates_moved (hone : OneEach columns) (hmoved : ColumnsMoved e columns columns')
    {r : Registry α} {d : TypeDescription α}
    (hnamed : ∀ c ∈ d.constructors, columns.length < c.parameters.length ∨ c.NamedAmong columns) :
    List.Forall₂ (Candidate.Follows e) (candidates r d columns) (candidates r d columns') := by
  refine forall₂_accepted (fun c hc candidate => evaluate_moved hone hmoved (hnamed c hc))
    fun c hc candidate' hevaluate' => ?_
  -- what is accepted for the moved columns is accepted for those they come from
  have hc' : columns'.length < c.parameters.length ∨ c.NamedAmong columns' :=
    (hnamed c hc).imp (fun h => hmoved.length_eq ▸ h) fun h => h.moved hmoved
  obtain ⟨candidate, hback, -⟩ := evaluate_moved (hone.moved hmoved) hmoved.symm hc' hevaluate'
  exact ⟨candidate, hback⟩

/-- A plan is found for the same columns in other places, and it uses the same constructor. -/
theorem findPlan_moved (hone : OneEach columns) (hmoved : ColumnsMoved e columns columns')
    (hseveral : 2 ≤ columns.length) {r : Registry α} {t : Target α}
    (hnamed : ∀ c ∈ t.description.constructors,
      columns.length < c.parameters.length ∨ c.NamedAmong columns) :
    (∃ c c' : Candidate α, findPlan r t columns = .ok (.reflective c) ∧
        findPlan r t columns' = .ok (.reflective c') ∧ c.Follows e c') ∨
      (∃ failure failure', findPlan r t columns = .error failure ∧
        findPlan r t columns' = .error failure') := by
  -- only a single column is ever converted directly
  have hdirect : ∀ columns : List Column, 2 ≤ columns.length → directPlan? r t columns = none := by
    rintro (_ | ⟨_, _ | ⟨_, _⟩⟩) h
    · rfl
    · simp at h
    · rfl
  have hdirect' := hdirect columns' (hmoved.length_eq ▸ hseveral)
  have hdirect := hdirect columns hseveral
  by_cases hsome : t.description.constructors = []
  · right
    rw [findPlan, findPlan, hdirect, hdirect', hsome]
    exact ⟨_, _, rfl, rfl⟩
  have hbest := Candidate.forall₂_best (fun _ _ hc => hc.rank_eq)
    (candidates_moved (r := r) hone hmoved hnamed)
  rw [findPlan_eq_best hsome hdirect, findPlan_eq_best hsome hdirect']
  generalize Candidate.best (candidates r t.description columns) = best at hbest
  generalize Candidate.best (candidates r t.description columns') = best' at hbest
  rcases hbest with _ | ⟨hfirst, _ | ⟨hsecond, hmore⟩⟩
  · exact .inr ⟨_, _, rfl, rfl⟩
  · exact .inl ⟨_, _, rfl, rfl, hfirst⟩
  · exact .inr ⟨_, _, rfl, rfl⟩

/-! ## Rows -/

/-- A property that is set: the path by which it was found, how it is set, and to what. -/
structure Assignment (α : Type) where
  path : String
  set : Object α → Object α → Except Error (Object α)
  value : Object α

/-- The assignment that a row gives for a property. -/
def readAssignment (r : Registry α) (row : List Value) (p : BoundProperty α) :
    Except Error (Assignment α) :=
  (readConverted r row p.index p.conversion).map fun x => ⟨p.conversion.column.name, p.set, x⟩

/-- Make one assignment after the other. -/
def assignAll (assignments : List (Assignment α)) (x : Object α) : Except Error (Object α) :=
  assignments.foldlM (fun owner a => a.set a.value owner) x

theorem assignAll_cons (a : Assignment α) (rest : List (Assignment α)) (x : Object α) :
    assignAll (a :: rest) x = (a.set a.value x).bind (assignAll rest) := by
  rw [assignAll, List.foldlM_cons]
  rfl

/-- How an instance is built from a row: what the constructor is given, and what is assigned
then. -/
structure Candidate.Builds (r : Registry α) (c : Candidate α) (row : List Value)
    (arguments : List (Object α)) (assignments : List (Assignment α)) (x : Object α) : Prop where
  given : List.Forall₂ (fun p y => readConverted r row p.index p.conversion = .ok y)
    c.parameters arguments
  assigned : List.Forall₂ (fun p a => readAssignment r row p = .ok a) c.properties assignments
  built : (c.constructor.construct arguments).bind (assignAll assignments) = .ok x

/-- Setting properties to values that are read is making the assignments that are read. -/
theorem readProperties_eq_ok_iff {r : Registry α} {row : List Value} {ps : List (BoundProperty α)}
    {x y : Object α} :
    readProperties r row ps x = .ok y ↔ ∃ assignments,
      List.Forall₂ (fun p a => readAssignment r row p = .ok a) ps assignments ∧
        assignAll assignments x = .ok y := by
  induction ps generalizing x with
  | nil => simp [readProperties, assignAll, pure, Except.pure]
  | cons p rest ih =>
    constructor
    · intro h
      obtain ⟨z, hread, h⟩ := bind_eq_ok_iff.mp h
      obtain ⟨x', hset, h⟩ := bind_eq_ok_iff.mp h
      obtain ⟨assignments, hassigned, hall⟩ := ih.mp h
      refine ⟨⟨p.conversion.column.name, p.set, z⟩ :: assignments,
        .cons (map_eq_ok_iff.mpr ⟨z, hread, rfl⟩) hassigned, ?_⟩
      rw [assignAll_cons]
      exact bind_eq_ok_iff.mpr ⟨x', hset, hall⟩
    · rintro ⟨_, hassigned, hall⟩
      obtain ⟨a, assignments, ha, hrest, rfl⟩ := List.forall₂_cons_left_iff.mp hassigned
      obtain ⟨z, hread, rfl⟩ := map_eq_ok_iff.mp ha
      rw [assignAll_cons] at hall
      obtain ⟨x', hset, hall⟩ := bind_eq_ok_iff.mp hall
      exact bind_eq_ok_iff.mpr ⟨z, hread,
        bind_eq_ok_iff.mpr ⟨x', hset, ih.mpr ⟨assignments, hrest, hall⟩⟩⟩

/-- An instance is built from a row by a constructor and assignments. -/
theorem instantiate_eq_ok_iff {r : Registry α} {t : TargetType} {c : Candidate α}
    (hnodup : (Plan.reflective c).indices.Nodup) {row : List Value} {x : Object α} :
    (Plan.reflective c).instantiate r t row = .ok x ↔
      ∃ arguments assignments, c.Builds r row arguments assignments x := by
  rw [Plan.instantiate_eq_read r t row _ hnodup]
  constructor
  · intro h
    obtain ⟨arguments, harguments, h⟩ := bind_eq_ok_iff.mp h
    obtain ⟨y, hy, h⟩ := bind_eq_ok_iff.mp h
    obtain ⟨assignments, hassigned, hall⟩ := readProperties_eq_ok_iff.mp h
    exact ⟨arguments, assignments, mapM_eq_ok_iff.mp harguments, hassigned,
      bind_eq_ok_iff.mpr ⟨y, hy, hall⟩⟩
  · rintro ⟨arguments, assignments, hgiven, hassigned, hbuilt⟩
    obtain ⟨y, hy, hall⟩ := bind_eq_ok_iff.mp hbuilt
    exact bind_eq_ok_iff.mpr ⟨arguments, mapM_eq_ok_iff.mpr hgiven,
      bind_eq_ok_iff.mpr ⟨y, hy, readProperties_eq_ok_iff.mpr ⟨assignments, hassigned, hall⟩⟩⟩

/-- A value is read from the new place of its column, and converted in the same way. -/
theorem readConverted_moved {row row' : List Value} (hrow : Moved e row row')
    {c c' : ColumnConversion α} (hc : c.Alike c') {r : Registry α} {i : ℕ} {x : Object α}
    (h : readConverted r row i c = .ok x) : readConverted r row' (e i) c' = .ok x := by
  rw [readConverted, rowValue] at h
  rw [readConverted, rowValue, hrow i]
  cases hcell : row[i]? with
  | none =>
    rw [hcell] at h
    cases h
  | some v =>
    rw [hcell] at h
    exact (hc.convert r v).trans h

theorem readAssignment_moved {row row' : List Value} (hrow : Moved e row row')
    {p p' : BoundProperty α} (hp : p.Follows e p') {r : Registry α} {a : Assignment α}
    (h : readAssignment r row p = .ok a) : readAssignment r row' p' = .ok a := by
  obtain ⟨x, hread, rfl⟩ := map_eq_ok_iff.mp h
  rw [readAssignment, hp.index, readConverted_moved hrow hp.conversion hread, hp.conversion.name,
    hp.set]
  rfl

/-- An assignment that can be made to every object, whatever was assigned before. -/
def Assignment.CanBeMade (a : Assignment α) : Prop :=
  ∀ owner, ∃ owner', a.set a.value owner = .ok owner'

theorem exists_assignAll {assignments : List (Assignment α)}
    (h : ∀ a ∈ assignments, a.CanBeMade) (x : Object α) :
    ∃ y, assignAll assignments x = .ok y := by
  induction assignments generalizing x with
  | nil => exact ⟨x, rfl⟩
  | cons a rest ih =>
    obtain ⟨x', hx'⟩ := h a List.mem_cons_self x
    rw [assignAll_cons, hx']
    exact ih (fun b hb => h b (List.mem_cons_of_mem a hb)) x'

/-- What is read for a bound property can be assigned to it. -/
theorem Candidate.Bound.canBeMade {r : Registry α} {t : Target α} {c : Candidate α}
    (h : c.Bound r t) {row : List Value} {assignments : List (Assignment α)}
    (hassigned : List.Forall₂ (fun p a => readAssignment r row p = .ok a) c.properties
      assignments) :
    ∀ a ∈ assignments, a.CanBeMade := by
  intro a ha
  obtain ⟨p, hp, hread⟩ := exists_of_forall₂ hassigned ha
  obtain ⟨b, hfound, hset, hsettable⟩ := h.properties p hp
  obtain ⟨y, hvalue, rfl⟩ := map_eq_ok_iff.mp hread
  intro owner
  show ∃ owner', p.set y owner = .ok owner'
  rw [hset]
  exact hsettable y owner (hfound.type_of_read hvalue).1

/-- From a row whose values have moved with their columns, the constructor is given the same
arguments, and the same assignments are made, maybe in another order. -/
theorem Candidate.Builds.moved {r : Registry α} {t : Target α} {c c' : Candidate α}
    (hc : c.Follows e c') (hbound : c.Bound r t) {row row' : List Value} (hrow : Moved e row row')
    {arguments : List (Object α)} {assignments : List (Assignment α)} {x : Object α}
    (h : c.Builds r row arguments assignments x) :
    ∃ assignments' x', c'.Builds r row' arguments assignments' x' ∧
      assignments'.Perm assignments := by
  obtain ⟨_, hgiven', hsame⟩ := forall₂_transport (A := Eq)
    (C := fun p y => readConverted r row' p.index p.conversion = .ok y) hc.parameters h.given
    fun p p' y hp hy => ⟨y, hp.index ▸ readConverted_moved hrow hp.conversion hy, rfl⟩
  rw [List.forall₂_eq_eq_eq] at hsame
  subst hsame
  -- the properties are put into the new order first, then moved to the new places
  obtain ⟨ps, hperm, hps⟩ := hc.properties
  obtain ⟨assignments', hassigned, hpermuted⟩ := List.perm_comp_forall₂ hperm h.assigned
  obtain ⟨_, hassigned', hsame⟩ := forall₂_transport (A := Eq)
    (C := fun p a => readAssignment r row' p = .ok a) hps hassigned
    fun p p' a hp ha => ⟨a, readAssignment_moved hrow hp ha, rfl⟩
  rw [List.forall₂_eq_eq_eq] at hsame
  subst hsame
  obtain ⟨y, hy, -⟩ := bind_eq_ok_iff.mp h.built
  obtain ⟨x', hx'⟩ := exists_assignAll (fun a ha => hbound.canBeMade h.assigned a
    (hpermuted.mem_iff.mp ha)) y
  refine ⟨assignments', x', ⟨hgiven', hassigned', ?_⟩, hpermuted⟩
  rw [hc.constructor]
  exact bind_eq_ok_iff.mpr ⟨y, hy, hx'⟩

/-- **Column order.** If columns with names that do not match each other are asked for in another
order, together with the values of each row, nothing changes but the order of the assignments:
a plan is found for both orders or for none, with the same constructor; a row is built in both
orders or in none, with the same arguments for the constructor, in the same order, and with the
same assignments. Every constructor has to find a column of its name for each parameter, or to
have more parameters than there are columns. -/
theorem findPlan_ignoresColumnOrder {r : Registry α} {t : Target α} {columns columns' : List Column}
    {e : Equiv.Perm ℕ} (hseveral : 2 ≤ columns.length) (hmoved : ColumnsMoved e columns columns')
    (hnames : columns.Pairwise fun a b => namesMatch a.name b.name = false)
    (hnamed : ∀ c ∈ t.description.constructors,
      columns.length < c.parameters.length ∨ c.NamedAmong columns) :
    ((∃ plan, findPlan r t columns = .ok plan) ↔ ∃ plan, findPlan r t columns' = .ok plan) ∧
    ∀ plan plan', findPlan r t columns = .ok plan → findPlan r t columns' = .ok plan' →
      ∃ c c', plan = .reflective c ∧ plan' = .reflective c' ∧ c'.constructor = c.constructor ∧
        ∀ row row', Moved e row row' →
          ((∃ x, plan.instantiate r t.type row = .ok x) ↔
            ∃ x, plan'.instantiate r t.type row' = .ok x) ∧
          ∀ x x', plan.instantiate r t.type row = .ok x →
            plan'.instantiate r t.type row' = .ok x' → ∃ arguments assignments assignments',
              c.Builds r row arguments assignments x ∧
              c'.Builds r row' arguments assignments' x' ∧ assignments'.Perm assignments := by
  have hone := oneEach_of_pairwise hnames
  rcases findPlan_moved (r := r) hone hmoved hseveral hnamed with
    ⟨c, c', hplan, hplan', hc⟩ | ⟨failure, failure', hplan, hplan'⟩
  · refine ⟨⟨fun _ => ⟨_, hplan'⟩, fun _ => ⟨_, hplan⟩⟩, ?_⟩
    rw [hplan, hplan']
    rintro _ _ ⟨⟩ ⟨⟩
    have hbound : c.Bound r t := bound_of_findPlan hplan
    have hbound' : c'.Bound r t := bound_of_findPlan hplan'
    refine ⟨c, c', rfl, rfl, hc.constructor, fun row row' hrow => ⟨⟨?_, ?_⟩, ?_⟩⟩
    · rintro ⟨x, hx⟩
      obtain ⟨arguments, assignments, hbuilds⟩ := (instantiate_eq_ok_iff hbound.distinct).mp hx
      obtain ⟨assignments', x', hbuilds', -⟩ := hbuilds.moved hc hbound hrow
      exact ⟨x', (instantiate_eq_ok_iff hbound'.distinct).mpr ⟨_, _, hbuilds'⟩⟩
    · -- the way back is the way there for the inverse permutation
      rintro ⟨x', hx'⟩
      obtain ⟨arguments, assignments, hbuilds⟩ := (instantiate_eq_ok_iff hbound'.distinct).mp hx'
      obtain ⟨assignments', x, hbuilds', -⟩ := hbuilds.moved hc.symm hbound' hrow.symm
      exact ⟨x, (instantiate_eq_ok_iff hbound.distinct).mpr ⟨_, _, hbuilds'⟩⟩
    · intro x x' hx hx'
      obtain ⟨arguments, assignments, hbuilds⟩ := (instantiate_eq_ok_iff hbound.distinct).mp hx
      obtain ⟨assignments', y, hbuilds', hperm⟩ := hbuilds.moved hc hbound hrow
      have hy : (Plan.reflective c').instantiate r t.type row' = .ok y :=
        (instantiate_eq_ok_iff hbound'.distinct).mpr ⟨_, _, hbuilds'⟩
      rw [hx'] at hy
      obtain rfl := Except.ok.inj hy
      exact ⟨arguments, assignments, assignments', hbuilds, hbuilds', hperm⟩
  · rw [hplan, hplan']
    refine ⟨⟨?_, ?_⟩, ?_⟩
    · rintro ⟨_, ⟨⟩⟩
    · rintro ⟨_, ⟨⟩⟩
    · rintro _ _ ⟨⟩

/-- Three columns are asked for backwards, and a row is built as before. -/
theorem findPlan_ignoresColumnOrder_crossed :
    ∃ c c', findPlan Registry.empty crossedTarget crossedColumns = .ok (.reflective c) ∧
      findPlan Registry.empty crossedTarget crossedColumns.reverse = .ok (.reflective c') ∧
      c'.constructor = c.constructor ∧
      ∃ x x' arguments assignments assignments',
        c.Builds Registry.empty [.text "a", .text "b", .text "c"] arguments assignments x ∧
        c'.Builds Registry.empty [.text "c", .text "b", .text "a"] arguments assignments' x' ∧
        assignments'.Perm assignments := by
  have hseveral : 2 ≤ crossedColumns.length := by decide
  have hmoved : ColumnsMoved (Equiv.swap 0 2) crossedColumns crossedColumns.reverse :=
    moved_reverse _ _ _
  have hnames : crossedColumns.Pairwise fun a b => namesMatch a.name b.name = false := by decide
  have hnamed : ∀ c ∈ crossedTarget.description.constructors,
      crossedColumns.length < c.parameters.length ∨ c.NamedAmong crossedColumns := by
    intro c hc
    obtain rfl := List.mem_singleton.mp hc
    exact .inr ⟨[1, 0], by decide, .cons ⟨_, rfl, by decide⟩ (.cons ⟨_, rfl, by decide⟩ .nil)⟩
  obtain ⟨c, hevaluate, x, hx⟩ : ∃ c,
      evaluate Registry.empty crossedTarget.description crossedColumns
        ⟨[⟨"right", .string⟩, ⟨"left", .string⟩], nextArgument .string⟩ = .ok c ∧
      ∃ x, (Plan.reflective c).instantiate Registry.empty crossedTarget.type
        [.text "a", .text "b", .text "c"] = .ok x := ⟨_, rfl, _, rfl⟩
  have hplan : findPlan Registry.empty crossedTarget crossedColumns = .ok (.reflective c) :=
    (findPlan_eq_ok_iff (List.cons_ne_nil _ _) rfl).mpr
      ⟨[], _, [], c, rfl, hevaluate, rfl, fun _ hmem => absurd hmem List.not_mem_nil⟩
  obtain ⟨hfound, hplans⟩ :=
    findPlan_ignoresColumnOrder (r := Registry.empty) hseveral hmoved hnames hnamed
  obtain ⟨plan', hplan'⟩ := hfound.mp ⟨_, hplan⟩
  obtain ⟨_, c', ⟨⟩, rfl, hconstructor, hrows⟩ := hplans _ _ hplan hplan'
  obtain ⟨hbuilt, hbuilds⟩ := hrows _ _ (moved_reverse (.text "a") (.text "b") (.text "c"))
  obtain ⟨x', hx'⟩ := hbuilt.mp ⟨x, hx⟩
  exact ⟨c, c', hplan, hplan', hconstructor, x, x', hbuilds x x' hx hx'⟩

end RowMapping
