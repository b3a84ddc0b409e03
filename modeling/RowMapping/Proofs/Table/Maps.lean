/-
Maps from the first column of a result to the others.

Rows are put into the map one after the other. A key that is the same as none before it is added
at the end; a key that comes back leaves the keys as they are, and its value takes the place of
the value that was there. So what the map is after some rows is told by these rows: its keys are
those of the rows whose key came for the first time, in the order of these rows, and the value of
each is from the last row with the same key. The induction is on the rows, from the last one.

Keys and values are built from two slices of the columns, and each slice of a row is read by its
own places. So they are the instances that the two slices have as results of their own.
-/
import RowMapping.Proofs.Instantiation.Renumbered

set_option autoImplicit false

namespace RowMapping

namespace ResultTable

/-! ## Entries by their keys -/

section Entries

variable {κ β : Type} {same : κ → κ → Bool} {keys : List κ} {key k : κ} {i : ℕ}

/-- Some keys are compared by an equivalence. -/
structure ComparedAlike (same : κ → κ → Bool) (keys : List κ) : Prop where
  refl : ∀ a ∈ keys, same a a = true
  symm : ∀ a ∈ keys, ∀ b ∈ keys, same a b = true → same b a = true
  trans : ∀ a ∈ keys, ∀ b ∈ keys, ∀ c ∈ keys, same a b = true → same b c = true →
    same a c = true

/-- A row has a key that no row before it has. -/
structure FirstOfKey (same : κ → κ → Bool) (keys : List κ) (key : κ) (i : ℕ) : Prop where
  here : keys[i]? = some key
  before : ∀ j < i, ∀ k, keys[j]? = some k → same k key = false

/-- A row has a key that no row after it has. -/
structure LastOfKey (same : κ → κ → Bool) (keys : List κ) (key : κ) (i : ℕ) : Prop where
  here : ∃ k, keys[i]? = some k ∧ same k key = true
  after : ∀ j > i, ∀ k, keys[j]? = some k → same k key = false

/-- A map holds the rows of some keys and values: it has the keys of the rows that are the first
of their keys, in the order of these rows, and for each key the value of the last row that has
it. -/
structure HoldsRows (same : κ → κ → Bool) (keys : List κ) (values : List β) (m : List (κ × β)) :
    Prop where
  firsts : ∃ rows : List ℕ, rows.Pairwise (· < ·) ∧
    (∀ i, i ∈ rows ↔ ∃ key, FirstOfKey same keys key i) ∧
    List.Forall₂ (fun i key => FirstOfKey same keys key i) rows (m.map Prod.fst)
  lasts : ∀ entry ∈ m, ∃ i, LastOfKey same keys entry.1 i ∧ values[i]? = some entry.2

namespace ComparedAlike

theorem mono {keys' : List κ} (h : ComparedAlike same keys) (hsubset : keys' ⊆ keys) :
    ComparedAlike same keys' where
  refl a ha := h.refl a (hsubset ha)
  symm a ha b hb := h.symm a (hsubset ha) b (hsubset hb)
  trans a ha b hb c hc := h.trans a (hsubset ha) b (hsubset hb) c (hsubset hc)

/-- For each key there is a first row. -/
theorem exists_first (h : ComparedAlike same keys) (hi : keys[i]? = some k) :
    ∃ j key, FirstOfKey same keys key j ∧ same key k = true := by
  induction i using Nat.strong_induction_on generalizing k with
  | _ i ih =>
    have hk := List.mem_of_getElem? hi
    by_cases hbefore : ∃ j < i, ∃ l, keys[j]? = some l ∧ same l k = true
    · obtain ⟨j, hj, l, hl, hsame⟩ := hbefore
      obtain ⟨first, key, hfirst, hkey⟩ := ih j hj hl
      exact ⟨first, key, hfirst, h.trans key (List.mem_of_getElem? hfirst.here) l
        (List.mem_of_getElem? hl) k hk hkey hsame⟩
    · refine ⟨i, k, ⟨hi, fun j hj l hl => ?_⟩, h.refl k hk⟩
      rw [Bool.eq_false_iff]
      exact fun hsame => hbefore ⟨j, hj, l, hl, hsame⟩

end ComparedAlike

/-- The first row of a key stays the first one when a row is added. -/
theorem FirstOfKey.append (h : FirstOfKey same keys key i) (k : κ) :
    FirstOfKey same (keys ++ [k]) key i := by
  have hi := (List.getElem?_eq_some_iff.mp h.here).1
  refine ⟨by rw [List.getElem?_append_left hi, h.here], fun j hj l hl => h.before j hj l ?_⟩
  rwa [List.getElem?_append_left (hj.trans hi)] at hl

/-- A row that is added is the first one of its key, or it is none. -/
theorem FirstOfKey.of_append (h : FirstOfKey same (keys ++ [k]) key i) :
    FirstOfKey same keys key i ∨ i = keys.length ∧ ∀ a ∈ keys, same a k = false := by
  have hi := (List.getElem?_eq_some_iff.mp h.here).1
  rw [List.length_append, List.length_singleton] at hi
  rcases Nat.lt_succ_iff_lt_or_eq.mp hi with hold | rfl
  · refine .inl ⟨by rw [← List.getElem?_append_left hold, h.here], fun j hj l hl => ?_⟩
    exact h.before j hj l (by rw [List.getElem?_append_left (hj.trans hold), hl])
  · have hkey : k = key := by simpa using h.here
    refine .inr ⟨rfl, fun a ha => ?_⟩
    obtain ⟨j, hj, rfl⟩ := List.mem_iff_getElem.mp ha
    rw [hkey]
    exact h.before j hj _ (by rw [List.getElem?_append_left hj, List.getElem?_eq_getElem hj])

theorem firstOfKey_append_length (hnew : ∀ a ∈ keys, same a k = false) :
    FirstOfKey same (keys ++ [k]) k keys.length := by
  refine ⟨by simp, fun j hj l hl => hnew l ?_⟩
  rw [List.getElem?_append_left hj] at hl
  exact List.mem_of_getElem? hl

/-- The last row of a key stays the last one when a row of another key is added. -/
theorem LastOfKey.append (h : LastOfKey same keys key i) (hother : same k key = false) :
    LastOfKey same (keys ++ [k]) key i := by
  obtain ⟨l, hl, hsame⟩ := h.here
  have hi := (List.getElem?_eq_some_iff.mp hl).1
  refine ⟨⟨l, by rw [List.getElem?_append_left hi, hl], hsame⟩, fun j hj a ha => ?_⟩
  rcases Nat.lt_or_ge j keys.length with hold | hnew
  · exact h.after j hj a (by rwa [List.getElem?_append_left hold] at ha)
  · rw [List.getElem?_append_right hnew] at ha
    obtain rfl : a = k := by
      simpa [eq_comm] using List.mem_of_getElem? ha
    exact hother

/-- A row that is added is the last one of its key. -/
theorem lastOfKey_append_length (hsame : same k key = true) :
    LastOfKey same (keys ++ [k]) key keys.length := by
  refine ⟨⟨k, by simp, hsame⟩, fun j hj a ha => ?_⟩
  have hnone : (keys ++ [k])[j]? = none := by
    rw [List.getElem?_eq_none_iff, List.length_append, List.length_singleton]
    omega
  rw [hnone] at ha
  cases ha

/-! ## Putting one entry -/

theorem putEntry_of_new {x : β} {m : List (κ × β)} (h : ∀ entry ∈ m, same entry.1 k = false) :
    putEntry same k x m = m ++ [(k, x)] := by
  induction m with
  | nil => rfl
  | cons entry rest ih =>
    obtain ⟨hfirst, hrest⟩ := List.forall_mem_cons.mp h
    rw [putEntry, hfirst, ih hrest]
    rfl

theorem putEntry_of_known {x y : β} {before after : List (κ × β)}
    (hbefore : ∀ entry ∈ before, same entry.1 k = false) (hkey : same key k = true) :
    putEntry same k x (before ++ (key, y) :: after) = before ++ (key, x) :: after := by
  induction before with
  | nil =>
    rw [List.nil_append, putEntry, hkey]
    rfl
  | cons entry rest ih =>
    obtain ⟨hfirst, hrest⟩ := List.forall_mem_cons.mp hbefore
    rw [List.cons_append, putEntry, hfirst, ih hrest]
    rfl

namespace HoldsRows

variable {values : List β} {m : List (κ × β)}

/-- The keys of a map are keys of rows. -/
theorem mem_keys (h : HoldsRows same keys values m) {entry : κ × β} (hentry : entry ∈ m) :
    entry.1 ∈ keys := by
  obtain ⟨rows, -, -, hfirsts⟩ := h.firsts
  obtain ⟨i, -, hi⟩ := exists_of_forall₂ hfirsts (List.mem_map_of_mem hentry)
  exact List.mem_of_getElem? hi.here

theorem mem_keys_between {y : β} {before after : List (κ × β)}
    (h : HoldsRows same keys values (before ++ (key, y) :: after)) : key ∈ keys := by
  have hentry : (key, y) ∈ before ++ (key, y) :: after := by simp
  exact h.mem_keys hentry

/-- No key of a map is the same as one before it. -/
theorem distinct (h : HoldsRows same keys values m) :
    m.Pairwise fun a b => same a.1 b.1 = false := by
  obtain ⟨rows, hsorted, -, hfirsts⟩ := h.firsts
  rw [← List.pairwise_map (R := fun a b => same a b = false)]
  generalize m.map Prod.fst = entered at hfirsts
  clear h
  induction hfirsts with
  | nil => exact .nil
  | cons hi hrest ih =>
    obtain ⟨hless, hsorted⟩ := List.pairwise_cons.mp hsorted
    refine List.pairwise_cons.mpr ⟨fun b hb => ?_, ih hsorted⟩
    obtain ⟨j, hj, hfirst⟩ := exists_of_forall₂ hrest hb
    exact hfirst.before _ (hless j hj) _ hi.here

/-- Every key of a row is in the map. -/
theorem exists_entry (h : HoldsRows same keys values m) (hsame : ComparedAlike same keys)
    (hk : k ∈ keys) : ∃ entry ∈ m, same entry.1 k = true := by
  obtain ⟨i, hi⟩ := List.mem_iff_getElem?.mp hk
  obtain ⟨first, key, hfirst, hkey⟩ := hsame.exists_first hi
  obtain ⟨rows, -, hrows, hfirsts⟩ := h.firsts
  obtain ⟨key', hmem, hkey'⟩ := exists_of_forall₂ hfirsts.flip ((hrows first).mpr ⟨key, hfirst⟩)
  obtain ⟨entry, hentry, rfl⟩ := List.mem_map.mp hmem
  obtain rfl : key = entry.1 := Option.some.inj (hfirst.here.symm.trans hkey'.here)
  exact ⟨entry, hentry, hkey⟩

/-- A row of a new key adds an entry. -/
theorem put_new (h : HoldsRows same keys values m) (hlength : keys.length = values.length)
    (hsame : ComparedAlike same (keys ++ [k])) (hnew : ∀ a ∈ keys, same a k = false) (x : β) :
    HoldsRows same (keys ++ [k]) (values ++ [x]) (m ++ [(k, x)]) where
  firsts := by
    obtain ⟨rows, hsorted, hrows, hfirsts⟩ := h.firsts
    -- the row that is added comes after all first rows
    have hold : ∀ i ∈ rows, i < keys.length := fun i hi => by
      obtain ⟨key, hkey⟩ := (hrows i).mp hi
      exact (List.getElem?_eq_some_iff.mp hkey.here).1
    refine ⟨rows ++ [keys.length], ?_, fun i => ?_, ?_⟩
    · exact List.pairwise_append.mpr ⟨hsorted, List.pairwise_singleton _ _, fun i hi j hj =>
        List.mem_singleton.mp hj ▸ hold i hi⟩
    · rw [List.mem_append, List.mem_singleton, hrows]
      constructor
      · rintro (⟨key, hkey⟩ | rfl)
        · exact ⟨key, hkey.append k⟩
        · exact ⟨k, firstOfKey_append_length hnew⟩
      · rintro ⟨key, hkey⟩
        exact hkey.of_append.imp (fun hold => ⟨key, hold⟩) fun hlast => hlast.1
    · rw [List.map_append]
      refine List.rel_append (hfirsts.imp fun i key hkey => hkey.append k) (.cons ?_ .nil)
      exact firstOfKey_append_length hnew
  lasts := by
    intro entry hentry
    rcases List.mem_append.mp hentry with hentry | hentry
    · obtain ⟨i, hi, hvalue⟩ := h.lasts entry hentry
      have hkey := h.mem_keys hentry
      have hother : same k entry.1 = false := by
        rw [Bool.eq_false_iff]
        intro hback
        have hforth := hsame.symm k (by simp) entry.1 (by simp [hkey]) hback
        rw [hnew entry.1 hkey] at hforth
        cases hforth
      refine ⟨i, hi.append hother, ?_⟩
      rw [List.getElem?_append_left (List.getElem?_eq_some_iff.mp hvalue).1, hvalue]
    · obtain rfl := List.mem_singleton.mp hentry
      exact ⟨keys.length, lastOfKey_append_length (hsame.refl k (by simp)), by simp [hlength]⟩

/-- The other entries are of other keys. -/
theorem others {y : β} {before after : List (κ × β)}
    (h : HoldsRows same keys values (before ++ (key, y) :: after))
    (hsame : ComparedAlike same (keys ++ [k])) (hkey : same key k = true) :
    (∀ entry ∈ before, same entry.1 k = false) ∧
      ∀ entry ∈ before ++ after, same k entry.1 = false := by
  have hmem : ∀ entry ∈ before ++ (key, y) :: after, entry.1 ∈ keys ++ [k] := fun entry hentry =>
    List.mem_append_left _ (h.mem_keys hentry)
  have hk : k ∈ keys ++ [k] := by simp
  have hknown := hmem (key, y) (by simp)
  obtain ⟨-, hafter, hbefore⟩ := List.pairwise_append.mp h.distinct
  replace hafter := (List.pairwise_cons.mp hafter).1
  replace hbefore := fun entry hentry => hbefore entry hentry (key, y) List.mem_cons_self
  simp only [Bool.eq_false_iff] at hafter hbefore ⊢
  -- another entry whose key is the same as `k` would have the same key as this one
  refine ⟨fun entry hentry hforth => hbefore entry hentry ?_, fun entry hentry hback => ?_⟩
  · exact hsame.trans _ (hmem entry (by simp [hentry])) k hk key hknown hforth
      (hsame.symm key hknown k hk hkey)
  · rcases List.mem_append.mp hentry with hentry | hentry
    · have hentry' := hmem entry (by simp [hentry])
      exact hbefore entry hentry (hsame.symm key hknown _ hentry'
        (hsame.trans key hknown k hk _ hentry' hkey hback))
    · exact hafter entry hentry (hsame.trans key hknown k hk _ (hmem entry (by simp [hentry])) hkey
        hback)

/-- A row of a known key changes the value of its entry. -/
theorem put_known {y : β} {before after : List (κ × β)}
    (h : HoldsRows same keys values (before ++ (key, y) :: after))
    (hlength : keys.length = values.length) (hsame : ComparedAlike same (keys ++ [k]))
    (hkey : same key k = true) (hothers : ∀ entry ∈ before ++ after, same k entry.1 = false)
    (x : β) :
    HoldsRows same (keys ++ [k]) (values ++ [x]) (before ++ (key, x) :: after) where
  firsts := by
    obtain ⟨rows, hsorted, hrows, hfirsts⟩ := h.firsts
    have hknown : key ∈ keys := h.mem_keys_between
    -- the row that is added is the first one of no key, so the first rows stay
    refine ⟨rows, hsorted, fun i => ?_, ?_⟩
    · rw [hrows]
      constructor
      · rintro ⟨key, hfirst⟩
        exact ⟨key, hfirst.append k⟩
      · rintro ⟨a, hfirst⟩
        refine hfirst.of_append.elim (fun hold => ⟨a, hold⟩) fun hlast => ?_
        rw [hlast.2 key hknown] at hkey
        cases hkey
    · rw [List.map_append, List.map_cons] at hfirsts ⊢
      exact hfirsts.imp fun i key hfirst => hfirst.append k
  lasts := by
    intro entry hentry
    have hcases : entry = (key, x) ∨ entry ∈ before ++ after := by
      simp only [List.mem_append, List.mem_cons] at hentry ⊢
      tauto
    rcases hcases with rfl | hother
    · have hknown : key ∈ keys := h.mem_keys_between
      have hback := hsame.symm key (by simp [hknown]) k (by simp) hkey
      exact ⟨keys.length, lastOfKey_append_length hback, by simp [hlength]⟩
    · have hold : entry ∈ before ++ (key, y) :: after := by
        simp only [List.mem_append, List.mem_cons] at hother ⊢
        tauto
      obtain ⟨i, hi, hvalue⟩ := h.lasts entry hold
      refine ⟨i, hi.append (hothers entry hother), ?_⟩
      rw [List.getElem?_append_left (List.getElem?_eq_some_iff.mp hvalue).1, hvalue]

/-- One row more is held after it is put. -/
theorem put (h : HoldsRows same keys values m) (hlength : keys.length = values.length)
    (hsame : ComparedAlike same (keys ++ [k])) (x : β) :
    HoldsRows same (keys ++ [k]) (values ++ [x]) (putEntry same k x m) := by
  have hold : ComparedAlike same keys := hsame.mono (List.subset_append_left _ _)
  by_cases hknown : ∃ entry ∈ m, same entry.1 k = true
  · obtain ⟨⟨key, y⟩, hentry, hkey⟩ := hknown
    obtain ⟨before, after, rfl⟩ := List.append_of_mem hentry
    obtain ⟨hbefore, hothers⟩ := h.others hsame hkey
    rw [putEntry_of_known hbefore hkey]
    exact h.put_known hlength hsame hkey hothers x
  · -- a row of the same key would have put an entry for it
    have hnew : ∀ a ∈ keys, same a k = false := fun a ha => by
      rw [Bool.eq_false_iff]
      intro hback
      obtain ⟨entry, hentry, hkey⟩ := h.exists_entry hold ha
      have hmem := List.mem_append_left [k] (h.mem_keys hentry)
      exact hknown ⟨entry, hentry, hsame.trans _ hmem a (by simp [ha]) k (by simp) hkey hback⟩
    rw [putEntry_of_new fun entry hentry => hnew entry.1 (h.mem_keys hentry)]
    exact h.put_new hlength hsame hnew x

end HoldsRows

/-- All rows are held after they are put one after the other. -/
theorem holdsRows_foldl (entries : List (κ × β))
    (hsame : ComparedAlike same (entries.map Prod.fst)) :
    HoldsRows same (entries.map Prod.fst) (entries.map Prod.snd)
      (entries.foldl (fun m (k, x) => putEntry same k x m) []) := by
  induction entries using List.reverseRecOn with
  | nil =>
    refine ⟨⟨[], .nil, fun i => ?_, .nil⟩, by simp⟩
    simp only [List.not_mem_nil, false_iff, not_exists]
    rintro key ⟨hhere, -⟩
    cases hhere
  | append_singleton entries entry ih =>
    rw [List.map_append, List.map_singleton] at hsame
    rw [List.map_append, List.map_append, List.map_singleton, List.map_singleton,
      List.foldl_append]
    exact (ih (hsame.mono (List.subset_append_left _ _))).put (by simp) hsame entry.2

/-- Rows of different keys are the entries of the map. -/
theorem foldl_putEntry_of_distinct (entries : List (κ × β))
    (hdistinct : (entries.map Prod.fst).Pairwise fun a b => same a b = false) :
    entries.foldl (fun m (k, x) => putEntry same k x m) [] = entries := by
  induction entries using List.reverseRecOn with
  | nil => rfl
  | append_singleton entries entry ih =>
    rw [List.map_append, List.pairwise_append] at hdistinct
    obtain ⟨hentries, -, hnew⟩ := hdistinct
    rw [List.foldl_append, ih hentries]
    exact putEntry_of_new fun other hother =>
      hnew other.1 (List.mem_map_of_mem hother) entry.1 List.mem_cons_self

end Entries

/-! ## Objects as keys -/

section Keys

variable {α : Type} [BEq α] [PartialEquivBEq α]

theorem sameKey_symm {x y : Object α} : x.sameKey y = true → y.sameKey x = true := by
  apply Object.sameKey.induct (fun x y => x.sameKey y = true → y.sameKey x = true)
    (fun xs ys => Object.sameKeys xs ys = true → Object.sameKeys ys xs = true)
  case case11 =>
    -- only the data of an application is not compared by an equality
    intro t a u b h
    simp only [Object.sameKey, Bool.and_eq_true, beq_iff_eq] at h ⊢
    exact ⟨h.1.symm, BEq.symm h.2⟩
  all_goals
    intros
    simp_all [Object.sameKey, Object.sameKeys, Timestamp.sameInstant]

theorem sameKey_trans {x y z : Object α} :
    x.sameKey y = true → y.sameKey z = true → x.sameKey z = true := by
  apply Object.sameKey.induct
    (fun x y => ∀ z : Object α, x.sameKey y = true → y.sameKey z = true → x.sameKey z = true)
    (fun xs ys => ∀ zs, Object.sameKeys xs ys = true → Object.sameKeys ys zs = true →
      Object.sameKeys xs zs = true)
  case case11 =>
    intro t a u b z h h'
    cases z <;>
      simp only [Object.sameKey, Bool.and_eq_true, beq_iff_eq, Bool.false_eq_true] at h h' ⊢
    exact ⟨h.1.trans h'.1, BEq.trans h.2 h'.2⟩
  case case13 =>
    intro x y ih z h h'
    cases z <;> simp only [Object.sameKey, Bool.false_eq_true] at h h' ⊢
    exact ih _ h h'
  case case15 =>
    -- no objects of different forms are the same key
    intros
    simp_all [Object.sameKey]
  all_goals
    intros
    rename_i z h h'
    cases z <;> simp_all [Object.sameKey, Object.sameKeys, Timestamp.sameInstant]

/-- Objects that can be keys are compared by an equivalence. -/
theorem comparedAlike_sameKey {keys : List (Object α)} (h : ∀ k ∈ keys, k.sameKey k = true) :
    ComparedAlike Object.sameKey keys where
  refl := h
  symm _ _ _ _ := sameKey_symm
  trans _ _ _ _ _ _ := sameKey_trans

end Keys

/-! ## Slices of a result -/

variable {α : Type} {r : Registry α} {key value : Target α} {t : ResultTable}

/-- Some columns with their values as a result of their own, in which they are numbered from the
start. -/
def alone (columns : List Column) (rows : List Row) : ResultTable :=
  ⟨columns.mapIdx fun i c => { c with index := i }, rows⟩

/-- The first column of a result alone. -/
def keyTable (t : ResultTable) : ResultTable := alone (t.columns.take 1) (t.rows.map (·.take 1))

/-- The other columns of a result alone. -/
def valueTable (t : ResultTable) : ResultTable := alone (t.columns.drop 1) (t.rows.map (·.drop 1))

/-- The instances of a slice are built from the rows by a plan for its columns, whatever numbers
these have. -/
theorem instances_alone_eq_ok_iff {target : Target α} {columns : List Column} {rows : List Row}
    (hrows : rows ≠ []) {xs : List (Object α)} :
    (alone columns rows).instances r target = .ok xs ↔
      ∃ plan, findPlan r target columns = .ok plan ∧
        rows.mapM (plan.instantiate r target.type) = .ok xs := by
  have hlabels : SameLabels columns (columns.mapIdx fun i c => { c with index := i }) := by
    refine List.ext_getElem? fun i => ?_
    rw [List.getElem?_map, List.getElem?_mapIdx, List.getElem?_map, Option.map_map]
    rfl
  rw [alone, hlabels.instances_eq_ok_iff]
  exact instances_eq_ok_iff hrows

/-! ## The map of a result -/

/-- A row gives an entry if both slices of it give an instance. -/
theorem entry_eq_ok_iff {keyPlan valuePlan : Plan α} {row : Row} {e : Object α × Object α} :
    entry r key value keyPlan valuePlan row = .ok e ↔
      keyPlan.instantiate r key.type (row.take 1) = .ok e.1 ∧
        valuePlan.instantiate r value.type (row.drop 1) = .ok e.2 := by
  constructor
  · intro h
    obtain ⟨k, hk, h⟩ := bind_eq_ok_iff.mp h
    obtain ⟨x, hx, h⟩ := bind_eq_ok_iff.mp h
    cases h
    exact ⟨hk, hx⟩
  · rintro ⟨hk, hx⟩
    exact bind_eq_ok_iff.mpr ⟨e.1, hk, bind_eq_ok_iff.mpr ⟨e.2, hx, rfl⟩⟩

theorem exists_entry_error_iff {keyPlan valuePlan : Plan α} {row : Row} :
    (∃ e, entry r key value keyPlan valuePlan row = .error e) ↔
      (∃ e, keyPlan.instantiate r key.type (row.take 1) = .error e) ∨
        ∃ e, valuePlan.instantiate r value.type (row.drop 1) = .error e := by
  simp only [entry, bind, Except.bind]
  cases keyPlan.instantiate r key.type (row.take 1) with
  | error e => simp
  | ok k => cases valuePlan.instantiate r value.type (row.drop 1) <;> simp [pure, Except.pure]

/-- All rows give entries if each slice gives instances: the entries are their pairs. -/
theorem mapM_entry_eq_ok_iff {keyPlan valuePlan : Plan α} {rows : List Row}
    {entries : List (Object α × Object α)} :
    rows.mapM (entry r key value keyPlan valuePlan) = .ok entries ↔
      (rows.map (·.take 1)).mapM (keyPlan.instantiate r key.type)
          = .ok (entries.map Prod.fst) ∧
        (rows.map (·.drop 1)).mapM (valuePlan.instantiate r value.type)
          = .ok (entries.map Prod.snd) := by
  simp only [mapM_eq_ok_iff, List.forall₂_map_left_iff, List.forall₂_map_right_iff,
    entry_eq_ok_iff]
  simp only [List.forall₂_iff_get]
  constructor
  · rintro ⟨hlength, hall⟩
    exact ⟨⟨hlength, fun i hi hi' => (hall i hi hi').1⟩, hlength,
      fun i hi hi' => (hall i hi hi').2⟩
  · rintro ⟨⟨hlength, hkeys⟩, -, hvalues⟩
    exact ⟨hlength, fun i hi hi' => ⟨hkeys i hi hi', hvalues i hi hi'⟩⟩

section ToMap

variable {same : Object α → Object α → Bool} (hcolumns : 2 ≤ t.columns.length)
  (hrows : t.rows ≠ [])

include hcolumns hrows

/-- With two columns and a row, the map is made of the entries of all rows. -/
theorem toMap_eq : t.toMap r same key value =
    (findPlan r key (t.columns.take 1)).bind fun keyPlan =>
      (findPlan r value (t.columns.drop 1)).bind fun valuePlan =>
        (t.rows.mapM (entry r key value keyPlan valuePlan)).map fun entries =>
          entries.foldl (fun m (k, x) => putEntry same k x m) [] := by
  have hnonempty : t.rows.isEmpty = false := by simpa using hrows
  rw [toMap, if_neg (Nat.not_lt.mpr hcolumns), hnonempty]
  rfl

/-- The entries of a map are the pairs of the instances of both slices. -/
theorem toMap_eq_ok_iff {m : List (Object α × Object α)} :
    t.toMap r same key value = .ok m ↔ ∃ entries : List (Object α × Object α),
      t.keyTable.instances r key = .ok (entries.map Prod.fst) ∧
        t.valueTable.instances r value = .ok (entries.map Prod.snd) ∧
        entries.foldl (fun m (k, x) => putEntry same k x m) [] = m := by
  have hkeys : t.rows.map (·.take 1) ≠ [] := by simpa using hrows
  have hvalues : t.rows.map (·.drop 1) ≠ [] := by simpa using hrows
  rw [toMap_eq hcolumns hrows, keyTable, valueTable]
  simp only [instances_alone_eq_ok_iff hkeys, instances_alone_eq_ok_iff hvalues, bind_eq_ok_iff,
    map_eq_ok_iff, mapM_entry_eq_ok_iff]
  constructor
  · rintro ⟨keyPlan, hkey, valuePlan, hvalue, entries, ⟨hks, hxs⟩, hm⟩
    exact ⟨entries, ⟨keyPlan, hkey, hks⟩, ⟨valuePlan, hvalue, hxs⟩, hm⟩
  · rintro ⟨entries, ⟨keyPlan, hkey, hks⟩, ⟨valuePlan, hvalue, hxs⟩, hm⟩
    exact ⟨keyPlan, hkey, valuePlan, hvalue, entries, ⟨hks, hxs⟩, hm⟩

/-- There is no map if there is no plan for one of the slices, or if a row fails. -/
theorem exists_toMap_error_iff :
    (∃ e, t.toMap r same key value = .error e) ↔
      (∃ e, findPlan r key (t.columns.take 1) = .error e) ∨
      (∃ e, findPlan r value (t.columns.drop 1) = .error e) ∨
      ∃ keyPlan valuePlan, findPlan r key (t.columns.take 1) = .ok keyPlan ∧
        findPlan r value (t.columns.drop 1) = .ok valuePlan ∧
        ∃ row ∈ t.rows, (∃ e, keyPlan.instantiate r key.type (row.take 1) = .error e) ∨
          ∃ e, valuePlan.instantiate r value.type (row.drop 1) = .error e := by
  simp only [← exists_entry_error_iff]
  rw [toMap_eq hcolumns hrows]
  cases findPlan r key (t.columns.take 1) with
  | error e => simp [Except.bind]
  | ok keyPlan =>
    cases findPlan r value (t.columns.drop 1) with
    | error e => simp [Except.bind]
    | ok valuePlan =>
      -- putting the entries into the map cannot fail
      have hfails : (∃ e, (t.rows.mapM (entry r key value keyPlan valuePlan)).map
            (fun entries => entries.foldl (fun m (k, x) => putEntry same k x m) []) = .error e) ↔
          ∃ e, t.rows.mapM (entry r key value keyPlan valuePlan) = .error e := by
        cases t.rows.mapM (entry r key value keyPlan valuePlan) <;> simp [Except.map]
      simpa [Except.bind, exists_mapM_error_iff] using hfails

end ToMap

/-- **Maps.** A result with at least two columns and a row has no map if and only if no plan is
found for the first column or for the others, or the key or the value of a row cannot be built.
Else the map holds the rows: it has the keys of the first column, each once, in the order of their
first rows, and for each key the value of the last row that has it, just as both slices have them
as instances when they are results of their own. If no two rows have the same key, the map has one
entry for each row, in order. -/
theorem toMap_holdsRows {same : Object α → Object α → Bool} (hcolumns : 2 ≤ t.columns.length)
    (hrows : t.rows ≠ [])
    (hsame : ∀ keys, t.keyTable.instances r key = .ok keys → ComparedAlike same keys) :
    ((∃ e, t.toMap r same key value = .error e) ↔
      (∃ e, findPlan r key (t.columns.take 1) = .error e) ∨
      (∃ e, findPlan r value (t.columns.drop 1) = .error e) ∨
      ∃ keyPlan valuePlan, findPlan r key (t.columns.take 1) = .ok keyPlan ∧
        findPlan r value (t.columns.drop 1) = .ok valuePlan ∧
        ∃ row ∈ t.rows, (∃ e, keyPlan.instantiate r key.type (row.take 1) = .error e) ∨
          ∃ e, valuePlan.instantiate r value.type (row.drop 1) = .error e) ∧
    ∀ m, t.toMap r same key value = .ok m → ∃ keys values,
      t.keyTable.instances r key = .ok keys ∧ t.valueTable.instances r value = .ok values ∧
      keys.length = t.rows.length ∧ values.length = t.rows.length ∧
      HoldsRows same keys values m ∧
      (keys.Pairwise (fun a b => same a b = false) → m = keys.zip values) := by
  refine ⟨exists_toMap_error_iff hcolumns hrows, fun m hm => ?_⟩
  obtain ⟨entries, hkeys, hvalues, rfl⟩ := (toMap_eq_ok_iff hcolumns hrows).mp hm
  have hlength : entries.length = t.rows.length := by
    obtain ⟨plan, -, hall⟩ := (instances_alone_eq_ok_iff (by simpa using hrows)).mp hkeys
    simpa using (mapM_eq_ok_iff.mp hall).length_eq.symm
  refine ⟨_, _, hkeys, hvalues, by rw [List.length_map, hlength], by rw [List.length_map, hlength],
    holdsRows_foldl entries (hsame _ hkeys), fun hdistinct => ?_⟩
  rw [foldl_putEntry_of_distinct entries hdistinct, ← List.unzip_fst, ← List.unzip_snd,
    List.zip_unzip]

/-- A key that comes back keeps its place and takes the later value. -/
theorem toMap_holdsRows_repeatedKey :
    HoldsRows Object.sameKey
      [.integer .i64 2, .integer .i64 1, .integer .i64 2] [.string "b", .string "a", .string "c"]
      ([(.integer .i64 2, .string "c"), (.integer .i64 1, .string "a")] :
        List (Object Empty × Object Empty)) := by
  let t : ResultTable := ⟨[⟨0, "id", .integer, none⟩, ⟨1, "name", .text, none⟩],
    [[.integer 2, .text "b"], [.integer 1, .text "a"], [.integer 2, .text "c"]]⟩
  let key : Target Empty := ⟨.integer .i64, {}⟩
  let value : Target Empty := ⟨.string, {}⟩
  have hkeys : t.keyTable.instances Registry.withDefaults key
      = .ok [.integer .i64 2, .integer .i64 1, .integer .i64 2] := rfl
  have hsame : ∀ keys, t.keyTable.instances Registry.withDefaults key = .ok keys →
      ComparedAlike Object.sameKey keys := by
    intro keys h
    obtain rfl := Except.ok.inj (hkeys.symm.trans h)
    exact comparedAlike_sameKey (by simp [Object.sameKey])
  have hmap : t.toMap Registry.withDefaults Object.sameKey key value
      = .ok [(.integer .i64 2, .string "c"), (.integer .i64 1, .string "a")] := rfl
  obtain ⟨keys, values, hkeys', hvalues', -, -, hholds, -⟩ :=
    (toMap_holdsRows (by decide) (by decide) hsame).2 _ hmap
  obtain rfl := Except.ok.inj (hkeys.symm.trans hkeys')
  have hvalues : t.valueTable.instances Registry.withDefaults value
      = .ok [.string "b", .string "a", .string "c"] := rfl
  obtain rfl := Except.ok.inj (hvalues.symm.trans hvalues')
  exact hholds

end ResultTable

end RowMapping
