/-
Properties that are found by their paths, and what setting them changes.

A path goes down the members of a description, one step for each level: all steps but the last
have to match one nested object, and the last one has to match one property. The first level at
which this is not so decides. With several matches there it is a conflict, with none the path
leads nowhere.

What setting the property changes can only be said if it is known what each member shows of its
owner, and that no two members of an owner show the same part of it. Then an assignment changes
what the property shows and nothing else. This is carried from the owner of the property up to the
outermost object, one level at a time: putting a part back changes what the nested object shows,
and the other members of its owner are left alone.
-/
import RowMapping.Instantiation.Description

set_option autoImplicit false

namespace RowMapping

variable {α : Type}

/-! ## Matches -/

namespace Member

/-- A member of the sort that is looked for, under a name that matches. -/
def Matches (nested : Bool) (step : List Char) (m : Member α) : Prop :=
  m.isNested = nested ∧ namesMatch m.name (String.ofList step) = true

/-- The member at a place is the only one that matches. -/
def OnlyMatch (members : List (Member α)) (nested : Bool) (step : List Char) (i : Nat)
    (m : Member α) : Prop :=
  ∃ before after, members = before ++ m :: after ∧ before.length = i ∧ m.Matches nested step ∧
    (∀ k ∈ before, ¬ k.Matches nested step) ∧ ∀ k ∈ after, ¬ k.Matches nested step

/-- Two members match, and no other one before the second. -/
def FirstMatches (members : List (Member α)) (nested : Bool) (step : List Char)
    (m n : Member α) : Prop :=
  ∃ before between after, members = before ++ m :: (between ++ n :: after) ∧
    m.Matches nested step ∧ n.Matches nested step ∧
    (∀ k ∈ before, ¬ k.Matches nested step) ∧ ∀ k ∈ between, ¬ k.Matches nested step

variable {members : List (Member α)} {nested : Bool} {step : List Char} {m n : Member α} {i : Nat}

theorem OnlyMatch.getElem?_eq (h : OnlyMatch members nested step i m) : members[i]? = some m := by
  obtain ⟨before, after, rfl, rfl, -⟩ := h
  simp

theorem OnlyMatch.matches (h : OnlyMatch members nested step i m) : m.Matches nested step := by
  obtain ⟨before, after, -, -, hmatches, -⟩ := h
  exact hmatches

theorem matching_eq_nil_iff : matching members nested (String.ofList step) = [] ↔
    ∀ m ∈ members, ¬ m.Matches nested step := by
  simp [matching, Matches]

theorem matching_eq_cons_iff {rest : List (Member α)} :
    matching members nested (String.ofList step) = m :: rest ↔
      ∃ before after, members = before ++ m :: after ∧ m.Matches nested step ∧
        (∀ k ∈ before, ¬ k.Matches nested step) ∧
        matching after nested (String.ofList step) = rest := by
  simp only [matching, List.filter_eq_cons_iff, Matches, Bool.and_eq_true, beq_iff_eq]
  grind

theorem exists_onlyMatch_iff : (∃ i, OnlyMatch members nested step i m) ↔
    matching members nested (String.ofList step) = [m] := by
  simp only [matching_eq_cons_iff, matching_eq_nil_iff]
  constructor
  · rintro ⟨i, before, after, rfl, -, hmatches, hbefore, hafter⟩
    exact ⟨before, after, rfl, hmatches, hbefore, hafter⟩
  · rintro ⟨before, after, rfl, hmatches, hbefore, hafter⟩
    exact ⟨before.length, before, after, rfl, rfl, hmatches, hbefore, hafter⟩

theorem firstMatches_iff : FirstMatches members nested step m n ↔
    ∃ rest, matching members nested (String.ofList step) = m :: n :: rest := by
  simp only [matching_eq_cons_iff]
  constructor
  · rintro ⟨before, between, after, rfl, hm, hn, hbefore, hbetween⟩
    exact ⟨_, before, _, rfl, hm, hbefore, between, after, rfl, hn, hbetween, rfl⟩
  · rintro ⟨_, before, _, rfl, hm, hbefore, between, after, rfl, hn, hbetween, -⟩
    exact ⟨before, between, after, rfl, hm, hn, hbefore, hbetween⟩

/-- No member matches, exactly one does, or there are two that match first. -/
theorem none_or_only_or_first (members : List (Member α)) (nested : Bool) (step : List Char) :
    (∀ m ∈ members, ¬ m.Matches nested step) ∨ (∃ i m, OnlyMatch members nested step i m) ∨
      ∃ m n, FirstMatches members nested step m n := by
  rcases hfound : matching members nested (String.ofList step) with _ | ⟨m, _ | ⟨n, rest⟩⟩
  · exact .inl (matching_eq_nil_iff.mp hfound)
  · obtain ⟨i, honly⟩ := exists_onlyMatch_iff.mpr hfound
    exact .inr (.inl ⟨i, m, honly⟩)
  · exact .inr (.inr ⟨m, n, firstMatches_iff.mpr ⟨rest, hfound⟩⟩)

/-- A match among nested objects is a nested object. -/
theorem Matches.nested_of_true (h : m.Matches true step) :
    ∃ name access inner, m = .nested name access inner := by
  cases m with
  | property => simp [Matches, isNested] at h
  | nested name access inner => exact ⟨name, access, inner, rfl⟩

/-- A match among properties is a property. -/
theorem Matches.property_of_false (h : m.Matches false step) :
    ∃ name target assign, m = .property name target assign := by
  cases m with
  | property name target assign => exact ⟨name, target, assign, rfl⟩
  | nested => simp [Matches, isNested] at h

end Member

/-! ## Where paths lead -/

/-- The steps of a path go down from some members, through the only nested object that matches at
each step, and arrive at other members with steps left. The route tells the places of the nested
objects and how they are reached. -/
inductive Descent : List (Member α) → List (List Char) → List (Nat × Accessor α) →
    List (Member α) → List (List Char) → Prop
  | here (members : List (Member α)) (steps : List (List Char)) :
    Descent members steps [] members steps
  | inside {members inner level : List (Member α)} {step next : List Char}
    {rest left : List (List Char)} {i : Nat} {name : String} {access : Accessor α}
    {route : List (Nat × Accessor α)} :
    Member.OnlyMatch members true step i (.nested name access inner) →
    Descent inner (next :: rest) route level left →
    Descent members (step :: next :: rest) ((i, access) :: route) level left

/-- The binding of a property that is reached through several nested objects. -/
def PropertyBinding.throughAll (route : List (Nat × Accessor α)) (b : PropertyBinding α) :
    PropertyBinding α :=
  route.foldr (fun stop b => b.through stop.2) b

/-- The steps lead to the property at a place: one nested object matches at each step but the
last, and one property at the last. -/
def LeadsTo (members : List (Member α)) (steps : List (List Char)) (place : List Nat)
    (b : PropertyBinding α) : Prop :=
  ∃ route level step i name target assign, Descent members steps route level [step] ∧
    Member.OnlyMatch level false step i (.property name target assign) ∧
    place = route.map Prod.fst ++ [i] ∧ b = .throughAll route (.own target assign)

/-- At the first step that not exactly one member of the right sort matches, several do. Only the
last step is for properties. -/
def Conflicts (members : List (Member α)) (steps : List (List Char)) (c : PropertyConflict) :
    Prop :=
  ∃ route level step rest m n, Descent members steps route level (step :: rest) ∧
    Member.FirstMatches level (!rest.isEmpty) step m n ∧
    c = ⟨pathText (step :: rest), m.name, n.name⟩

/-- At the first step that not exactly one member of the right sort matches, none does. -/
def LeadsNowhere (members : List (Member α)) (steps : List (List Char)) : Prop :=
  ∃ route level step rest, Descent members steps route level (step :: rest) ∧
    ∀ m ∈ level, ¬ m.Matches (!rest.isEmpty) step

/-! ## What the look-up finds -/

section Finding

variable {members level : List (Member α)} {step : List Char} {steps left rest : List (List Char)}
  {m n : Member α} {i : Nat} {route : List (Nat × Accessor α)}

theorem findPropertyAt_of_noMatch (h : ∀ m ∈ members, ¬ m.Matches (!rest.isEmpty) step) :
    findPropertyAt members (step :: rest) = .ok none := by
  have hnone := Member.matching_eq_nil_iff.mpr h
  cases rest with
  | nil => simp_all [findPropertyAt, onlyMember, bind, Except.bind, pure, Except.pure]
  | cons next rest => simp_all [findPropertyAt, onlyMember, bind, Except.bind, pure, Except.pure]

theorem findPropertyAt_of_firstMatches (h : Member.FirstMatches members (!rest.isEmpty) step m n) :
    findPropertyAt members (step :: rest) = .error ⟨pathText (step :: rest), m.name, n.name⟩ := by
  obtain ⟨others, htwo⟩ := Member.firstMatches_iff.mp h
  cases rest with
  | nil => simp_all [findPropertyAt, onlyMember, bind, Except.bind]
  | cons next rest => simp_all [findPropertyAt, onlyMember, bind, Except.bind]

theorem findPropertyAt_of_onlyProperty {name : String} {target : TargetType}
    {assign : Object α → Object α → Object α}
    (h : Member.OnlyMatch members false step i (.property name target assign)) :
    findPropertyAt members [step] = .ok (some (.own target assign)) := by
  have hone := Member.exists_onlyMatch_iff.mp ⟨i, h⟩
  simp [findPropertyAt, hone, onlyMember, bind, Except.bind, pure, Except.pure]

theorem findPropertyAt_of_onlyNested {name : String} {access : Accessor α}
    {inner : List (Member α)} {next : List Char}
    (h : Member.OnlyMatch members true step i (.nested name access inner)) :
    findPropertyAt members (step :: next :: rest) =
      (findPropertyAt inner (next :: rest)).map (Option.map (·.through access)) := by
  have hone := Member.exists_onlyMatch_iff.mp ⟨i, h⟩
  simp only [findPropertyAt, hone, onlyMember, bind, Except.bind, pure, Except.pure]
  cases findPropertyAt inner (next :: rest) <;> rfl

/-- A descent finds what is found where it arrives, reached through its route. -/
theorem Descent.findPropertyAt_eq (h : Descent members steps route level left) :
    findPropertyAt members steps =
      (findPropertyAt level left).map (Option.map (.throughAll route)) := by
  induction h with
  | here members steps =>
    cases findPropertyAt members steps with
    | error c => rfl
    | ok found => cases found <;> rfl
  | @inside members inner level step next rest left i name access route honly _ ih =>
    rw [findPropertyAt_of_onlyNested honly, ih]
    cases findPropertyAt level left with
    | error c => rfl
    | ok found => cases found <;> rfl

theorem LeadsTo.findPropertyAt_eq {place : List Nat} {b : PropertyBinding α}
    (h : LeadsTo members steps place b) : findPropertyAt members steps = .ok (some b) := by
  obtain ⟨route, level, step, i, name, target, assign, hdescent, honly, -, rfl⟩ := h
  rw [hdescent.findPropertyAt_eq, findPropertyAt_of_onlyProperty honly]
  rfl

theorem Conflicts.findPropertyAt_eq {c : PropertyConflict} (h : Conflicts members steps c) :
    findPropertyAt members steps = .error c := by
  obtain ⟨route, level, step, rest, m, n, hdescent, hfirst, rfl⟩ := h
  rw [hdescent.findPropertyAt_eq, findPropertyAt_of_firstMatches hfirst]
  rfl

theorem LeadsNowhere.findPropertyAt_eq (h : LeadsNowhere members steps) :
    findPropertyAt members steps = .ok none := by
  obtain ⟨route, level, step, rest, hdescent, hnone⟩ := h
  rw [hdescent.findPropertyAt_eq, findPropertyAt_of_noMatch hnone]
  rfl

/-- Steps lead somewhere, conflict, or lead nowhere. -/
theorem leadsTo_or_conflicts_or_leadsNowhere (members : List (Member α)) (step : List Char)
    (rest : List (List Char)) :
    (∃ place b, LeadsTo members (step :: rest) place b) ∨
      (∃ c, Conflicts members (step :: rest) c) ∨ LeadsNowhere members (step :: rest) := by
  induction rest generalizing members step with
  | nil =>
    obtain hnone | ⟨i, m, honly⟩ | ⟨m, n, hfirst⟩ :=
      Member.none_or_only_or_first members false step
    · exact .inr (.inr ⟨[], members, step, [], .here .., hnone⟩)
    · obtain ⟨name, target, assign, rfl⟩ := honly.matches.property_of_false
      exact .inl ⟨_, _, [], members, step, i, name, target, assign, .here .., honly, rfl, rfl⟩
    · exact .inr (.inl ⟨_, [], members, step, [], m, n, .here .., hfirst, rfl⟩)
  | cons next rest ih =>
    obtain hnone | ⟨i, m, honly⟩ | ⟨m, n, hfirst⟩ :=
      Member.none_or_only_or_first members true step
    · exact .inr (.inr ⟨[], members, step, next :: rest, .here .., hnone⟩)
    · -- the way on is through the one member, and ends as it ends from there
      obtain ⟨name, access, inner, rfl⟩ := honly.matches.nested_of_true
      obtain ⟨place, b, route, level, last, j, name, target, assign, hdescent, hlast, -, -⟩ |
        ⟨c, route, level, last, left, m, n, hdescent, hfirst, -⟩ |
        ⟨route, level, last, left, hdescent, hnone⟩ := ih inner next
      · exact .inl ⟨_, _, _, level, last, j, name, target, assign, hdescent.inside honly, hlast,
          rfl, rfl⟩
      · exact .inr (.inl ⟨_, _, level, last, left, m, n, hdescent.inside honly, hfirst, rfl⟩)
      · exact .inr (.inr ⟨_, level, last, left, hdescent.inside honly, hnone⟩)
    · exact .inr (.inl ⟨_, [], members, step, next :: rest, m, n, .here .., hfirst, rfl⟩)

theorem findPropertyAt_eq_some_iff {b : PropertyBinding α} :
    findPropertyAt members (step :: rest) = .ok (some b) ↔
      ∃ place, LeadsTo members (step :: rest) place b := by
  refine ⟨fun hfound => ?_, fun ⟨_, hleads⟩ => hleads.findPropertyAt_eq⟩
  obtain ⟨place, b, h⟩ | ⟨c, h⟩ | h := leadsTo_or_conflicts_or_leadsNowhere members step rest <;>
    have hfound' := h.findPropertyAt_eq
  · obtain rfl : b = _ := by simpa [hfound] using hfound'.symm
    exact ⟨place, h⟩
  all_goals simp [hfound] at hfound'

theorem findPropertyAt_eq_error_iff {c : PropertyConflict} :
    findPropertyAt members (step :: rest) = .error c ↔ Conflicts members (step :: rest) c := by
  refine ⟨fun hfound => ?_, Conflicts.findPropertyAt_eq⟩
  obtain ⟨place, b, h⟩ | ⟨c, h⟩ | h := leadsTo_or_conflicts_or_leadsNowhere members step rest <;>
    have hfound' := h.findPropertyAt_eq
  · simp [hfound] at hfound'
  · obtain rfl : c = _ := by simpa [hfound] using hfound'.symm
    exact h
  · simp [hfound] at hfound'

theorem findPropertyAt_eq_none_iff :
    findPropertyAt members (step :: rest) = .ok none ↔ LeadsNowhere members (step :: rest) := by
  refine ⟨fun hfound => ?_, LeadsNowhere.findPropertyAt_eq⟩
  obtain ⟨place, b, h⟩ | ⟨c, h⟩ | h := leadsTo_or_conflicts_or_leadsNowhere members step rest
  · simp [h.findPropertyAt_eq] at hfound
  · simp [h.findPropertyAt_eq] at hfound
  · exact h

end Finding

/-! ## What setting a property changes -/

/-- What is known of described objects and their properties, by the places that they have among
the members: which objects fit a description, and what a property shows of the object that owns
it. -/
structure Reading (α : Type) where
  fits : List Nat → Object α → Prop
  read : List Nat → Object α → Object α

/-- The reading of a nested object, by the places among its own members. -/
def Reading.inside (r : Reading α) (i : Nat) : Reading α :=
  ⟨fun place => r.fits (i :: place), fun place => r.read (i :: place)⟩

namespace Member

/-- The members of a nested object; a property has none. -/
def inner : Member α → List (Member α)
  | property .. => []
  | nested _ _ members => members

/-- What a member shows of its owner. -/
def shown (r : Reading α) (i : Nat) : Member α → Object α → Object α
  | property .. => r.read [i]
  | nested _ access _ => access.get

/-- Objects that a member can be changed to. -/
def Takes (r : Reading α) (i : Nat) : Member α → Object α → Prop
  | property _ target _, x => x.type = target
  | nested .., x => r.fits [i] x

/-- The owner after a member is changed. -/
def update : Member α → Object α → Object α → Object α
  | property _ _ assign => assign
  | nested _ access _ => access.put

end Member

/-- The members of an owner show parts of it that are disjoint: a change of one is a change of what
it shows, and no other member shows anything of it. -/
structure Reading.Apart (r : Reading α) (members : List (Member α)) : Prop where
  fits_get {i : Nat} {name : String} {access : Accessor α} {inner : List (Member α)}
    {owner : Object α} : members[i]? = some (.nested name access inner) → r.fits [] owner →
    r.fits [i] (access.get owner)
  fits_update {i : Nat} {m : Member α} {x owner : Object α} : members[i]? = some m →
    r.fits [] owner → m.Takes r i x → r.fits [] (m.update x owner)
  shown_update {i : Nat} {m : Member α} {x owner : Object α} : members[i]? = some m →
    r.fits [] owner → m.Takes r i x → m.shown r i (m.update x owner) = x
  shown_update_of_ne {i j : Nat} {m k : Member α} {x owner : Object α} : members[i]? = some m →
    members[j]? = some k → j ≠ i → r.fits [] owner → m.Takes r i x →
    k.shown r j (m.update x owner) = k.shown r j owner

/-- The members of an owner and those of its nested objects, to any depth, show disjoint parts. -/
inductive Reading.ApartThroughout : Reading α → List (Member α) → Prop
  | intro {r : Reading α} {members : List (Member α)} : r.Apart members →
    (∀ i m, members[i]? = some m → ApartThroughout (r.inside i) m.inner) →
    ApartThroughout r members

theorem Reading.ApartThroughout.nil (r : Reading α) : r.ApartThroughout [] :=
  .intro ⟨by simp, by simp, by simp, by simp⟩ (by simp)

/-- What is shown at a place. -/
def Reading.shownAt (r : Reading α) (members : List (Member α)) :
    List Nat → Object α → Option (Object α)
  | [], owner => some owner
  | i :: place, owner =>
    match members[i]? with
    | none => none
    | some m => (r.inside i).shownAt m.inner place (m.shown r i owner)

/-- A binding sets the property at a place: an object of its type is shown there afterwards, and at
any place that neither is this one nor leads to it everything is as before. -/
def PropertyBinding.SetsOnly (b : PropertyBinding α) (r : Reading α) (members : List (Member α))
    (place : List Nat) : Prop :=
  ∀ owner x, r.fits [] owner → x.type = b.target →
    ∃ changed, b.set x owner = .ok changed ∧ r.fits [] changed ∧
      r.shownAt members place changed = some x ∧
      ∀ other, ¬ other <+: place → r.shownAt members other changed = r.shownAt members other owner

section Setting

variable {members : List (Member α)} {steps : List (List Char)} {m : Member α} {i : Nat}
  {r : Reading α} {x owner : Object α} {place : List Nat} {b : PropertyBinding α}

/-- A change of a member shows at the member. -/
theorem Reading.Apart.shownAt_update (h : r.Apart members) (hm : members[i]? = some m)
    (hfits : r.fits [] owner) (htakes : m.Takes r i x) :
    r.shownAt members (i :: place) (m.update x owner) =
      (r.inside i).shownAt m.inner place x := by
  simp only [shownAt, hm, h.shown_update hm hfits htakes]

/-- A change of a member does not show at the other ones. -/
theorem Reading.Apart.shownAt_update_of_ne {j : Nat} (h : r.Apart members)
    (hm : members[i]? = some m) (hne : j ≠ i) (hfits : r.fits [] owner)
    (htakes : m.Takes r i x) :
    r.shownAt members (j :: place) (m.update x owner) =
      r.shownAt members (j :: place) owner := by
  cases hk : members[j]? with
  | none => simp only [shownAt, hk]
  | some k => simp only [shownAt, hk, h.shown_update_of_ne hm hk hne hfits htakes]

/-- A property of the owner itself sets what it shows. -/
theorem PropertyBinding.own_setsOnly {name : String} {target : TargetType}
    {assign : Object α → Object α → Object α} (h : r.Apart members)
    (hm : members[i]? = some (.property name target assign)) :
    (PropertyBinding.own target assign).SetsOnly r members [i] := by
  intro owner x hfits htype
  have htakes : (Member.property name target assign).Takes r i x := htype
  have hexpect : x.expect target = .ok x := Object.expect_of_type htype
  refine ⟨assign x owner, ?_, h.fits_update hm hfits htakes,
    h.shownAt_update hm hfits htakes, fun other hother => ?_⟩
  · simp only [own, hexpect, Except.map]
  · cases other with
    | nil => exact absurd List.nil_prefix hother
    | cons j rest =>
      by_cases hji : j = i
      · subst hji
        cases rest with
        | nil => exact absurd (List.prefix_refl _) hother
        | cons k rest => simp [Reading.shownAt, hm, Member.inner]
      · exact h.shownAt_update_of_ne hm hji hfits htakes

/-- A property of a nested object sets what it shows of the owner, since putting the nested object
back leaves the other members alone. -/
theorem PropertyBinding.through_setsOnly {name : String} {access : Accessor α}
    {inner : List (Member α)} (h : r.Apart members)
    (hm : members[i]? = some (.nested name access inner))
    (hinner : b.SetsOnly (r.inside i) inner place) :
    (b.through access).SetsOnly r members (i :: place) := by
  intro owner x hfits htype
  obtain ⟨part, hset, hpart, hshown, hothers⟩ :=
    hinner (access.get owner) x (h.fits_get hm hfits) htype
  have htakes : (Member.nested name access inner).Takes r i part := hpart
  refine ⟨access.put part owner, ?_, h.fits_update hm hfits htakes,
    (h.shownAt_update hm hfits htakes).trans hshown, fun other hother => ?_⟩
  · simp only [through, Accessor.modify, hset, Except.map]
  · cases other with
    | nil => exact absurd List.nil_prefix hother
    | cons j rest =>
      by_cases hji : j = i
      · subst hji
        have hrest : ¬ rest <+: place := fun hprefix => hother (by simpa using hprefix)
        calc r.shownAt members (j :: rest) (access.put part owner)
            = (r.inside j).shownAt inner rest part := h.shownAt_update hm hfits htakes
          _ = (r.inside j).shownAt inner rest (access.get owner) := hothers rest hrest
          _ = r.shownAt members (j :: rest) owner := by
            simp only [Reading.shownAt, hm, Member.inner, Member.shown]
      · exact h.shownAt_update_of_ne hm hji hfits htakes

/-- What a path leads to sets the property at its place, and nothing else. -/
theorem LeadsTo.setsOnly (hleads : LeadsTo members steps place b)
    (h : r.ApartThroughout members) : b.SetsOnly r members place := by
  obtain ⟨route, level, step, j, name, target, assign, hdescent, honly, rfl, rfl⟩ := hleads
  generalize hleft : [step] = left at hdescent
  induction hdescent generalizing r with
  | here members steps =>
    obtain ⟨hapart, -⟩ := h
    exact PropertyBinding.own_setsOnly hapart honly.getElem?_eq
  | inside hnested _ ih =>
    obtain ⟨hapart, hinner⟩ := h
    exact PropertyBinding.through_setsOnly hapart hnested.getElem?_eq
      (ih (hinner _ _ hnested.getElem?_eq) honly hleft)

end Setting

/-- A path leads to a property exactly when one nested object matches at each step but the last and
one property at the last. It is a conflict exactly when several members of the right sort match at
the first step that not exactly one does; otherwise it leads nowhere. Where the members of an
object show disjoint parts of it, setting the property changes what is shown at its place, and
what is shown at all other places of the object is left as it is. -/
theorem TypeDescription.findProperty_leads (d : TypeDescription α) (path : String) :
    (∀ b, d.findProperty path = .ok (some b) ↔
      ∃ place, LeadsTo d.members (pathSteps path) place b) ∧
    (∀ c, d.findProperty path = .error c ↔ Conflicts d.members (pathSteps path) c) ∧
    (d.findProperty path = .ok none ↔ LeadsNowhere d.members (pathSteps path)) ∧
    ∀ r : Reading α, r.ApartThroughout d.members →
      ∀ place b, LeadsTo d.members (pathSteps path) place b → b.SetsOnly r d.members place := by
  obtain ⟨step, rest, hsteps⟩ := List.exists_cons_of_ne_nil
    (Text.split_ne_nil '.' path.toList)
  have hpath : pathSteps path = step :: rest := hsteps
  simp only [TypeDescription.findProperty, hpath]
  exact ⟨fun b => findPropertyAt_eq_some_iff, fun c => findPropertyAt_eq_error_iff,
    findPropertyAt_eq_none_iff, fun r hapart place b hleads => hleads.setsOnly hapart⟩

/-! ## Residents

Persons with a name and an address, as an instance of all this. -/

namespace Resident

/-- The name of a person, and the street and the city of their address. -/
abbrev Data := String × String × String

def personType : CustomType := { name := "Person" }

def addressType : CustomType := { name := "Address" }

/-- A property of type string. -/
def property (name : String) (set : String → Data → Data) : Member Data :=
  .property name .string fun x owner =>
    match x, owner with
    | .string s, .custom t data => .custom t (set s data)
    | _, _ => owner

/-- The address of a person, which knows no name. -/
def addressAccess : Accessor Data where
  get
    | .custom _ (_, street, city) => .custom addressType ("", street, city)
    | owner => owner
  put
    | .custom _ (_, street, city), .custom t (name, _, _) => .custom t (name, street, city)
    | _, owner => owner

def description : TypeDescription Data where
  members := [property "name" fun name (_, street, city) => (name, street, city),
    .nested "address" addressAccess
      [property "street" fun street (name, _, city) => (name, street, city),
        property "city" fun city (name, street, _) => (name, street, city)]]

def reading : Reading Data where
  fits
    | [], x => ∃ data, x = .custom personType data
    | [1], x => ∃ street city, x = .custom addressType ("", street, city)
    | _, _ => False
  read
    | [0], .custom _ (name, _, _) => .string name
    | [1, 0], .custom _ (_, street, _) => .string street
    | [1, 1], .custom _ (_, _, city) => .string city
    | _, owner => owner

theorem exists_of_type_string {x : Object Data} (h : x.type = .string) : ∃ s, x = .string s := by
  cases x <;> simp_all [Object.type]

theorem getElem?_pair_eq_some_iff {β : Type} {a b c : β} {i : Nat} :
    [a, b][i]? = some c ↔ i = 0 ∧ a = c ∨ i = 1 ∧ b = c := by
  rcases i with _ | _ | i <;> simp

/-- The name and the address of a person have nothing in common. -/
theorem person_apart : reading.Apart description.members where
  fits_get hm hfits := by
    obtain ⟨rfl, h⟩ | ⟨rfl, h⟩ := getElem?_pair_eq_some_iff.mp hm <;> cases h
    obtain ⟨data, rfl⟩ := hfits
    exact ⟨_, _, rfl⟩
  fits_update hm hfits htakes := by
    obtain ⟨data, rfl⟩ := hfits
    obtain ⟨rfl, rfl⟩ | ⟨rfl, rfl⟩ := getElem?_pair_eq_some_iff.mp hm
    · obtain ⟨s, rfl⟩ := exists_of_type_string htakes
      exact ⟨_, rfl⟩
    · obtain ⟨street, city, rfl⟩ := htakes
      exact ⟨_, rfl⟩
  shown_update hm hfits htakes := by
    obtain ⟨data, rfl⟩ := hfits
    obtain ⟨rfl, rfl⟩ | ⟨rfl, rfl⟩ := getElem?_pair_eq_some_iff.mp hm
    · obtain ⟨s, rfl⟩ := exists_of_type_string htakes
      rfl
    · obtain ⟨street, city, rfl⟩ := htakes
      rfl
  shown_update_of_ne hm hk hne hfits htakes := by
    obtain ⟨data, rfl⟩ := hfits
    obtain ⟨rfl, rfl⟩ | ⟨rfl, rfl⟩ := getElem?_pair_eq_some_iff.mp hm <;>
      obtain ⟨rfl, rfl⟩ | ⟨rfl, rfl⟩ := getElem?_pair_eq_some_iff.mp hk
    · exact absurd rfl hne
    · obtain ⟨s, rfl⟩ := exists_of_type_string htakes
      rfl
    · obtain ⟨street, city, rfl⟩ := htakes
      rfl
    · exact absurd rfl hne

/-- The street and the city of an address have nothing in common. -/
theorem address_apart : (reading.inside 1).Apart (Member.inner (description.members[1])) where
  fits_get hm _ := by
    obtain ⟨rfl, h⟩ | ⟨rfl, h⟩ := getElem?_pair_eq_some_iff.mp hm <;> cases h
  fits_update hm hfits htakes := by
    obtain ⟨street, city, rfl⟩ := hfits
    obtain ⟨rfl, rfl⟩ | ⟨rfl, rfl⟩ := getElem?_pair_eq_some_iff.mp hm <;>
    · obtain ⟨s, rfl⟩ := exists_of_type_string htakes
      exact ⟨_, _, rfl⟩
  shown_update hm hfits htakes := by
    obtain ⟨street, city, rfl⟩ := hfits
    obtain ⟨rfl, rfl⟩ | ⟨rfl, rfl⟩ := getElem?_pair_eq_some_iff.mp hm <;>
    · obtain ⟨s, rfl⟩ := exists_of_type_string htakes
      rfl
  shown_update_of_ne hm hk hne hfits htakes := by
    obtain ⟨street, city, rfl⟩ := hfits
    obtain ⟨rfl, rfl⟩ | ⟨rfl, rfl⟩ := getElem?_pair_eq_some_iff.mp hm <;>
      obtain ⟨rfl, rfl⟩ | ⟨rfl, rfl⟩ := getElem?_pair_eq_some_iff.mp hk <;>
      first
      | exact absurd rfl hne
      | obtain ⟨s, rfl⟩ := exists_of_type_string htakes
        rfl

theorem apartThroughout : reading.ApartThroughout description.members := by
  refine .intro person_apart fun i m hm => ?_
  obtain ⟨rfl, rfl⟩ | ⟨rfl, rfl⟩ := getElem?_pair_eq_some_iff.mp hm
  · exact .nil _
  · refine .intro address_apart fun i m hm => ?_
    obtain ⟨rfl, rfl⟩ | ⟨rfl, rfl⟩ := getElem?_pair_eq_some_iff.mp hm <;> exact .nil _

theorem leadsTo_street : ∃ assign, LeadsTo description.members (pathSteps "address.STREET") [1, 0]
    (.through addressAccess (.own .string assign)) := by
  have hsteps : pathSteps "address.STREET" = ["address".toList, "STREET".toList] := by decide
  have haddress : Member.OnlyMatch description.members true "address".toList 1
      description.members[1] :=
    ⟨[description.members[0]], [], rfl, rfl, ⟨rfl, by decide⟩,
      by simp [Member.Matches, description, property, Member.isNested], by simp⟩
  have hstreet : Member.OnlyMatch (Member.inner description.members[1]) false "STREET".toList 0
      (Member.inner description.members[1])[0] :=
    ⟨[], [_], rfl, rfl, ⟨rfl, by decide⟩, by simp, fun k hk => by
      obtain rfl := List.mem_singleton.mp hk
      exact fun hcity => absurd hcity.2 (by decide)⟩
  rw [hsteps]
  exact ⟨_, [(1, addressAccess)], _, _, 0, "street", .string, _, .inside haddress (.here _ _),
    hstreet, rfl, rfl⟩

end Resident

/-- The street of the address is found whatever the case of its name, and setting it leaves the
name of the person and the city alone. -/
theorem TypeDescription.findProperty_leads_street :
    ∃ b, Resident.description.findProperty "address.STREET" = .ok (some b) ∧
      b.SetsOnly Resident.reading Resident.description.members [1, 0] := by
  obtain ⟨assign, hleads⟩ := Resident.leadsTo_street
  obtain ⟨hfound, -, -, hsets⟩ := Resident.description.findProperty_leads "address.STREET"
  exact ⟨_, (hfound _).mpr ⟨_, hleads⟩, hsets _ Resident.apartThroughout _ _ hleads⟩

end RowMapping
