/-
Refused arguments, and what the errors tell about confidential ones.

An argument is refused at one of its elements, when an object there cannot be written as a value,
or as a whole, when the dialect refuses the value of it. Two arguments that differ inside
confidential ones only are compared when they are refused at the same place. The texts that hide
a confidential argument are of no help here, for resolving an argument looks through the hiding.

The errors that the library raises by itself name the type of the object, never the object. All
others come from the functions that an application registers and from its dialect, and are
passed on unchanged. So nothing of a confidential argument is told exactly if these functions
tell nothing, and one that names what it refuses tells it of a confidential object as well.
-/
import RowMapping.Example.Conversions
import RowMapping.Proofs.Conversion.Outcomes
import RowMapping.Proofs.Query.Confidential
import RowMapping.Proofs.Storage.TypedColumns

set_option autoImplicit false

namespace RowMapping

variable {α : Type}

/-! ## Functions that tell nothing -/

/-- The registered functions refuse all objects of their type in the same words. -/
def Registry.Discreet (r : Registry α) : Prop :=
  ∀ t write, r.findWriter? t = some write → ∀ x y e f, x.type = t → y.type = t →
    write x = .error e → write y = .error f → e.SameReport f

/-- The dialect refuses all values in the same words. -/
def Dialect.Discreet (d : Dialect α) : Prop :=
  ∀ v w e f, d.write v = .error e → d.write w = .error f → e.SameReport f

theorem Error.SameReport.refl (e : Error) : e.SameReport e := ⟨rfl, rfl⟩

/-- A dialect that takes every value tells nothing. -/
theorem Dialect.BindsPlainly.discreet {d : Dialect α} (hd : d.BindsPlainly) : d.Discreet := by
  intro v w e f hv _
  have hwritten := hd.cell v
  rw [hv] at hwritten
  cases hwritten

namespace Argument

variable {r : Registry α} {mode : EnumMode}

/-! ## Where an argument is refused -/

/-- The element at which an argument is refused: its place, given by the indices in the arrays
around it, the object that stands there, and the error. What stands in front of it in an array
has values. -/
inductive ElementRefused (r : Registry α) (mode : EnumMode) :
    Argument α → List Nat → Object α → Error → Prop
  | object {x : Object α} (description : String) {e : Error} (h : writeObject r x = .error e) :
      ElementRefused r mode (.object x description) [] x e
  | array {before : List (Argument α)} {a : Argument α} {after : List (Argument α)}
      {place : List Nat} {x : Object α} {e : Error}
      (hbefore : ∀ b ∈ before, ∃ v, b.resolve r mode = .ok v)
      (h : ElementRefused r mode a place x e) :
      ElementRefused r mode (.array (before ++ a :: after)) (before.length :: place) x e
  | confidential {inner : Argument α} {place : List Nat} {x : Object α} {e : Error}
      (h : ElementRefused r mode inner place x e) :
      ElementRefused r mode (.confidential inner) place x e

/-- Several arguments are resolved one by one. -/
theorem resolveAll_eq (r : Registry α) (mode : EnumMode) (as : List (Argument α)) :
    resolveAll r mode as = as.mapM (resolve r mode) := by
  induction as with
  | nil => rfl
  | cons a rest ih => rw [resolveAll, ih, List.mapM_cons]

theorem resolve_array_eq_error_iff {as : List (Argument α)} {e : Error} :
    (array as).resolve r mode = .error e ↔ as.mapM (resolve r mode) = .error e := by
  rw [resolve, resolveAll_eq]
  cases as.mapM (resolve r mode) <;> simp [Except.map]

theorem ElementRefused.resolve_eq {a : Argument α} {place : List Nat} {x : Object α} {e : Error}
    (h : ElementRefused r mode a place x e) : a.resolve r mode = .error e := by
  induction h with
  | object description h => exact h
  | array hbefore _ ih =>
    rw [resolve_array_eq_error_iff, mapM_eq_error_iff]
    exact ⟨_, _, _, rfl, hbefore, ih⟩
  | confidential _ ih => exact ih

/-- An argument that has no value is refused at an element. -/
theorem exists_elementRefused {a : Argument α} {e : Error} (h : a.resolve r mode = .error e) :
    ∃ place x, ElementRefused r mode a place x e := by
  match a with
  | .value v => cases h
  | .object x description => exact ⟨[], x, .object description h⟩
  | .enumeration name ordinal => cases h
  | .confidential inner =>
    obtain ⟨place, x, hinner⟩ := exists_elementRefused (a := inner) h
    exact ⟨place, x, .confidential hinner⟩
  | .array as =>
    obtain ⟨before, b, after, hsplit, hbefore, hb⟩ :=
      mapM_eq_error_iff.mp (resolve_array_eq_error_iff.mp h)
    have hsmaller : sizeOf b < 1 + sizeOf as := by
      have := List.sizeOf_lt_of_mem (hsplit ▸ List.mem_append_right before List.mem_cons_self : b ∈ as)
      omega
    obtain ⟨place, x, helement⟩ := exists_elementRefused hb
    exact ⟨before.length :: place, x, hsplit ▸ .array hbefore helement⟩

/-- In an array the place of the element begins with an index of the array. -/
theorem ElementRefused.of_array {items : List (Argument α)} {place : List Nat} {x : Object α}
    {e : Error} (h : ElementRefused r mode (.array items) place x e) :
    ∃ i rest a, place = i :: rest ∧ items[i]? = some a ∧ ElementRefused r mode a rest x e := by
  cases h with
  | array _ hitem => exact ⟨_, _, _, rfl, by simp, hitem⟩

/-- The object at the element is what has no value. -/
theorem ElementRefused.writeObject_eq {a : Argument α} {place : List Nat} {x : Object α}
    {e : Error} (h : ElementRefused r mode a place x e) : writeObject r x = .error e := by
  induction h with
  | object _ h => exact h
  | array _ _ ih => exact ih
  | confidential _ ih => exact ih

/-! ## Two runs -/

/-- A place is inside a confidential argument. -/
inductive Hides : Argument α → List Nat → Prop
  | confidential (inner : Argument α) (place : List Nat) : Hides (.confidential inner) place
  | array {items : List (Argument α)} {i : Nat} {a : Argument α} {place : List Nat}
      (hitem : items[i]? = some a) (h : Hides a place) : Hides (.array items) (i :: place)

/-- Items at the same index of two related lists are related. -/
theorem rel_of_getElem? {β γ : Type} {R : β → γ → Prop} {xs : List β} {ys : List γ}
    (h : List.Forall₂ R xs ys) {i : Nat} {x : β} {y : γ} (hx : xs[i]? = some x)
    (hy : ys[i]? = some y) : R x y := by
  induction h generalizing i with
  | nil => cases hx
  | cons hfirst _ ih =>
    cases i with
    | zero =>
      cases hx
      cases hy
      exact hfirst
    | succ i => exact ih hx hy

/-- Outside of confidential arguments the same object is refused for the same reason. -/
theorem ElementRefused.eq_of_alike {a b : Argument α} (hab : a.Alike b) {place : List Nat}
    {x y : Object α} {e f : Error} (ha : ElementRefused r mode a place x e)
    (hb : ElementRefused r mode b place y f) : a.Hides place ∨ x = y ∧ e = f := by
  induction ha generalizing b with
  | object description hx =>
    cases hab
    cases hb with
    | object _ hy => exact .inr ⟨rfl, Except.error.inj (hx.symm.trans hy)⟩
  | confidential => exact .inl (.confidential _ _)
  | @array before a after place x e _ _ ih =>
    cases hab with
    | array hitems =>
      -- the places agree, so both fail within the same item
      obtain ⟨i, rest, b, hplace, hb, hrefused⟩ := hb.of_array
      obtain ⟨rfl, rfl⟩ := List.cons.inj hplace
      have ha : (before ++ a :: after)[before.length]? = some a := by simp
      rcases ih (rel_of_getElem? hitems ha hb) hrefused with hhides | heq
      · exact .inl (.array ha hhides)
      · exact .inr heq

/-! ## On the way to the driver -/

/-- Where an argument is refused: at an element, known by its place and the type of the object
there, or as a whole. -/
inductive RefusalSite where
  | element (place : List Nat) (type : TargetType)
  | whole

variable {d : Dialect α}

/-- An argument is refused at a site: at an element for want of a value, or as a whole by the
dialect. -/
inductive RefusedAt (d : Dialect α) (r : Registry α) (mode : EnumMode) (a : Argument α) :
    RefusalSite → Error → Prop
  | element {place : List Nat} {x : Object α} {e : Error} (h : ElementRefused r mode a place x e) :
      RefusedAt d r mode a (.element place x.type) e
  | whole {v : Value} {e : Error} (hvalue : a.resolve r mode = .ok v) (h : d.write v = .error e) :
      RefusedAt d r mode a .whole e

theorem bound_eq_error_iff {a : Argument α} {e : Error} :
    a.bound d r mode = .error e ↔ ∃ site, RefusedAt d r mode a site e := by
  constructor
  · intro h
    cases hresolve : a.resolve r mode with
    | error f =>
      rw [bound, hresolve] at h
      cases h
      obtain ⟨place, x, helement⟩ := exists_elementRefused hresolve
      exact ⟨_, .element helement⟩
    | ok v =>
      rw [bound, hresolve] at h
      exact ⟨.whole, .whole hresolve h⟩
  · rintro ⟨site, h⟩
    cases h with
    | element helement =>
      rw [bound, helement.resolve_eq]
      rfl
    | whole hvalue hwrite =>
      rw [bound, hvalue]
      exact hwrite

/-- What is said of an object depends on its type only, where the registered functions are
discreet. -/
theorem sameReport_of_writeObject (hr : r.Discreet) {x y : Object α} {e f : Error}
    (htype : x.type = y.type) (hx : writeObject r x = .error e) (hy : writeObject r y = .error f) :
    e.SameReport f := by
  rw [writeObject] at hx
  rw [writeObject, ← htype] at hy
  cases hwriter : r.findWriter? x.type with
  | none =>
    rw [hwriter] at hx hy
    cases hx
    cases hy
    exact .refl _
  | some write =>
    rw [hwriter] at hx hy
    exact hr x.type write hwriter x y e f rfl htype.symm hx hy

theorem RefusedAt.sameReport (hr : r.Discreet) (hd : d.Discreet) {a b : Argument α}
    {site : RefusalSite} {e f : Error} (ha : RefusedAt d r mode a site e)
    (hb : RefusedAt d r mode b site f) : e.SameReport f := by
  cases site with
  | whole =>
    cases ha with
    | whole _ hv =>
      cases hb with
      | whole _ hw => exact hd _ _ e f hv hw
  | element place t =>
    obtain ⟨x, hx, hrefused⟩ : ∃ x, x.type = t ∧ ElementRefused r mode a place x e := by
      cases ha with
      | element h => exact ⟨_, rfl, h⟩
    obtain ⟨y, hy, hrefused'⟩ : ∃ y, y.type = t ∧ ElementRefused r mode b place y f := by
      cases hb with
      | element h => exact ⟨_, rfl, h⟩
    exact sameReport_of_writeObject hr (hx.trans hy.symm) hrefused.writeObject_eq
      hrefused'.writeObject_eq

/-- An object that has no value, hidden, is refused at the element that it is. -/
theorem refusedAt_hidden {x : Object α} {e : Error} (h : writeObject r x = .error e) :
    RefusedAt d r mode (.confidential (.object x "")) (.element [] x.type) e :=
  .element (.confidential (.object "" h))

/-- An error is raised for an argument exactly if it is refused at an element or as a whole. At
an element outside of confidential arguments, arguments that differ inside confidential ones
only are refused by the same error. That their errors are reported alike at every site that they
share is so exactly if the registered functions and the dialect are discreet. -/
theorem refusals_discreet_iff (d : Dialect α) (r : Registry α) (mode : EnumMode) :
    (∀ (a : Argument α) (e : Error),
      a.bound d r mode = .error e ↔ ∃ site, RefusedAt d r mode a site e) ∧
    (∀ (a b : Argument α) (place : List Nat) (x y : Object α) (e f : Error), a.Alike b →
      ElementRefused r mode a place x e → ElementRefused r mode b place y f →
      ¬ a.Hides place → e = f) ∧
    ((r.Discreet ∧ d.Discreet) ↔
      ∀ (a b : Argument α) (site : RefusalSite) (e f : Error), a.Alike b →
        RefusedAt d r mode a site e → RefusedAt d r mode b site f → e.SameReport f) := by
  refine ⟨fun a e => bound_eq_error_iff, ?_, ?_⟩
  · intro a b place x y e f hab ha hb hopen
    exact ((ha.eq_of_alike hab hb).resolve_left hopen).2
  · constructor
    · intro ⟨hr, hd⟩ a b site e f _ ha hb
      exact ha.sameReport hr hd hb
    · intro hall
      constructor
      · -- whatever two objects of a type are, they can stand inside confidential arguments
        rintro t write hwriter x y e f rfl htype hx hy
        have hxvalue : writeObject r x = .error e := by rw [writeObject, hwriter]; exact hx
        have hyvalue : writeObject r y = .error f := by rw [writeObject, htype, hwriter]; exact hy
        have hb : RefusedAt d r mode (.confidential (.object y "")) (.element [] x.type) f :=
          htype ▸ refusedAt_hidden hyvalue
        exact hall _ _ _ e f (.confidential _ _) (refusedAt_hidden hxvalue) hb
      · intro v w e f hv hw
        exact hall (.confidential (.value v)) (.confidential (.value w)) .whole e f
          (.confidential _ _) (.whole rfl hv) (.whole rfl hw)

end Argument

/-! ## The built-in conversions -/

/-- The built-in conversions refuse no object of their types. -/
theorem Registry.discreet_withDefaults : (withDefaults : Registry α).Discreet := by
  intro t write hwriter x y e f hx _ hrefused _
  obtain ⟨entry, hfind, rfl⟩ := Option.map_eq_some_iff.mp hwriter
  have htype : entry.1 = t := by simpa using List.find?_some hfind
  have hmem : entry ∈ [(TargetType.uuid, Conversion.writeUuid), (.url, Conversion.writeUrl)] :=
    List.mem_of_find?_eq_some hfind
  simp only [List.mem_cons, List.not_mem_nil, or_false] at hmem
  rw [← htype] at hx
  rcases hmem with rfl | rfl
  · cases x with
    | uuid u => cases hrefused
    | _ => cases hx
  · cases x with
    | url u => cases hrefused
    | _ => cases hx

namespace Argument

/-- Letters, which nothing is registered to write. -/
def letterType : CustomType := { name := "Letter" }

/-- A hidden letter between a text that is shown and a number. -/
def sealedLetter (content : String) : Argument String :=
  .array [.value (.text "to"), .confidential (.object (.custom letterType content) content),
    .value (.integer 1)]

theorem refusals_discreet_iff_sealedLetter :
    (sealedLetter "yes").Alike (sealedLetter "no") ∧
    ∃ e f, RefusedAt Dialect.sqlite Registry.withDefaults .name (sealedLetter "yes")
        (.element [1] (.custom letterType)) e ∧
      RefusedAt Dialect.sqlite Registry.withDefaults .name (sealedLetter "no")
        (.element [1] (.custom letterType)) f ∧
      e.SameReport f := by
  have halike : (sealedLetter "yes").Alike (sealedLetter "no") :=
    .array (.cons (.value _) (.cons (.confidential _ _) (.cons (.value _) .nil)))
  have hfront : ∀ b ∈ [Argument.value (.text "to")],
      ∃ v, b.resolve (Registry.withDefaults : Registry String) .name = .ok v :=
    List.forall_mem_singleton.mpr ⟨_, rfl⟩
  have hrefused (content : String) :
      RefusedAt Dialect.sqlite Registry.withDefaults .name (sealedLetter content)
        (.element [1] (.custom letterType)) (.conversion (.unregistered (.custom letterType))) :=
    .element (.array hfront (.confidential (.object _ rfl)))
  obtain ⟨-, -, hdiscreet⟩ := refusals_discreet_iff (α := String) Dialect.sqlite
    Registry.withDefaults .name
  exact ⟨halike, _, _, hrefused "yes", hrefused "no",
    hdiscreet.mp ⟨Registry.discreet_withDefaults, Dialect.bindsPlainly_sqlite.discreet⟩ _ _ _ _ _
      halike (hrefused "yes") (hrefused "no")⟩

/-- Refuses every address, and names it. -/
def namingRegistry : Registry Example.Sample :=
  Registry.withDefaults.registerWriter .url (Example.refuseUrl "t")

/-- The address of a letter box, hidden. -/
def hiddenBox (address : String) : Argument Example.Sample :=
  .confidential (.object (.url { scheme := "mailto".toList, path := .opaquePath address.toList }) address)

/-- Two hidden addresses are refused at the same element, by errors that tell them apart. -/
theorem refusals_tellAddresses :
    (hiddenBox "a@b").Alike (hiddenBox "c@d") ∧
    ∃ e f, RefusedAt Dialect.sqlite namingRegistry .name (hiddenBox "a@b") (.element [] .url) e ∧
      RefusedAt Dialect.sqlite namingRegistry .name (hiddenBox "c@d") (.element [] .url) f ∧
      e.message = "conversion failed: t refused mailto:a@b" ∧
      f.message = "conversion failed: t refused mailto:c@d" ∧ ¬ e.SameReport f := by
  have hrefused (address : String) : RefusedAt Dialect.sqlite namingRegistry .name (hiddenBox address)
      (.element [] .url) (Error.conversionText ("t refused " ++ Url.text
        { scheme := "mailto".toList, path := .opaquePath address.toList })) :=
    .element (.confidential (.object _ rfl))
  refine ⟨.confidential _ _, _, _, hrefused "a@b", hrefused "c@d", by decide, by decide, ?_⟩
  intro hreport
  exact absurd hreport.2 (by decide)

end Argument

end RowMapping
