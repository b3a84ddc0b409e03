/-
The numbers of documents that are read.

A reader gives an integer or a double, and a double only if it is finite: a number too large for
one is refused. So every number of a document that was read is written again as a number, and
none as the missing value that stands for what is not finite. The proof follows the reader, from
the parts of a number to the items of arrays. Nothing is said of the numbers inside objects, which
are kept as the documents they are wherever a document is turned into a value.
-/
import RowMapping.Json.Parser

set_option autoImplicit false

namespace RowMapping

/-- A number that is an integer or a finite double. -/
def JsonNumber.IsFinite : JsonNumber → Prop
  | .integer _ => True
  | .real x => x.isFinite = true

namespace Json

/-- All numbers of a document outside of its objects satisfy a condition. -/
inductive Numbers (p : JsonNumber → Prop) : Json → Prop where
  | null : Numbers p .null
  | boolean (b : Bool) : Numbers p (.boolean b)
  | string (s : String) : Numbers p (.string s)
  | object (fields : List (String × Json)) : Numbers p (.object fields)
  | number {n : JsonNumber} (h : p n) : Numbers p (.number n)
  | array {items : List Json} (h : ∀ j ∈ items, Numbers p j) : Numbers p (.array items)

/-! ## One number -/

theorem isFinite_of_numberOfParts {negative : Bool} {whole : List Char}
    {fraction : Option (List Char)} {exponent : Option Int} {n : JsonNumber}
    (h : numberOfParts negative whole fraction exponent = some n) : n.IsFinite := by
  have hdouble {x : Floating} (hread : finiteNumber? x = some n) : n.IsFinite := by
    unfold finiteNumber? at hread
    split at hread
    · rename_i hfinite
      cases hread
      exact hfinite
    · cases hread
  simp only [numberOfParts] at h
  -- integers without a sign, integers with one, and doubles
  by_cases hplain : (fraction.isNone && exponent.isNone && !negative
      && decide (Floating.digitsValue whole ≤ maxWord)) = true
  · rw [if_pos hplain] at h
    cases h
    trivial
  · rw [if_neg hplain] at h
    split at h
    · cases h
      trivial
    · exact hdouble h

theorem isFinite_of_parseNumber {cs rest : List Char} {n : JsonNumber}
    (h : parseNumber cs = some (n, rest)) : n.IsFinite := by
  obtain ⟨negative, digits, hunsigned⟩ : ∃ negative digits,
      unsignedNumber negative digits = some (n, rest) := by
    unfold parseNumber at h
    split at h
    · exact ⟨true, _, h⟩
    · exact ⟨false, _, h⟩
  simp only [unsignedNumber] at hunsigned
  split at hunsigned
  · cases hunsigned
  · obtain ⟨⟨fraction, afterFraction⟩, -, hunsigned⟩ := Option.bind_eq_some_iff.mp hunsigned
    obtain ⟨⟨exponent, afterExponent⟩, -, hunsigned⟩ := Option.bind_eq_some_iff.mp hunsigned
    obtain ⟨m, hparts, hread⟩ := Option.bind_eq_some_iff.mp hunsigned
    cases hread
    exact isFinite_of_numberOfParts hparts

/-! ## Documents -/

theorem numbers_of_parseScalar {cs rest : List Char} {j : Json}
    (h : parseScalar cs = some (j, rest)) : j.Numbers JsonNumber.IsFinite := by
  have hword {word : List Char} {k : Json} (hk : k.Numbers JsonNumber.IsFinite)
      (hread : parseWord word k cs = some (j, rest)) : j.Numbers JsonNumber.IsFinite := by
    unfold parseWord at hread
    split at hread
    · cases hread
      exact hk
    · cases hread
  unfold parseScalar at h
  split at h
  · obtain ⟨⟨s, _⟩, -, hread⟩ := Option.map_eq_some_iff.mp h
    cases hread
    exact .string _
  · exact hword .null h
  · exact hword (.boolean true) h
  · exact hword (.boolean false) h
  · obtain ⟨⟨n, _⟩, hnumber, hread⟩ := Option.map_eq_some_iff.mp h
    cases hread
    exact .number (isFinite_of_parseNumber hnumber)

/-- Every item that is read was read by the reader of an item. -/
theorem exists_of_parseItems {β : Type} {item : List Char → Option (β × List Char)} {close : Char}
    {cs rest : List Char} {xs : List β} (h : parseItems item close cs = some (xs, rest)) :
    ∀ x ∈ xs, ∃ start after, item start = some (x, after) := by
  -- items are read only up to the closing character, or on with less text than before
  induction cs using parseItems.induct item close generalizing xs rest with
  | case1 cs hnone =>
    rw [parseItems, hnone] at h
    cases h
  | case2 cs x after hitem hskip =>
    rw [parseItems, hitem] at h
    simp only [hskip] at h
    cases h
  | case3 cs x after hitem r hskip =>
    rw [parseItems, hitem] at h
    simp only [hskip, if_true] at h
    cases h
    exact List.forall_mem_singleton.mpr ⟨cs, after, hitem⟩
  | case4 cs x after hitem c r hskip hclose hgoesOn ih =>
    rw [parseItems, hitem] at h
    simp only [hskip, if_neg hclose, if_pos hgoesOn] at h
    obtain ⟨⟨ys, _⟩, hys, hread⟩ := Option.map_eq_some_iff.mp h
    cases hread
    exact List.forall_mem_cons.mpr ⟨⟨cs, after, hitem⟩, ih hys⟩
  | case5 cs x after hitem c r hskip hclose hgoesOn =>
    rw [parseItems, hitem] at h
    simp only [hskip, if_neg hclose, if_neg hgoesOn] at h
    cases h

theorem numbers_of_parseValue {levels : Nat} {cs rest : List Char} {j : Json}
    (h : parseValue levels cs = some (j, rest)) : j.Numbers JsonNumber.IsFinite := by
  induction levels generalizing cs rest j with
  | zero =>
    unfold parseValue at h
    split at h
    · cases h
    · cases h
    · exact numbers_of_parseScalar h
  | succ levels ih =>
    unfold parseValue at h
    split at h
    · split at h
      · cases h
        exact .array nofun
      · obtain ⟨⟨items, _⟩, hitems, hread⟩ := Option.map_eq_some_iff.mp h
        cases hread
        refine .array fun k hk => ?_
        obtain ⟨start, after, hitem⟩ := exists_of_parseItems hitems k hk
        exact ih hitem
    · split at h
      · cases h
        exact .object []
      · obtain ⟨⟨fields, _⟩, -, hread⟩ := Option.map_eq_some_iff.mp h
        cases hread
        exact .object fields
    · exact numbers_of_parseScalar h

/-- Bringing the fields of objects into order leaves the numbers outside of them. -/
theorem Numbers.normalize {p : JsonNumber → Prop} {j : Json} (h : j.Numbers p) :
    j.normalize.Numbers p := by
  induction h with
  | array _ ih =>
    rw [Json.normalize, normalizeItems_eq]
    refine .array fun k hk => ?_
    obtain ⟨i, hi, rfl⟩ := List.mem_map.mp hk
    exact ih i hi
  | object fields => exact .object _
  | null => exact .null
  | boolean b => exact .boolean b
  | string s => exact .string s
  | number hn => exact .number hn

/-- The numbers of a document that is read are finite. -/
theorem numbers_of_ofText? {s : String} {j : Json} (h : ofText? s = some j) :
    j.Numbers JsonNumber.IsFinite := by
  obtain ⟨written, hverbatim, rfl⟩ := Option.map_eq_some_iff.mp h
  unfold parseVerbatim at hverbatim
  split at hverbatim
  · rename_i k rest hread
    split at hverbatim
    · cases hverbatim
      exact (numbers_of_parseValue hread).normalize
    · cases hverbatim
  · cases hverbatim

end Json

end RowMapping
