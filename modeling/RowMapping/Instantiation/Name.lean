/-
Matching the names of columns with the names of parameters and properties.

Case and underscores do not count. Matching is equality of a normal form, so it
is an equivalence.
-/
import RowMapping.Text.Lowercase

set_option autoImplicit false

namespace RowMapping

/-- A name without underscores and in lower case. -/
def normalName (name : String) : List Char :=
  Text.lower (name.toList.filter (· != '_'))

/-- Whether two names are the same but for case and underscores. -/
def namesMatch (a b : String) : Bool := normalName a == normalName b

/-- Names match exactly when their normal forms agree. -/
theorem namesMatch_iff {a b : String} : namesMatch a b = true ↔ normalName a = normalName b := by
  simp [namesMatch]

/-- Every name matches itself. -/
theorem namesMatch_refl (a : String) : namesMatch a a = true := by simp [namesMatch]

/-- Matching goes both ways. -/
theorem namesMatch_symm {a b : String} (h : namesMatch a b = true) : namesMatch b a = true := by
  rw [namesMatch_iff] at *
  exact h.symm

/-- Matching passes on. -/
theorem namesMatch_trans {a b c : String} (hab : namesMatch a b = true)
    (hbc : namesMatch b c = true) : namesMatch a c = true := by
  rw [namesMatch_iff] at *
  exact hab.trans hbc

end RowMapping
