/-
Numbers and their decimal digits.

A field of fixed width and the shortest text of a number are both digits only, and both have
the value of the number they were written for.
-/
import Mathlib.Algebra.Group.Nat.Defs
import RowMapping.Calendar.Text
import RowMapping.Number.Text

set_option autoImplicit false

namespace RowMapping

/-! ## Digits -/

/-- The digit of a number below ten. -/
theorem toNat_digit {k : Nat} (h : k < 10) : (Char.ofNat ('0'.toNat + k)).toNat = '0'.toNat + k := by
  have hall : ∀ k < 10, (Char.ofNat ('0'.toNat + k)).toNat = '0'.toNat + k := by decide
  exact hall k h

theorem isDigit_digit {k : Nat} (h : k < 10) : (Char.ofNat ('0'.toNat + k)).isDigit = true := by
  have hall : ∀ k < 10, (Char.ofNat ('0'.toNat + k)).isDigit = true := by decide
  exact hall k h

namespace Floating

@[simp] theorem digitsValue_nil : digitsValue [] = 0 := rfl

/-- A digit more at the end. -/
theorem digitsValue_concat (cs : List Char) (c : Char) :
    digitsValue (cs ++ [c]) = 10 * digitsValue cs + (c.toNat - '0'.toNat) := by
  simp [digitsValue]

/-- Zeros alone have no value. -/
theorem digitsValue_zeros (k : Nat) : digitsValue (List.replicate k '0') = 0 := by
  induction k with
  | zero => rfl
  | succ k ih => rw [List.replicate_succ', digitsValue_concat, ih]; rfl

/-- The digits of a number have its value. -/
theorem digitsValue_toDigits (n : Nat) : digitsValue (Nat.toDigits 10 n) = n :=
  Nat.ofDigitChars_ten_toDigits

end Floating

/-! ## Fields of fixed width -/

@[simp] theorem length_paddedDigits (width n : Nat) : (paddedDigits width n).length = width := by
  induction width generalizing n with
  | zero => rfl
  | succ width ih => simp [paddedDigits, ih]

theorem isDigit_of_mem_paddedDigits {width n : Nat} {c : Char} (h : c ∈ paddedDigits width n) :
    c.isDigit = true := by
  induction width generalizing n with
  | zero => simp [paddedDigits] at h
  | succ width ih =>
    rcases List.mem_append.mp h with hfront | hlast
    · exact ih hfront
    · rw [List.mem_singleton.mp hlast]
      exact isDigit_digit (Nat.mod_lt n (by decide))

/-- A field has the value of the number if it is wide enough. -/
theorem digitsValue_paddedDigits (width n : Nat) :
    Floating.digitsValue (paddedDigits width n) = n % 10 ^ width := by
  induction width generalizing n with
  | zero => simp [paddedDigits, Nat.mod_one]
  | succ width ih =>
    have hdigit : n % 10 < 10 := Nat.mod_lt n (by decide)
    rw [paddedDigits, Floating.digitsValue_concat, ih, toNat_digit hdigit, Nat.add_sub_cancel_left,
      Nat.pow_succ, Nat.mul_comm (10 ^ width), Nat.mod_mul, Nat.add_comm]

/-! ## Zeros at the end -/

/-- Dropped zeros, put back, give the digits again. -/
theorem dropTrailingZeros_append (cs : List Char) :
    ∃ k, dropTrailingZeros cs ++ List.replicate k '0' = cs := by
  refine ⟨(cs.reverse.takeWhile (· == '0')).length, ?_⟩
  have hzeros : cs.reverse.takeWhile (· == '0')
      = List.replicate (cs.reverse.takeWhile (· == '0')).length '0' :=
    List.eq_replicate_of_mem fun c hc => by
      simpa using List.all_eq_true.mp (List.all_takeWhile) c hc
  have hsplit := congrArg List.reverse
    (List.takeWhile_append_dropWhile (p := (· == '0')) (l := cs.reverse))
  rw [List.reverse_append, List.reverse_reverse, hzeros, List.reverse_replicate] at hsplit
  simpa [dropTrailingZeros] using hsplit

theorem mem_of_mem_dropTrailingZeros {c : Char} {cs : List Char} (h : c ∈ dropTrailingZeros cs) :
    c ∈ cs := by
  obtain ⟨k, hk⟩ := dropTrailingZeros_append cs
  exact hk ▸ List.mem_append_left _ h

end RowMapping
