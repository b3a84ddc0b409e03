/-
Naturals as doubles.

A natural below the largest doubles is rounded to the nearest multiple of a power of two, the
unit of its last place, which is one as long as 53 bits suffice. What is known of the rounded
number: it lies on the same side of every power of two, and it is smaller by no more than its
part in 2 ^ 53.
-/
import Mathlib.Algebra.Order.Ring.Nat
import Mathlib.Tactic.Linarith
import Mathlib.Tactic.Ring
import RowMapping.Number.Floating

set_option autoImplicit false

namespace RowMapping.Floating

/-! ## Rounded quotients -/

section Quotients

variable {den : Nat}

theorem div_le_roundDiv (num den : Nat) : num / den ≤ roundDiv num den := by
  unfold roundDiv
  grind

theorem roundDiv_le_succ_div (num den : Nat) : roundDiv num den ≤ num / den + 1 := by
  unfold roundDiv
  grind

/-- A quotient is rounded down by one half at most. -/
theorem le_roundDiv (num : Nat) (h : 0 < den) : 2 * num ≤ (2 * roundDiv num den + 1) * den := by
  have hsplit := Nat.div_add_mod num den
  have hrest := Nat.mod_lt num h
  simp only [roundDiv]
  split
  · nlinarith
  · split
    · nlinarith
    · split <;> nlinarith

@[simp] theorem roundDiv_one (num : Nat) : roundDiv num 1 = num := by
  simp [roundDiv, Nat.mod_one]

end Quotients

/-! ## Rounded naturals -/

/-- The unit of the last of the 53 bits that a double has for a natural. -/
def lastPlace (n : Nat) : Nat := 2 ^ (n.log2 - 52)

/-- A natural rounded to 53 bits. -/
def roundNat (n : Nat) : Nat := roundDiv n (lastPlace n) * lastPlace n

section Naturals

variable {n k : Nat}

theorem lastPlace_pos (n : Nat) : 0 < lastPlace n := Nat.two_pow_pos _

theorem lastPlace_of_lt (h : n < 2 ^ 53) : lastPlace n = 1 := by
  have hlog : n.log2 ≤ 52 := by
    by_cases hn : n = 0
    · simp [hn]
    · have := (Nat.log2_lt hn).mpr h
      omega
  rw [lastPlace, Nat.sub_eq_zero_of_le hlog, pow_zero]

theorem lastPlace_mul_le (h : 2 ^ 52 ≤ n) : lastPlace n * 2 ^ 52 ≤ n := by
  have hn : n ≠ 0 := by omega
  have hlog : 52 ≤ n.log2 := (Nat.le_log2 hn).mpr h
  rw [lastPlace, ← pow_add, Nat.sub_add_cancel hlog]
  exact Nat.log2_self_le hn

/-- Naturals of 53 bits are doubles. -/
theorem roundNat_of_lt (h : n < 2 ^ 53) : roundNat n = n := by
  rw [roundNat, lastPlace_of_lt h, roundDiv_one, mul_one]

/-- Rounding does not fall below a power of two. -/
theorem two_pow_le_roundNat (h : 2 ^ k ≤ n) : 2 ^ k ≤ roundNat n := by
  have hn : n ≠ 0 := by
    rintro rfl
    exact absurd h (by simp)
  have hlog : k ≤ n.log2 := (Nat.le_log2 hn).mpr h
  obtain ⟨c, hc⟩ : lastPlace n ∣ 2 ^ n.log2 := pow_dvd_pow 2 (Nat.sub_le _ _)
  have hquotient : c ≤ n / lastPlace n := by
    rw [Nat.le_div_iff_mul_le (lastPlace_pos n), mul_comm, ← hc]
    exact Nat.log2_self_le hn
  calc 2 ^ k ≤ 2 ^ n.log2 := Nat.pow_le_pow_right (by decide) hlog
    _ = c * lastPlace n := by rw [hc, mul_comm]
    _ ≤ roundNat n := Nat.mul_le_mul_right _ (hquotient.trans (div_le_roundDiv _ _))

/-- Rounding does not rise above a power of two. -/
theorem roundNat_le_two_pow (h : n < 2 ^ k) : roundNat n ≤ 2 ^ k := by
  have hlog : n.log2 - 52 ≤ k := by
    by_cases hn : n = 0
    · simp [hn]
    · have := (Nat.log2_lt hn).mpr h
      omega
  obtain ⟨c, hc⟩ : lastPlace n ∣ 2 ^ k := pow_dvd_pow 2 hlog
  have hquotient : n / lastPlace n < c := by
    rw [Nat.div_lt_iff_lt_mul (lastPlace_pos n), mul_comm, ← hc]
    exact h
  calc roundNat n ≤ c * lastPlace n :=
        Nat.mul_le_mul_right _ ((roundDiv_le_succ_div _ _).trans hquotient)
    _ = 2 ^ k := by rw [hc, mul_comm]

/-- Rounding takes away no more than a part in 2 ^ 53. -/
theorem le_roundNat (n : Nat) : n * 2 ^ 53 ≤ roundNat n * 2 ^ 53 + n := by
  by_cases h : n < 2 ^ 53
  · rw [roundNat_of_lt h]
    exact Nat.le_add_right _ _
  · have hplace := lastPlace_mul_le (n := n) (by omega)
    have hhalf := le_roundDiv n (lastPlace_pos n)
    have hunit : 2 * n ≤ 2 * roundNat n + lastPlace n := by
      rw [roundNat]
      linarith
    linarith

end Naturals

/-! ## Doubles of naturals -/

section Doubles

variable {n : Nat}

/-- Factors of two are moved into the exponent. -/
theorem normalize_mul_two_pow (negative : Bool) (m j : Nat) (e : Int) (h : m ≠ 0) :
    normalize negative (m * 2 ^ j) e = normalize negative m (e + j) := by
  induction j generalizing e with
  | zero => simp
  | succ j ih =>
    have heven : m * 2 ^ (j + 1) = 2 * (m * 2 ^ j) := by ring
    have hpos : m * 2 ^ (j + 1) ≠ 0 := by positivity
    rw [normalize, dif_neg hpos, dif_neg (by omega), heven,
      Nat.mul_div_cancel_left _ (by decide), ih]
    congr 1
    push_cast
    ring

/-- An integer in normal form has a smaller significand and a non-negative exponent. -/
theorem exists_normalize (negative : Bool) (m j : Nat) (h : m ≠ 0) :
    ∃ (s k : Nat) (hs : NormalForm s k), normalize negative m j = .finite negative s k hs ∧
      s * 2 ^ k = m * 2 ^ j ∧ s ≤ m := by
  induction m using Nat.strongRecOn generalizing j with
  | ind m ih =>
    rw [normalize, dif_neg h]
    by_cases hodd : m % 2 = 1
    · exact ⟨m, j, .inl hodd, dif_pos hodd, rfl, le_rfl⟩
    · obtain ⟨s, k, hs, heq, hvalue, hle⟩ := ih (m / 2) (by omega) (j + 1) (by omega)
      refine ⟨s, k, hs, by rw [dif_neg hodd]; exact_mod_cast heq, ?_, by omega⟩
      have hhalf : m / 2 * 2 = m := by omega
      rw [hvalue, Nat.pow_succ', ← Nat.mul_assoc, hhalf]

theorem leadingBit_one (h : n ≠ 0) : leadingBit n 1 = n.log2 := by
  have hlow := Nat.log2_self_le h
  have hone : Nat.log2 1 = 0 := rfl
  simp [leadingBit, shiftUp, hone, hlow]

/-- The quotient by the unit of the last place, in normal form, is the double of a natural. -/
theorem round_double (negative : Bool) (h : n ≠ 0) (hlog : n.log2 < 1023) :
    round .double negative n 1
      = normalize negative (roundDiv n (lastPlace n)) ((n.log2 - 52 : Nat) : Int) := by
  have hexponent : max (leadingBit n 1 - ((FloatFormat.double.precision : Int) - 1))
      FloatFormat.double.minExponent = (n.log2 : Int) - 52 := by
    rw [leadingBit_one h]
    simp only [FloatFormat.double]
    omega
  have hfits : ¬ (FloatFormat.double.maxExponent < (n.log2 : Int) - 52) ∧
      (n.log2 : Int) - 52 ≠ FloatFormat.double.maxExponent := by
    simp only [FloatFormat.double]
    omega
  simp only [round, if_neg h, hexponent, hfits, false_and, or_self, if_false]
  rcases Nat.lt_or_ge n.log2 52 with hsmall | hbig
  · -- the digits are filled up to 53 bits, which normalization takes back
    have hplace : lastPlace n = 1 :=
      lastPlace_of_lt ((Nat.log2_lt h).mp (by omega))
    obtain ⟨j, hj⟩ : ∃ j : Nat, (n.log2 : Int) - 52 = -(j : Int) := ⟨52 - n.log2, by omega⟩
    have hunit : shiftUp 1 (-(j : Int)) = 1 := by simp [shiftUp]
    have hfilled : shiftUp n (- -(j : Int)) = n * 2 ^ j := by simp [shiftUp]
    rw [hj, hunit, hfilled, roundDiv_one, normalize_mul_two_pow _ _ _ _ h, neg_add_cancel, hplace,
      roundDiv_one, Nat.sub_eq_zero_of_le hsmall.le, Nat.cast_zero]
  · obtain ⟨j, hj⟩ : ∃ j : Nat, n.log2 = j + 52 := ⟨n.log2 - 52, by omega⟩
    have hshift : (n.log2 : Int) - 52 = j := by omega
    have hunit : shiftUp 1 (j : Int) = lastPlace n := by simp [shiftUp, lastPlace, hj]
    have hkept : shiftUp n (-(j : Int)) = n := by simp [shiftUp]
    rw [hshift, hunit, hkept, hj, Nat.add_sub_cancel]

/-- The double of a natural below 2 ^ 1023 is the rounded natural. -/
theorem exists_round_double (negative : Bool) (h : n ≠ 0) (hlog : n.log2 < 1023) :
    ∃ (s k : Nat) (hs : NormalForm s k), round .double negative n 1 = .finite negative s k hs ∧
      s * 2 ^ k = roundNat n ∧ s ≤ 2 ^ 53 := by
  have hnonzero : roundDiv n (lastPlace n) ≠ 0 := by
    intro hzero
    have hpositive : 2 ^ 0 ≤ roundNat n := two_pow_le_roundNat (Nat.one_le_iff_ne_zero.mpr h)
    simp [roundNat, hzero] at hpositive
  have hbound : roundDiv n (lastPlace n) ≤ 2 ^ 53 := by
    refine Nat.le_of_mul_le_mul_right ?_ (lastPlace_pos n)
    calc roundNat n ≤ 2 ^ (n.log2 + 1) := roundNat_le_two_pow Nat.lt_log2_self
      _ ≤ 2 ^ (53 + (n.log2 - 52)) := Nat.pow_le_pow_right (by decide) (by omega)
      _ = 2 ^ 53 * lastPlace n := pow_add ..
  obtain ⟨s, k, hs, heq, hvalue, hle⟩ :=
    exists_normalize negative (roundDiv n (lastPlace n)) (n.log2 - 52) hnonzero
  exact ⟨s, k, hs, (round_double negative h hlog).trans heq, hvalue, hle.trans hbound⟩

end Doubles

end RowMapping.Floating
