/-
The shortest digits of doubles between 2 ^ 63 and 2 ^ 64.

Whole numbers in this range are more than words of 64 bits with a sign hold. Their doubles are far
apart, so that the points of a decimal grid of a hundred, or of a thousand for numbers of twenty
digits, are near enough, and the shortest digits are those of a multiple of a hundred. All that is
said of this decimal is how near it is.
-/
import Mathlib.Algebra.Order.Ring.Nat
import Mathlib.Tactic.Linarith
import Mathlib.Tactic.Ring
import RowMapping.Number.Shortest

set_option autoImplicit false

namespace RowMapping

/-! ## Decimal digits -/

/-- A number of so many digits. -/
theorem Floating.decimalLength_eq {n l : Nat} (hlow : 10 ^ l ≤ n) (hhigh : n < 10 ^ (l + 1)) :
    decimalLength n = l + 1 := by
  induction l generalizing n with
  | zero =>
    rw [decimalLength, dif_neg (by omega), show n / 10 = 0 by omega, decimalLength, dif_pos rfl]
  | succ l ih =>
    rw [decimalLength, dif_neg (by rintro rfl; simp at hlow), ih]
    · rw [Nat.le_div_iff_mul_le (by decide)]
      exact (pow_succ ..).symm.le.trans hlow
    · exact Nat.div_lt_of_lt_mul (by rw [← pow_succ']; exact hhigh)

namespace Decimal

/-- Factors of ten are moved into the exponent. -/
theorem exists_normalize (digits j : Nat) (h : digits ≠ 0) :
    ∃ d k : Nat, normalize digits j = ⟨d, k⟩ ∧ d * 10 ^ k = digits * 10 ^ j ∧ j ≤ k := by
  induction digits using Nat.strongRecOn generalizing j with
  | ind digits ih =>
    rw [normalize, dif_neg h]
    by_cases hten : digits % 10 = 0
    · obtain ⟨d, k, heq, hvalue, hle⟩ := ih (digits / 10) (by omega) (j + 1) (by omega)
      have htenth : digits / 10 * 10 = digits := by omega
      refine ⟨d, k, by rw [if_pos hten]; exact_mod_cast heq, ?_, by omega⟩
      rw [hvalue, Nat.pow_succ', ← Nat.mul_assoc, htenth]
    · exact ⟨digits, j, if_neg hten, rfl, le_rfl⟩

/-! ## Grid points -/

section Grid

variable {tie : DecimalTie} {i : RoundingInterval} {exponent : Int} {d : Decimal}

/-- The point of a grid that is taken lies in the interval. -/
theorem contains_of_gridPoint (h : gridPoint tie i exponent = some d) : d.exponent = exponent ∧
    i.contains (d.digits * 10 ^ exponent.toNat) (10 ^ (-exponent).toNat) = true := by
  unfold gridPoint at h
  extract_lets up down num den below above belowIn aboveIn twice takeAbove at h
  -- the upper point is taken only if it is in the interval, and left only if the lower one is
  have htaken : takeAbove = true → aboveIn = true := by
    cases habove : aboveIn <;> simp [takeAbove, habove]
  have hleft : (belowIn || aboveIn) = true → takeAbove = false → belowIn = true := by
    cases hbelow : belowIn <;> simp [takeAbove, hbelow]
  split at h
  · rename_i hin
    cases h
    refine ⟨rfl, ?_⟩
    cases htake : takeAbove with
    | true => exact htaken htake
    | false => exact Bool.and_elim_left (hleft hin htake)
  · cases h

/-- There is a point if the one below the number is in the interval. -/
theorem isSome_gridPoint {exponent : Nat} (hwhole : i.denominator = 1)
    (hpositive : i.value / 10 ^ exponent ≠ 0)
    (h : i.contains (i.value / 10 ^ exponent * 10 ^ exponent) 1 = true) :
    (gridPoint tie i exponent).isSome = true := by
  have hup : Nat.pow 10 (exponent : Int).toNat = 10 ^ exponent := rfl
  have hdown : Nat.pow 10 (-(exponent : Int)).toNat = 1 := by simp
  simp only [gridPoint, hwhole, hup, hdown, Nat.mul_one, Nat.one_mul, h, bne_iff_ne.mpr hpositive,
    Bool.and_self, Bool.true_or, if_true, Option.isSome_some]

theorem RoundingInterval.le_of_contains (hwhole : i.denominator = 1) {n : Nat}
    (h : i.contains n 1 = true) : i.lower ≤ n ∧ n ≤ i.upper := by
  simp only [contains, hwhole, Nat.mul_one] at h
  split at h
  · simpa using h
  · have hstrict : i.lower < n ∧ n < i.upper := by simpa using h
    exact ⟨hstrict.1.le, hstrict.2.le⟩

theorem RoundingInterval.contains_of_lt (hwhole : i.denominator = 1) {n : Nat}
    (hlower : i.lower < n) (hupper : n < i.upper) : i.contains n 1 = true := by
  simp only [contains, hwhole, Nat.mul_one]
  split <;> simp [hlower, hupper, hlower.le, hupper.le]

end Grid

/-! ## Intervals of wide numbers -/

section Wide

variable {s k : Nat}

/-- A significand with all of its 53 bits. -/
theorem fullSignificand_double (hnonzero : s ≠ 0) (hbits : s < 2 ^ 53) :
    fullSignificand .double s (k : Int) =
      (s * 2 ^ (52 - s.log2), (k : Int) - (52 - s.log2 : Nat)) := by
  have hlog : s.log2 < 53 := (Nat.log2_lt hnonzero).mpr hbits
  have hshift : min (53 - (s.log2 + 1)) ((k : Int) - -1074).toNat = 52 - s.log2 := by omega
  simp only [fullSignificand, FloatFormat.double, hshift]
  rfl

/-- The interval of a double that is a multiple of eight times its last place: its ends are whole
numbers. -/
theorem exists_roundingInterval (hnonzero : s ≠ 0) (hbits : s < 2 ^ 53)
    (hwide : 2 ^ 63 ≤ s * 2 ^ k) : ∃ M j : Nat, M * 2 ^ (j + 2) = s * 2 ^ k ∧
      2 ^ 52 ≤ M ∧ M < 2 ^ 53 ∧ roundingInterval .double s (k : Int) =
        { lower := (4 * M - if M = 2 ^ 52 then 1 else 2) * 2 ^ j
          value := 4 * M * 2 ^ j
          upper := (4 * M + 2) * 2 ^ j
          denominator := 1
          closed := M % 2 = 0 } := by
  have hlog : s.log2 < 53 := (Nat.log2_lt hnonzero).mpr hbits
  obtain ⟨p, hp⟩ : ∃ p, s.log2 + p = 52 := ⟨52 - s.log2, by omega⟩
  have hplaces : 52 - s.log2 = p := by omega
  have hlow : 2 ^ 52 ≤ s * 2 ^ p := by
    rw [← hp, pow_add]
    exact Nat.mul_le_mul_right _ (Nat.log2_self_le hnonzero)
  have hhigh : s * 2 ^ p < 2 ^ 53 := by
    rw [show 53 = s.log2 + 1 + p by omega, pow_add]
    exact Nat.mul_lt_mul_of_pos_right Nat.lt_log2_self (Nat.two_pow_pos p)
  -- the exponent left after the significand is filled up is above that of 2 ^ 10
  have hexponent : p + 10 < k := by
    by_contra hle
    have hpow : 2 ^ k ≤ 2 ^ (p + 10) := Nat.pow_le_pow_right (by decide) (by omega)
    have hsmall : s * 2 ^ k ≤ s * 2 ^ p * 2 ^ 10 := by
      rw [Nat.mul_assoc, ← pow_add]
      exact Nat.mul_le_mul_left s hpow
    omega
  obtain ⟨j, rfl⟩ : ∃ j, k = p + (j + 2) := ⟨k - p - 2, by omega⟩
  refine ⟨s * 2 ^ p, j, by rw [Nat.mul_assoc, ← pow_add], hlow, hhigh, ?_⟩
  have hleft : ((p + (j + 2) : Nat) : Int) - (p : Nat) - 2 = (j : Nat) := by omega
  have hbelow : 2 - (((p + (j + 2) : Nat) : Int) - (p : Nat)) = -(j : Nat) := by omega
  have hroom : FloatFormat.double.minExponent < ((p + (j + 2) : Nat) : Int) - (p : Nat) := by
    simp only [FloatFormat.double]
    omega
  have hprecision : FloatFormat.double.precision - 1 = 52 := rfl
  simp only [roundingInterval, fullSignificand_double hnonzero hbits, hplaces, hleft, hbelow, hroom,
    and_true, hprecision, Floating.shiftUp, Int.toNat_natCast]
  simp

/-- What is known of the interval of a number between 2 ^ 63 and 2 ^ 64. -/
structure WideInterval (v : Nat) (i : RoundingInterval) : Prop where
  denominator : i.denominator = 1
  value : i.value = v
  lower : v ≤ i.lower + 1024
  upper : i.upper ≤ v + 2048
  belowHundred : i.lower + 512 ≤ v
  belowThousand : 10 ^ 19 ≤ v → i.lower + 1024 ≤ v
  above : v < i.upper

theorem wideInterval (hnonzero : s ≠ 0) (hbits : s < 2 ^ 53) (hwide : 2 ^ 63 ≤ s * 2 ^ k)
    (hword : s * 2 ^ k ≤ 2 ^ 64) :
    WideInterval (s * 2 ^ k) (roundingInterval .double s (k : Int)) := by
  obtain ⟨M, j, hvalue, hlow, hhigh, heq⟩ := exists_roundingInterval hnonzero hbits hwide
  rw [heq]
  clear heq hnonzero hbits
  generalize s * 2 ^ k = v at *
  subst hvalue
  have hleast : 9 ≤ j := by
    by_contra hlt
    have hpow : 2 ^ (j + 2) ≤ 2 ^ 10 := Nat.pow_le_pow_right (by decide) (by omega)
    have hsmall := Nat.mul_le_mul_left M hpow
    omega
  have hgreatest : j ≤ 10 := by
    by_contra hlt
    have hpow : 2 ^ 13 ≤ 2 ^ (j + 2) := Nat.pow_le_pow_right (by decide) (by omega)
    have hlarge := Nat.mul_le_mul_left M hpow
    omega
  -- doubles in this range are multiples of 2 ^ 11, and only the last one is of 2 ^ 12
  obtain rfl | ⟨rfl, rfl⟩ : j = 9 ∨ j = 10 ∧ M = 2 ^ 52 := by
    refine (show j = 9 ∨ j = 10 by omega).imp id ?_
    rintro rfl
    exact ⟨rfl, (Nat.le_of_mul_le_mul_right hword (Nat.two_pow_pos 12)).antisymm hlow⟩
  · clear hwide hword hleast hgreatest
    refine ⟨rfl, ?_, ?_, ?_, ?_, fun hthousand => ?_, ?_⟩ <;> dsimp only
    · omega
    · split <;> omega
    · omega
    · split <;> omega
    · rw [if_neg (by rintro rfl; norm_num at hthousand)]
      omega
    · omega
  · exact ⟨rfl, by norm_num, by norm_num, by norm_num, by norm_num, fun _ => by norm_num,
      by norm_num⟩

/-- In a wide interval there is a point of the grid of hundreds, or of thousands for a number of
twenty digits. -/
theorem WideInterval.isSome_gridPoint {v : Nat} {i : RoundingInterval} (h : WideInterval v i)
    {exponent : Nat} (tie : DecimalTie)
    (hexponent : exponent = 2 ∨ exponent = 3 ∧ 10 ^ 19 ≤ v) :
    (gridPoint tie i exponent).isSome = true := by
  have hsplit := Nat.div_add_mod' v (10 ^ exponent)
  have hrest : v % 10 ^ exponent < 10 ^ exponent := Nat.mod_lt v (by positivity)
  have habove := h.above
  have hhundred := h.belowHundred
  -- the grid point below the number is near enough to it
  obtain ⟨hpositive, hlower⟩ :
      v / 10 ^ exponent ≠ 0 ∧ i.lower < v / 10 ^ exponent * 10 ^ exponent := by
    rcases hexponent with rfl | ⟨rfl, hthousand⟩
    · omega
    · have hbelow := h.belowThousand hthousand
      omega
  refine Decimal.isSome_gridPoint h.denominator ?_
    (RoundingInterval.contains_of_lt h.denominator ?_ ?_)
  all_goals rw [h.value]
  · exact hpositive
  · exact hlower
  · omega

/-- A wide number has nineteen digits, or twenty. -/
theorem WideInterval.exists_leadingDigit {v : Nat} {i : RoundingInterval} (h : WideInterval v i)
    (hwide : 2 ^ 63 ≤ v) (hword : v ≤ 2 ^ 64) :
    ∃ l : Nat, leadingDigit i.value i.denominator = ((l + 16 : Nat) : Int) ∧
      (l = 2 ∨ l = 3 ∧ 10 ^ 19 ≤ v) := by
  have hdigits {l : Nat} (hlow : 10 ^ (l + 16) ≤ v) (hhigh : v < 10 ^ (l + 16 + 1)) :
      leadingDigit i.value i.denominator = ((l + 16 : Nat) : Int) := by
    rw [leadingDigit, h.denominator, h.value, if_pos (Nat.one_le_two_pow.trans hwide), Nat.div_one,
      Floating.decimalLength_eq hlow hhigh]
    omega
  rcases Nat.lt_or_ge v (10 ^ 19) with hsmall | hlarge
  · exact ⟨2, hdigits (le_trans (by norm_num) hwide) hsmall, .inl rfl⟩
  · exact ⟨3, hdigits hlarge (hword.trans_lt (by norm_num)), .inr ⟨rfl, hlarge⟩⟩

/-- On the first of the seventeen grids that has a point in a wide interval, the point is a multiple
of a hundred. -/
theorem WideInterval.exists_point {v : Nat} {i : RoundingInterval} (h : WideInterval v i)
    (hwide : 2 ^ 63 ≤ v) (hword : v ≤ 2 ^ 64) (tie : DecimalTie) :
    ∃ (d : Decimal) (e : Nat), (List.range maxDigits).findSome? (fun n : Nat =>
        gridPoint tie i (leadingDigit i.value i.denominator - n)) = some d ∧
      d.exponent = e ∧ 2 ≤ e ∧ i.lower ≤ d.digits * 10 ^ e ∧ d.digits * 10 ^ e ≤ i.upper := by
  obtain ⟨l, hleading, hl⟩ := h.exists_leadingDigit hwide hword
  cases hfirst : (List.range maxDigits).findSome? fun n : Nat =>
      gridPoint tie i (leadingDigit i.value i.denominator - n) with
  | none =>
    -- the last grid has a point
    have hnone := List.findSome?_eq_none_iff.mp hfirst 16 (by decide)
    rw [hleading, show ((l + 16 : Nat) : Int) - (16 : Nat) = l by omega] at hnone
    have hsome := h.isSome_gridPoint tie hl
    simp [hnone] at hsome
  | some d =>
    obtain ⟨n, hn, hpoint⟩ := List.exists_of_findSome?_eq_some hfirst
    obtain ⟨e, he, hle⟩ : ∃ e : Nat, leadingDigit i.value i.denominator - n = e ∧ 2 ≤ e := by
      have hcount : n < 17 := List.mem_range.mp hn
      exact ⟨l + 16 - n, by omega, by omega⟩
    rw [he] at hpoint
    obtain ⟨hexponent, hcontains⟩ := contains_of_gridPoint hpoint
    have hdown : (-(e : Int)).toNat = 0 := by omega
    rw [hdown, pow_zero, Int.toNat_natCast] at hcontains
    exact ⟨d, e, rfl, hexponent, hle, RoundingInterval.le_of_contains h.denominator hcontains⟩

/-- The shortest digits of a double between 2 ^ 63 and 2 ^ 64 are those of a multiple of a hundred
that is near the double. -/
theorem exists_shortest (tie : DecimalTie) (hnonzero : s ≠ 0) (hbits : s < 2 ^ 53)
    (hwide : 2 ^ 63 ≤ s * 2 ^ k) (hword : s * 2 ^ k ≤ 2 ^ 64) :
    ∃ d j : Nat, shortest .double tie s (k : Int) = ⟨d, j⟩ ∧ 2 ≤ j ∧
      s * 2 ^ k ≤ d * 10 ^ j + 1024 ∧ d * 10 ^ j ≤ s * 2 ^ k + 2048 := by
  have hinterval := wideInterval hnonzero hbits hwide hword
  obtain ⟨found, e, hfirst, hexponent, hle, hlower, hupper⟩ :=
    hinterval.exists_point hwide hword tie
  have hlow := hinterval.lower
  have hhigh := hinterval.upper
  have hdigits : found.digits ≠ 0 := by
    intro hzero
    rw [hzero, Nat.zero_mul] at hlower
    omega
  obtain ⟨d, j, hnormal, hvalue, hfiner⟩ := exists_normalize found.digits e hdigits
  refine ⟨d, j, ?_, hle.trans hfiner, ?_, ?_⟩
  · simp only [shortest, hfirst, hexponent, hnormal]
  all_goals
    rw [hvalue]
    omega

end Wide

end Decimal

end RowMapping
