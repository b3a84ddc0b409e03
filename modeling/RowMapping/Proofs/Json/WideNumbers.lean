/-
Doubles between 2 ^ 63 and 2 ^ 64 in documents.

An unsigned number that a word with a sign does not hold becomes a double, and the double is
written with an exponent. The reader of documents takes the digits and the power of ten apart and
rounds both, and then their product, so it need not find the double that was written. But the
digits are those of a multiple of a hundred near the double, the power of ten is a double itself,
and so what is read is a double of at least 2 ^ 63 again, which is no word either.
-/
import Mathlib.Data.Nat.Prime.Basic
import RowMapping.Proofs.Json.ReadBack
import RowMapping.Proofs.Number.Rounding
import RowMapping.Proofs.Number.ShortestDigits

set_option autoImplicit false

namespace RowMapping

/-! ## Wide doubles -/

/-- A double that is a whole number of at least 2 ^ 63. -/
def Floating.IsWide (x : Floating) : Prop := ∃ n : Int, x.toInt? = some n ∧ 2 ^ 63 ≤ n

namespace Floating

theorem toInt?_finite {s k : Nat} (hs : NormalForm s k) :
    (finite false s k hs).toInt? = some ((s * 2 ^ k : Nat) : Int) := by
  simp [toInt?, shiftUp]

/-- Naturals of up to 128 bits are far from the largest doubles. -/
theorem log2_lt_of_lt {n : Nat} (h : n < 2 ^ 128) : n.log2 < 1023 := by
  by_cases hn : n = 0
  · simp [hn]
  · have := (Nat.log2_lt hn).mpr h
    omega

/-- A natural of at least 2 ^ 63 is rounded to a wide double. -/
theorem isWide_round {n : Nat} (h : 2 ^ 63 ≤ n) (hn : n < 2 ^ 128) :
    (round .double false n 1).IsWide := by
  obtain ⟨s, k, hs, heq, hvalue, -⟩ := exists_round_double false (by omega) (log2_lt_of_lt hn)
  refine ⟨_, heq ▸ toInt?_finite hs, ?_⟩
  rw [hvalue]
  exact_mod_cast two_pow_le_roundNat h

theorem IsWide.isFinite {x : Floating} (h : x.IsWide) : x.isFinite = true := by
  obtain ⟨n, hn, -⟩ := h
  cases x with
  | finite => rfl
  | _ => cases hn

/-- The first powers of ten are doubles. -/
theorem roundNat_pow_ten {j : Nat} (h : j < 20) : roundNat (10 ^ j) = 10 ^ j := by
  have hall : ∀ j < 20, roundNat (10 ^ j) = 10 ^ j := by decide +kernel
  exact hall j h

end Floating

/-! ## Rounding twice -/

namespace Json

variable {d j : Nat}

theorem pow_ten_lt (hj : j < 20) : 10 ^ j < 2 ^ 64 :=
  (Nat.pow_le_pow_right (by decide) (Nat.le_of_lt_succ hj)).trans_lt (by norm_num)

/-- Digits times a power of ten that is a double are rounded twice. -/
theorem scaledDouble_eq (hd : d ≠ 0) (hword : d < 2 ^ 64) (hj : j < 20) :
    scaledDouble false d j = Floating.round .double false (Floating.roundNat d * 10 ^ j) 1 := by
  obtain ⟨s, k, hs, heq, hvalue, -⟩ := Floating.exists_round_double false hd
    (Floating.log2_lt_of_lt (hword.trans (by norm_num)))
  obtain ⟨s', k', hs', heq', hvalue', -⟩ :=
    Floating.exists_round_double (n := 10 ^ j) false (by positivity)
      (Floating.log2_lt_of_lt ((pow_ten_lt hj).trans (by norm_num)))
  rw [Floating.roundNat_pow_ten hj] at hvalue'
  have hproduct : Floating.shiftUp (s * s') ((k : Int) + k') = Floating.roundNat d * 10 ^ j := by
    have hexponent : ((k : Int) + k').toNat = k + k' := by omega
    rw [Floating.shiftUp, hexponent, ← hvalue, ← hvalue']
    show s * s' * 2 ^ (k + k') = _
    ring
  -- the power of two is not negative, so nothing is divided
  have hunit : Floating.shiftUp 1 (-((k : Int) + k')) = 1 := by
    have hexponent : (-((k : Int) + k')).toNat = 0 := by omega
    rw [Floating.shiftUp, hexponent]
  have hsmall : ¬ (308 : Int) < j := by omega
  have hpower : Floating.round .double false (Nat.pow 10 j) 1 = .finite false s' k' hs' := heq'
  simp only [scaledDouble, if_neg hd, if_neg hsmall, Int.natCast_nonneg, if_true, Int.toNat_natCast,
    heq, hpower, hproduct, hunit]

/-- Digits of a number far enough above 2 ^ 63 are rounded to digits of one that is not below it. -/
theorem two_pow_le_roundNat_mul (h : 2 ^ 63 + 1024 ≤ d * 10 ^ j) :
    2 ^ 63 ≤ Floating.roundNat d * 10 ^ j := by
  have hrounded := Nat.mul_le_mul_right (10 ^ j) (Floating.le_roundNat d)
  have hscaled : d * 10 ^ j * 2 ^ 53 ≤ Floating.roundNat d * 10 ^ j * 2 ^ 53 + d * 10 ^ j := by
    linarith
  generalize d * 10 ^ j = exact at *
  generalize Floating.roundNat d * 10 ^ j = rounded at *
  omega

end Json

/-! ## Texts with exponents -/

/-- Digits after a point, if there are any. -/
def afterPoint : List Char → List Char
  | [] => []
  | cs => '.' :: cs

namespace Decimal

/-- The text with an exponent: one digit, the others after a point, and the exponent. -/
theorem toList_exponentText {d j : Nat} {c : Char} {cs : List Char}
    (h : Nat.toDigits 10 d = c :: cs) :
    (exponentText ⟨d, j⟩).toList =
      c :: (afterPoint cs ++ 'e' :: '+' :: Nat.toDigits 10 (j + cs.length)) := by
  have hexponent : ((j : Int) + (((cs.length + 1 : Nat) : Int) - 1)).natAbs = j + cs.length := by
    omega
  have hsign : ¬ ((j : Int) + (((cs.length + 1 : Nat) : Int) - 1) < 0) := by omega
  simp only [exponentText, h, List.length_cons, hexponent, if_neg hsign, List.drop_succ_cons,
    List.drop_zero, List.take_succ_cons, List.take_zero]
  cases cs <;> simp [afterPoint]

end Decimal

namespace Json

/-- More digits make no smaller number. -/
theorem digitsValue_le_append (pre cs : List Char) :
    Floating.digitsValue pre ≤ Floating.digitsValue (pre ++ cs) := by
  induction cs generalizing pre with
  | nil => simp
  | cons c cs ih =>
    have hnext := ih (pre ++ [c])
    rw [Floating.digitsValue_concat, List.append_assoc, List.singleton_append] at hnext
    omega

/-- Digits are appended as long as the number fits 64 bits. -/
theorem appendDigits_eq {pre cs : List Char} (h : Floating.digitsValue (pre ++ cs) ≤ maxWord) :
    appendDigits (Floating.digitsValue pre) cs = (Floating.digitsValue (pre ++ cs), cs.length) := by
  induction cs generalizing pre with
  | nil => simp [appendDigits]
  | cons c cs ih =>
    have hassoc : pre ++ c :: cs = pre ++ [c] ++ cs := by simp
    rw [hassoc] at h ⊢
    have hnext : Floating.digitsValue (pre ++ [c]) ≤ maxWord := (digitsValue_le_append _ cs).trans h
    have hrest := ih h
    rw [Floating.digitsValue_concat] at hnext hrest
    simp only [appendDigits, if_pos hnext, hrest, List.length_cons]

theorem fractionPart_afterPoint {cs : List Char} (hdigits : ∀ x ∈ cs, x.isDigit = true)
    (rest : List Char) : fractionPart (afterPoint cs ++ 'e' :: rest)
      = some (if cs = [] then none else some cs, 'e' :: rest) := by
  cases cs with
  | nil => rfl
  | cons d cs =>
    have hstop : ∀ x ∈ ('e' :: rest).head?, x.isDigit = false := by
      rintro x ⟨⟩
      rfl
    obtain ⟨htake, hdrop⟩ := takeWhile_digits hdigits hstop
    rw [List.cons_append] at htake hdrop
    simp [afterPoint, fractionPart, htake, hdrop]

theorem exponentPart_toDigits (e : Nat) {rest : List Char} (hrest : EndsNumber rest) :
    exponentPart ('e' :: '+' :: (Nat.toDigits 10 e ++ rest)) = some (some (e : Int), rest) := by
  have htaken := takeWhile_digits
    (fun x (hx : x ∈ Nat.toDigits 10 e) => isDigit_of_mem_toDigits hx) fun x hx => (hrest x hx).1
  simp [exponentPart, htaken, Floating.digitsValue_toDigits, Nat.toDigits_ne_nil]

/-- A number with an exponent is read from its digits before and after the point and from the
exponent. -/
theorem parseNumber_exponent {c : Char} {cs : List Char} (e : Nat) {rest : List Char}
    (hdigits : ∀ x ∈ c :: cs, x.isDigit = true) (hrest : EndsNumber rest) :
    parseNumber (c :: (afterPoint cs ++ 'e' :: '+' :: (Nat.toDigits 10 e ++ rest))) =
      (numberOfParts false [c] (if cs = [] then none else some cs) (some (e : Int))).map
        fun n => (n, rest) := by
  obtain ⟨hfirst, hothers⟩ := List.forall_mem_cons.mp hdigits
  have hminus : c ≠ '-' := by
    rintro rfl
    cases hfirst
  have hfraction := fractionPart_afterPoint hothers ('+' :: (Nat.toDigits 10 e ++ rest))
  have hexponent := exponentPart_toDigits e hrest
  -- the integer part is the first digit alone, whatever comes after it
  generalize hafter : afterPoint cs ++ 'e' :: '+' :: (Nat.toDigits 10 e ++ rest) = after at *
  have hstop : ∀ x ∈ after.head?, x.isDigit = false := by
    rw [← hafter]
    cases cs <;> rintro x ⟨⟩ <;> rfl
  obtain ⟨htake, hdrop⟩ := takeWhile_digits (List.forall_mem_singleton.mpr hfirst) hstop
  rw [List.singleton_append] at htake hdrop
  have hunsigned : parseNumber (c :: after) = unsignedNumber false (c :: after) := by
    rw [parseNumber]
    rintro r hcons
    exact hminus (List.cons.inj hcons).1
  have hone : (some c == some '0' && decide (1 < [c].length)) = false := by simp
  simp only [hunsigned, unsignedNumber, htake, hdrop, List.head?_cons, hone, List.isEmpty_cons,
    Bool.or_self, Bool.false_eq_true, if_false, hfraction, hexponent, bind, Option.bind]
  cases numberOfParts false [c] (if cs = [] then none else some cs) (some (e : Int)) <;> rfl

/-- Digits before and after the point are put together, and the exponent is that of the last. -/
theorem numberOfParts_exponent {c : Char} {cs : List Char} {d j : Nat}
    (hdigits : Nat.toDigits 10 d = c :: cs) (hword : d ≤ maxWord) :
    numberOfParts false [c] (if cs = [] then none else some cs) (some ((j + cs.length : Nat) : Int))
      = finiteNumber? (scaledDouble false d j) := by
  have hvalue : Floating.digitsValue ([c] ++ cs) = d := by
    rw [List.singleton_append, ← hdigits, Floating.digitsValue_toDigits]
  have hall : appendDigits (Floating.digitsValue [c]) cs = (d, cs.length) := by
    rw [appendDigits_eq (hvalue.symm ▸ hword), hvalue]
  have hone : appendDigits 0 [c] = (Floating.digitsValue [c], 1) :=
    @appendDigits_eq [] [c] ((digitsValue_le_append [c] cs).trans (hvalue.symm ▸ hword))
  have hfraction : (if cs = [] then none else some cs : Option (List Char)).getD [] = cs := by
    split
    · next hnil => exact hnil.symm
    · rfl
  have hshift : ((1 : Nat) : Int) - (1 : Nat) - (cs.length : Nat) + ((j + cs.length : Nat) : Int)
      = j := by
    omega
  simp only [numberOfParts, hone, hfraction, hall, List.length_singleton, Option.getD_some, hshift,
    Option.isNone_some, Bool.and_false, Bool.false_and, Bool.false_eq_true, if_false]

end Json

/-! ## Wide doubles in documents -/

namespace Json

open Decimal

/-- A wide double is 2 ^ 63, or above it by a unit of its last place. -/
theorem eq_or_le_of_wide {s k : Nat} (hodd : s % 2 = 1) (hbits : s < 2 ^ 53)
    (hwide : 2 ^ 63 ≤ s * 2 ^ k) : s = 1 ∧ k = 63 ∨ 2 ^ 63 + 2048 ≤ s * 2 ^ k := by
  -- a significand has 53 bits, so that eleven zeros at least come after it
  have hexponent : 11 ≤ k := by
    by_contra hlt
    have hpow : 2 ^ k ≤ 2 ^ 10 := Nat.pow_le_pow_right (by decide) (by omega)
    have hsmall := Nat.mul_le_mul_left s hpow
    omega
  obtain ⟨k, rfl⟩ : ∃ l, k = l + 11 := ⟨k - 11, by omega⟩
  by_cases heq : s * 2 ^ (k + 11) = 2 ^ 63
  · have hone : s = 1 := by
      have hcoprime : Nat.Coprime s (2 ^ 63) :=
        Nat.Coprime.pow_right 63 (Nat.coprime_two_right.mpr (Nat.odd_iff.mpr hodd))
      exact hcoprime.eq_one_of_dvd (Dvd.intro _ heq)
    subst hone
    rw [one_mul] at heq
    exact .inl ⟨rfl, Nat.pow_right_injective le_rfl heq⟩
  · right
    -- the number is a multiple of 2048, so what comes next after the least is that far above it
    have hmultiple : s * 2 ^ (k + 11) = s * 2 ^ k * 2048 := by ring
    rw [hmultiple] at hwide heq ⊢
    generalize s * 2 ^ k = v at *
    omega

/-- The shortest digits of a wide double are still wide after they are rounded. -/
theorem exists_shortest_wide {s k : Nat} (hodd : s % 2 = 1) (hbits : s < 2 ^ 53)
    (hwide : 2 ^ 63 ≤ s * 2 ^ k) (hword : s * 2 ^ k ≤ 2 ^ 64) :
    ∃ d j : Nat, shortest .double .even s (k : Int) = ⟨d, j⟩ ∧ d ≠ 0 ∧ d < 2 ^ 64 ∧ j < 20 ∧
      10 ^ 18 ≤ d * 10 ^ j ∧ 2 ^ 63 ≤ Floating.roundNat d * 10 ^ j := by
  rcases eq_or_le_of_wide hodd hbits hwide with ⟨rfl, rfl⟩ | hnext
  · -- below a power of two the doubles are closer together, so this one is computed
    have hshortest : shortest .double .even 1 63 = ⟨9223372036854776, 3⟩ := by decide +kernel
    have hrounded : 2 ^ 63 ≤ Floating.roundNat 9223372036854776 * 10 ^ 3 := by decide +kernel
    exact ⟨_, 3, hshortest, by norm_num, by norm_num, by norm_num, by norm_num, hrounded⟩
  · obtain ⟨d, j, hshortest, hj, hlower, hupper⟩ :=
      exists_shortest .even (by omega) hbits hwide hword
    have hlarge : 2 ^ 63 + 1024 ≤ d * 10 ^ j := by omega
    have hd : d ≠ 0 := by
      rintro rfl
      omega
    refine ⟨d, j, hshortest, hd, ?_, ?_, ?_, two_pow_le_roundNat_mul hlarge⟩
    · have hhundred : d * 10 ^ 2 ≤ d * 10 ^ j :=
        Nat.mul_le_mul_left d (Nat.pow_le_pow_right (by decide) hj)
      omega
    · by_contra hge
      have hpow : 10 ^ 20 ≤ 10 ^ j := Nat.pow_le_pow_right (by decide) (by omega)
      have hle : 10 ^ j ≤ d * 10 ^ j := Nat.le_mul_of_pos_left _ (by omega)
      omega
    · exact le_trans (by norm_num) hlarge

/-- Digits of a wide number are written with an exponent. -/
theorem text_json_eq {d j : Nat} (h : 10 ^ 18 ≤ d * 10 ^ j) :
    Decimal.text .json ⟨d, j⟩ = Decimal.exponentText ⟨d, j⟩ := by
  have hlength : 16 < (Nat.toDigits 10 d).length + j := by
    by_contra hle
    have hshort : d < 10 ^ (Nat.toDigits 10 d).length :=
      (Nat.length_toDigits_le_iff (by decide) Nat.length_toDigits_pos).mp le_rfl
    have hsmall : d * 10 ^ j < 10 ^ 16 :=
      calc d * 10 ^ j < 10 ^ (Nat.toDigits 10 d).length * 10 ^ j :=
            Nat.mul_lt_mul_of_pos_right hshort (by positivity)
        _ = 10 ^ ((Nat.toDigits 10 d).length + j) := (pow_add ..).symm
        _ ≤ 10 ^ 16 := Nat.pow_le_pow_right (by decide) (by omega)
    omega
  have hpositional : ¬ ((-5 : Int) ≤ (j : Int) + (((Nat.toDigits 10 d).length : Int) - 1) ∧
      (j : Int) + (((Nat.toDigits 10 d).length : Int) - 1) ≤ 15) := by
    omega
  simp only [Decimal.text, NumberLayout.json, if_neg hpositional]

/-- The text of a wide double, from the shortest digits of it. -/
theorem numberText_finite {s k d j : Nat} {hs : NormalForm s k} {c : Char} {cs : List Char}
    (hnonzero : s ≠ 0) (hshortest : shortest .double .even s (k : Int) = ⟨d, j⟩)
    (hlength : 10 ^ 18 ≤ d * 10 ^ j) (hcons : Nat.toDigits 10 d = c :: cs) :
    numberText (.real (.finite false s k hs))
      = c :: (afterPoint cs ++ 'e' :: '+' :: Nat.toDigits 10 (j + cs.length)) := by
  have htie : NumberLayout.json.tie = .even := rfl
  rw [numberText, Floating.jsonText, Floating.finiteText, if_neg hnonzero, htie, hshortest,
    text_json_eq hlength, ← toList_exponentText hcons]
  simp

/-- A wide double is written with an exponent, and read as a wide double. -/
theorem exists_parseNumber_wide {n : Nat} (hwide : 2 ^ 63 ≤ n) (hword : n < 2 ^ 64) :
    ∃ y : Floating, y.IsWide ∧
      (∃ c cs, numberText (.real (.round .double false n 1)) = c :: cs ∧ c.isDigit = true) ∧
      ∀ rest, EndsNumber rest →
        parseNumber (numberText (.real (.round .double false n 1)) ++ rest)
          = some (.real y, rest) := by
  obtain ⟨s, k, hs, heq, hvalue, hbits⟩ := Floating.exists_round_double false
    (show n ≠ 0 by omega) (Floating.log2_lt_of_lt (hword.trans (by norm_num)))
  have hlow : 2 ^ 63 ≤ s * 2 ^ k := hvalue ▸ Floating.two_pow_le_roundNat hwide
  have hhigh : s * 2 ^ k ≤ 2 ^ 64 := hvalue ▸ Floating.roundNat_le_two_pow hword
  -- the significand is odd, since the number is not zero
  have hodd : s % 2 = 1 := by
    refine hs.resolve_right ?_
    rintro ⟨rfl, -⟩
    omega
  obtain ⟨d, j, hshortest, hd, hdigits, hj, hlength, hrounded⟩ :=
    exists_shortest_wide hodd (by omega) hlow hhigh
  obtain ⟨c, cs, hcons⟩ := List.exists_cons_of_ne_nil (Nat.toDigits_ne_nil (n := d) (b := 10))
  have hall : ∀ x ∈ c :: cs, x.isDigit = true := fun x hx => isDigit_of_mem_toDigits (hcons ▸ hx)
  have htext := @numberText_finite s k d j hs c cs (by omega) hshortest hlength hcons
  -- the digits may stand for more than a word, but for a finite number
  have hproduct : Floating.roundNat d * 10 ^ j < 2 ^ 128 :=
    calc Floating.roundNat d * 10 ^ j ≤ 2 ^ 64 * 10 ^ j :=
          Nat.mul_le_mul_right _ (Floating.roundNat_le_two_pow hdigits)
      _ < 2 ^ 64 * 2 ^ 64 := Nat.mul_lt_mul_of_pos_left (pow_ten_lt hj) (by norm_num)
      _ = 2 ^ 128 := by norm_num
  have hwideAgain := Floating.isWide_round hrounded hproduct
  refine ⟨_, hwideAgain, ⟨c, _, heq ▸ htext, hall c List.mem_cons_self⟩, fun rest hrest => ?_⟩
  have hread := parseNumber_exponent (j + cs.length) hall hrest
  rw [numberOfParts_exponent hcons (Nat.le_of_lt_succ hdigits), scaledDouble_eq hd hdigits hj,
    finiteNumber?, if_pos hwideAgain.isFinite] at hread
  rw [heq, htext, List.cons_append, List.append_assoc, List.cons_append, List.cons_append]
  exact hread

end Json

end RowMapping
