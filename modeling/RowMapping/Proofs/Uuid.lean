/-
Written identifiers are read back as they were.

The thirty-two digits of an identifier have its value, and the hyphens between the groups are
where the reader looks for them: without them the digits are left, and hyphenated again the
digits are the text. No other form of an identifier has the length or the beginning of this one.
-/
import RowMapping.Proofs.Json.ReadBack
import RowMapping.Text.Blank
import RowMapping.Uuid

set_option autoImplicit false

namespace RowMapping.Uuid

/-! ## Digits -/

@[simp] theorem length_hexDigits (count n : Nat) : (hexDigits count n).length = count := by
  induction count generalizing n with
  | zero => rfl
  | succ count ih => simp [hexDigits, ih]

/-- What is a hexadecimal digit is one of sixteen characters. -/
theorem exists_of_mem_hexDigits {count n : Nat} {c : Char} (h : c ∈ hexDigits count n) :
    ∃ d < 16, c = Json.hexDigit d := by
  induction count generalizing n with
  | zero => cases h
  | succ count ih =>
    rw [hexDigits, List.mem_append, List.mem_singleton] at h
    rcases h with h | rfl
    · exact ih h
    · exact ⟨n % 16, by omega, rfl⟩

theorem hexDigit_ne_hyphen {d : Nat} (h : d < 16) : Json.hexDigit d ≠ '-' := by
  have hall : ∀ d < 16, Json.hexDigit d ≠ '-' := by decide
  exact hall d h

theorem hexDigit_ne_u {d : Nat} (h : d < 16) : Json.hexDigit d ≠ 'u' := by
  have hall : ∀ d < 16, Json.hexDigit d ≠ 'u' := by decide
  exact hall d h

theorem isBlank_hexDigit {d : Nat} (h : d < 16) : Text.isBlank (Json.hexDigit d) = false := by
  have hall : ∀ d < 16, Text.isBlank (Json.hexDigit d) = false := by decide
  exact hall d h

/-- The digits of a number have its value, as far as they reach. -/
theorem hexValue?_hexDigits (count n : Nat) :
    hexValue? (hexDigits count n) = some (n % 16 ^ count) := by
  induction count generalizing n with
  | zero => simp [hexValue?, hexDigits, Nat.mod_one]
  | succ count ih =>
    have hlast := Json.hexValue?_hexDigit (n := n % 16) (by omega)
    have hfront := ih (n / 16)
    rw [hexValue?] at hfront
    have hvalue : 16 * (n / 16 % 16 ^ count) + n % 16 = n % 16 ^ (count + 1) := by
      rw [Nat.pow_succ', Nat.mod_mul]
      omega
    simp [hexValue?, hexDigits, List.foldlM_append, hfront, hlast, hvalue]

@[simp] theorem length_digits (u : Uuid) : u.digits.length = 32 := length_hexDigits 32 _

theorem ofDigits?_digits (u : Uuid) : ofDigits? u.digits = some u := by
  have hbits : u.bits.toNat % 16 ^ 32 = u.bits.toNat := Nat.mod_eq_of_lt u.bits.isLt
  rw [ofDigits?, if_pos u.length_digits, digits, hexValue?_hexDigits, hbits]
  simp

/-! ## Hyphens -/

/-- The groups of digits are all the digits. -/
theorem groups_append (ds : List Char) :
    ds.take 8 ++ ((ds.drop 8).take 4 ++ ((ds.drop 12).take 4 ++ ((ds.drop 16).take 4 ++ ds.drop 20)))
      = ds := by
  have hfifth := List.take_append_drop 4 (ds.drop 16)
  have hfourth := List.take_append_drop 4 (ds.drop 12)
  have hthird := List.take_append_drop 4 (ds.drop 8)
  rw [List.drop_drop] at hthird hfourth hfifth
  rw [hfifth, hfourth, hthird, List.take_append_drop]

/-- Without the hyphens, the digits are left. -/
theorem filter_hyphenate {ds : List Char} (h : ∀ c ∈ ds, c ≠ '-') :
    (hyphenate ds).filter (· != '-') = ds := by
  have hkeep : ds.filter (· != '-') = ds := List.filter_eq_self.mpr fun c hc => by simpa using h c hc
  have hgroups := congrArg (List.filter (· != '-')) (groups_append ds)
  rw [hkeep] at hgroups
  simpa [hyphenate, List.filter_append, List.filter_cons] using hgroups

theorem length_hyphenate {ds : List Char} (h : ds.length = 32) : (hyphenate ds).length = 36 := by
  simp [hyphenate, h]

theorem hyphen_notMem_digits (u : Uuid) : ∀ c ∈ u.digits, c ≠ '-' := by
  intro c hc
  obtain ⟨d, hd, rfl⟩ := exists_of_mem_hexDigits hc
  exact hexDigit_ne_hyphen hd

/-- The characters of a written identifier are hyphens and hexadecimal digits. -/
theorem eq_of_mem_hyphenate {u : Uuid} {c : Char} (h : c ∈ hyphenate u.digits) :
    c = '-' ∨ ∃ d < 16, c = Json.hexDigit d := by
  by_cases hc : c = '-'
  · exact .inl hc
  · have hmem : c ∈ (hyphenate u.digits).filter (· != '-') :=
      List.mem_filter.mpr ⟨h, by simpa using hc⟩
    rw [filter_hyphenate u.hyphen_notMem_digits] at hmem
    exact .inr (exists_of_mem_hexDigits hmem)

/-- No character of a written identifier is white space. -/
theorem isBlank_of_mem_hyphenate {u : Uuid} {c : Char} (h : c ∈ hyphenate u.digits) :
    Text.isBlank c = false := by
  rcases eq_of_mem_hyphenate h with rfl | ⟨d, hd, rfl⟩
  · decide
  · exact isBlank_hexDigit hd

/-- A written identifier is read back. -/
theorem parse_hyphenate_digits (u : Uuid) : parse (hyphenate u.digits) = some u := by
  have hlength := length_hyphenate u.length_digits
  have hlabel : urnLabel.isPrefixOf (hyphenate u.digits) = false := by
    rw [Bool.eq_false_iff]
    intro hprefix
    have hmem : 'u' ∈ hyphenate u.digits :=
      (List.isPrefixOf_iff_prefix.mp hprefix).subset (by decide)
    rcases eq_of_mem_hyphenate hmem with hu | ⟨d, hd, hu⟩
    · cases hu
    · exact hexDigit_ne_u hd hu.symm
  rw [parse, if_neg (by omega), if_neg (by omega), hlabel]
  simp only [Bool.false_eq_true, if_false, ofHyphenated?, filter_hyphenate u.hyphen_notMem_digits,
    if_true, ofDigits?_digits]

end RowMapping.Uuid
