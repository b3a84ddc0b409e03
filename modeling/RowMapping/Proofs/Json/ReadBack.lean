/-
Written documents are read back as they were.

The documents are those of missing values, booleans, integers of up to 64 bits, strings, and
arrays of them; objects and floating-point numbers are left out. Each part of the reader is
shown to take exactly the text that was written and to leave what follows. Only a number needs
to know what follows: no digit, and nothing that starts a fraction or an exponent. The proof for
whole documents goes by the nesting that is left, which is what the reader descends on.
-/
import Mathlib.Data.List.Forall2
import RowMapping.Json.Parser
import RowMapping.Json.Printer
import RowMapping.Proofs.Number.Digits

set_option autoImplicit false

namespace RowMapping.Json

/-! ## Strings -/

theorem hexValue?_hexDigit {n : Nat} (h : n < 16) : hexValue? (hexDigit n) = some n := by
  have hall : ∀ n < 16, hexValue? (hexDigit n) = some n := by decide
  exact hall n h

/-- Two hexadecimal digits after two zeros. -/
theorem hexUnit?_hexDigits {n : Nat} (h : n < 0x20) :
    hexUnit? '0' '0' (hexDigit (n / 16)) (hexDigit (n % 16)) = some n := by
  have hzero : hexValue? '0' = some 0 := by decide
  have hhigh := hexValue?_hexDigit (n := n / 16) (by omega)
  have hlow := hexValue?_hexDigit (n := n % 16) (by omega)
  have hvalue : n / 16 * 16 + n % 16 = n := by omega
  simp [hexUnit?, hzero, hhigh, hlow, hvalue]

/-- An escaped character is read as the character. -/
theorem stringBody_escapeChar (c : Char) (rest : List Char) :
    stringBody (escapeChar c ++ rest) = (stringBody rest).map (prepend c) := by
  -- the characters with escapes of their own, the other controls, and what needs no escape
  unfold escapeChar
  split
  · subst_vars; rfl
  split
  · subst_vars; rfl
  split
  · subst_vars; rfl
  split
  · subst_vars; rfl
  split
  · subst_vars; rfl
  split
  · subst_vars; rfl
  split
  · subst_vars; rfl
  split
  · rename_i hcontrol
    have hunit := hexUnit?_hexDigits hcontrol
    have hleading : isLeadingSurrogate c.toNat = false := by
      simp only [isLeadingSurrogate, Bool.and_eq_false_iff, decide_eq_false_iff_not]
      omega
    have htrailing : isTrailingSurrogate c.toNat = false := by
      simp only [isTrailingSurrogate, Bool.and_eq_false_iff, decide_eq_false_iff_not]
      omega
    simp [stringBody, hunit, hleading, htrailing]
  · rename_i hquote hbackslash _ _ _ _ _ hcontrol
    have hplain : stringBody (c :: rest) =
        if c.toNat < 0x20 then none else (stringBody rest).map (prepend c) := by
      rw [stringBody.eq_def]
      split <;> simp_all
    rw [List.singleton_append, hplain, if_neg hcontrol]

/-- A quoted string is read to its closing mark. -/
theorem stringBody_flatMap (cs rest : List Char) :
    stringBody (cs.flatMap escapeChar ++ '"' :: rest) = some (cs, rest) := by
  induction cs with
  | nil => rfl
  | cons c cs ih =>
    rw [List.flatMap_cons, List.append_assoc, stringBody_escapeChar, ih]
    rfl

/-! ## Numbers -/

/-- Text that does not go on with a number. -/
def EndsNumber (rest : List Char) : Prop :=
  ∀ c ∈ rest.head?, c.isDigit = false ∧ c ≠ '.' ∧ c ≠ 'e' ∧ c ≠ 'E'

/-- Digits are taken up to what is no digit. -/
theorem takeWhile_digits {cs rest : List Char} (hdigits : ∀ c ∈ cs, c.isDigit = true)
    (hrest : ∀ c ∈ rest.head?, c.isDigit = false) :
    (cs ++ rest).takeWhile Char.isDigit = cs ∧ (cs ++ rest).dropWhile Char.isDigit = rest := by
  have htail : rest.takeWhile Char.isDigit = [] ∧ rest.dropWhile Char.isDigit = rest := by
    cases rest with
    | nil => exact ⟨rfl, rfl⟩
    | cons c rest => simp [hrest c rfl]
  rw [List.takeWhile_append_of_pos hdigits, List.dropWhile_append_of_pos hdigits, htail.1, htail.2,
    List.append_nil]
  exact ⟨rfl, rfl⟩

theorem fractionPart_of_ends {rest : List Char} (h : EndsNumber rest) :
    fractionPart rest = some (none, rest) := by
  cases rest with
  | nil => rfl
  | cons c rest =>
    have hc := (h c rfl).2.1
    unfold fractionPart
    split
    · simp_all
    · rfl

theorem exponentPart_of_ends {rest : List Char} (h : EndsNumber rest) :
    exponentPart rest = some (none, rest) := by
  cases rest with
  | nil => rfl
  | cons c rest =>
    obtain ⟨-, -, hlower, hupper⟩ := h c rfl
    simp [exponentPart, hlower, hupper]

theorem isDigit_of_mem_toDigits {n : Nat} {c : Char} (h : c ∈ Nat.toDigits 10 n) :
    c.isDigit = true :=
  Nat.isDigit_of_mem_toDigits (by decide) (by decide) h

/-- The digits of a number do not start with a zero, unless it is the only one. -/
theorem head?_toDigits {n : Nat} (h : n ≠ 0) : (Nat.toDigits 10 n).head? ≠ some '0' := by
  induction n using Nat.strongRecOn with
  | ind n ih =>
    by_cases hn : n < 10
    · have hall : ∀ n < 10, n ≠ 0 → [n.digitChar].head? ≠ some '0' := by decide
      rw [Nat.toDigits_of_lt_base hn]
      exact hall n hn h
    · rw [Nat.toDigits_of_base_le (by decide) (by omega), List.head?_append,
        List.head?_eq_some_head Nat.toDigits_ne_nil, Option.some_or,
        ← List.head?_eq_some_head Nat.toDigits_ne_nil]
      exact ih (n / 10) (by omega) (by omega)

/-- The digits of a number are read as it, with the sign that was read before them. -/
theorem unsignedNumber_toDigits {n : Nat} {negative : Bool} {i : Int}
    (h : numberOfParts negative (Nat.toDigits 10 n) none none = some (.integer i))
    {rest : List Char} (hrest : EndsNumber rest) :
    unsignedNumber negative (Nat.toDigits 10 n ++ rest) = some (.integer i, rest) := by
  have htaken := takeWhile_digits (fun c (hc : c ∈ Nat.toDigits 10 n) => isDigit_of_mem_toDigits hc)
    fun c hc => (hrest c hc).1
  have hleading : ((Nat.toDigits 10 n).head? == some '0' && 1 < (Nat.toDigits 10 n).length)
      = false := by
    by_cases hn : n = 0
    · subst hn
      rfl
    · simp [head?_toDigits hn]
  have hempty : (Nat.toDigits 10 n).isEmpty = false := by simp [Nat.toDigits_ne_nil]
  simp only [unsignedNumber, htaken, hleading, hempty, Bool.or_self, Bool.false_eq_true, if_false]
  simp [fractionPart_of_ends hrest, exponentPart_of_ends hrest, h]

/-- The integers that are written and read as integers. -/
def IsWord (i : Int) : Prop := -0x8000000000000000 ≤ i ∧ i ≤ 0xffffffffffffffff

theorem numberText_ofNat (n : Nat) : numberText (.integer (n : Int)) = Nat.toDigits 10 n := by
  change (String.ofList (Nat.toDigits 10 n)).toList = Nat.toDigits 10 n
  rw [String.toList_ofList]

theorem numberText_negSucc (n : Nat) :
    numberText (.integer (Int.negSucc n)) = '-' :: Nat.toDigits 10 (n + 1) := by
  change ("-" ++ String.ofList (Nat.toDigits 10 (n + 1))).toList = _
  rw [String.toList_append, String.toList_ofList, String.toList_ofList]
  rfl

/-- The digits of a number start with a digit. -/
theorem exists_cons_toDigits (n : Nat) :
    ∃ c cs, Nat.toDigits 10 n = c :: cs ∧ c.isDigit = true := by
  obtain ⟨c, cs, hcons⟩ := List.exists_cons_of_ne_nil (Nat.toDigits_ne_nil (n := n) (b := 10))
  exact ⟨c, cs, hcons, isDigit_of_mem_toDigits (hcons ▸ List.mem_cons_self)⟩

/-- The text of an integer starts with a digit or a minus sign. -/
theorem exists_cons_numberText (i : Int) :
    ∃ c cs, numberText (.integer i) = c :: cs ∧ (c.isDigit = true ∨ c = '-') := by
  cases i with
  | ofNat n =>
    obtain ⟨c, cs, hcons, hdigit⟩ := exists_cons_toDigits n
    exact ⟨c, cs, (numberText_ofNat n).trans hcons, .inl hdigit⟩
  | negSucc n => exact ⟨'-', _, numberText_negSucc n, .inr rfl⟩

/-- An integer is read back, whatever follows it that is no number. -/
theorem parseNumber_numberText {i : Int} (hword : IsWord i) {rest : List Char}
    (hrest : EndsNumber rest) :
    parseNumber (numberText (.integer i) ++ rest) = some (.integer i, rest) := by
  obtain ⟨hleast, hgreatest⟩ := hword
  have hvalue (n : Nat) := Floating.digitsValue_toDigits n
  cases i with
  | ofNat n =>
    have hle : n ≤ maxWord := Int.ofNat_le.mp hgreatest
    have hparts : numberOfParts false (Nat.toDigits 10 n) none none = some (.integer n) := by
      simp [numberOfParts, hvalue, hle]
    have hread := unsignedNumber_toDigits hparts hrest
    -- it begins with a digit, so that no sign is taken off
    obtain ⟨c, cs, hcons, hdigit⟩ := exists_cons_toDigits n
    rw [Int.ofNat_eq_natCast, numberText_ofNat, hcons, List.cons_append]
    rw [hcons, List.cons_append] at hread
    rw [parseNumber, hread]
    rintro r hminus
    obtain rfl := (List.cons.inj hminus).1
    cases hdigit
  | negSucc n =>
    have hle : n + 1 ≤ 0x8000000000000000 := by omega
    have hparts : numberOfParts true (Nat.toDigits 10 (n + 1)) none none
        = some (.integer (Int.negSucc n)) := by
      simp [numberOfParts, hvalue, hle, Int.negSucc_eq]
    rw [numberText_negSucc]
    exact unsignedNumber_toDigits hparts hrest

/-! ## Documents -/

/-- Documents without objects and floating-point numbers that nest at most so many levels deep. -/
inductive Plain : Nat → Json → Prop where
  | null (levels : Nat) : Plain levels .null
  | boolean (levels : Nat) (b : Bool) : Plain levels (.boolean b)
  | integer (levels : Nat) {i : Int} (h : IsWord i) : Plain levels (.number (.integer i))
  | string (levels : Nat) (s : String) : Plain levels (.string s)
  | array {levels : Nat} {items : List Json} (h : ∀ j ∈ items, Plain levels j) :
      Plain (levels + 1) (.array items)

/-- The characters that a document other than an array can start with. -/
def StartsScalar (c : Char) : Prop :=
  c = 'n' ∨ c = 't' ∨ c = 'f' ∨ c = '"' ∨ c = '-' ∨ c.isDigit = true

instance (c : Char) : Decidable (StartsScalar c) := inferInstanceAs (Decidable (_ ∨ _))

theorem startsScalar_of_number {c : Char} (h : c.isDigit = true ∨ c = '-') : StartsScalar c := by
  rcases h with hdigit | rfl
  · simp [StartsScalar, hdigit]
  · decide

theorem StartsScalar.ne {c d : Char} (h : StartsScalar c) (hd : ¬ StartsScalar d) : c ≠ d := by
  rintro rfl
  exact hd h

theorem isBlank_of_startsScalar {c : Char} (h : StartsScalar c) : isBlank c = false := by
  have hspace : c ≠ ' ' := h.ne (by decide)
  have htab : c ≠ '\t' := h.ne (by decide)
  have hline : c ≠ '\n' := h.ne (by decide)
  have hreturn : c ≠ '\r' := h.ne (by decide)
  simp [isBlank, hspace, htab, hline, hreturn]

theorem skipBlanks_cons {c : Char} (h : isBlank c = false) (cs : List Char) :
    skipBlanks (c :: cs) = c :: cs := by
  simp [skipBlanks, h]

theorem parseValue_scalar {c : Char} (h : StartsScalar c) (levels : Nat) (cs : List Char) :
    parseValue levels (c :: cs) = parseScalar (c :: cs) := by
  have hskip := skipBlanks_cons (isBlank_of_startsScalar h) cs
  have hbracket : c ≠ '[' := h.ne (by decide)
  have hbrace : c ≠ '\x7b' := h.ne (by decide)
  cases levels <;> simp [parseValue, hskip, hbracket, hbrace]

theorem parseScalar_number {c : Char} (h : c.isDigit = true ∨ c = '-') (cs : List Char) :
    parseScalar (c :: cs) = (parseNumber (c :: cs)).map fun (n, rest) => (.number n, rest) := by
  have hne (d : Char) (hd : ¬ (d.isDigit = true ∨ d = '-')) : c ≠ d := by
    rintro rfl
    exact hd h
  have hquote := hne '"' (by decide)
  have hnull := hne 'n' (by decide)
  have htrue := hne 't' (by decide)
  have hfalse := hne 'f' (by decide)
  simp [parseScalar, hquote, hnull, htrue, hfalse]

/-- What is known of the items of an array: each is read as another document, whatever follows it in
the array. -/
theorem parseItems_writeItems {levels : Nat} {items results : List Json} (hne : items ≠ [])
    (hitems : List.Forall₂ (fun j k => ∀ rest, EndsNumber rest →
      parseValue levels (write j ++ rest) = some (k, rest)) items results) (rest : List Char) :
    parseItems (parseValue levels) ']' (writeItems items ++ ']' :: rest)
      = some (results, rest) := by
  have hclose : EndsNumber (']' :: rest) := by
    rintro c ⟨⟩
    decide
  have hcomma (cs : List Char) : EndsNumber (',' :: cs) := by
    rintro c ⟨⟩
    decide
  induction hitems with
  | nil => exact absurd rfl hne
  | @cons j k items results hfirst hitems ih =>
    -- the last item is followed by the bracket, each of the others by a comma
    cases hitems with
    | nil =>
      rw [parseItems, writeItems, hfirst _ hclose]
      rfl
    | @cons j' k' items results _ _ =>
      have htail := ih (by simp)
      -- the reader goes on only with less than it had
      have hshorter : (writeItems (j' :: items) ++ ']' :: rest).length
          < (write j ++ ',' :: (writeItems (j' :: items) ++ ']' :: rest)).length := by
        simp only [List.length_append, List.length_cons]
        omega
      rw [parseItems, writeItems, List.append_assoc, List.cons_append, hfirst _ (hcomma _)]
      simp only [skipBlanks_cons (show isBlank ',' = false by decide), htail]
      rw [if_neg (by decide), if_pos ⟨trivial, hshorter⟩]
      rfl

/-- The text of a plain document starts an array or a scalar. -/
theorem exists_cons_write {levels : Nat} {j : Json} (h : Plain levels j) :
    ∃ c cs, write j = c :: cs ∧ (c = '[' ∨ StartsScalar c) := by
  cases h with
  | null => exact ⟨_, _, rfl, .inr (by decide)⟩
  | boolean _ b => cases b <;> exact ⟨_, _, rfl, .inr (by decide)⟩
  | @integer _ i hword =>
    obtain ⟨c, cs, hcons, hfirst⟩ := exists_cons_numberText i
    exact ⟨c, cs, hcons, .inr (startsScalar_of_number hfirst)⟩
  | string _ s => exact ⟨_, _, rfl, .inr (by decide)⟩
  | array => exact ⟨_, _, rfl, .inl rfl⟩

/-- Items that do not start with a blank or a closing bracket are read as items. -/
theorem parseValue_array {levels : Nat} {c : Char} (h : c = '[' ∨ StartsScalar c) (cs : List Char) :
    parseValue (levels + 1) ('[' :: c :: cs) =
      (parseItems (parseValue levels) ']' (c :: cs)).map fun (xs, rest) => (.array xs, rest) := by
  have hblank : isBlank c = false := by
    rcases h with rfl | h
    · decide
    · exact isBlank_of_startsScalar h
  have hclose : c ≠ ']' := by
    rcases h with rfl | h
    · decide
    · exact h.ne (by decide)
  rw [parseValue, skipBlanks_cons (show isBlank '[' = false by decide)]
  simp only [skipBlanks_cons hblank]
  split
  · simp_all
  · rfl

/-- An array is read item by item. -/
theorem parseValue_writeArray {levels : Nat} {items results : List Json}
    (hstarts : ∀ j ∈ items, ∃ c cs, write j = c :: cs ∧ (c = '[' ∨ StartsScalar c))
    (hitems : List.Forall₂ (fun j k => ∀ rest, EndsNumber rest →
      parseValue levels (write j ++ rest) = some (k, rest)) items results) (rest : List Char) :
    parseValue (levels + 1) (write (.array items) ++ rest) = some (.array results, rest) := by
  cases items with
  | nil =>
    cases hitems
    rfl
  | cons j items =>
    have hread := parseItems_writeItems (by simp) hitems rest
    obtain ⟨c, cs, hcons, hfirst⟩ : ∃ c cs, writeItems (j :: items) ++ ']' :: rest = c :: cs ∧
        (c = '[' ∨ StartsScalar c) := by
      obtain ⟨c, cs, hcons, hfirst⟩ := hstarts j List.mem_cons_self
      cases items with
      | nil => exact ⟨c, _, by rw [writeItems, hcons, List.cons_append], hfirst⟩
      | cons k items =>
        exact ⟨c, _, by rw [writeItems, hcons, List.cons_append, List.cons_append], hfirst⟩
    rw [write, List.cons_append, List.append_assoc, List.singleton_append, hcons,
      parseValue_array hfirst, ← hcons, hread]
    rfl

/-- A number is read by the reader of numbers. -/
theorem parseValue_number {c : Char} {cs rest : List Char} {n : JsonNumber} (levels : Nat)
    (hfirst : c.isDigit = true ∨ c = '-') (h : parseNumber (c :: cs) = some (n, rest)) :
    parseValue levels (c :: cs) = some (.number n, rest) := by
  rw [parseValue_scalar (startsScalar_of_number hfirst), parseScalar_number hfirst, h]
  rfl

/-- A plain document is read back, whatever follows it that is no number. -/
theorem parseValue_write {levels : Nat} {j : Json} (h : Plain levels j) {rest : List Char}
    (hrest : EndsNumber rest) : parseValue levels (write j ++ rest) = some (j, rest) := by
  induction h generalizing rest with
  | null levels => exact parseValue_scalar (by decide) levels _
  | boolean levels b => cases b <;> exact parseValue_scalar (by decide) levels _
  | @integer levels i hword =>
    have hread := parseNumber_numberText hword hrest
    obtain ⟨c, cs, hcons, hfirst⟩ := exists_cons_numberText i
    rw [hcons, List.cons_append] at hread
    rw [write, hcons, List.cons_append]
    exact parseValue_number levels hfirst hread
  | string levels s =>
    rw [write, quote, List.cons_append, parseValue_scalar (by decide), List.append_assoc]
    simp only [parseScalar, List.singleton_append, stringBody_flatMap]
    simp
  | @array levels items hitems ih =>
    refine parseValue_writeArray (fun j hj => exists_cons_write (hitems j hj))
      (List.forall₂_same.mpr fun j hj rest hrest => ih j hj hrest) rest

/-- Plain documents have no fields to put in order. -/
theorem normalize_plain {levels : Nat} {j : Json} (h : Plain levels j) : normalize j = j := by
  induction h with
  | array _ ih => rw [normalize, normalizeItems_eq, List.map_congr_left ih, List.map_id']
  | _ => rfl

/-- The text of a plain document that nests no deeper than the reader goes is read as it. -/
theorem ofText?_text {j : Json} (h : Plain maxNesting j) : ofText? j.text = some j := by
  have hends : EndsNumber [] := by
    rintro c ⟨⟩
  have hread := parseValue_write h hends
  rw [List.append_nil] at hread
  simp [ofText?, text, parse, parseVerbatim, hread, skipBlanks, normalize_plain h]

end RowMapping.Json
