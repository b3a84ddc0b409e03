/-
White space in the Unicode sense, and texts cut free of it.

The property `White_Space` holds of twenty-five characters; every character that
core counts as white space is one of them.
-/
set_option autoImplicit false

namespace RowMapping.Text

/-- The characters of the Unicode property `White_Space`. -/
def isBlank (c : Char) : Bool :=
  let n := c.toNat
  (0x09 ≤ n && n ≤ 0x0d) || n == 0x20 || n == 0x85 || n == 0xa0 || n == 0x1680
    || (0x2000 ≤ n && n ≤ 0x200a) || n == 0x2028 || n == 0x2029 || n == 0x202f
    || n == 0x205f || n == 0x3000

/-- A text without the white space at its ends. -/
def trimBlanks (cs : List Char) : List Char :=
  ((cs.dropWhile isBlank).reverse.dropWhile isBlank).reverse

/-- A text without the white space at its ends. -/
def trim (s : String) : String := String.ofList (trimBlanks s.toList)

/-- Several texts with a separator between them. -/
def join (separator : String) (parts : List String) : String :=
  String.intercalate separator parts

/-- Texts in brackets, with a comma and a space between them. -/
def bracketed (parts : List String) : String := "[" ++ join ", " parts ++ "]"

/-- Core's white space is white space here too. -/
theorem isBlank_of_isWhitespace (c : Char) (h : c.isWhitespace = true) : isBlank c = true := by
  simp only [Char.isWhitespace, Bool.or_eq_true, decide_eq_true_eq] at h
  rcases h with ((rfl | rfl) | rfl) | rfl <;> decide

/-- A digit is not white space. -/
theorem isBlank_of_isDigit {c : Char} (h : c.isDigit = true) : isBlank c = false := by
  simp only [Char.isDigit, Bool.and_eq_true, decide_eq_true_eq, ge_iff_le,
    UInt32.le_iff_toNat_le] at h
  have hleast : 48 ≤ c.toNat := h.1
  have hgreatest : c.toNat ≤ 57 := h.2
  simp only [isBlank, Bool.or_eq_false_iff, Bool.and_eq_false_iff, decide_eq_false_iff_not,
    beq_eq_false_iff_ne]
  omega

/-- A text that neither starts nor ends in white space is trimmed to itself. -/
theorem trimBlanks_eq {cs : List Char} (hhead : ∀ c ∈ cs.head?, isBlank c = false)
    (hlast : ∀ c ∈ cs.getLast?, isBlank c = false) : trimBlanks cs = cs := by
  have hfront {ds : List Char} (h : ∀ c ∈ ds.head?, isBlank c = false) :
      ds.dropWhile isBlank = ds := by
    cases ds with
    | nil => rfl
    | cons c ds => simp [h c rfl]
  rw [trimBlanks, hfront hhead, hfront, List.reverse_reverse]
  rwa [List.head?_reverse]

/-- A text in which no character is white space is trimmed to itself. -/
theorem trimBlanks_of_forall {cs : List Char} (h : ∀ c ∈ cs, isBlank c = false) :
    trimBlanks cs = cs :=
  trimBlanks_eq (fun c hc => h c (List.mem_of_head? hc)) fun c hc => h c (List.mem_of_getLast? hc)

/-- A text whose two ends are free of white space is trimmed to itself, whatever is between them. -/
theorem trimBlanks_between {front back : List Char} (middle : List Char) (hfront : front ≠ [])
    (hback : back ≠ [])
    (hf : ∀ c ∈ front, isBlank c = false) (hb : ∀ c ∈ back, isBlank c = false) :
    trimBlanks (front ++ middle ++ back) = front ++ middle ++ back := by
  refine trimBlanks_eq (fun c hc => hf c ?_) fun c hc => hb c ?_
  · rw [List.append_assoc, List.head?_append, List.head?_eq_some_head hfront, Option.some_or] at hc
    exact Option.some.inj hc ▸ List.head_mem hfront
  · rw [List.getLast?_append, List.getLast?_eq_some_getLast hback, Option.some_or] at hc
    exact Option.some.inj hc ▸ List.getLast_mem hback

end RowMapping.Text
