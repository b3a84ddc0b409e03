/-
Reading UTF-8.

A character takes one to four bytes. The first byte says how many, and for some
first bytes the second is confined to a part of the continuation bytes, so that
no character has two encodings and none encodes a surrogate. Where bytes are no
character, the fault names the place of the first byte and how many bytes were
read before the encoding broke off; a text that ends in the middle of a character
is incomplete.
-/
set_option autoImplicit false

namespace RowMapping

/-- Where and how a text fails to be UTF-8. -/
inductive Utf8Fault where
  /-- So many bytes from here start no character. -/
  | invalid (index length : Nat)
  /-- The text ends in the middle of the character that starts here. -/
  | incomplete (index : Nat)
deriving DecidableEq, Repr

/-- The text of a fault. -/
def Utf8Fault.message : Utf8Fault → String
  | invalid index length =>
    "invalid utf-8 sequence of " ++ toString length ++ " bytes from index " ++ toString index
  | incomplete index => "incomplete utf-8 byte sequence from index " ++ toString index

namespace Text

/-- The least and the greatest byte allowed at each place after a first byte. No
list stands for a byte that starts no character. -/
def utf8Tail (first : Nat) : Option (List (Nat × Nat)) :=
  let any := (0x80, 0xBF)
  if first < 0x80 then some []
  else if first < 0xC2 then none
  else if first < 0xE0 then some [any]
  else if first = 0xE0 then some [(0xA0, 0xBF), any]
  else if first = 0xED then some [(0x80, 0x9F), any]
  else if first < 0xF0 then some [any, any]
  else if first = 0xF0 then some [(0x90, 0xBF), any, any]
  else if first < 0xF4 then some [any, any, any]
  else if first = 0xF4 then some [(0x80, 0x8F), any, any]
  else none

/-- The bits a first byte contributes to a character of so many bytes. -/
def utf8Head (first : Nat) : Nat → Nat
  | 0 => first
  | 1 => first % 0x20
  | 2 => first % 0x10
  | _ => first % 0x08

/-- Read the rest of a character: its code, given the code so far, and the bytes
after it. `length` bytes of it are already read. -/
def utf8Rest (index length : Nat) (code : Nat) :
    List (Nat × Nat) → List UInt8 → Except Utf8Fault (Nat × List UInt8)
  | [], bytes => .ok (code, bytes)
  | _ :: _, [] => .error (.incomplete index)
  | (least, greatest) :: more, b :: bytes =>
    if least ≤ b.toNat ∧ b.toNat ≤ greatest then
      utf8Rest index (length + 1) (code * 0x40 + b.toNat % 0x40) more bytes
    else .error (.invalid index length)

/-- What is left after a character is no longer than what was there. -/
theorem length_le_of_utf8Rest {index length code : Nat} {tail : List (Nat × Nat)}
    {bytes rest : List UInt8} {c : Nat}
    (h : utf8Rest index length code tail bytes = .ok (c, rest)) : rest.length ≤ bytes.length := by
  induction tail generalizing length code bytes with
  | nil =>
    simp only [utf8Rest, Except.ok.injEq, Prod.mk.injEq] at h
    simp [h.2]
  | cons bound more ih =>
    obtain ⟨least, greatest⟩ := bound
    cases bytes with
    | nil => simp [utf8Rest] at h
    | cons b bytes =>
      simp only [utf8Rest] at h
      split at h
      · have := ih h
        simp only [List.length_cons]
        omega
      · cases h

/-- Read UTF-8 from the byte at a place on. -/
def utf8From (index : Nat) (bytes : List UInt8) : Except Utf8Fault (List Char) :=
  match bytes with
  | [] => .ok []
  | first :: bytes =>
    match utf8Tail first.toNat with
    | none => .error (.invalid index 1)
    | some tail =>
      match h : utf8Rest index 1 (utf8Head first.toNat tail.length) tail bytes with
      | .error fault => .error fault
      | .ok (code, rest) =>
        (utf8From (index + 1 + tail.length) rest).map (Char.ofNat code :: ·)
termination_by bytes.length
decreasing_by
  have := length_le_of_utf8Rest h
  simp only [List.length_cons]
  omega

/-- Read UTF-8. -/
def ofUtf8 (bytes : List UInt8) : Except Utf8Fault (List Char) := utf8From 0 bytes

end Text

end RowMapping
