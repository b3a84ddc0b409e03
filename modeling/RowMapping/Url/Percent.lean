/-
Percent encoding: bytes that may not stand for themselves are written as a
percent sign and two hexadecimal digits.

Which ASCII characters are encoded depends on the part of the URL; control
characters and everything beyond ASCII always are, byte by byte in UTF-8.
-/
import RowMapping.Json.Parser

set_option autoImplicit false

namespace RowMapping.Url

/-- The hexadecimal digit of a number below sixteen, in upper case. -/
def upperHexDigit (n : Nat) : Char :=
  if n < 10 then Char.ofNat ('0'.toNat + n) else Char.ofNat ('A'.toNat + (n - 10))

/-- A byte as a percent sign and two digits. -/
def percentByte (b : UInt8) : List Char :=
  ['%', upperHexDigit (b.toNat / 16), upperHexDigit (b.toNat % 16)]

/-- Control characters and the characters beyond ASCII. -/
def isControl (c : Char) : Bool := c.toNat < 0x20 || 0x7e < c.toNat

/-- The further characters encoded in a fragment. -/
def fragmentSet : List Char := [' ', '"', '<', '>', '`']

/-- The further characters encoded in a path. -/
def pathSet : List Char := fragmentSet ++ ['#', '?', '\x7b', '\x7d']

/-- The further characters encoded in a user name or a password. -/
def userinfoSet : List Char := pathSet ++ ['/', ':', ';', '=', '@', '[', '\\', ']', '^', '|']

/-- The further characters encoded in a query. -/
def querySet : List Char := [' ', '"', '#', '<', '>']

/-- The further characters encoded in a query of a special scheme. -/
def specialQuerySet : List Char := querySet ++ ['\'']

/-- A text with the control characters and those of a set encoded. -/
def percentEncode (set : List Char) (cs : List Char) : List Char :=
  cs.flatMap fun c =>
    if isControl c || set.contains c then (String.singleton c).toUTF8.toList.flatMap percentByte
    else [c]

/-- The bytes of a text with its percent escapes decoded. A percent sign without
two digits stands for itself. -/
def percentDecode : List Char → List UInt8
  | '%' :: a :: b :: rest =>
    match Json.hexValue? a, Json.hexValue? b with
    | some a, some b => UInt8.ofNat (16 * a + b) :: percentDecode rest
    | _, _ => '%'.toNat.toUInt8 :: percentDecode (a :: b :: rest)
  | c :: rest => (String.singleton c).toUTF8.toList ++ percentDecode rest
  | [] => []

end RowMapping.Url
