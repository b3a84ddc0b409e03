/-
Bytes in hexadecimal, two digits a byte.
-/
import RowMapping.Json.Parser
import RowMapping.Json.Printer

set_option autoImplicit false

namespace RowMapping.Text

/-- Bytes in hexadecimal, in lower case. -/
def hex (bytes : List UInt8) : List Char :=
  bytes.flatMap fun b => [Json.hexDigit (b.toNat / 16), Json.hexDigit (b.toNat % 16)]

/-- The bytes of a hexadecimal text. -/
def ofHex? : List Char → Option (List UInt8)
  | [] => some []
  | a :: b :: rest => do
    let high ← Json.hexValue? a
    let low ← Json.hexValue? b
    let bytes ← ofHex? rest
    pure (UInt8.ofNat (high * 16 + low) :: bytes)
  | [_] => none

end RowMapping.Text
