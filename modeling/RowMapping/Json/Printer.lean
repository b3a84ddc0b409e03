/-
JSON documents as compact text.

No blanks are written. In strings the quotation mark, the backslash and the
control characters below the space are escaped, five of them by a letter and the
others by four hexadecimal digits; every other character stands for itself.
-/
import RowMapping.Json.Basic
import RowMapping.Number.Text

set_option autoImplicit false

namespace RowMapping.Json

/-- The hexadecimal digit of a number below sixteen, in lower case. -/
def hexDigit (n : Nat) : Char :=
  if n < 10 then Char.ofNat ('0'.toNat + n) else Char.ofNat ('a'.toNat + (n - 10))

/-- A character inside a quoted string. -/
def escapeChar (c : Char) : List Char :=
  if c = '"' then ['\\', '"']
  else if c = '\\' then ['\\', '\\']
  else if c = '\x08' then ['\\', 'b']
  else if c = '\x0c' then ['\\', 'f']
  else if c = '\n' then ['\\', 'n']
  else if c = '\r' then ['\\', 'r']
  else if c = '\t' then ['\\', 't']
  else if c.toNat < 0x20 then
    ['\\', 'u', '0', '0', hexDigit (c.toNat / 16), hexDigit (c.toNat % 16)]
  else [c]

/-- A quoted string. -/
def quote (cs : List Char) : List Char := '"' :: (cs.flatMap escapeChar ++ ['"'])

/-- The text of a number. -/
def numberText : JsonNumber → List Char
  | .integer i => (toString i).toList
  | .real x => x.jsonText.toList

mutual

/-- The characters of a document. -/
def write : Json → List Char
  | null => ['n', 'u', 'l', 'l']
  | boolean true => ['t', 'r', 'u', 'e']
  | boolean false => ['f', 'a', 'l', 's', 'e']
  | number n => numberText n
  | string s => quote s.toList
  | array items => '[' :: (writeItems items ++ [']'])
  | object fields => '\x7b' :: (writeFields fields ++ ['\x7d'])

/-- The items of an array with commas between them. -/
def writeItems : List Json → List Char
  | [] => []
  | [x] => write x
  | x :: y :: rest => write x ++ ',' :: writeItems (y :: rest)

/-- The fields of an object with commas between them. -/
def writeFields : List (String × Json) → List Char
  | [] => []
  | [(name, x)] => quote name.toList ++ ':' :: write x
  | (name, x) :: field :: rest =>
    quote name.toList ++ ':' :: (write x ++ ',' :: writeFields (field :: rest))

end

/-- The compact text of a document. -/
def text (j : Json) : String := String.ofList (write j)

/-- The compact text of an object whose fields stay in the order given. -/
def orderedText (fields : List (String × Json)) : String :=
  String.ofList ('\x7b' :: (writeFields fields ++ ['\x7d']))

end RowMapping.Json
