/-
UUIDs: 128-bit identifiers, their sixteen bytes and their texts.

A UUID is written in lower case with hyphens. It is read in any case, with or
without the hyphens, and in the hyphenated form also in braces or after
`urn:uuid:`. A text that is none has a fault: a character that is neither a
digit nor a hyphen, or else a number of groups or a length of a group that is
not the one of an identifier.
-/
import RowMapping.Json.Parser
import RowMapping.Json.Printer
import RowMapping.Text.Split

set_option autoImplicit false

namespace RowMapping

/-- A 128-bit identifier. -/
structure Uuid where
  bits : BitVec 128
deriving DecidableEq

namespace Uuid

/-- The last `count` hexadecimal digits of a number, in lower case. -/
def hexDigits : Nat → Nat → List Char
  | 0, _ => []
  | count + 1, n => hexDigits count (n / 16) ++ [Json.hexDigit (n % 16)]

/-- The thirty-two hexadecimal digits. -/
def digits (u : Uuid) : List Char := hexDigits 32 u.bits.toNat

/-- Digits in groups of eight, four, four, four and twelve with hyphens between them. -/
def hyphenate (ds : List Char) : List Char :=
  ds.take 8 ++ '-' :: ((ds.drop 8).take 4 ++ '-' :: ((ds.drop 12).take 4 ++ '-' ::
    ((ds.drop 16).take 4 ++ '-' :: ds.drop 20)))

/-- The hyphenated text. -/
def text (u : Uuid) : String := String.ofList (hyphenate u.digits)

/-- The value of a run of hexadecimal digits. -/
def hexValue? (ds : List Char) : Option Nat :=
  ds.foldlM (fun n c => (Json.hexValue? c).map (16 * n + ·)) 0

/-- The identifier of thirty-two hexadecimal digits. -/
def ofDigits? (ds : List Char) : Option Uuid :=
  if ds.length = 32 then (hexValue? ds).map fun n => ⟨BitVec.ofNat 128 n⟩ else none

/-- The identifier of a hyphenated text. -/
def ofHyphenated? (cs : List Char) : Option Uuid :=
  let ds := cs.filter (· != '-')
  if cs = hyphenate ds then ofDigits? ds else none

/-- What stands in front of the hyphenated text in a URN. -/
def urnLabel : List Char := "urn:uuid:".toList

/-- Read an identifier in any of its forms. -/
def parse (cs : List Char) : Option Uuid :=
  if cs.length = 32 then ofDigits? cs
  else if cs.length = 38 ∧ cs.head? = some '\x7b' ∧ cs.getLast? = some '\x7d' then
    ofHyphenated? cs.tail.dropLast
  else if urnLabel.isPrefixOf cs then ofHyphenated? (cs.drop urnLabel.length)
  else ofHyphenated? cs

/-- The lengths of the groups of digits between the hyphens. -/
def groupLengths : List Nat := [8, 4, 4, 4, 12]

/-- Why a text is not an identifier. -/
inductive Fault where
  /-- The character at this byte is neither a hexadecimal digit nor a hyphen. -/
  | character (c : Char) (index : Nat)
  /-- Digits without hyphens are not thirty-two. -/
  | length (found : Nat)
  /-- There are not five groups of digits. -/
  | groupCount (found : Nat)
  /-- The group at this place has another length than it should. -/
  | groupLength (place found : Nat)
deriving DecidableEq, Repr

/-- The text of a fault. -/
def Fault.message : Fault → String
  | character c index =>
    "invalid character: found " ++ String.ofList ['\x60', c, '\x60'] ++ " at " ++ toString index
  | length found =>
    "invalid length: expected length 32 for simple format, found " ++ toString found
  | groupCount found => "invalid group count: expected 5, found " ++ toString found
  | groupLength place found =>
    "invalid group length in group " ++ toString place ++ ": expected "
      ++ toString (groupLengths.getD place 0) ++ ", found " ++ toString found

/-- The first character that is neither a hexadecimal digit nor a hyphen, with its byte. -/
def findStranger? : Nat → List Char → Option (Char × Nat)
  | _, [] => none
  | index, c :: cs =>
    if c = '-' ∨ (Json.hexValue? c).isSome then findStranger? (index + c.utf8Size) cs
    else some (c, index)

/-- The first group whose length differs from the one it should have, with its place. -/
def findGroup? : Nat → List (List Char) → List Nat → Option (Nat × Nat)
  | place, g :: gs, n :: ns =>
    if g.length = n then findGroup? (place + 1) gs ns else some (place, g.length)
  | _, _, _ => none

/-- The fault of what stands between the delimiters; `start` bytes stand in front of it. -/
def faultBetween (start : Nat) (bare : Bool) (cs : List Char) : Fault :=
  let groups := Text.split '-' cs
  match findStranger? start cs with
  | some (c, index) => .character c index
  | none =>
    if bare ∧ groups.length = 1 then .length cs.length
    else if groups.length ≠ groupLengths.length then .groupCount groups.length
    else match findGroup? 0 groups groupLengths with
      | some (place, found) => .groupLength place found
      | none => .length cs.length

/-- The fault of a text that is not an identifier. -/
def fault (cs : List Char) : Fault :=
  if 2 ≤ cs.length ∧ cs.head? = some '\x7b' ∧ cs.getLast? = some '\x7d' then
    faultBetween 1 false cs.tail.dropLast
  else if urnLabel.isPrefixOf cs then
    faultBetween urnLabel.length false (cs.drop urnLabel.length)
  else faultBetween 0 true cs

/-- The identifier of sixteen bytes, the most significant first. -/
def ofBytes? (bytes : List UInt8) : Option Uuid :=
  if bytes.length = 16 then
    some ⟨BitVec.ofNat 128 (bytes.foldl (fun n b => 256 * n + b.toNat) 0)⟩
  else none

/-- The last `count` bytes of a number, the most significant first. -/
def bytesOf : Nat → Nat → List UInt8
  | 0, _ => []
  | count + 1, n => bytesOf count (n / 256) ++ [UInt8.ofNat (n % 256)]

/-- The sixteen bytes, the most significant first. -/
def bytes (u : Uuid) : List UInt8 := bytesOf 16 u.bits.toNat

end Uuid

end RowMapping
