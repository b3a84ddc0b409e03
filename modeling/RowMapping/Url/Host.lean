/-
Hosts: domain names, IPv4 and IPv6 addresses, and the opaque hosts of schemes
without rules of their own.

A domain is decoded, put into lower case and its labels beyond ASCII written in
Punycode. A domain whose last label is a number must be an IPv4 address, which
may have one to four parts in decimal, octal or hexadecimal. IPv6 addresses are
written with the longest run of zero pieces left out.
-/
import RowMapping.Url.Percent
import RowMapping.Url.Punycode
import RowMapping.Number.Text
import RowMapping.Text.Lowercase
import RowMapping.Text.Split
import RowMapping.Uuid

set_option autoImplicit false

namespace RowMapping

/-- Why a text is not a URL. -/
inductive UrlError where
  | relative
  | emptyHost
  | port
  | internationalDomain
  | domainCharacter
  | ipv4
  | ipv6
deriving DecidableEq, Repr

/-- The explanation of a URL error. -/
def UrlError.message : UrlError → String
  | relative => "relative URL without a base"
  | emptyHost => "empty host"
  | port => "invalid port number"
  | internationalDomain => "invalid international domain name"
  | domainCharacter => "invalid domain character"
  | ipv4 => "invalid IPv4 address"
  | ipv6 => "invalid IPv6 address"

namespace Url

/-- The host of a URL. -/
inductive Host where
  | domain (name : List Char)
  | ipv4 (address : Nat)
  | ipv6 (pieces : List Nat)
deriving DecidableEq, Repr

/-! ## Text -/

/-- The four decimal parts of an IPv4 address. -/
def ipv4Text (address : Nat) : List Char :=
  let part (shift : Nat) : List Char := (toString (address / Nat.pow 2 shift % 256)).toList
  part 24 ++ '.' :: (part 16 ++ '.' :: (part 8 ++ '.' :: part 0))

/-- The length of the run of zeros at the start of some pieces. -/
def zeroRun (pieces : List Nat) : Nat := (pieces.takeWhile (· == 0)).length

/-- The first of the longest runs of at least two zero pieces: its start and length. -/
def longestZeroRun (pieces : List Nat) : Option (Nat × Nat) :=
  let runs := (List.range pieces.length).map fun i => (i, zeroRun (pieces.drop i))
  let best := runs.foldl (fun best run => if best.2 < run.2 then run else best) (0, 0)
  if 2 ≤ best.2 then some best else none

/-- Pieces in hexadecimal with colons between them. -/
def piecesText (pieces : List Nat) : List Char :=
  [':'].intercalate (pieces.map fun p => Nat.toDigits 16 p)

/-- An IPv6 address in brackets. -/
def ipv6Text (pieces : List Nat) : List Char :=
  let inner := match longestZeroRun pieces with
    | some (start, length) =>
      piecesText (pieces.take start) ++ ':' :: ':' :: piecesText (pieces.drop (start + length))
    | none => piecesText pieces
  '[' :: (inner ++ [']'])

/-- The characters of a host. -/
def Host.write : Host → List Char
  | domain name => name
  | ipv4 address => ipv4Text address
  | ipv6 pieces => ipv6Text pieces

/-! ## IPv4 -/

/-- The value of a run of digits of a base. -/
def radixValue? (base : Nat) (cs : List Char) : Option Nat :=
  cs.foldlM (fun n c => do
    let d ← Json.hexValue? c
    if d < base then pure (base * n + d) else none) 0

/-- A part of an IPv4 address: hexadecimal after `0x`, octal after `0`, or decimal. -/
def ipv4Part? : List Char → Option Nat
  | [] => none
  | '0' :: c :: rest =>
    if c = 'x' ∨ c = 'X' then radixValue? 16 rest else radixValue? 8 (c :: rest)
  | cs => radixValue? 10 cs

/-- The labels of a domain without an empty last one. -/
def labelsWithoutRoot (cs : List Char) : List (List Char) :=
  let labels := Text.split '.' cs
  if labels.getLast? = some [] then labels.dropLast else labels

/-- Whether the last label of a domain is a number. -/
def endsInNumber (cs : List Char) : Bool :=
  match (labelsWithoutRoot cs).getLast? with
  | none => false
  | some label => (!label.isEmpty && label.all Char.isDigit)
      || (label.take 2 = ['0', 'x'] && (ipv4Part? label).isSome)
      || (label.take 2 = ['0', 'X'] && (ipv4Part? label).isSome)

/-- The IPv4 address of a domain whose last label is a number. Every part but the
last fills one byte; the last fills the bytes that remain. -/
def ipv4? (cs : List Char) : Option Nat := do
  let labels := labelsWithoutRoot cs
  let parts ← labels.mapM ipv4Part?
  let last ← parts.getLast?
  let front := parts.dropLast
  if 4 < parts.length ∨ front.any (255 < ·) ∨ Nat.pow 256 (5 - parts.length) ≤ last then none
  else
    pure (last + (front.zipIdx.foldl (fun sum (p, i) => sum + p * Nat.pow 256 (3 - i)) 0))

/-! ## IPv6 -/

/-- Four decimal parts without leading zeros, as two pieces. -/
def embeddedIpv4? (cs : List Char) : Option (List Nat) := do
  let parts ← (Text.split '.' cs).mapM fun part =>
    if part.isEmpty ∨ ¬ part.all Char.isDigit ∨ (1 < part.length ∧ part.head? = some '0') then none
    else
      let n := Floating.digitsValue part
      if n < 256 then some n else none
  match parts with
  | [a, b, c, d] => pure [256 * a + b, 256 * c + d]
  | _ => none

/-- A piece of one to four hexadecimal digits. -/
def ipv6Piece? (cs : List Char) : Option Nat :=
  if cs.isEmpty ∨ 4 < cs.length then none else radixValue? 16 cs

/-- Pieces between colons, of which the last two may be written as an IPv4 address. -/
def ipv6Pieces? (cs : List Char) : Option (List Nat) :=
  if cs.isEmpty then some []
  else do
    let parts := Text.split ':' cs
    let last ← parts.getLast?
    let front ← parts.dropLast.mapM ipv6Piece?
    let tail ← if last.contains '.' then embeddedIpv4? last else (ipv6Piece? last).map ([·])
    pure (front ++ tail)

/-- The part before the first double colon and the part after it. -/
def splitDoubleColon : List Char → Option (List Char × List Char)
  | ':' :: ':' :: rest => some ([], rest)
  | c :: rest => (splitDoubleColon rest).map fun (a, b) => (c :: a, b)
  | [] => none

/-- The pieces of an IPv6 address; a double colon stands for one or more zeros. -/
def ipv6? (cs : List Char) : Option (List Nat) :=
  match splitDoubleColon cs with
  | none => do
    let pieces ← ipv6Pieces? cs
    if pieces.length = 8 then pure pieces else none
  | some (before, after) => do
    let a ← if before.contains '.' then none else ipv6Pieces? before
    let b ← ipv6Pieces? after
    if a.length + b.length < 8 then
      pure (a ++ List.replicate (8 - a.length - b.length) 0 ++ b)
    else none

/-! ## Domains -/

/-- Characters that no domain may hold. -/
def isForbiddenInDomain (c : Char) : Bool :=
  c.toNat ≤ 0x20 || c.toNat == 0x7f || "#/:<>?@[\\]^|%".toList.contains c

/-- Characters that no opaque host may hold. -/
def isForbiddenInHost (c : Char) : Bool :=
  c.toNat == 0 || "\t\n\r #/:<>?@[\\]^|".toList.contains c

/-- A label in ASCII. A label that is already in Punycode has to decode to
characters beyond ASCII. -/
def asciiLabel? (label : List Char) : Option (List Char) :=
  if label.any (0x80 ≤ ·.toNat) then some ("xn--".toList ++ Punycode.encode label)
  else if "xn--".toList.isPrefixOf label then
    match Punycode.decode? (label.drop 4) with
    | some decoded => if decoded.any (0x80 ≤ ·.toNat) then some label else none
    | none => none
  else some label

/-- A domain in ASCII, from its decoded characters. -/
def asciiDomain? (cs : List Char) : Option (List Char) := do
  let labels ← (Text.split '.' (Text.lower cs)).mapM asciiLabel?
  let name := ['.'].intercalate labels
  if name.any isForbiddenInDomain then none else pure name

/-- The address between brackets. -/
def bracketed? (cs : List Char) : Except UrlError Host :=
  if cs.getLast? = some ']' then
    match ipv6? cs.dropLast with
    | some pieces => .ok (.ipv6 pieces)
    | none => .error .ipv6
  else .error .ipv6

/-- The host of a special scheme. -/
def parseHost (cs : List Char) : Except UrlError Host :=
  match cs with
  | '[' :: rest => bracketed? rest
  | cs =>
    match String.fromUTF8? ⟨(percentDecode cs).toArray⟩ with
    | none => .error .internationalDomain
    | some decoded =>
      match asciiDomain? decoded.toList with
      | none => .error .internationalDomain
      | some [] => .error .emptyHost
      | some name =>
        if endsInNumber name then
          match ipv4? name with
          | some address => .ok (.ipv4 address)
          | none => .error .ipv4
        else .ok (.domain name)

/-- The host of a scheme without rules of its own. -/
def parseOpaqueHost (cs : List Char) : Except UrlError Host :=
  match cs with
  | '[' :: rest => bracketed? rest
  | cs =>
    if cs.any isForbiddenInHost then .error .domainCharacter
    else .ok (.domain (percentEncode [] cs))

end Url

end RowMapping
