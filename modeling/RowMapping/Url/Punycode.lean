/-
Punycode: labels beyond ASCII in ASCII letters and digits.

The ASCII characters of a label come first, then, for the others in order of
their code points, how far an insertion counter advances from one to the next,
each distance in digits of base 36 whose weights adapt to the distances before.
-/
set_option autoImplicit false

namespace RowMapping.Url.Punycode

/-- The letter or digit of a number below 36. -/
def digit (n : Nat) : Char :=
  if n < 26 then Char.ofNat ('a'.toNat + n) else Char.ofNat ('0'.toNat + (n - 26))

/-- The number of a letter or digit in either case. -/
def digitValue? (c : Char) : Option Nat :=
  if 'a' ≤ c ∧ c ≤ 'z' then some (c.toNat - 'a'.toNat)
  else if 'A' ≤ c ∧ c ≤ 'Z' then some (c.toNat - 'A'.toNat)
  else if '0' ≤ c ∧ c ≤ '9' then some (c.toNat - '0'.toNat + 26)
  else none

/-- The least weight-bearing digit at a position, from 1 to 26. -/
def threshold (position bias : Nat) : Nat :=
  max 1 (min 26 (position - bias))

/-- Divide a distance by 35 until it is small, counting positions. -/
def reduce (distance position : Nat) : Nat × Nat :=
  if 455 < distance then reduce (distance / 35) (position + 36) else (distance, position)
termination_by distance
decreasing_by omega

/-- The bias after a distance, given the characters handled so far. -/
def adapt (distance handled : Nat) (first : Bool) : Nat :=
  let damped := if first then distance / 700 else distance / 2
  let (rest, position) := reduce (damped + damped / handled) 0
  position + 36 * rest / (rest + 38)

/-- The digits of a distance. -/
def distanceDigits (bias position n : Nat) : List Char :=
  let t := threshold position bias
  if n < t then [digit n]
  else
    digit (t + (n - t) % (36 - t)) :: distanceDigits bias (position + 36) ((n - t) / (36 - t))
termination_by n
decreasing_by
  have h : 1 ≤ threshold position bias := Nat.le_max_left ..
  have hdiv := Nat.div_le_self (n - threshold position bias) (36 - threshold position bias)
  omega

/-- What the encoder carries from character to character. -/
structure Encoder where
  output : List Char
  distance : Nat
  bias : Nat
  handled : Nat

/-- Pass one character of the label while the code point `point` is inserted. -/
def Encoder.pass (basic point : Nat) (e : Encoder) (c : Char) : Encoder :=
  if c.toNat < point then { e with distance := e.distance + 1 }
  else if c.toNat = point then
    { output := e.output ++ distanceDigits e.bias 36 e.distance
      distance := 0
      bias := adapt e.distance (e.handled + 1) (e.handled == basic)
      handled := e.handled + 1 }
  else e

/-- Insert the code points of a label one after the other, in ascending order. -/
def insertPoints (label : List Char) (basic : Nat) : List Nat → Nat → Encoder → Encoder
  | [], _, e => e
  | point :: rest, previous, e =>
    let e := { e with distance := e.distance + (point - previous) * (e.handled + 1) }
    let e := label.foldl (Encoder.pass basic point) e
    insertPoints label basic rest (point + 1) { e with distance := e.distance + 1 }

/-- The Punycode of a label. -/
def encode (label : List Char) : List Char :=
  let basic := label.filter (·.toNat < 0x80)
  let points := ((label.filter (0x80 ≤ ·.toNat)).map Char.toNat).eraseDups.mergeSort
  let start := if basic.isEmpty then [] else basic ++ ['-']
  (insertPoints label basic.length points 0x80 ⟨start, 0, 72, basic.length⟩).output

/-- Read a distance: its value and the text after it. -/
def readDistance (bias position weight sum : Nat) : List Char → Option (Nat × List Char)
  | [] => none
  | c :: rest => do
    let d ← digitValue? c
    let sum := sum + d * weight
    let t := threshold position bias
    if d < t then pure (sum, rest)
    else readDistance bias (position + 36) (weight * (36 - t)) sum rest

/-- Read distances and insert their characters until the text is used up; the
fuel is the length of the text. -/
def readPoints : Nat → Nat → Nat → Nat → List Char → List Char → Option (List Char)
  | 0, _, _, _, output, cs => if cs.isEmpty then some output else none
  | fuel + 1, counter, point, bias, output, cs =>
    if cs.isEmpty then some output
    else do
      let (distance, rest) ← readDistance bias 36 1 0 cs
      let length := output.length + 1
      let counter' := counter + distance
      let point := point + counter' / length
      let place := counter' % length
      if point < 0xd800 ∨ (0xdfff < point ∧ point < 0x110000) then
        let output := output.take place ++ Char.ofNat point :: output.drop place
        readPoints fuel (place + 1) point (adapt distance length (counter == 0)) output rest
      else none

/-- The label of a Punycode text. -/
def decode? (cs : List Char) : Option (List Char) :=
  let (basic, rest) := match cs.reverse.dropWhile (· != '-') with
    | _ :: front => (front.reverse, cs.drop (front.length + 1))
    | [] => ([], cs)
  readPoints rest.length 0 0x80 72 basic rest

end RowMapping.Url.Punycode
