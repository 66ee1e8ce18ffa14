/-!
# Encoded labels

A label of a domain name that holds more than ASCII has a form in ASCII alone: its ASCII
characters, a hyphen, and a list of numbers that tell which other characters go where. A number
counts how often the next place and character are passed over, where all places are visited for
one character before the next character is tried. Its digits stand in base 36, least significant
first, and the first digit below a moving threshold is the last one of its number.

## Main definitions

* `Uri.Punycode.Decoder` — the state between two digits
* `Uri.Punycode.decode?` — the label of an encoded form
-/

namespace TableSql.Uri.Punycode

/-- The state of decoding between two digits. -/
structure Decoder where
  /-- The label so far. -/
  text : List Char
  /-- The character that was put in last, by its number. -/
  point : Nat := 128
  bias : Nat := 72
  /-- The place after the last character that was put in. -/
  start : Nat := 0
  /-- The number so far, added to `start`. -/
  index : Nat := 0
  /-- The weight of the next digit. -/
  weight : Nat := 1
  /-- Thirty-six times the position of the next digit, where the first one has position one. -/
  place : Nat := 36

/-- The value of a digit. -/
def digitValue? (c : Char) : Option Nat :=
  if 'a' ≤ c ∧ c ≤ 'z' then some (c.toNat - 'a'.toNat)
  else if '0' ≤ c ∧ c ≤ '9' then some (c.toNat - '0'.toNat + 26)
  else none

/-- A digit below this ends its number. -/
def threshold (place bias : Nat) : Nat :=
  if place ≤ bias then 1 else if bias + 26 ≤ place then 26 else place - bias

/-- The bias for a number of the size of `delta`. -/
def biasFor (delta place : Nat) : Nat :=
  if 455 < delta then biasFor (delta / 35) (place + 36) else place + 36 * delta / (delta + 38)
termination_by delta
decreasing_by omega

namespace Decoder

/-- A number is complete. -/
def isAtEnd (d : Decoder) : Bool :=
  d.place == 36

/-- Puts in the character that a complete number tells, if there is such a character. -/
def insert? (d : Decoder) : Option Decoder :=
  let count := d.text.length + 1
  let point := d.point + d.index / count
  let position := d.index % count
  let delta := (d.index - d.start) / (if d.start = 0 then 700 else 2)
  if point.isValidChar then
    some
      { text := d.text.insertIdx position (Char.ofNat point)
        point
        bias := biasFor (delta + delta / count) 0
        start := position + 1
        index := position + 1 }
  else none

/-- The state after a digit. Numbers are below `2 ^ 32`. -/
def step? (d : Decoder) (digit : Nat) : Option Decoder :=
  let t := threshold d.place d.bias
  let d' := { d with
    index := d.index + digit * d.weight
    weight := d.weight * (36 - t)
    place := d.place + 36 }
  if Nat.pow 2 32 ≤ d'.index then none
  else if digit < t then d'.insert?
  else if Nat.pow 2 32 ≤ d'.weight then none
  else some d'

/-- The state after a list of digits. -/
def run? (d : Decoder) : List Char → Option Decoder
  | [] => some d
  | c :: rest => ((digitValue? c).bind d.step?).bind (·.run? rest)

end Decoder

/-- The ASCII characters of an encoded form, and the digits after its last hyphen. A hyphen with
nothing before it is no mark. -/
def parts (cs : List Char) : List Char × List Char :=
  match cs.reverse.dropWhile (· != '-') with
  | [] => ([], cs)
  | [_] => ([], cs)
  | _ :: before => (before.reverse, (cs.reverse.takeWhile (· != '-')).reverse)

/-- The label of an encoded form. -/
def decode? (cs : List Char) : Option (List Char) :=
  let (text, digits) := parts cs
  match Decoder.run? { text } digits with
  | some d => if d.isAtEnd then some d.text else none
  | none => none

end TableSql.Uri.Punycode
