import TableSql.Json.Token
import TableSql.Text.Split

/-!
# Numeric addresses

A host whose last part is a number is an address of 32 bits. It is written as up to four numbers
with points between them: each but the last is one byte, and the last one stands for all bytes
that are left. Numbers may be decimal, octal after a `0`, or hexadecimal after `0x`.

## Main definitions

* `Uri.DottedAddress.number?` — the value of a part
* `Uri.DottedAddress.endsInNumber` — the host is an address, well formed or not
* `Uri.DottedAddress.parse?` — the address of a host
* `Uri.DottedAddress.chars` — an address as four decimal numbers
-/

namespace TableSql.Uri.DottedAddress

/-- The value of digits in a base, none if one of them is too great for it. -/
def digitsIn? (base : Nat) (cs : List Char) : Option Nat :=
  cs.foldlM (fun n c => (Json.hexValue? c).bind fun d =>
    if d < base then some (n * base + d) else none) 0

/-- The value of a part; the digits after a base's mark may be missing. -/
def number? : List Char → Option Nat
  | [] => none
  | '0' :: 'x' :: digits => digitsIn? 16 digits
  | '0' :: 'X' :: digits => digitsIn? 16 digits
  | '0' :: c :: digits => digitsIn? 8 (c :: digits)
  | cs => digitsIn? 10 cs

/-- The parts of a host; a point at its end means nothing. -/
def parts (host : List Char) : List (List Char) :=
  let all := Text.splitAt '.' host
  if all.getLast? = some [] then all.dropLast else all

/-- The last part is a number, or at least all digits. -/
def endsInNumber (host : List Char) : Bool :=
  match (parts host).getLast? with
  | some last => (!last.isEmpty && last.all Char.isDigit) || (number? last).isSome
  | none => false

/-- The address of the numbers before the last one, and the last one. -/
def ofNumbers? (front : List Nat) (last : Nat) : Option Nat :=
  if front.length ≤ 3 ∧ front.all (· ≤ 255) ∧ last < Nat.pow 256 (4 - front.length) then
    some (front.foldl (fun n b => n * 256 + b) 0 * Nat.pow 256 (4 - front.length) + last)
  else none

/-- The address that a host spells. -/
def parse? (host : List Char) : Option Nat := do
  let numbers ← (parts host).mapM number?
  ofNumbers? numbers.dropLast (← numbers.getLast?)

/-- The address as four decimal numbers. -/
def chars (address : Nat) : List Char :=
  let byte (i : Nat) := Nat.toDigits 10 (address / Nat.pow 256 i % 256)
  ['.'].intercalate [byte 3, byte 2, byte 1, byte 0]

end TableSql.Uri.DottedAddress
