import TableSql.Json.Basic
import TableSql.Json.Token

/-!
# Numbers read from JSON text

What a written number stands for. A whole number that some 64-bit word holds is an integer. Any
other number, and a negative zero, is floating-point, and is read by scaling: the leading digits
that fit an unsigned word are turned into a double, which is multiplied or divided by a power of
ten. So the result may miss the nearest double by a unit or so.

## Main definitions

* `Json.Significand` — digits gathered into an unsigned word
* `Json.scale?` — a significand times a power of ten
* `Json.Number`, `Json.NumberLiteral.value?` — the number a literal stands for
-/

namespace TableSql.Json

/-- A number of JSON text. -/
inductive Number where
  | integer (n : Integer)
  | float (x : Float)

/-- Digits gathered into an unsigned word, with the power of ten still owed. -/
structure Significand where
  value : Nat
  exponent : Int
deriving Repr, DecidableEq

/-- The value of a decimal digit. -/
def digitValue (c : Char) : Nat :=
  c.toNat - '0'.toNat

/-- The value of decimal digits. -/
def digitsValue (cs : List Char) : Nat :=
  cs.foldl (fun n c => n * 10 + digitValue c) 0

namespace Significand

/-- Gathers the digits of a whole part. From the first digit on that the word has no room for,
digits only raise the exponent. -/
def whole (value : Nat) : List Char → Significand
  | [] => ⟨value, 0⟩
  | c :: rest =>
    if value * 10 + digitValue c < Nat.pow 2 64 then whole (value * 10 + digitValue c) rest
    else ⟨value, rest.length + 1⟩

/-- Gathers the digits of a fraction. From the first digit on that the word has no room for,
digits are dropped. -/
def fraction (s : Significand) : List Char → Significand
  | [] => s
  | c :: rest =>
    if s.value * 10 + digitValue c < Nat.pow 2 64 then
      fraction ⟨s.value * 10 + digitValue c, s.exponent - 1⟩ rest
    else s

end Significand

/-- `x · 10 ^ e`, in steps of at most `10 ^ 308`; none where it is too large. -/
def scale? (x : Float) (e : Int) : Option Float :=
  if e.natAbs ≤ 308 then
    let power := Float.ofScientific 1 false e.natAbs
    if 0 ≤ e then
      let y := x * power
      if y.isInf then none else some y
    else some (x / power)
  else if x == 0 then some x
  else if 0 ≤ e then none
  else scale? (x / 1e308) (e + 308)
termination_by e.natAbs
decreasing_by omega

/-- The greatest exponent that is read as a number: a longer one is past every double. -/
def greatestExponent : Nat := 2147483647

/-- A magnitude with its exponent, before the sign. -/
def magnitude? (s : Significand) : Option (Bool × List Char) → Option Float
  | none => scale? s.value.toUInt64.toFloat s.exponent
  | some (negative, digits) =>
    let e := digitsValue digits
    if greatestExponent < e then
      if s.value != 0 && !negative then none else some 0
    else scale? s.value.toUInt64.toFloat (s.exponent + if negative then -(e : Int) else e)

/-- A floating-point number that was written with sign, fraction or exponent. -/
def NumberLiteral.float? (n : NumberLiteral) : Option Float :=
  let s := (Significand.whole 0 n.whole).fraction n.fraction
  (magnitude? s n.exponent).map fun x => if n.negative then -x else x

/-- The number a literal stands for; none where it is too large. -/
def NumberLiteral.value? (n : NumberLiteral) : Option Number :=
  let whole := digitsValue n.whole
  let integer : Option Integer :=
    if n.fraction = [] ∧ n.exponent = none ∧ ¬ (n.negative ∧ whole = 0) then
      Integer.ofInt? (if n.negative then -whole else whole)
    else none
  match integer with
  | some i => some (.integer i)
  | none => n.float?.map .float

end TableSql.Json
