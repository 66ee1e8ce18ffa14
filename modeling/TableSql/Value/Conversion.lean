import TableSql.Value.Basic

/-!
# Values from other types

Identifiers, exact numbers, dates and times have no value type of their own: each is stored as its
customary text.

## Main definitions

* `Uuid`, `FixedPoint`, `Date`, `TimeOfDay` — the types, each with its `text`
* `Value.ofUuid`, `Value.ofFixedPoint`, `Value.ofDate`, `Value.ofTime`, `Value.ofDateTime` — the
  values they become
-/

namespace TableSql

/-- The digits of a number in a base, with zeros in front up to a width. -/
def paddedDigits (base width n : Nat) : List Char :=
  let digits := Nat.toDigits base n
  List.replicate (width - digits.length) '0' ++ digits

/-- Decimal digits with zeros in front up to a width. -/
def padded (width n : Nat) : String :=
  String.ofList (paddedDigits 10 width n)

/-! ### Identifiers -/

/-- A universally unique identifier. -/
structure Uuid where
  bits : BitVec 128
deriving DecidableEq, Repr

/-- Five groups of lower-case hexadecimal digits between hyphens. -/
def Uuid.text (u : Uuid) : String :=
  let digits := paddedDigits 16 32 u.bits.toNat
  let group (start length : Nat) := (digits.drop start).take length
  String.ofList <|
    group 0 8 ++ '-' :: group 8 4 ++ '-' :: group 12 4 ++ '-' :: group 16 4 ++ '-' :: group 20 12

/-! ### Exact numbers -/

/-- The exact number `mantissa / 10 ^ scale`. -/
structure FixedPoint where
  mantissa : Int
  scale : Nat
deriving DecidableEq, Repr

/-- Decimal digits with `scale` of them after the point, trailing zeros kept. -/
def FixedPoint.text (x : FixedPoint) : String :=
  let digits := paddedDigits 10 (x.scale + 1) x.mantissa.natAbs
  let wholeLength := digits.length - x.scale
  let fraction := if x.scale = 0 then [] else '.' :: digits.drop wholeLength
  let magnitude := digits.take wholeLength ++ fraction
  String.ofList (if x.mantissa < 0 then '-' :: magnitude else magnitude)

/-! ### Dates and times -/

/-- A calendar date. -/
structure Date where
  year : Int
  month : Nat
  day : Nat
deriving DecidableEq, Repr

/-- A year of four digits, or with a sign where four digits do not hold it. -/
def Date.yearText (year : Int) : String :=
  if 0 ≤ year ∧ year ≤ 9999 then padded 4 year.toNat
  else (if year < 0 then "-" else "+") ++ padded 4 year.natAbs

/-- Year, month and day between hyphens. -/
def Date.text (d : Date) : String :=
  Date.yearText d.year ++ "-" ++ padded 2 d.month ++ "-" ++ padded 2 d.day

/-- A time of day. A leap second is written as a nanosecond count of a thousand million or more. -/
structure TimeOfDay where
  hour : Nat
  minute : Nat
  second : Nat
  nanosecond : Nat
deriving DecidableEq, Repr

/-- A fraction of a second in the fewest of three, six or nine digits, nothing for zero. -/
def TimeOfDay.fractionText (nanosecond : Nat) : String :=
  if nanosecond = 0 then ""
  else if nanosecond % 1000000 = 0 then "." ++ padded 3 (nanosecond / 1000000)
  else if nanosecond % 1000 = 0 then "." ++ padded 6 (nanosecond / 1000)
  else "." ++ padded 9 nanosecond

/-- Hour, minute and second between colons, and the fraction of a second. -/
def TimeOfDay.text (t : TimeOfDay) : String :=
  let leap := 1000000000 ≤ t.nanosecond
  let second := if leap then t.second + 1 else t.second
  let nanosecond := if leap then t.nanosecond - 1000000000 else t.nanosecond
  padded 2 t.hour ++ ":" ++ padded 2 t.minute ++ ":" ++ padded 2 second ++
    TimeOfDay.fractionText nanosecond

/-! ### The values -/

namespace Value

/-- An identifier as text. -/
def ofUuid (u : Uuid) : Value :=
  .text u.text

/-- An exact number as a decimal. -/
def ofFixedPoint (x : FixedPoint) : Value :=
  .decimal x.text

/-- A date as text. -/
def ofDate (d : Date) : Value :=
  .text d.text

/-- A time of day as text. -/
def ofTime (t : TimeOfDay) : Value :=
  .text t.text

/-- A date and a time of day with a space between them. -/
def ofDateTime (d : Date) (t : TimeOfDay) : Value :=
  .text (d.text ++ " " ++ t.text)

end Value

end TableSql
