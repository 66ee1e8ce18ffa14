import TableSql.Decimal.Shortest

/-!
# Layouts of decimal numbers

How the digits of a floating-point number are set out: where the point stands, when an exponent is
written, and what a number that is not finite looks like. A `Layout` makes these choices; the
layouts of the library are values of it.

## Main definitions

* `Decimal.Layout` — the choices
* `Decimal.Layout.plain` — every digit, never an exponent
* `Decimal.Layout.json`, `Decimal.Layout.jsonSingle` — doubles and singles as JSON text has them
* `Decimal.Layout.ofFloat`, `Decimal.Layout.ofFloat32` — a number set out
-/

namespace TableSql.Decimal

/-- The choices a written number depends on. -/
structure Layout where
  /-- Which of two equally near shortest decimals is written. -/
  tie : Tie
  /-- The exponents `e` of `d.ddd · 10 ^ e` that are written without an exponent. -/
  positional : Int → Bool
  /-- A whole number gets `.0`. -/
  wholeFraction : Bool
  notANumber : String
  infinity : String
  negativeInfinity : String

namespace Layout

/-- Shortest digits, never an exponent, no fraction for a whole number. -/
def plain : Layout where
  tie := .up
  positional := fun _ => true
  wholeFraction := false
  notANumber := "NaN"
  infinity := "inf"
  negativeInfinity := "-inf"

/-- Shortest digits, always a fraction or an exponent, and `null` for what JSON can not write. -/
def json : Layout where
  tie := .even
  positional := fun e => -5 ≤ e && e < 16
  wholeFraction := true
  notANumber := "null"
  infinity := "null"
  negativeInfinity := "null"

/-- The same for singles, whose range without an exponent is `1e-6` to below `1e13`. -/
def jsonSingle : Layout :=
  { json with positional := fun e => -6 ≤ e && e < 13 }

/-- Decimal digits, most significant first. -/
def digitChars (n : Nat) : List Char :=
  Nat.toDigits 10 n

/-- `n` zeros. -/
def zeros (n : Nat) : List Char :=
  List.replicate n '0'

/-- Digits with the point placed and no exponent. -/
def positionalChars (l : Layout) (d : Digits) : List Char :=
  let ds := digitChars d.coefficient
  let pointAt := d.exponent + ds.length
  if 0 ≤ d.exponent then
    ds ++ zeros d.exponent.toNat ++ if l.wholeFraction then ['.', '0'] else []
  else if 0 < pointAt then
    ds.take pointAt.toNat ++ '.' :: ds.drop pointAt.toNat
  else
    '0' :: '.' :: zeros (-pointAt).toNat ++ ds

/-- Digits with one digit before the point and a signed exponent. -/
def scientificChars (d : Digits) : List Char :=
  let ds := digitChars d.coefficient
  let e := d.exponent + ds.length - 1
  let fraction := match ds.drop 1 with
    | [] => []
    | rest => '.' :: rest
  ds.take 1 ++ fraction ++ 'e' :: (if e < 0 then '-' else '+') :: digitChars e.natAbs

/-- The digits of a positive number. -/
def digitsChars (l : Layout) (d : Digits) : List Char :=
  let e := d.exponent + (digitChars d.coefficient).length - 1
  if l.positional e then l.positionalChars d else scientificChars d

/-- Zero. -/
def zeroChars (l : Layout) : List Char :=
  if l.wholeFraction then ['0', '.', '0'] else ['0']

/-- A signed number from its magnitude, none for zero. -/
def signed (l : Layout) (negative : Bool) (x : Option Dyadic) : String :=
  let magnitude := match x with
    | none => l.zeroChars
    | some x => l.digitsChars (shortest l.tie x)
  String.ofList (if negative then '-' :: magnitude else magnitude)

/-- A double, set out. -/
def ofFloat (l : Layout) (x : Float) : String :=
  let negative := x.toBits.toNat / Nat.pow 2 63 == 1
  if x.isNaN then l.notANumber
  else if x.isInf then (if negative then l.negativeInfinity else l.infinity)
  else l.signed negative (ofFloat? x)

/-- A single, set out with the digits that tell it from other singles. -/
def ofFloat32 (l : Layout) (x : Float32) : String :=
  let negative := x.toBits.toNat / Nat.pow 2 31 == 1
  if x.isNaN then l.notANumber
  else if x.isInf then (if negative then l.negativeInfinity else l.infinity)
  else l.signed negative (ofFloat32? x)

end Layout

end TableSql.Decimal
