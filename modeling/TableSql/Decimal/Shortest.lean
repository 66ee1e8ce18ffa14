/-!
# Shortest decimal digits

The fewest decimal digits that read back as a given binary floating-point number, and of those the
ones nearest to it.

A finite positive number is `m · 2 ^ q`. The reals that round to it form an interval around it:
half a unit up, and half a unit down, or a quarter where `m` is the least significand of its
exponent. The ends belong to the interval when `m` is even. The decimal grids `10 ^ k` are tried
from coarse to fine; on each the two neighbours of the number are looked at, and the first grid
with a neighbour inside the interval gives the digits.

## Main definitions

* `Decimal.Dyadic` — a positive number `m · 2 ^ q` with the shape of its rounding interval
* `Decimal.Digits` — a decimal `c · 10 ^ k`
* `Decimal.shortest` — the digits of a dyadic
* `Decimal.ofFloat?`, `Decimal.ofFloat32?` — the magnitude of a finite, nonzero number
-/

namespace TableSql.Decimal

/-- The positive number `significand · 2 ^ exponent`, as a binary format holds it. -/
structure Dyadic where
  significand : Nat
  exponent : Int
  /-- The gap below is half as wide as the gap above. -/
  halvedBelow : Bool
deriving Repr, DecidableEq

/-- The decimal `coefficient · 10 ^ exponent`. -/
structure Digits where
  coefficient : Nat
  exponent : Int
deriving Repr, DecidableEq

/-- Which of two equally near candidates is taken. -/
inductive Tie where
  /-- The larger one. -/
  | up
  /-- The one with the even coefficient. -/
  | even
deriving Repr, DecidableEq

namespace Dyadic

/-- Numerator over `gridUnit` of a quarter of the gap around the number, on the grid `10 ^ k`. -/
def quarterUnit (x : Dyadic) (k : Int) : Nat :=
  Nat.pow 2 (x.exponent - 2).toNat * Nat.pow 10 (-k).toNat

/-- The grid step `10 ^ k` in the same unit as `quarterUnit`. -/
def gridUnit (x : Dyadic) (k : Int) : Nat :=
  Nat.pow 10 k.toNat * Nat.pow 2 (2 - x.exponent).toNat

/-- The grid point `c · 10 ^ k` rounds to the number. -/
def reads (x : Dyadic) (k : Int) (c : Nat) : Bool :=
  let low := (4 * x.significand - if x.halvedBelow then 1 else 2) * x.quarterUnit k
  let high := (4 * x.significand + 2) * x.quarterUnit k
  let point := c * x.gridUnit k
  if x.significand % 2 = 0 then low ≤ point && point ≤ high else low < point && point < high

/-- The coefficient of the grid `10 ^ k` that reads back and is nearest, if one reads back. -/
def nearest? (tie : Tie) (x : Dyadic) (k : Int) : Option Nat :=
  let value := 4 * x.significand * x.quarterUnit k
  let below := value / x.gridUnit k
  let above := below + 1
  match x.reads k below, x.reads k above with
  | true, true =>
    let down := value - below * x.gridUnit k
    let up := above * x.gridUnit k - value
    if down < up then some below
    else if up < down then some above
    else match tie with
      | .up => some above
      | .even => some (if below % 2 = 0 then below else above)
  | true, false => some below
  | false, true => some above
  | false, false => none

/-- The first grid from `10 ^ k` downwards with a point that reads back, among `tries` grids. -/
def searchFrom (tie : Tie) (x : Dyadic) : (tries : Nat) → (k : Int) → Digits
  | 0, k => ⟨4 * x.significand * x.quarterUnit k / x.gridUnit k, k⟩
  | tries + 1, k =>
    match x.nearest? tie k with
    | some c => ⟨c, k⟩
    | none => searchFrom tie x tries (k - 1)

/-- A power of ten above the number: `77 / 256 < log₁₀ 2 < 78 / 256`. -/
def topGrid (x : Dyadic) : Int :=
  let e := x.significand.log2 + 1 + x.exponent
  if 0 ≤ e then e * 78 / 256 + 1 else e * 77 / 256 + 1

end Dyadic

/-- The shortest digits of a positive number, nearest first and ties as told. -/
def shortest (tie : Tie) (x : Dyadic) : Digits :=
  x.searchFrom tie 64 x.topGrid

/-! ### Binary formats -/

/-- The number whose exponent and fraction fields are `field` and `fraction`, where fractions have
`width` bits and the least exponent is `least`. -/
def Dyadic.ofFields (width : Nat) (least : Int) (field fraction : Nat) : Dyadic :=
  if field = 0 then ⟨fraction, least, false⟩
  else ⟨Nat.pow 2 width + fraction, least + field - 1, fraction == 0 && 1 < field⟩

/-- The magnitude of a double, unless it is zero, infinite or not a number. -/
def ofFloat? (x : Float) : Option Dyadic :=
  let bits := x.toBits.toNat % Nat.pow 2 63
  if bits = 0 || 2047 ≤ bits / Nat.pow 2 52 then none
  else some (.ofFields 52 (-1074) (bits / Nat.pow 2 52) (bits % Nat.pow 2 52))

/-- The magnitude of a single, unless it is zero, infinite or not a number. -/
def ofFloat32? (x : Float32) : Option Dyadic :=
  let bits := x.toBits.toNat % Nat.pow 2 31
  if bits = 0 || 255 ≤ bits / Nat.pow 2 23 then none
  else some (.ofFields 23 (-149) (bits / Nat.pow 2 23) (bits % Nat.pow 2 23))

end TableSql.Decimal
