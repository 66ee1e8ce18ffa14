import TableSql.Members

/-!
# JSON values

JSON values with integers kept apart from floating-point numbers, and object members in key
order.

## Implementation notes

Members are kept in key order, so that objects with the same members are the same value. The range
of integers is part of their type; the order of members is not, and `Json.ofMembers` sees to it.
Equality is a function of its own, because a floating-point number may differ from itself.

## Main definitions

* `Json.Integer` — an integer that some 64-bit word holds
* `Json` — the values
* `Json.ofMembers` — the object of a list of members
* `Json.equal` — equality of values, where floating-point numbers compare as numbers
-/

namespace TableSql

/-- An integer that a signed or an unsigned 64-bit word holds. -/
structure Json.Integer where
  val : Int
  inRange : -Int.pow 2 63 ≤ val ∧ val < Int.pow 2 64
deriving DecidableEq, Repr

/-- A JSON value. -/
inductive Json where
  | null
  | bool (b : Bool)
  | integer (n : Json.Integer)
  | float (x : Float)
  | string (s : String)
  | array (elements : List Json)
  | object (members : List (String × Json))

namespace Json

/-- The integer, if a 64-bit word holds it. -/
def Integer.ofInt? (n : Int) : Option Integer :=
  if h : -Int.pow 2 63 ≤ n ∧ n < Int.pow 2 64 then some ⟨n, h⟩ else none

/-- A signed word as an integer. -/
def Integer.ofInt64 (n : Int64) : Integer where
  val := n.toInt
  inRange := by
    have : Int.pow 2 63 = 0x8000000000000000 ∧ Int.pow 2 64 = 0x10000000000000000 := ⟨rfl, rfl⟩
    have := n.le_toInt
    have := n.toInt_lt
    omega

/-- An unsigned word as an integer. -/
def Integer.ofUInt64 (n : UInt64) : Integer where
  val := n.toNat
  inRange := by
    have : Int.pow 2 63 = 0x8000000000000000 ∧ Int.pow 2 64 = 0x10000000000000000 := ⟨rfl, rfl⟩
    have := n.toNat_lt
    omega

/-- A number, or `null` where JSON has none. -/
def ofFloat (x : Float) : Json :=
  if x.isFinite then .float x else .null

/-- The list of the bytes as numbers. -/
def ofBytes (bs : List UInt8) : Json :=
  .array (bs.map fun b => .integer (.ofUInt64 b.toUInt64))

/-- The object with these members, where the last value of a key stands. -/
def ofMembers (members : List (String × Json)) : Json :=
  .object (Members.ofList members)

mutual

/-- Equality of JSON values. An integer never equals a floating-point number. -/
def equal : Json → Json → Bool
  | .null, .null => true
  | .bool a, .bool b => a == b
  | .integer a, .integer b => a.val == b.val
  | .float a, .float b => a == b
  | .string a, .string b => a == b
  | .array a, .array b => equalElements a b
  | .object a, .object b => equalMembers a b
  | _, _ => false

/-- Equality of lists of elements. -/
def equalElements : List Json → List Json → Bool
  | [], [] => true
  | a :: as, b :: bs => equal a b && equalElements as bs
  | _, _ => false

/-- Equality of lists of members. -/
def equalMembers : List (String × Json) → List (String × Json) → Bool
  | [], [] => true
  | (k, a) :: as, (l, b) :: bs => k == l && equal a b && equalMembers as bs
  | _, _ => false

end

end Json

end TableSql
