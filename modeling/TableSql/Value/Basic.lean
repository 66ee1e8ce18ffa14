import TableSql.Json.Basic

/-!
# Values

The values that statements bind and insert and that rows hold, and the ways to read them as a
value of one type.

## Implementation notes

The type of a value is told by its constructor and never guessed from its content. An exact number
is kept as its text, as no arithmetic is done on it; dates and times come as texts. An expression is
a value because it may be given wherever a value may, and what becomes of it is up to the place: it
is written out in a statement and refused in raw SQL.

## Main definitions

* `Value` — the values
* `Value.typeName` — the SQL name of a value's type
* `Value.asText?`, `Value.asInt64?`, `Value.asUInt64?`, `Value.asFloat?` — a value read as text or
  as a number, where it is one
* `Value.isExpression` — the value is left to the server to evaluate
* `Value.equal` — equality, where floating-point numbers compare as numbers
-/

namespace TableSql

/-- A value bound to a placeholder, stored in a column or read from a row. -/
inductive Value where
  | null
  | bool (b : Bool)
  | bigint (n : Int64)
  | unsigned (n : UInt64)
  | float (x : Float32)
  | double (x : Float)
  /-- An exact number, kept as its text. -/
  | decimal (digits : String)
  | text (s : String)
  | blob (bytes : List UInt8)
  | json (j : Json)
  /-- SQL text that the server evaluates. -/
  | expression (sql : String)

namespace Value

instance : Inhabited Value := ⟨.null⟩

/-- The SQL name of the value's type. -/
def typeName : Value → String
  | .null => "NULL"
  | .bool _ => "BOOLEAN"
  | .bigint _ => "BIGINT"
  | .unsigned _ => "BIGINT UNSIGNED"
  | .float _ => "FLOAT"
  | .double _ => "DOUBLE"
  | .decimal _ => "DECIMAL"
  | .text _ => "TEXT"
  | .blob _ => "BLOB"
  | .json _ => "JSON"
  | .expression _ => "EXPRESSION"

/-- The value is SQL text for the server. -/
def isExpression : Value → Bool
  | .expression _ => true
  | _ => false

/-- The value is null. -/
def isNull : Value → Bool
  | .null => true
  | _ => false

/-- The text of a text value. -/
def asText? : Value → Option String
  | .text s => some s
  | _ => none

/-- An integer value that a signed word holds. -/
def asInt64? : Value → Option Int64
  | .bigint n => some n
  | .unsigned n => if n.toNat < Nat.pow 2 63 then some n.toInt64 else none
  | _ => none

/-- An integer value that an unsigned word holds. -/
def asUInt64? : Value → Option UInt64
  | .unsigned n => some n
  | .bigint n => if 0 ≤ n.toInt then some n.toUInt64 else none
  | _ => none

/-- A numeric value as the nearest double. -/
def asFloat? : Value → Option Float
  | .float x => some x.toFloat
  | .double x => some x
  | .bigint n => some n.toFloat
  | .unsigned n => some n.toFloat
  | _ => none

/-- Equality of values. Values of two types are never equal. -/
def equal : Value → Value → Bool
  | .null, .null => true
  | .bool a, .bool b => a == b
  | .bigint a, .bigint b => a == b
  | .unsigned a, .unsigned b => a == b
  | .float a, .float b => a == b
  | .double a, .double b => a == b
  | .decimal a, .decimal b => a == b
  | .text a, .text b => a == b
  | .blob a, .blob b => a == b
  | .json a, .json b => a.equal b
  | .expression a, .expression b => a == b
  | _, _ => false

end Value

end TableSql
