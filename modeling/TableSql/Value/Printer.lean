import TableSql.Value.Basic
import TableSql.Json.Printer

/-!
# Values as text and as JSON

A value has two readable forms. The text is for people, and lossy where a value is long or has no
text; the JSON form is for programs, and is what rows are made of.

## Main definitions

* `Value.display` — a value for people to read
* `Value.toJson` — a value as a member of a row's JSON object
-/

namespace TableSql.Value

/-- The value as text. A blob is shown by its size only. -/
def display : Value → String
  | .null => "NULL"
  | .bool true => "true"
  | .bool false => "false"
  | .bigint n => String.ofList (Json.integerChars n.toInt)
  | .unsigned n => String.ofList (Json.integerChars n.toNat)
  | .float x => Decimal.Layout.plain.ofFloat32 x
  | .double x => Decimal.Layout.plain.ofFloat x
  | .decimal digits => digits
  | .text s => s
  | .blob bytes => "<" ++ String.ofList (Nat.toDigits 10 bytes.length) ++ " bytes>"
  | .json j => j.text
  | .expression sql => sql

/-- The value as JSON. Exact numbers and expressions become strings, blobs lists of numbers. -/
def toJson : Value → Json
  | .null => .null
  | .bool b => .bool b
  | .bigint n => .integer (.ofInt64 n)
  | .unsigned n => .integer (.ofUInt64 n)
  | .float x => .ofFloat x.toFloat
  | .double x => .ofFloat x
  | .decimal digits => .string digits
  | .text s => .string s
  | .blob bytes => .ofBytes bytes
  | .json j => j
  | .expression sql => .string sql

end TableSql.Value
