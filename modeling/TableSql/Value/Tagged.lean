import TableSql.Value.Printer
import TableSql.Json.Decode

/-!
# Tagged form

Values as JSON text that keeps their type: an object whose only key is the type's tag, or the bare
tag for a null value.

## Main definitions

* `Value.taggedText` — the tagged form of a value
* `Value.ofTagged?` — the value of a tagged form
-/

namespace TableSql.Value

/-! ### Writing -/

/-- An object with one member. -/
def tagged (tag : String) (payload : List Char) : List Char :=
  '\x7b' :: (Json.stringChars tag ++ ':' :: (payload ++ ['\x7d']))

/-- The tagged form of a value. -/
def taggedChars : Value → List Char
  | .null => Json.stringChars "Null"
  | .bool b => tagged "Bool" (Json.bool b).chars
  | .bigint n => tagged "I64" (Json.integerChars n.toInt)
  | .unsigned n => tagged "U64" (Json.integerChars n.toNat)
  | .float x => tagged "F32" (Decimal.Layout.jsonSingle.ofFloat32 x).toList
  | .double x => tagged "F64" (Decimal.Layout.json.ofFloat x).toList
  | .decimal digits => tagged "Decimal" (Json.stringChars digits)
  | .text s => tagged "String" (Json.stringChars s)
  | .blob bytes => tagged "Bytes" (Json.ofBytes bytes).chars
  | .json j => tagged "Json" j.chars
  | .expression sql => tagged "Expr" (tagged "data" (Json.stringChars sql))

/-- The tagged form of a value. -/
def taggedText (v : Value) : String :=
  String.ofList v.taggedChars

/-! ### Reading -/

open Json (Node)

/-- The text of an expression: a record with the member `data`, or a list of its value alone. -/
def expressionText? : Node → Option String
  | .array [x] => Node.text? x
  | .object members =>
    ((Node.recordMembers? ["data"] members).bind (Members.get? "data")).bind Node.text?
  | _ => none

/-- The value of a tag and its payload. An expression, array or object counts as one level of
nesting below the object that holds the tag. -/
def ofTag? (tag : String) (payload : Node) : Option Value :=
  match tag with
  | "Null" =>
    match payload with
    | .null => some .null
    | _ => none
  | "Bool" =>
    match payload with
    | .bool b => some (.bool b)
    | _ => none
  | "I64" =>
    (Node.integerIn? (-Int.pow 2 63) (Int.pow 2 63 - 1) payload).map fun n => .bigint (.ofInt n)
  | "U64" => (Node.integerIn? 0 (Int.pow 2 64 - 1) payload).map fun n => .unsigned (.ofNat n.toNat)
  | "F32" => (Node.float32? payload).map .float
  | "F64" => (Node.float? payload).map .double
  | "Decimal" => (Node.text? payload).map .decimal
  | "String" => (Node.text? payload).map .text
  | "Bytes" => (Node.bytes? payload).map .blob
  | "Json" => (payload.toJson? (Json.depthLimit - 1)).map .json
  | "Expr" => (expressionText? payload).map .expression
  | _ => none

/-- The value of a tree: a bare tag, or an object with one member. -/
def ofNode? : Node → Option Value
  | .string parts =>
    match Json.decodeString? parts with
    | some "Null" => some .null
    | _ => none
  | .object [(key, payload)] => (Json.decodeString? key).bind (ofTag? · payload)
  | _ => none

/-- The value that a tagged form stands for. -/
def ofTagged? (text : String) : Option Value :=
  (Node.parse? text).bind ofNode?

end TableSql.Value
