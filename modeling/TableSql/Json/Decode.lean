import TableSql.Json.Reader

/-!
# Reading parts of JSON text

Trees of JSON text read as values of one type: a text, an integer between bounds, a floating-point
number, bytes, or a record with known members.

## Main definitions

* `Json.Node.text?`, `Json.Node.integerIn?`, `Json.Node.float?`, `Json.Node.float32?`,
  `Json.Node.bytes?` — single values
* `Json.Node.recordMembers?` — the members of a record that have a known name
-/

namespace TableSql.Json.Node

/-- The text of a string node. -/
def text? : Node → Option String
  | .string parts => decodeString? parts
  | _ => none

/-- The integer of a number node. -/
def integer? : Node → Option Int
  | .number n =>
    match n.value? with
    | some (.integer i) => some i.val
    | _ => none
  | _ => none

/-- The integer of a number node between two bounds. -/
def integerIn? (least greatest : Int) (node : Node) : Option Int :=
  (integer? node).filter fun n => least ≤ n && n ≤ greatest

/-- The double of a number node. -/
def float? : Node → Option Float
  | .number n =>
    match n.value? with
    | some (.integer i) =>
      some (if i.val < 0 then (Int64.ofInt i.val).toFloat else (UInt64.ofNat i.val.toNat).toFloat)
    | some (.float x) => some x
    | none => none
  | _ => none

/-- The single of a number node; a double is rounded to it. -/
def float32? : Node → Option Float32
  | .number n =>
    match n.value? with
    | some (.integer i) =>
      some (if i.val < 0 then (Int64.ofInt i.val).toFloat32
        else (UInt64.ofNat i.val.toNat).toFloat32)
    | some (.float x) => some x.toFloat32
    | none => none
  | _ => none

/-- The bytes of a list of numbers. -/
def bytes? : Node → Option (List UInt8)
  | .array elements => elements.mapM fun x => (integerIn? 0 255 x).map fun n => .ofNat n.toNat
  | _ => none

/-- The members of a record, by name. A member of another name is passed over; a name that is no
text and a repeated name are refused. -/
def recordMembers? (names : List String) :
    List (List StringPart × Node) → Option (List (String × Node))
  | [] => some []
  | (k, x) :: rest =>
    match decodeString? k, recordMembers? names rest with
    | some name, some others =>
      if names.contains name then
        if (Members.get? name others).isSome then none else some ((name, x) :: others)
      else some others
    | _, _ => none

end TableSql.Json.Node
