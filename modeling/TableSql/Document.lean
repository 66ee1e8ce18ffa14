import TableSql.Error
import TableSql.Value.Basic

/-!
# Documents

A row given as named values. Whatever form a document comes in, its members stand in the order of
their names.

## Implementation notes

Members are put in order at once, so that what a statement is made from does not depend on the order
in which a caller, or a map without an order, lists them.

## Main definitions

* `Document` — the forms
* `Value.ofJson` — the value of a JSON member
* `Document.members` — the named values of a document
-/

namespace TableSql

/-- The value of a JSON member. Scalars become plain values, and a structure stays JSON. -/
def Value.ofJson : Json → Value
  | .null => .null
  | .bool b => .bool b
  | .integer n =>
    if n.val < Int.pow 2 63 then .bigint (.ofInt n.val) else .unsigned (.ofNat n.val.toNat)
  | .float x => .double x
  | .string s => .text s
  | j => .json j

/-- A row as named values. -/
inductive Document where
  /-- A JSON value, which must be an object. -/
  | json (j : Json)
  /-- Names and values in any order; the last value of a name stands. -/
  | pairs (members : List (String × Value))

/-- The named values of a document, in the order of their names. -/
def Document.members (context : String) : Document → Except Error (List (String × Value))
  | .json (.object members) => .ok (members.map fun m => (m.1, Value.ofJson m.2))
  | .json _ => .error (.invalidArgument context .notObject)
  | .pairs members => .ok (Members.ofList members)

end TableSql
