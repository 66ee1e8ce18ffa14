import TableSql.Error
import TableSql.Value.Printer

/-!
# Rows

The values of one row with the names of its columns. The two lists may differ in length and names
may repeat.

## Implementation notes

A position asks for a value and a name asks for a position. A name that occurs twice is refused
rather than read as the first or the last one, also where both columns hold the same value; as
members of a JSON object repeated names can not be kept, and there the last value stands.

## Main definitions

* `Row` — names and values
* `Row.get?`, `Row.field` — a value by its position and by its column's name
* `Row.toJson` — the row as a JSON object
-/

namespace TableSql

/-- The values of a row, with the names of its columns. -/
structure Row where
  names : List String
  values : List Value

namespace Row

/-- The value at a position. -/
def get? (r : Row) (index : Nat) : Option Value :=
  r.values[index]?

/-- The positions of the columns with a name. -/
def indexesOf (r : Row) (name : String) : List Nat :=
  (List.range r.names.length).filter fun i => r.names[i]? == some name

/-- The value of the only column with a name. -/
def field (r : Row) (name : String) : Except Error Value :=
  match r.indexesOf name with
  | [] => .error (.columnNotFound name)
  | [i] =>
    match r.get? i with
    | some v => .ok v
    | none => .error (.columnNotFound name)
  | _ :: _ :: _ => .error (.ambiguousColumn name)

/-- The row as a JSON object. Of a repeated name the last value stands. -/
def toJson (r : Row) : Json :=
  .ofMembers ((r.names.zip r.values).map fun m => (m.1, m.2.toJson))

/-- The row as JSON text. -/
def display (r : Row) : String :=
  r.toJson.text

end Row

end TableSql
