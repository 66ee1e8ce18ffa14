import TableSql.Result.Column
import TableSql.Result.Row

/-!
# Result cursors

The rows of a result, which are taken from the front and only once.

## Implementation notes

A cursor that is moved is a new result beside what was taken. The columns stay, so they can be asked
for when all rows are gone. Rows are taken first and decoded afterwards: a row of the wrong form
costs all rows that were left.

## Main definitions

* `RowResult` — the columns of a result and the rows that are left
* `RowResult.fetchOne`, `RowResult.next`, `RowResult.fetchAll` — the next row, or all that are left,
  each with the result that remains
* `RowResult.fetchAllAs` — all rows left, each read as a value of another type
* `Json.toInt64Map?`, `Json.toOptionalTextMap?` — objects read as maps
-/

namespace TableSql

/-- The columns of a result and the rows not yet taken. -/
structure RowResult where
  columns : List Column
  rows : List Row

namespace RowResult

/-- A result without columns and rows. -/
def empty : RowResult := ⟨[], []⟩

/-- The result of a server's rows: each gets the names of the columns. -/
def ofRows (columns : List Column) (rows : List (List Value)) : RowResult :=
  ⟨columns, rows.map fun values => ⟨columns.map Column.name, values⟩⟩

/-- The next row, and the result after it. -/
def fetchOne (r : RowResult) : Option Row × RowResult :=
  match r.rows with
  | [] => (none, r)
  | row :: rest => (some row, { r with rows := rest })

/-- The next row, where the result is gone through as a sequence of rows. -/
def next (r : RowResult) : Option Row × RowResult :=
  r.fetchOne

/-- All rows that are left, and the result without them. -/
def fetchAll (r : RowResult) : List Row × RowResult :=
  (r.rows, { r with rows := [] })

/-- Every row read as a value of another type. -/
def decodeRows {α : Type} (decode : Json → Option α) : List Row → Except Error (List α)
  | [] => .ok []
  | row :: rest =>
    match decode row.toJson, decodeRows decode rest with
    | some x, .ok xs => .ok (x :: xs)
    | _, _ => .error .serialization

/-- All rows that are left, read as values of another type. They are taken even where one of them
does not fit the type. -/
def fetchAllAs {α : Type} (decode : Json → Option α) (r : RowResult) :
    Except Error (List α) × RowResult :=
  let (rows, rest) := r.fetchAll
  (decodeRows decode rows, rest)

/-- Some row is left. -/
def hasData (r : RowResult) : Bool :=
  !r.rows.isEmpty

/-- The names of the columns, in order. -/
def columnNames (r : RowResult) : List String :=
  r.columns.map Column.name

/-- The number of columns. -/
def columnCount (r : RowResult) : Nat :=
  r.columns.length

/-! ### What is taken and what is left -/

/-- The row taken and the rows left are the rows there were. -/
theorem fetchOne_rows (r : RowResult) : r.fetchOne.1.toList ++ r.fetchOne.2.rows = r.rows := by
  unfold fetchOne
  split <;> simp_all

@[simp] theorem fetchOne_columns (r : RowResult) : r.fetchOne.2.columns = r.columns := by
  unfold fetchOne
  split <;> rfl

@[simp] theorem fetchAll_rows (r : RowResult) : r.fetchAll.2.rows = [] := rfl

@[simp] theorem fetchAll_columns (r : RowResult) : r.fetchAll.2.columns = r.columns := rfl

end RowResult

/-! ### Rows as maps -/

namespace Json

/-- A signed word. -/
def toInt64? : Json → Option Int64
  | .integer n => if n.val < Int.pow 2 63 then some (.ofInt n.val) else none
  | _ => none

/-- A text or null. -/
def toOptionalText? : Json → Option (Option String)
  | .null => some none
  | .string s => some (some s)
  | _ => none

/-- The members of an object, each read as a value of another type. -/
def toMap? {α : Type} (read : Json → Option α) : Json → Option (List (String × α))
  | .object members => members.mapM fun m => (read m.2).map fun x => (m.1, x)
  | _ => none

/-- An object of signed words. -/
def toInt64Map? : Json → Option (List (String × Int64)) :=
  toMap? toInt64?

/-- An object of texts and nulls. -/
def toOptionalTextMap? : Json → Option (List (String × Option String)) :=
  toMap? toOptionalText?

end Json

end TableSql
