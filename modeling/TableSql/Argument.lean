import TableSql.Error
import TableSql.Lock
import TableSql.Ordering
import TableSql.Value.Basic

/-!
# Arguments

The arguments that calls take in several forms: as texts, or as values whose type is only checked
when the call is made.

## Implementation notes

Each kind of argument is a type with the forms a caller may choose from, and is turned to text or to
a mode before a statement looks at it. Statements thus have one path for all forms. Elements are
checked in a fixed order: first that all are texts, then that there are some, then that none of them
is blank.

## Main definitions

* `Condition.toText` — the text of a condition
* `ColumnList.toTexts` — the texts of a list of columns or criteria
* `LockArgument.toContention` — the mode of a lock
* `orderCriteria` — the criteria of a list
-/

namespace TableSql

/-! ### Conditions -/

/-- A condition on rows or groups. -/
inductive Condition where
  | text (s : String)
  | value (v : Value)

namespace Condition

/-- A text that is not blank. -/
def checked (context text : String) : Except Error String :=
  if Text.isBlank text then .error (.invalidArgument context .blankExpression) else .ok text

/-- The text of a condition. A value must be a text or an expression. -/
def toText (context : String) : Condition → Except Error String
  | .text s => checked context s
  | .value (.text s) => checked context s
  | .value (.expression s) => checked context s
  | .value _ => .error (.invalidArgument context .notText)

end Condition

/-! ### Columns and criteria -/

/-- A list of columns or criteria, or a single one. -/
inductive ColumnList where
  | texts (entries : List String)
  | values (entries : List Value)
  | value (entry : Value)

namespace ColumnList

/-- The texts of values, which must all be texts. -/
def textsFrom (context : String) : (index : Nat) → List Value → Except Error (List String)
  | _, [] => .ok []
  | i, .text s :: rest =>
    match textsFrom context (i + 1) rest with
    | .ok others => .ok (s :: others)
    | .error e => .error e
  | i, _ :: _ => .error (.invalidArgument context (.elementNotText i))

/-- The entries, before anything is asked of their texts. -/
def entries (context : String) : ColumnList → Except Error (List String)
  | .texts entries => .ok entries
  | .values entries => textsFrom context 0 entries
  | .value (.text s) => .ok [s]
  | .value _ => .error (.invalidArgument context .notTextOrTexts)

/-- The entries of a list, of which there must be some and none may be blank. -/
def toTexts (context : String) (criteria : Criteria) (columns : ColumnList) :
    Except Error (List String) :=
  match columns.entries context with
  | .error e => .error e
  | .ok [] => .error (.invalidArgument context (.noElements criteria))
  | .ok found =>
    match found.findIdx? Text.isBlank with
    | some i => .error (.invalidArgument context (.blankElement i))
    | none => .ok found

end ColumnList

/-- The criteria of a list. -/
def orderCriteria (context : String) (columns : ColumnList) : Except Error (List OrderCriterion) :=
  match columns.toTexts context .ordering with
  | .ok entries => .ok (entries.map OrderCriterion.parse)
  | .error e => .error e

/-! ### Locks -/

/-- What to do about locked rows. -/
inductive LockArgument where
  | unspecified
  | mode (m : LockContention)
  | text (s : String)
  | value (v : Value)

namespace LockArgument

/-- The mode that a text names. -/
def ofText (context text : String) : Except Error LockContention :=
  match LockContention.parse? text with
  | some m => .ok m
  | none => .error (.invalidArgument context .notLockMode)

/-- The mode of an argument; to wait, where none is given. -/
def toContention (context : String) : LockArgument → Except Error LockContention
  | .unspecified => .ok .default
  | .mode m => .ok m
  | .text s => ofText context s
  | .value (.text s) => ofText context s
  | .value _ => .error (.invalidArgument context .notLockMode)

end LockArgument

end TableSql
