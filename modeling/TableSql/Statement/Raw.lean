import TableSql.Compiled
import TableSql.Text.Blank

/-!
# Raw SQL statements

SQL text that is sent as it is, with values for its `?` markers bound in order.

## Implementation notes

The text is never changed and there are no stages: values are bound and cleared at any time, and
whether they fit the text is asked only when the statement is compiled. An expression is refused
then, since it would have to be written into the text.

## Main definitions

* `SqlStatement` — the text and the values bound so far
* `SqlStatement.bind`, `SqlStatement.bindAll`, `SqlStatement.clearBindings` — its calls
* `SqlStatement.compile` — the statement as it is sent, where text and values match
-/

namespace TableSql

/-- SQL text and the values bound to its markers. -/
structure SqlStatement where
  text : String
  params : List Value := []

namespace SqlStatement

/-- The context that errors name. -/
def context : String := Operation.execute.context "SqlStatement"

/-- A statement without values. -/
def ofText (text : String) : SqlStatement :=
  { text }

/-- Binds a value to the next marker. -/
def bind (s : SqlStatement) (v : Value) : SqlStatement :=
  { s with params := s.params ++ [v] }

/-- Binds values to the next markers. -/
def bindAll (s : SqlStatement) (vs : List Value) : SqlStatement :=
  { s with params := s.params ++ vs }

/-- Forgets all values. -/
def clearBindings (s : SqlStatement) : SqlStatement :=
  { s with params := [] }

/-- The calls that may come next, at any time. -/
def operations (_ : SqlStatement) : List Operation :=
  [.bind, .execute]

/-- The number of markers in the text. -/
def markers (s : SqlStatement) : Except Error Nat :=
  match Sql.countMarkers? s.text with
  | .ok n => .ok n
  | .error u => .error (.invalidArgument context (.unterminatedString u.offset))

/-- The statement as it is sent. The text may not be blank and needs one value, that is no
expression, for each marker. -/
def compile (s : SqlStatement) : Except Error CompiledStatement :=
  if Text.isBlank s.text then .error (.invalidArgument context .blankSql)
  else do
    let n ← s.markers
    if n ≠ s.params.length then
      .error (.invalidArgument context (.markerCount n s.params.length))
    else if s.params.any Value.isExpression then
      .error (.invalidArgument context .expressionParameter)
    else .ok ⟨.sql, s.text, s.params⟩

end SqlStatement

end TableSql
