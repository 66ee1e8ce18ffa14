import TableSql.Document
import TableSql.Statement.Clause

/-!
# Insert statements

An insert statement adds rows to a table: rows given one by one, for all columns or for some, or a
single row given as a document.

## Rows

Rows are gathered as they come. Their lengths are compared only when the text is made, with the
column list or else with the first row, and the first row that differs is told by its number. The
names of a document become the column list, so its row always fits.

There is nothing to bind: an expression in a row is rendered without bindings, and one that refers
to a placeholder keeps the statement from being compiled.

## Main definitions

* `InsertStatement.Stage` — how far a statement is, with the calls allowed there
* `InsertStatement` — the columns and rows gathered so far
* `InsertStatement.ofTable`, `InsertStatement.ofColumns`, `InsertStatement.ofDocument` — a new
  statement
* `InsertStatement.Call`, `InsertStatement.apply` — the call, and the statement after it
* `InsertStatement.compile`, `InsertStatement.prepareExecute` — the SQL text and values, at any time
  or for an execution
-/

namespace TableSql

namespace InsertStatement

/-- The last call that a statement has taken, or how it was made. -/
inductive Stage where
  | insert
  | values
  | document
  | executed
deriving DecidableEq, Repr

/-- The calls that may come next. -/
def Stage.allowed : Stage → List Operation
  | .insert => [.values]
  | .values => [.values, .execute]
  | .document => [.execute]
  | .executed => [.execute]

/-- A call on an insert statement. -/
inductive Call where
  | values (row : List Value)

/-- The call without its argument. -/
def Call.operation : Call → Operation
  | .values _ => .values

/-- The stage after a call. -/
def Call.stage : Call → Stage
  | .values _ => .values

end InsertStatement

/-- An insert statement. An empty list of columns stands for every column. -/
structure InsertStatement where
  table : TableRef
  columns : List String := []
  rows : List (List Value) := []
  stage : InsertStatement.Stage := .insert

namespace InsertStatement

/-- The statement as errors name it. -/
def title : String := "TableInsert"

/-- The context of an execution. -/
def executeContext : String := Operation.execute.context title

/-! ### Building -/

/-- A statement whose rows have a value for every column. -/
def ofTable (table : TableRef) : InsertStatement :=
  { table }

/-- A statement whose rows have a value for each of these columns. -/
def ofColumns (table : TableRef) (columns : ColumnList) : Except Error InsertStatement :=
  match columns.toTexts "Table.insert" .columns with
  | .ok columns => .ok { table, columns }
  | .error e => .error e

/-- A statement with one row. -/
def ofDocument (table : TableRef) (document : Document) : Except Error InsertStatement :=
  match document.members "Table.insert" with
  | .error e => .error e
  | .ok [] => .error (.invalidArgument "Table.insert" .noMembers)
  | .ok members =>
    .ok { table
          columns := members.map (·.1)
          rows := [members.map (·.2)]
          stage := .document }

/-- The calls that may come next. -/
def operations (s : InsertStatement) : List Operation :=
  s.stage.allowed

/-- The statement after a call that is allowed, but for its stage. -/
def perform (s : InsertStatement) (context : String) : Call → Except Error InsertStatement
  | .values [] => .error (.invalidArgument context .noValues)
  | .values row => .ok { s with rows := s.rows ++ [row] }

/-- The statement after a call. -/
def apply (s : InsertStatement) (call : Call) : Except Error InsertStatement :=
  call.operation.guarded title s.operations fun context =>
    match s.perform context call with
    | .ok s' => .ok { s' with stage := call.stage }
    | .error e => .error e

/-! ### Compiling -/

/-- The length that every row should have: that of the column list, or else of the first row. -/
def rowLength (s : InsertStatement) : Nat :=
  if s.columns = [] then (s.rows.head?.map List.length).getD 0 else s.columns.length

/-- Fails on the first row, from `index` on, that is not of the expected length. -/
def checkLengths (expected : Nat) : (index : Nat) → List (List Value) → Except Error Unit
  | _, [] => .ok ()
  | i, row :: rest =>
    if row.length = expected then checkLengths expected (i + 1) rest
    else .error (.invalidArgument executeContext (.rowLength i row.length expected))

/-- A cell of a row. Expressions may hold no placeholder, as nothing can be bound to it. -/
def cell (v : Value) : Except Error Fragment :=
  v.render executeContext .empty

/-- A row in parentheses. -/
def row (values : List Value) : Except Error Fragment := do
  return (Fragment.join ", " (← values.mapM cell)).parenthesize

/-- The column list in parentheses, with a space in front. -/
def columnClause (s : InsertStatement) : Fragment :=
  match s.columns with
  | [] => .empty
  | columns =>
    .ofText (" (" ++ String.intercalate ", " (columns.map Sql.quoteIdentifier) ++ ")")

/-- The statement's text and values. -/
def fragment (s : InsertStatement) : Except Error Fragment :=
  if s.rows = [] then .error (.invalidArgument executeContext .noRows)
  else do
    checkLengths s.rowLength 0 s.rows
    let rows ← s.rows.mapM row
    return .ofText ("INSERT INTO " ++ s.table.toSql) ++ s.columnClause ++ .ofText " VALUES " ++
      Fragment.join ", " rows

/-- The statement as it is sent. -/
def compile (s : InsertStatement) : Except Error CompiledStatement := do
  return .ofFragment .insert (← s.fragment)

/-- The statement as an execution sends it, where it may be executed now. -/
def prepareExecute (s : InsertStatement) : Except Error CompiledStatement :=
  Operation.execute.guarded title s.operations fun _ => s.compile

/-- The statement after an execution. -/
def executed (s : InsertStatement) : InsertStatement :=
  { s with stage := .executed }

end InsertStatement

end TableSql
