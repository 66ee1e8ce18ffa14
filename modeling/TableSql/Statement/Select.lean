import TableSql.Statement.Clause

/-!
# Select statements

A select statement is built by calls in a fixed order, may be bound and executed any number of
times, and may be limited anew after each execution.

## Stages

A stage is named for the last call, and `SelectStatement.Stage.allowed` lists what may follow it.
The lists are data: they decide whether a call is made, and a refused call tells them. A stage
remembers nothing else, so what an execution leaves open is said in one line, that of `executed`:
the limit may be set anew, and an offset or a lock only behind it.

## Compiling and executing

`SelectStatement.compile` may be asked at any time, also of a statement that could not be executed
yet, and fails on the first placeholder without a value that it meets.
`SelectStatement.prepareExecute` asks first whether an execution is allowed and then whether any
value is missing, and tells all names that lack one. Updates and deletions follow this pattern.

## Main definitions

* `SelectStatement.Stage` — how far a statement is, with the calls allowed there
* `SelectStatement` — the clauses gathered so far
* `SelectStatement.all`, `SelectStatement.ofColumns` — a new statement
* `SelectStatement.Call`, `SelectStatement.apply` — the calls, and the statement after one
* `SelectStatement.compile`, `SelectStatement.prepareExecute` — the SQL text and values, at any time
  or for an execution
-/

namespace TableSql

namespace SelectStatement

/-- The last call that a statement has taken. -/
inductive Stage where
  | select
  | filter
  | groupBy
  | having
  | orderBy
  | limit
  | offset
  | lock
  | bind
  | executed
deriving DecidableEq, Repr

/-- The calls that may come next. -/
def Stage.allowed : Stage → List Operation
  | .select =>
    [.filter, .groupBy, .orderBy, .limit, .lockShared, .lockExclusive, .bind, .execute]
  | .filter => [.groupBy, .orderBy, .limit, .lockShared, .lockExclusive, .bind, .execute]
  | .groupBy => [.having, .orderBy, .limit, .lockShared, .lockExclusive, .bind, .execute]
  | .having => [.orderBy, .limit, .lockShared, .lockExclusive, .bind, .execute]
  | .orderBy => [.limit, .lockShared, .lockExclusive, .bind, .execute]
  | .limit => [.offset, .lockShared, .lockExclusive, .bind, .execute]
  | .offset => [.lockShared, .lockExclusive, .bind, .execute]
  | .lock => [.bind, .execute]
  | .bind => [.bind, .execute]
  | .executed => [.limit, .bind, .execute]

/-- A call on a select statement. -/
inductive Call where
  | filter (condition : Condition)
  | groupBy (columns : ColumnList)
  | having (condition : Condition)
  | orderBy (criteria : ColumnList)
  | limit (count : UInt64)
  | offset (count : UInt64)
  | lockShared (mode : LockArgument)
  | lockExclusive (mode : LockArgument)
  | bind (name : String) (value : Value)

/-- The call without its argument. -/
def Call.operation : Call → Operation
  | .filter _ => .filter
  | .groupBy _ => .groupBy
  | .having _ => .having
  | .orderBy _ => .orderBy
  | .limit _ => .limit
  | .offset _ => .offset
  | .lockShared _ => .lockShared
  | .lockExclusive _ => .lockExclusive
  | .bind _ _ => .bind

/-- The stage after a call. -/
def Call.stage : Call → Stage
  | .filter _ => .filter
  | .groupBy _ => .groupBy
  | .having _ => .having
  | .orderBy _ => .orderBy
  | .limit _ => .limit
  | .offset _ => .offset
  | .lockShared _ => .lock
  | .lockExclusive _ => .lock
  | .bind _ _ => .bind

end SelectStatement

/-- A select statement. An empty projection stands for every column. -/
structure SelectStatement where
  table : TableRef
  projection : List String
  filter : Option Template := none
  grouping : List String := []
  having : Option Template := none
  ordering : List OrderCriterion := []
  limit : Option UInt64 := none
  offset : Option UInt64 := none
  lock : Option LockMode := none
  bindings : Bindings := .empty
  stage : SelectStatement.Stage := .select

namespace SelectStatement

/-- The statement as errors name it. -/
def title : String := "TableSelect"

/-- The context of an execution. -/
def executeContext : String := Operation.execute.context title

/-! ### Building -/

/-- A statement that selects every column. -/
def all (table : TableRef) : SelectStatement :=
  { table, projection := [] }

/-- A statement that selects columns or expressions. -/
def ofColumns (table : TableRef) (columns : ColumnList) : Except Error SelectStatement :=
  match columns.toTexts "Table.select" .projection with
  | .ok projection => .ok { table, projection }
  | .error e => .error e

/-- The calls that may come next. -/
def operations (s : SelectStatement) : List Operation :=
  s.stage.allowed

/-- The statement after a call that is allowed, but for its stage. -/
def perform (s : SelectStatement) (context : String) : Call → Except Error SelectStatement
  | .filter condition => do
    let t ← Template.ofText context (← condition.toText context)
    return { s with filter := some t, bindings := s.bindings.register t.names }
  | .groupBy columns => do
    return { s with grouping := ← columns.toTexts context .grouping }
  | .having condition => do
    let t ← Template.ofText context (← condition.toText context)
    return { s with having := some t, bindings := s.bindings.register t.names }
  | .orderBy criteria => do
    return { s with ordering := ← orderCriteria context criteria }
  | .limit count => .ok { s with limit := some count }
  | .offset count => .ok { s with offset := some count }
  | .lockShared mode => do
    return { s with lock := some (.shared (← mode.toContention context)) }
  | .lockExclusive mode => do
    return { s with lock := some (.exclusive (← mode.toContention context)) }
  | .bind name value => do
    return { s with bindings := ← s.bindings.bind context name value }

/-- The statement after a call. -/
def apply (s : SelectStatement) (call : Call) : Except Error SelectStatement :=
  call.operation.guarded title s.operations fun context =>
    match s.perform context call with
    | .ok s' => .ok { s' with stage := call.stage }
    | .error e => .error e

/-! ### Compiling -/

/-- The columns between `SELECT` and `FROM`. -/
def projectionText (s : SelectStatement) : String :=
  if s.projection = [] then "*" else String.intercalate ", " s.projection

/-- The greatest number of rows and the number of rows to skip, which needs a limit. -/
def limitClause (s : SelectStatement) : Fragment :=
  match s.limit with
  | none => .empty
  | some n => Clause.limit (some n) ++ Clause.count " OFFSET " s.offset

/-- The clause that locks rows. -/
def lockClause (s : SelectStatement) : Fragment :=
  match s.lock with
  | none => .empty
  | some mode => .ofText mode.toSql

/-- The statement's text and values. -/
def fragment (s : SelectStatement) : Except Error Fragment := do
  let filter ← Clause.condition " WHERE " executeContext s.bindings s.filter
  let having ← Clause.condition " HAVING " executeContext s.bindings s.having
  return .ofText ("SELECT " ++ s.projectionText ++ " FROM " ++ s.table.toSql) ++ filter ++
    Clause.list " GROUP BY " s.grouping ++ having ++ Clause.ordering s.ordering ++
    s.limitClause ++ s.lockClause

/-- The statement as it is sent. -/
def compile (s : SelectStatement) : Except Error CompiledStatement := do
  return .ofFragment .select (← s.fragment)

/-- The statement as an execution sends it: only where it may be executed now and every
placeholder has a value. -/
def prepareExecute (s : SelectStatement) : Except Error CompiledStatement :=
  Operation.execute.guarded title s.operations fun context => do
    s.bindings.ensureComplete context
    s.compile

/-- The statement after an execution. -/
def executed (s : SelectStatement) : SelectStatement :=
  { s with stage := .executed }

end SelectStatement

end TableSql
