import TableSql.Statement.Clause

/-!
# Delete statements

A delete statement removes the rows that its filter lets through, in an order and up to a number.

## Stages

The stages of `SelectStatement` are the pattern here too. A statement that no call was made on may
be executed, and removes every row then, but it takes no binding, as it refers to nothing.

## Main definitions

* `DeleteStatement.Stage` — how far a statement is, with the calls allowed there
* `DeleteStatement` — the clauses gathered so far
* `DeleteStatement.ofTable` — a new statement
* `DeleteStatement.Call`, `DeleteStatement.apply` — the calls, and the statement after one
* `DeleteStatement.compile`, `DeleteStatement.prepareExecute` — the SQL text and values, at any time
  or for an execution
-/

namespace TableSql

namespace DeleteStatement

/-- The last call that a statement has taken. -/
inductive Stage where
  | delete
  | filter
  | orderBy
  | limit
  | bind
  | executed
deriving DecidableEq, Repr

/-- The calls that may come next. A new statement refers to nothing, so it takes no binding. -/
def Stage.allowed : Stage → List Operation
  | .delete => [.filter, .orderBy, .limit, .execute]
  | .filter => [.orderBy, .limit, .bind, .execute]
  | .orderBy => [.limit, .bind, .execute]
  | .limit => [.bind, .execute]
  | .bind => [.bind, .execute]
  | .executed => [.limit, .bind, .execute]

/-- A call on a delete statement. -/
inductive Call where
  | filter (condition : Condition)
  | orderBy (criteria : ColumnList)
  | limit (count : UInt64)
  | bind (name : String) (value : Value)

/-- The call without its argument. -/
def Call.operation : Call → Operation
  | .filter _ => .filter
  | .orderBy _ => .orderBy
  | .limit _ => .limit
  | .bind _ _ => .bind

/-- The stage after a call. -/
def Call.stage : Call → Stage
  | .filter _ => .filter
  | .orderBy _ => .orderBy
  | .limit _ => .limit
  | .bind _ _ => .bind

end DeleteStatement

/-- A delete statement. -/
structure DeleteStatement where
  table : TableRef
  filter : Option Template := none
  ordering : List OrderCriterion := []
  limit : Option UInt64 := none
  bindings : Bindings := .empty
  stage : DeleteStatement.Stage := .delete

namespace DeleteStatement

/-- The statement as errors name it. -/
def title : String := "TableDelete"

/-- The context of an execution. -/
def executeContext : String := Operation.execute.context title

/-! ### Building -/

/-- A statement that removes every row. -/
def ofTable (table : TableRef) : DeleteStatement :=
  { table }

/-- The calls that may come next. -/
def operations (s : DeleteStatement) : List Operation :=
  s.stage.allowed

/-- The statement after a call that is allowed, but for its stage. -/
def perform (s : DeleteStatement) (context : String) : Call → Except Error DeleteStatement
  | .filter condition => do
    let t ← Template.ofText context (← condition.toText context)
    return { s with filter := some t, bindings := s.bindings.register t.names }
  | .orderBy criteria => do
    return { s with ordering := ← orderCriteria context criteria }
  | .limit count => .ok { s with limit := some count }
  | .bind name value => do
    return { s with bindings := ← s.bindings.bind context name value }

/-- The statement after a call. -/
def apply (s : DeleteStatement) (call : Call) : Except Error DeleteStatement :=
  call.operation.guarded title s.operations fun context =>
    match s.perform context call with
    | .ok s' => .ok { s' with stage := call.stage }
    | .error e => .error e

/-! ### Compiling -/

/-- The statement's text and values. -/
def fragment (s : DeleteStatement) : Except Error Fragment := do
  let filter ← Clause.condition " WHERE " executeContext s.bindings s.filter
  return .ofText ("DELETE FROM " ++ s.table.toSql) ++ filter ++ Clause.ordering s.ordering ++
    Clause.limit s.limit

/-- The statement as it is sent. -/
def compile (s : DeleteStatement) : Except Error CompiledStatement := do
  return .ofFragment .delete (← s.fragment)

/-- The statement as an execution sends it: only where it may be executed now and every
placeholder has a value. -/
def prepareExecute (s : DeleteStatement) : Except Error CompiledStatement :=
  Operation.execute.guarded title s.operations fun context => do
    s.bindings.ensureComplete context
    s.compile

/-- The statement after an execution. -/
def executed (s : DeleteStatement) : DeleteStatement :=
  { s with stage := .executed }

end DeleteStatement

end TableSql
