import TableSql.Statement.Clause

/-!
# Update statements

An update statement assigns values or expressions to columns. Assigning to a column again replaces
its value and forgets the placeholders that only the old one referred to.

## Assignments

A replaced assignment keeps its place, so columns stand in the order of their first assignment.
Values are kept as they were given. The text of an assigned expression is scanned when it comes in,
when an assignment is replaced, to see which names are still in use, and when the statement is
compiled; only the first of these scans can fail.

The stages of `SelectStatement` are the pattern here too. A new statement takes an assignment and
nothing else, so an execution always has something to assign.

## Main definitions

* `UpdateStatement.Stage` — how far a statement is, with the calls allowed there
* `UpdateStatement` — the clauses gathered so far
* `UpdateStatement.ofTable` — a new statement
* `UpdateStatement.Call`, `UpdateStatement.apply` — the calls, and the statement after one
* `UpdateStatement.compile`, `UpdateStatement.prepareExecute` — the SQL text and values, at any time
  or for an execution
-/

namespace TableSql

namespace UpdateStatement

/-- The last call that a statement has taken. -/
inductive Stage where
  | update
  | set
  | filter
  | orderBy
  | limit
  | bind
  | executed
deriving DecidableEq, Repr

/-- The calls that may come next. -/
def Stage.allowed : Stage → List Operation
  | .update => [.set]
  | .set => [.set, .filter, .orderBy, .limit, .bind, .execute]
  | .filter => [.orderBy, .limit, .bind, .execute]
  | .orderBy => [.limit, .bind, .execute]
  | .limit => [.bind, .execute]
  | .bind => [.bind, .execute]
  | .executed => [.limit, .bind, .execute]

/-- A call on an update statement. -/
inductive Call where
  | set (column : String) (value : Value)
  | filter (condition : Condition)
  | orderBy (criteria : ColumnList)
  | limit (count : UInt64)
  | bind (name : String) (value : Value)

/-- The call without its argument. -/
def Call.operation : Call → Operation
  | .set _ _ => .set
  | .filter _ => .filter
  | .orderBy _ => .orderBy
  | .limit _ => .limit
  | .bind _ _ => .bind

/-- The stage after a call. -/
def Call.stage : Call → Stage
  | .set _ _ => .set
  | .filter _ => .filter
  | .orderBy _ => .orderBy
  | .limit _ => .limit
  | .bind _ _ => .bind

/-- A column and what is assigned to it. -/
structure Assignment where
  column : String
  value : Value

/-- The assignment, or the one that takes its place if it is to this column. -/
def Assignment.replaced (column : String) (value : Value) (a : Assignment) : Assignment :=
  if a.column == column then ⟨column, value⟩ else a

end UpdateStatement

/-- An update statement. -/
structure UpdateStatement where
  table : TableRef
  assignments : List UpdateStatement.Assignment := []
  filter : Option Template := none
  ordering : List OrderCriterion := []
  limit : Option UInt64 := none
  bindings : Bindings := .empty
  stage : UpdateStatement.Stage := .update

namespace UpdateStatement

/-- The statement as errors name it. -/
def title : String := "TableUpdate"

/-- The context of an execution. -/
def executeContext : String := Operation.execute.context title

/-! ### Building -/

/-- A statement that assigns nothing yet. -/
def ofTable (table : TableRef) : UpdateStatement :=
  { table }

/-- The calls that may come next. -/
def operations (s : UpdateStatement) : List Operation :=
  s.stage.allowed

/-- The names that the assignments and the filter refer to, repeats included. -/
def namesInUse (s : UpdateStatement) (context : String) : Except Error (List String) := do
  let assigned ← s.assignments.mapM (·.value.scanNames context)
  return assigned.flatten ++ (s.filter.map Template.names).getD []

/-- The statement has an assignment to a column. -/
def assigns (s : UpdateStatement) (column : String) : Bool :=
  s.assignments.any (·.column == column)

/-- Assigns to a column for the first time. -/
def assignNew (s : UpdateStatement) (column : String) (value : Value) : UpdateStatement :=
  { s with assignments := s.assignments ++ [⟨column, value⟩] }

/-- Assigns to a column in place of its last assignment, and forgets the names that nothing refers
to any more. -/
def reassign (s : UpdateStatement) (context column : String) (value : Value) :
    Except Error UpdateStatement := do
  let s' := { s with assignments := s.assignments.map (Assignment.replaced column value) }
  return { s' with bindings := s.bindings.retain (← s'.namesInUse context) }

/-- Assigns to a column: at the place of its last assignment, or behind all others. -/
def assign (s : UpdateStatement) (context column : String) (value : Value) :
    Except Error UpdateStatement := do
  let registered := { s with bindings := s.bindings.register (← value.scanNames context) }
  if s.assigns column then registered.reassign context column value
  else .ok (registered.assignNew column value)

/-- The statement after a call that is allowed, but for its stage. -/
def perform (s : UpdateStatement) (context : String) : Call → Except Error UpdateStatement
  | .set column value =>
    if Text.isBlank column then .error (.invalidArgument context .blankColumn)
    else s.assign context column value
  | .filter condition => do
    let t ← Template.ofText context (← condition.toText context)
    return { s with filter := some t, bindings := s.bindings.register t.names }
  | .orderBy criteria => do
    return { s with ordering := ← orderCriteria context criteria }
  | .limit count => .ok { s with limit := some count }
  | .bind name value => do
    return { s with bindings := ← s.bindings.bind context name value }

/-- The statement after a call. -/
def apply (s : UpdateStatement) (call : Call) : Except Error UpdateStatement :=
  call.operation.guarded title s.operations fun context =>
    match s.perform context call with
    | .ok s' => .ok { s' with stage := call.stage }
    | .error e => .error e

/-! ### Compiling -/

/-- A column, an equals sign and what is assigned. -/
def assignment (b : Bindings) (a : Assignment) : Except Error Fragment := do
  return .ofText (Sql.quoteIdentifier a.column ++ " = ") ++ (← a.value.render executeContext b)

/-- The statement's text and values. -/
def fragment (s : UpdateStatement) : Except Error Fragment :=
  if s.assignments.isEmpty then .error (.invalidArgument executeContext .noAssignments)
  else do
    let assignments ← s.assignments.mapM (assignment s.bindings)
    let filter ← Clause.condition " WHERE " executeContext s.bindings s.filter
    return .ofText ("UPDATE " ++ s.table.toSql ++ " SET ") ++ Fragment.join ", " assignments ++
      filter ++ Clause.ordering s.ordering ++ Clause.limit s.limit

/-- The statement as it is sent. -/
def compile (s : UpdateStatement) : Except Error CompiledStatement := do
  return .ofFragment .update (← s.fragment)

/-- The statement as an execution sends it: only where it may be executed now and every
placeholder has a value. -/
def prepareExecute (s : UpdateStatement) : Except Error CompiledStatement :=
  Operation.execute.guarded title s.operations fun context => do
    s.bindings.ensureComplete context
    s.compile

/-- The statement after an execution. -/
def executed (s : UpdateStatement) : UpdateStatement :=
  { s with stage := .executed }

end UpdateStatement

end TableSql
