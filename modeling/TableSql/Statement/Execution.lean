import TableSql.Session
import TableSql.Statement.Delete
import TableSql.Statement.Insert
import TableSql.Statement.Raw
import TableSql.Statement.Select
import TableSql.Statement.Update

/-!
# Executing statements

An execution prepares a statement, hands it to the server and reads the reply. A statement that is
not ready is not handed over. Only a successful execution moves the statement on.

## Implementation notes

`Session.perform` is the whole of an execution. The five `execute` functions only say how the
statement is prepared and how a reply is read. They return the statement beside the outcome, since
an execution may move it on; after a failure `afterSuccess` gives it back as it was, and the same
execution may be tried again. Raw SQL has no stage that could move.

## Main definitions

* `Session.perform` — a prepared statement handed over, and its reply read
* `SelectStatement.execute`, `InsertStatement.execute`, `UpdateStatement.execute`,
  `DeleteStatement.execute`, `SqlStatement.execute` — the executions
* `Statement` — a statement of any kind
-/

namespace TableSql

variable {σ α β : Type}

/-- Hands over a statement if it is ready, and reads the reply. -/
def Session.perform (server : Server σ) (prepared : Except Error CompiledStatement)
    (read : Reply → α) (s : Session σ) : Except Error α × Session σ :=
  match prepared with
  | .error e => (.error e, s)
  | .ok statement =>
    match s.run server statement with
    | (.ok reply, s') => (.ok (read reply), s')
    | (.error e, s') => (.error e, s')

/-- The second of two values after a success, the first after a failure. -/
def afterSuccess (outcome : Except Error α) (before after : β) : β :=
  match outcome with
  | .ok _ => after
  | .error _ => before

/-- The rows of a select statement, the statement after the execution and the session. -/
def SelectStatement.execute (server : Server σ) (s : SelectStatement) (session : Session σ) :
    Except Error RowResult × SelectStatement × Session σ :=
  let (outcome, session') := session.perform server s.prepareExecute Reply.toRowResult
  (outcome, afterSuccess outcome s s.executed, session')

/-- The counts of an insert statement, the statement after the execution and the session. -/
def InsertStatement.execute (server : Server σ) (s : InsertStatement) (session : Session σ) :
    Except Error MutationResult × InsertStatement × Session σ :=
  let (outcome, session') := session.perform server s.prepareExecute Reply.toMutationResult
  (outcome, afterSuccess outcome s s.executed, session')

/-- The counts of an update statement, the statement after the execution and the session. -/
def UpdateStatement.execute (server : Server σ) (s : UpdateStatement) (session : Session σ) :
    Except Error MutationResult × UpdateStatement × Session σ :=
  let (outcome, session') := session.perform server s.prepareExecute Reply.toMutationResult
  (outcome, afterSuccess outcome s s.executed, session')

/-- The counts of a delete statement, the statement after the execution and the session. -/
def DeleteStatement.execute (server : Server σ) (s : DeleteStatement) (session : Session σ) :
    Except Error MutationResult × DeleteStatement × Session σ :=
  let (outcome, session') := session.perform server s.prepareExecute Reply.toMutationResult
  (outcome, afterSuccess outcome s s.executed, session')

/-- The rows or counts of a raw SQL statement, and the session. -/
def SqlStatement.execute (server : Server σ) (s : SqlStatement) (session : Session σ) :
    Except Error SqlResult × Session σ :=
  session.perform server s.compile Reply.toSqlResult

/-! ### Statements of any kind -/

/-- A statement of any kind. -/
inductive Statement where
  | select (s : SelectStatement)
  | insert (s : InsertStatement)
  | update (s : UpdateStatement)
  | delete (s : DeleteStatement)
  | sql (s : SqlStatement)

namespace Statement

/-- What the statement does. -/
def kind : Statement → StatementKind
  | .select _ => .select
  | .insert _ => .insert
  | .update _ => .update
  | .delete _ => .delete
  | .sql _ => .sql

/-- The statement as it is sent. -/
def compile : Statement → Except Error CompiledStatement
  | .select s => s.compile
  | .insert s => s.compile
  | .update s => s.compile
  | .delete s => s.compile
  | .sql s => s.compile

/-- The calls that may come next. -/
def operations : Statement → List Operation
  | .select s => s.operations
  | .insert s => s.operations
  | .update s => s.operations
  | .delete s => s.operations
  | .sql s => s.operations

/-- The placeholders of a statement that has some. -/
def bindings? : Statement → Option Bindings
  | .select s => some s.bindings
  | .update s => some s.bindings
  | .delete s => some s.bindings
  | .insert _ | .sql _ => none

end Statement

end TableSql
