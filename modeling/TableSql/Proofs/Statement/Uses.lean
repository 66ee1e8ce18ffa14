import TableSql.Catalog
import TableSql.Proofs.Session
import TableSql.Proofs.Statement.OwnMarkers

/-!
# Everything that is done on a session

A session is used to execute statements, to ask about schemas and tables and to control
transactions. Each of these hands over one statement, or none if the statement to execute is not
ready, and what is handed over depends on nothing that the server did before.

## Main definitions

* `Use` — something that is done on a session
* `Use.handed` — the statement that is handed over
* `Use.attempted`, `Use.controls`, `Use.asks` — what a use puts to the server, with events and
  without
* `Session.use`, `Session.afterUses` — the session after a use, and after several

## Main results

* `Session.puts_use` — what one use puts to the server
* `Session.statements_use`, `Session.statements_afterUses` — the statements handed over
-/

namespace TableSql

/-- Something that is done on a session. A statement is executed in whatever state it is, and that
may be any state that calls have led to. -/
inductive Use where
  | execute (s : Statement)
  | lookup (schema : Schema) (name : String)
  | tables (schema : Schema)
  | schemaExistence (schema : Schema)
  | count (table : Table)
  | tableExistence (table : Table)
  | startTransaction
  | commit
  | rollback

/-- What is handed over. -/
def Use.handed : Use → List CompiledStatement
  | .execute s => s.prepareExecute.toOption.toList
  | .lookup schema name => [(schema.lookup name).statement]
  | .tables schema => [schema.tables.statement]
  | .schemaExistence schema => [schema.existence.statement]
  | .count table => [table.count.statement]
  | .tableExistence table => [table.existence.statement]
  | .startTransaction => [⟨.control, "START TRANSACTION", []⟩]
  | .commit => [⟨.control, "COMMIT", []⟩]
  | .rollback => [⟨.control, "ROLLBACK", []⟩]

variable {σ : Type}

/-! ### What is put to the server -/

namespace Use

/-- What is put to the server as an execution or a query. -/
def attempted : Use → List CompiledStatement
  | .startTransaction | .commit | .rollback => []
  | u => u.handed

/-- What is put to the server to control a transaction. -/
def controls : Use → List CompiledStatement
  | .startTransaction => [⟨.control, "START TRANSACTION", []⟩]
  | .commit => [⟨.control, "COMMIT", []⟩]
  | .rollback => [⟨.control, "ROLLBACK", []⟩]
  | _ => []

/-- What is put to the server, where only controls go without an event. -/
def asks (state : σ) (u : Use) : List (Ask σ) :=
  u.attempted.map (⟨·, true, state⟩) ++ u.controls.map (⟨·, false, state⟩)

theorem asks_execute (state : σ) (s : Statement) :
    (execute s).asks state = s.prepareExecute.toOption.toList.map (⟨·, true, state⟩) :=
  List.append_nil _

theorem map_statement_asks (state : σ) (u : Use) :
    (u.asks state).map Ask.statement = u.handed := by
  cases u with
  | execute s =>
    rw [asks_execute, List.map_map]
    exact List.map_id _
  | _ => rfl

/-- It is one statement at most. -/
theorem asks_eq (state : σ) (u : Use) :
    u.asks state = [] ∨ ∃ a, u.asks state = [a] ∧ a.state = state := by
  cases u with
  | execute s =>
    rw [asks_execute]
    cases s.prepareExecute with
    | error e => exact .inl rfl
    | ok c => exact .inr ⟨⟨c, true, state⟩, rfl, rfl⟩
  | _ => exact .inr ⟨_, rfl, rfl⟩

/-- A transaction is controlled by statements of their own kind and without values. -/
theorem eq_control_of_mem_controls {u : Use} {c : CompiledStatement} (h : c ∈ u.controls) :
    c.kind = .control ∧ c.params = [] := by
  cases u with
  | startTransaction | commit | rollback =>
    obtain rfl := List.mem_singleton.mp h
    exact ⟨rfl, rfl⟩
  | _ => cases h

end Use

namespace Session

/-- The session after an execution. -/
def execute (server : Server σ) (session : Session σ) : Statement → Session σ
  | .select s => (s.execute server session).2.2
  | .insert s => (s.execute server session).2.2
  | .update s => (s.execute server session).2.2
  | .delete s => (s.execute server session).2.2
  | .sql s => (s.execute server session).2

/-- The session after a use. -/
def use (server : Server σ) (session : Session σ) : Use → Session σ
  | .execute s => session.execute server s
  | .lookup schema name => (session.ask server (schema.lookup name)).2
  | .tables schema => (session.ask server schema.tables).2
  | .schemaExistence schema => (session.ask server schema.existence).2
  | .count table => (session.ask server table.count).2
  | .tableExistence table => (session.ask server table.existence).2
  | .startTransaction => (session.startTransaction server).2
  | .commit => (session.commit server).2
  | .rollback => (session.rollback server).2

/-- The session after some uses. -/
def afterUses (server : Server σ) (session : Session σ) (uses : List Use) : Session σ :=
  uses.foldl (use server) session

theorem puts_execute (server : Server σ) (s : Session σ) (statement : Statement) :
    Puts server (statement.prepareExecute.toOption.toList.map (⟨·, true, s.state⟩)) s
      (s.execute server statement) := by
  cases statement with
  | select t => exact s.puts_perform server t.prepareExecute Reply.toRowResult
  | insert t => exact s.puts_perform server t.prepareExecute Reply.toMutationResult
  | update t => exact s.puts_perform server t.prepareExecute Reply.toMutationResult
  | delete t => exact s.puts_perform server t.prepareExecute Reply.toMutationResult
  | sql t => exact s.puts_perform server t.compile Reply.toSqlResult

/-- **What one use puts to the server.** -/
theorem puts_use (server : Server σ) (s : Session σ) (u : Use) :
    Puts server (u.asks s.state) s (s.use server u) := by
  cases u with
  | execute statement =>
    rw [Use.asks_execute]
    exact s.puts_execute server statement
  | lookup schema name => exact s.puts_ask server (schema.lookup name)
  | tables schema => exact s.puts_ask server schema.tables
  | schemaExistence schema => exact s.puts_ask server schema.existence
  | count table => exact s.puts_ask server table.count
  | tableExistence table => exact s.puts_ask server table.existence
  | startTransaction => exact s.puts_control server "START TRANSACTION"
  | commit => exact s.puts_control server "COMMIT"
  | rollback => exact s.puts_control server "ROLLBACK"

/-- A use hands over what it should. -/
theorem statements_use (server : Server σ) (session : Session σ) (u : Use) :
    (session.use server u).statements = session.statements ++ u.handed := by
  rw [(session.puts_use server u).statements, Use.map_statement_asks]

/-- **Uses hand over what each of them should, in order**, whatever the server does. -/
theorem statements_afterUses (server : Server σ) (session : Session σ) (uses : List Use) :
    (session.afterUses server uses).statements = session.statements ++ uses.flatMap Use.handed := by
  induction uses generalizing session with
  | nil => exact (List.append_nil _).symm
  | cons u rest ih =>
    have hrest : (session.afterUses server (u :: rest)).statements =
        ((session.use server u).afterUses server rest).statements := rfl
    rw [hrest, ih, statements_use, List.append_assoc, List.flatMap_cons]

end Session

end TableSql
