import TableSql.Compiled
import TableSql.Result.Reply

/-!
# Sessions

A session hands compiled statements to a server and keeps a journal. A server is anything that
answers statements one at a time and may change by answering. The journal holds, in order, the
events that are logged and the statements that are handed over.

## Servers and journals

A `Server` is a bare transition function. Nothing is assumed of how it answers, so what is proved of
a session holds for every server, also one that fails, forgets or closes half way.

Events and statements share one list, because a log promises their order: which event comes before
which statement is lost once each kind has a list of its own. `Session.events` and
`Session.statements` read the two kinds back off it. A statement is entered once it has been handed
over, whatever the answer. Transaction control takes the same way to the server but past the log,
so it leaves a statement and no event.

## Main definitions

* `Server` — how a server answers
* `Event`, `Entry` — what is logged, and what a journal holds
* `Session` — a server's state with a journal
* `Session.run` — a statement handed over, with events around it
* `Session.startTransaction`, `Session.commit`, `Session.rollback` — statements that are handed over
  without events
* `Query`, `Session.ask` — a statement with the reading of its reply

## Main results

* `Session.run_journal` — the entries of one run
-/

namespace TableSql

/-- How a server with states `σ` answers a statement. -/
structure Server (σ : Type) where
  execute : CompiledStatement → σ → Except Error Reply × σ

/-- A logged event. -/
inductive Event where
  /-- A statement is about to be handed over. -/
  | executing (kind : StatementKind) (params : Nat) (sql : String)
  /-- The server refused it. -/
  | failed (kind : StatementKind) (error : String)
deriving DecidableEq, Repr

namespace Event

/-- The event of a statement. -/
def ofStatement (s : CompiledStatement) : Event :=
  .executing s.kind s.params.length s.sql

/-- The name of the log that events go to. -/
def target : String := "xdevapi.sql"

/-- How grave the event is. -/
def level : Event → String
  | .executing _ _ _ => "DEBUG"
  | .failed _ _ => "WARN"

/-- What the log says of the event. -/
def message : Event → String
  | .executing _ _ _ => "executing statement"
  | .failed _ _ => "statement failed"

end Event

/-- An entry of a journal. -/
inductive Entry where
  | logged (event : Event)
  | handed (statement : CompiledStatement)

/-- The event of an entry. -/
def Entry.event? : Entry → Option Event
  | .logged e => some e
  | .handed _ => none

/-- The statement of an entry. -/
def Entry.statement? : Entry → Option CompiledStatement
  | .logged _ => none
  | .handed s => some s

/-- The state of a server, and what happened so far. -/
structure Session (σ : Type) where
  state : σ
  journal : List Entry := []

namespace Session

variable {σ : Type}

/-- The logged events, in order. -/
def events (s : Session σ) : List Event :=
  s.journal.filterMap Entry.event?

/-- The statements handed over, in order. -/
def statements (s : Session σ) : List CompiledStatement :=
  s.journal.filterMap Entry.statement?

/-- Adds an event to the journal. -/
def log (s : Session σ) (e : Event) : Session σ :=
  { s with journal := s.journal ++ [.logged e] }

/-- Hands a statement to the server. -/
def hand (server : Server σ) (statement : CompiledStatement) (s : Session σ) :
    Except Error Reply × Session σ :=
  let (reply, state) := server.execute statement s.state
  (reply, ⟨state, s.journal ++ [.handed statement]⟩)

/-- Hands a statement to the server, between an event before and an event for a failure. -/
def run (server : Server σ) (statement : CompiledStatement) (s : Session σ) :
    Except Error Reply × Session σ :=
  match hand server statement (s.log (.ofStatement statement)) with
  | (.ok reply, s') => (.ok reply, s')
  | (.error e, s') => (.error e, s'.log (.failed statement.kind e.message))

/-! ### Transactions -/

/-- Hands over a transaction control statement. -/
def control (server : Server σ) (sql : String) (s : Session σ) : Except Error Unit × Session σ :=
  match hand server (.control sql) s with
  | (.ok _, s') => (.ok (), s')
  | (.error e, s') => (.error e, s')

/-- Opens a transaction. -/
def startTransaction (server : Server σ) : Session σ → Except Error Unit × Session σ :=
  control server "START TRANSACTION"

/-- Makes the changes of the open transaction last. -/
def commit (server : Server σ) : Session σ → Except Error Unit × Session σ :=
  control server "COMMIT"

/-- Takes back the changes of the open transaction. -/
def rollback (server : Server σ) : Session σ → Except Error Unit × Session σ :=
  control server "ROLLBACK"

end Session

/-! ### Queries -/

/-- A statement, and what its reply means. -/
structure Query (α : Type) where
  statement : CompiledStatement
  read : Reply → Except Error α

/-- The meaning of the server's reply to a query, or the server's error. -/
def Session.ask {σ α : Type} (server : Server σ) (query : Query α) (s : Session σ) :
    Except Error α × Session σ :=
  match s.run server query.statement with
  | (.ok reply, s') => (query.read reply, s')
  | (.error e, s') => (.error e, s')

/-! ### Journals -/

namespace Session

variable {σ : Type}

/-- The entries of one run: the event, then the statement, then an event if the server failed. -/
theorem run_journal (server : Server σ) (statement : CompiledStatement) (s : Session σ) :
    (s.run server statement).2.journal =
      s.journal ++ [.logged (.ofStatement statement), .handed statement] ++
        match (server.execute statement s.state).1 with
        | .ok _ => []
        | .error e => [.logged (.failed statement.kind e.message)] := by
  unfold run hand log
  rcases h : server.execute statement s.state with ⟨_ | _, state⟩ <;> simp

end Session

end TableSql
