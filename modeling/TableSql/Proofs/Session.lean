import TableSql.Statement.Execution

/-!
# One thing done on a session

Whatever is done on a session puts one statement to the server at most. The journal then has the
statement, with an event before it and an event for a failure behind it, unless the statement
controls a transaction. Nothing is put to the server for a statement that is not ready.

## Main definitions

* `Ask`, `Ask.events`, `Ask.entries` — a statement put to a server, and what is noted of it
* `Ask.lines` — the same as a log shows it
* `Session.Puts` — a session that puts statements to its server

## Main results

* `Session.run_answer`, `Session.perform_ok`, `Session.perform_eq_error` — a statement that is run
  is answered by the server
* `Session.puts_run`, `Session.puts_perform`, `Session.puts_ask`, `Session.puts_control`
* `Session.Puts.statements` — what is handed over
-/

namespace TableSql

variable {σ α : Type}

/-! ### One statement -/

/-- A statement put to a server. -/
structure Ask (σ : Type) where
  statement : CompiledStatement
  /-- The log tells of it. -/
  announced : Bool
  /-- The server as it is then. -/
  state : σ

namespace Ask

variable (server : Server σ) (a : Ask σ)

/-- What the server answers. -/
def answer : Except Error Reply :=
  (server.execute a.statement a.state).1

/-- The server behind the statement. -/
def next : σ :=
  (server.execute a.statement a.state).2

/-- The event of a failure. -/
def failure : List Event :=
  match a.answer server with
  | .ok _ => []
  | .error e => [.failed a.statement.kind e.message]

/-- What the log tells: the kind of the statement, the number of its values and its text, and then
its failure if it fails. -/
def events : List Event :=
  if a.announced then
    .executing a.statement.kind a.statement.params.length a.statement.sql :: a.failure server
  else []

/-- The same, with the moment in between at which the server is asked. -/
def entries : List Entry :=
  if a.announced then
    .logged (.executing a.statement.kind a.statement.params.length a.statement.sql) ::
      .handed a.statement :: (a.failure server).map .logged
  else [.handed a.statement]

/-- How the log shows it: the level and the message of each event. -/
def lines : List (String × String) :=
  if a.announced then
    ("DEBUG", "executing statement") ::
      match a.answer server with
      | .ok _ => []
      | .error _ => [("WARN", "statement failed")]
  else []

theorem filterMap_statement?_entries :
    (a.entries server).filterMap Entry.statement? = [a.statement] := by
  rw [entries, failure]
  cases a.announced with
  | false => rfl
  | true => cases a.answer server <;> rfl

theorem filterMap_event?_entries : (a.entries server).filterMap Entry.event? = a.events server := by
  rw [entries, events]
  cases a.announced with
  | false => rfl
  | true =>
    rw [failure]
    cases a.answer server <;> rfl

/-- The announcement is the one event of its level. -/
theorem filter_debug_events : (a.events server).filter (·.level = "DEBUG") =
    if a.announced then
      [.executing a.statement.kind a.statement.params.length a.statement.sql]
    else [] := by
  rw [events]
  cases a.announced with
  | false => rfl
  | true =>
    rw [failure]
    cases a.answer server <;> rfl

theorem map_events :
    (a.events server).map (fun e => (e.level, e.message)) = a.lines server := by
  rw [events, lines]
  cases a.announced with
  | false => rfl
  | true =>
    rw [failure]
    cases a.answer server <;> rfl

end Ask

/-! ### Sessions -/

namespace Session

/-- The statements are put to the server, and the first session becomes the second. -/
structure Puts (server : Server σ) (asks : List (Ask σ)) (s s' : Session σ) : Prop where
  journal : s'.journal = s.journal ++ asks.flatMap (Ask.entries server)
  state : s'.state = asks.foldl (fun _ a => a.next server) s.state

theorem Puts.statements {server : Server σ} {asks : List (Ask σ)} {s s' : Session σ}
    (h : Puts server asks s s') :
    s'.statements = s.statements ++ asks.map Ask.statement := by
  have hone : (fun a => (Ask.entries server a).filterMap Entry.statement?) =
      fun a => [a.statement] := funext (Ask.filterMap_statement?_entries server)
  rw [Session.statements, h.journal, List.filterMap_append, List.filterMap_flatMap, hone,
    ← List.map_eq_flatMap]
  rfl

variable (server : Server σ) (s : Session σ)

/-- The server is asked once, and its answer is handed on. -/
theorem run_answer (c : CompiledStatement) :
    (s.run server c).1 = (server.execute c s.state).1 := by
  rw [run, hand, log]
  rcases server.execute c s.state with ⟨_ | _, state⟩ <;> rfl

theorem state_run (c : CompiledStatement) :
    (s.run server c).2.state = (server.execute c s.state).2 := by
  rw [run, hand, log]
  rcases server.execute c s.state with ⟨_ | _, state⟩ <;> rfl

/-- A statement that is ready is handed over, and the reply is read. -/
theorem perform_ok (c : CompiledStatement) (read : Reply → α) :
    s.perform server (.ok c) read =
      ((server.execute c s.state).1.map read, (s.run server c).2) := by
  rw [perform, ← run_answer]
  rcases s.run server c with ⟨_ | _, s'⟩ <;> rfl

/-- What is told of a failure is why the statement is not ready, or what the server answered. -/
theorem perform_eq_error {prepared : Except Error CompiledStatement} {read : Reply → α} {e : Error}
    (h : (s.perform server prepared read).1 = .error e) :
    prepared = .error e ∨ ∃ c, prepared = .ok c ∧ (server.execute c s.state).1 = .error e := by
  cases prepared with
  | error err =>
    have h : (Except.error err : Except Error α) = .error e := h
    exact .inl (congrArg Except.error (Except.error.inj h))
  | ok c =>
    rw [perform_ok] at h
    refine .inr ⟨c, rfl, ?_⟩
    cases hanswer : (server.execute c s.state).1 with
    | ok reply =>
      rw [hanswer] at h
      cases h
    | error err =>
      rw [hanswer] at h
      exact congrArg Except.error (Except.error.inj h)

theorem puts_run (c : CompiledStatement) :
    Puts server [⟨c, true, s.state⟩] s (s.run server c).2 := by
  refine ⟨?_, s.state_run server c⟩
  rw [run_journal, List.append_assoc, List.flatMap_singleton, Ask.entries, Ask.failure, Ask.answer]
  cases (server.execute c s.state).1 <;> rfl

theorem puts_perform (prepared : Except Error CompiledStatement) (read : Reply → α) :
    Puts server (prepared.toOption.toList.map (⟨·, true, s.state⟩)) s
      (s.perform server prepared read).2 := by
  cases prepared with
  | error e => exact ⟨(List.append_nil _).symm, rfl⟩
  | ok c =>
    rw [perform_ok]
    exact s.puts_run server c

theorem puts_ask (query : Query α) :
    Puts server [⟨query.statement, true, s.state⟩] s (s.ask server query).2 := by
  have hrun := s.puts_run server query.statement
  rw [ask]
  generalize s.run server query.statement = outcome at hrun
  rcases outcome with ⟨_ | _, s'⟩ <;> exact hrun

theorem puts_control (sql : String) :
    Puts server [⟨.control sql, false, s.state⟩] s (s.control server sql).2 := by
  rw [control, hand]
  constructor
  · rcases server.execute (.control sql) s.state with ⟨_ | _, state⟩ <;> rfl
  · rw [List.foldl_cons, List.foldl_nil, Ask.next]
    rcases server.execute (.control sql) s.state with ⟨_ | _, state⟩ <;> rfl

end Session

end TableSql
