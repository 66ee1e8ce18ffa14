import TableSql.Proofs.Statement.Uses
import TableSql.ScriptedServer

/-!
# What the log tells and what the server gets

A session is used over and over, and may be closed at some point. Two traces come of it: the events
that are logged, and the statements that the server records. Here both are read off one list, the
statements that are put to the server, each with the server as it is at that moment. The list is
made from the uses and the server alone, without the session.

What one use puts to the server is known, so one turn adds to the journal and changes the server in
a known way, and the rest is induction on the turns.

## Main definitions

* `Recorder` — a server that keeps a record and can be closed
* `Turn`, `Session.afterTurns` — a use or the close, and many of them
* `Recorder.asks` — what is put to the server over many turns
* `Agrees` — log, journal and record of many turns

## Main results

* `Session.journal_afterTurns`, `Recorder.received_after` — many turns, on either side
* `log_and_wire_agree` — the log tells what was attempted, and the record has what got through
-/

namespace TableSql

variable {σ : Type}

/-! ### Servers with a record -/

/-- A server that keeps a record of what it is handed until it is closed. -/
structure Recorder (server : Server σ) where
  isOpen : σ → Bool
  /-- The statements on record. -/
  received : σ → List CompiledStatement
  close : σ → σ
  received_of_open : ∀ c s, isOpen s = true → received (server.execute c s).2 = received s ++ [c]
  answer_of_closed : ∀ c s, isOpen s = false → (server.execute c s).1 = .error .sessionClosed
  received_of_closed : ∀ c s, isOpen s = false → received (server.execute c s).2 = received s
  isOpen_of_closed : ∀ c s, isOpen s = false → isOpen (server.execute c s).2 = false
  isOpen_close : ∀ s, isOpen (close s) = false
  received_close : ∀ s, received (close s) = received s

/-- A scripted server records what it is asked. -/
def ScriptedServer.recorder : Recorder ScriptedServer.server where
  isOpen := ScriptedServer.isOpen
  received := ScriptedServer.received
  close := ScriptedServer.close
  received_of_open c s h := by simp [server, answer, h]
  answer_of_closed c s h := by simp [server, answer, h]
  received_of_closed c s h := by simp [server, answer, h]
  isOpen_of_closed c s h := by simp [server, answer, h]
  isOpen_close _ := rfl
  received_close _ := rfl

/-! ### Many turns -/

/-- A use of the session, or its end. -/
inductive Turn where
  | use (u : Use)
  | close

namespace Turn

/-- What is put to the server. -/
def asks (state : σ) : Turn → List (Ask σ)
  | .use u => u.asks state
  | .close => []

/-- The executions that could be prepared, and the queries. -/
def attempted : Turn → List CompiledStatement
  | .use u => u.attempted
  | .close => []

/-- The statements that control transactions. -/
def controls : Turn → List CompiledStatement
  | .use u => u.controls
  | .close => []

end Turn

namespace Recorder

variable {server : Server σ} (r : Recorder server)

/-- The server behind a turn. -/
def next (state : σ) : Turn → σ
  | .use u => (u.asks state).foldl (fun _ a => a.next server) state
  | .close => r.close state

/-- What is put to the server over many turns. -/
def asks : σ → List Turn → List (Ask σ)
  | _, [] => []
  | state, t :: rest => t.asks state ++ asks (r.next state t) rest

/-- The server behind many turns. -/
def after (state : σ) (turns : List Turn) : σ :=
  turns.foldl r.next state

theorem asks_append (state : σ) (turns more : List Turn) :
    r.asks state (turns ++ more) = r.asks state turns ++ r.asks (r.after state turns) more := by
  induction turns generalizing state with
  | nil => rfl
  | cons t rest ih =>
    rw [List.cons_append, asks, asks, ih, List.append_assoc]
    rfl

/-- A part of what is put to the server that does not depend on the server is what the turns say
one by one. -/
theorem asks_eq_flatMap {β : Type} {F : List (Ask σ) → List β} {G : Turn → List β}
    (hnil : F [] = []) (happend : ∀ as bs, F (as ++ bs) = F as ++ F bs)
    (hturn : ∀ t state, F (t.asks state) = G t) (state : σ) (turns : List Turn) :
    F (r.asks state turns) = turns.flatMap G := by
  induction turns generalizing state with
  | nil => exact hnil
  | cons t rest ih => rw [asks, happend, hturn, ih, List.flatMap_cons]

theorem map_statement_asks (state : σ) (turns : List Turn) :
    (r.asks state turns).map Ask.statement = turns.flatMap fun t => t.attempted ++ t.controls := by
  refine r.asks_eq_flatMap rfl (fun _ _ => List.map_append) (fun t state => ?_) state turns
  cases t with
  | close => rfl
  | use u => simp [Turn.asks, Use.asks, Turn.attempted, Turn.controls, Function.comp_def]

/-- What the log tells of is what was attempted. -/
theorem map_statement_announced (state : σ) (turns : List Turn) :
    ((r.asks state turns).filter Ask.announced).map Ask.statement =
      turns.flatMap Turn.attempted := by
  refine r.asks_eq_flatMap (F := fun as => (as.filter Ask.announced).map Ask.statement) rfl
    (fun as bs => by simp) (fun t state => ?_) state turns
  cases t with
  | close => rfl
  | use u => simp [Turn.asks, Use.asks, Turn.attempted, List.filter_map, Function.comp_def]

/-- An open server records what it is handed, and a closed one does not. -/
theorem received_next (state : σ) (t : Turn) :
    r.received (r.next state t) = r.received state ++
      ((t.asks state).filter fun a => r.isOpen a.state).map Ask.statement := by
  cases t with
  | close => exact (r.received_close state).trans (List.append_nil _).symm
  | use u =>
    rw [next, Turn.asks]
    rcases u.asks_eq state with hnone | ⟨a, ha, rfl⟩
    · rw [hnone]
      exact (List.append_nil _).symm
    · rw [ha, List.foldl_cons, List.foldl_nil, Ask.next]
      cases hopen : r.isOpen a.state with
      | true => simpa [hopen] using r.received_of_open a.statement a.state hopen
      | false => simpa [hopen] using r.received_of_closed a.statement a.state hopen

theorem received_after (state : σ) (turns : List Turn) :
    r.received (r.after state turns) = r.received state ++
      ((r.asks state turns).filter fun a => r.isOpen a.state).map Ask.statement := by
  induction turns generalizing state with
  | nil => exact (List.append_nil _).symm
  | cons t rest ih =>
    have hafter : r.after state (t :: rest) = r.after (r.next state t) rest := rfl
    rw [hafter, ih, received_next, asks, List.filter_append, List.map_append, List.append_assoc]

/-! #### Closed servers -/

theorem isOpen_next {state : σ} (h : r.isOpen state = false) (t : Turn) :
    r.isOpen (r.next state t) = false := by
  cases t with
  | close => exact r.isOpen_close state
  | use u =>
    rw [next]
    rcases u.asks_eq state with hnone | ⟨a, ha, rfl⟩
    · rw [hnone]
      exact h
    · rw [ha]
      exact r.isOpen_of_closed a.statement a.state h

/-- What is put to a closed server finds it closed. -/
theorem isOpen_of_mem_asks {state : σ} (h : r.isOpen state = false) {turns : List Turn} :
    ∀ a ∈ r.asks state turns, r.isOpen a.state = false := by
  induction turns generalizing state with
  | nil => exact fun _ ha => absurd ha List.not_mem_nil
  | cons t rest ih =>
    rw [asks, List.forall_mem_append]
    refine ⟨fun a ha => ?_, ih (r.isOpen_next h t)⟩
    cases t with
    | close => cases ha
    | use u =>
      rcases u.asks_eq state with hnone | ⟨b, hb, hstate⟩
      · rw [Turn.asks, hnone] at ha
        cases ha
      · rw [Turn.asks, hb, List.mem_singleton] at ha
        rw [ha, hstate, h]

end Recorder

namespace Session

variable {server : Server σ} (r : Recorder server) (s : Session σ)

/-- The session behind a turn. Closing it leaves no entry. -/
def turn : Turn → Session σ
  | .use u => s.use server u
  | .close => { s with state := r.close s.state }

/-- The session behind many turns. -/
def afterTurns (turns : List Turn) : Session σ :=
  turns.foldl (turn r) s

theorem journal_turn (t : Turn) : (s.turn r t).journal =
    s.journal ++ (t.asks s.state).flatMap (Ask.entries server) := by
  cases t with
  | use u => exact (s.puts_use server u).journal
  | close => exact (List.append_nil _).symm

theorem state_turn (t : Turn) : (s.turn r t).state = r.next s.state t := by
  cases t with
  | use u => exact (s.puts_use server u).state
  | close => rfl

/-- **The journal has what was put to the server**, turn by turn. -/
theorem journal_afterTurns (turns : List Turn) : (s.afterTurns r turns).journal =
    s.journal ++ (r.asks s.state turns).flatMap (Ask.entries server) := by
  induction turns generalizing s with
  | nil => exact (List.append_nil _).symm
  | cons t rest ih =>
    have hafter : s.afterTurns r (t :: rest) = (s.turn r t).afterTurns r rest := rfl
    rw [hafter, ih, journal_turn, state_turn, Recorder.asks, List.flatMap_append,
      List.append_assoc]

theorem state_afterTurns (turns : List Turn) :
    (s.afterTurns r turns).state = r.after s.state turns := by
  induction turns generalizing s with
  | nil => rfl
  | cons t rest ih =>
    have hafter : s.afterTurns r (t :: rest) = (s.turn r t).afterTurns r rest := rfl
    rw [hafter, ih, state_turn]
    rfl

theorem events_afterTurns (turns : List Turn) : (s.afterTurns r turns).events =
    s.events ++ (r.asks s.state turns).flatMap (Ask.events server) := by
  have hevents : (fun a => (Ask.entries server a).filterMap Entry.event?) = Ask.events server :=
    funext (Ask.filterMap_event?_entries server)
  rw [events, journal_afterTurns, List.filterMap_append, List.filterMap_flatMap, hevents]
  rfl

end Session

/-! ### The two traces -/

/-- The events of this level are the announcements. -/
theorem Ask.filter_debug_flatMap (server : Server σ) (as : List (Ask σ)) :
    (as.flatMap (Ask.events server)).filter (·.level = "DEBUG") =
      ((as.filter Ask.announced).map Ask.statement).map
        fun c => .executing c.kind c.params.length c.sql := by
  induction as with
  | nil => rfl
  | cons a as ih =>
    rw [List.flatMap_cons, List.filter_append, filter_debug_events, ih, List.filter_cons]
    cases a.announced <;> rfl

/-- Log, journal and record of many turns on a session. -/
structure Agrees {server : Server σ} (r : Recorder server) (turns : List Turn)
    (before after : Session σ) : Prop where
  /-- What is put to the server are the executions that could be prepared, the queries and the
  statements that control transactions, each once and in the order of the turns. -/
  asked : (r.asks before.state turns).map Ask.statement =
    turns.flatMap fun t => t.attempted ++ t.controls
  /-- Those that control transactions have no values. -/
  controls : ∀ c ∈ turns.flatMap Turn.controls, c.kind = .control ∧ c.params = []
  /-- The log announces the others with their kind, the number of their values and their text, and
  nothing else. -/
  announced : after.events.filter (·.level = "DEBUG") =
    before.events.filter (·.level = "DEBUG") ++
      (turns.flatMap Turn.attempted).map fun c => .executing c.kind c.params.length c.sql
  /-- An announcement is followed at once by one warning if the server fails, and by none if it
  answers. -/
  events : after.events =
    before.events ++ (r.asks before.state turns).flatMap (Ask.events server)
  /-- Announcements and warnings say what they are. -/
  lines : after.events.map (fun e => (e.level, e.message)) =
    before.events.map (fun e => (e.level, e.message)) ++
      (r.asks before.state turns).flatMap (Ask.lines server)
  /-- The announcement is made before the server is asked. -/
  journal : after.journal =
    before.journal ++ (r.asks before.state turns).flatMap (Ask.entries server)
  /-- The server records what is put to it while it is open. -/
  received : r.received after.state = r.received before.state ++
    ((r.asks before.state turns).filter fun a => r.isOpen a.state).map Ask.statement
  /-- While it is closed it fails. -/
  failed : ∀ a ∈ r.asks before.state turns, r.isOpen a.state = false →
    a.answer server = .error .sessionClosed
  /-- Behind a close it is closed. -/
  closed : ∀ earlier later, turns = earlier ++ .close :: later → ∃ refused,
    r.asks before.state turns = r.asks before.state earlier ++ refused ∧
      ∀ a ∈ refused, r.isOpen a.state = false

/-- **The log tells what was attempted, and the record has what got through**, whatever is done on a
session, in whatever order, with whatever failures and wherever it is closed. -/
theorem log_and_wire_agree (server : Server σ) (r : Recorder server) (before : Session σ)
    (turns : List Turn) : Agrees r turns before (before.afterTurns r turns) where
  asked := r.map_statement_asks before.state turns
  controls c hc := by
    obtain ⟨t, -, hc⟩ := List.mem_flatMap.mp hc
    cases t with
    | use u => exact Use.eq_control_of_mem_controls hc
    | close => cases hc
  announced := by
    rw [Session.events_afterTurns, List.filter_append, Ask.filter_debug_flatMap,
      r.map_statement_announced]
  events := before.events_afterTurns r turns
  lines := by
    have hlines : (fun a => (Ask.events server a).map fun e => (e.level, e.message)) =
        Ask.lines server := funext (Ask.map_events server)
    rw [Session.events_afterTurns, List.map_append, List.map_flatMap, hlines]
  journal := before.journal_afterTurns r turns
  received := by rw [Session.state_afterTurns, r.received_after]
  failed a _ h := r.answer_of_closed a.statement a.state h
  closed earlier later h := by
    rw [h, r.asks_append]
    exact ⟨_, rfl, r.isOpen_of_mem_asks (r.isOpen_close _)⟩

/-- A select statement with a bound value that the server fails, a transaction around an insert
statement that is not ready, raw SQL with two values and a query with two, and more of it on the
closed session. -/
theorem log_and_wire_agree_of_script :
    ∃ before after : Session ScriptedServer,
      before.state.replies = [.error (.server (some 1205) none "locked")] ∧
      after = before.afterTurns ScriptedServer.recorder
        [.use (.execute (.select (Builder.after (.all ⟨"", "t"⟩)
            [.call (.filter (.text "a = :x")), .call (.bind "x" (.bigint 7))]))),
          .use .startTransaction, .use (.execute (.insert (.ofTable ⟨"", "t"⟩))),
          .use (.execute (.sql ⟨"CALL p(?, ?)", [.text "a", .null]⟩)),
          .use (.tableExistence { ref := ⟨"s", "t"⟩ }), .close, .use .commit,
          .use (.execute (.update (Builder.after (.ofTable ⟨"", "t"⟩)
            [.call (.set "a" (.bigint 1)), .call (.limit 2)])))] ∧
      after.events =
        [.executing .select 1 "SELECT * FROM `t` WHERE a = ?",
          .failed .select (Error.server (some 1205) none "locked").message,
          .executing .sql 2 "CALL p(?, ?)",
          .executing .select 2 ("SELECT COUNT(*) FROM information_schema.tables " ++
            "WHERE TABLE_SCHEMA = ? AND TABLE_NAME = ?"),
          .executing .update 1 "UPDATE `t` SET `a` = ? LIMIT 2",
          .failed .update Error.sessionClosed.message] ∧
      after.events.map (fun e => (e.level, e.message)) =
        [("DEBUG", "executing statement"), ("WARN", "statement failed"),
          ("DEBUG", "executing statement"), ("DEBUG", "executing statement"),
          ("DEBUG", "executing statement"), ("WARN", "statement failed")] ∧
      after.state.received =
        [⟨.select, "SELECT * FROM `t` WHERE a = ?", [.bigint 7]⟩,
          ⟨.control, "START TRANSACTION", []⟩, ⟨.sql, "CALL p(?, ?)", [.text "a", .null]⟩,
          ⟨.select, "SELECT COUNT(*) FROM information_schema.tables " ++
            "WHERE TABLE_SCHEMA = ? AND TABLE_NAME = ?", [.text "s", .text "t"]⟩] := by
  let before : Session ScriptedServer :=
    { state := { replies := [.error (.server (some 1205) none "locked")] } }
  have h := log_and_wire_agree ScriptedServer.server ScriptedServer.recorder before
    [.use (.execute (.select (Builder.after (.all ⟨"", "t"⟩)
        [.call (.filter (.text "a = :x")), .call (.bind "x" (.bigint 7))]))),
      .use .startTransaction, .use (.execute (.insert (.ofTable ⟨"", "t"⟩))),
      .use (.execute (.sql ⟨"CALL p(?, ?)", [.text "a", .null]⟩)),
      .use (.tableExistence { ref := ⟨"s", "t"⟩ }), .close, .use .commit,
      .use (.execute (.update (Builder.after (.ofTable ⟨"", "t"⟩)
        [.call (.set "a" (.bigint 1)), .call (.limit 2)])))]
  exact ⟨before, _, rfl, rfl, h.events, h.lines, h.received⟩

end TableSql
