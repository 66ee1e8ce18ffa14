import TableSql.Proofs.Builder.Attempts
import TableSql.Proofs.Statement.Calls
import TableSql.ScriptedServer

/-!
# Executing a statement again

A statement may be executed again from the stage that an execution leaves it in, and that stage is
all that an execution changes. Nothing of the SQL text or of its values depends on it.

## Main definitions

* `Builder.Repeatable` — executions that come to what they should, alone and in a row
* `Reply.ReadInFull` — what the kinds of statements read from a reply

## Main results

* `SelectStatement.prepareExecute_executed`, `InsertStatement.prepareExecute_executed`,
  `UpdateStatement.prepareExecute_executed`, `DeleteStatement.prepareExecute_executed` — what was
  sent once can be sent again
* `Builder.executions_repeatable` — executions of the statements on a table come to what they should
-/

namespace TableSql

/-! ### After an execution -/

/-- What a call gives where it is allowed, it gives wherever it is allowed. -/
theorem Operation.guarded_of_ok {α : Type} {statement : String} {allowed others : List Operation}
    {op : Operation} {call : String → Except Error α} {a : α}
    (h : op.guarded statement allowed call = .ok a) (hothers : op ∈ others) :
    op.guarded statement others call = .ok a :=
  guarded_eq_ok_iff.mpr ⟨hothers, (guarded_eq_ok_iff.mp h).2⟩

theorem SelectStatement.prepareExecute_executed {s : SelectStatement} {c : CompiledStatement}
    (h : s.prepareExecute = .ok c) : s.executed.prepareExecute = .ok c :=
  Operation.guarded_of_ok h (by decide : .execute ∈ Stage.allowed .executed)

theorem InsertStatement.prepareExecute_executed {s : InsertStatement} {c : CompiledStatement}
    (h : s.prepareExecute = .ok c) : s.executed.prepareExecute = .ok c :=
  Operation.guarded_of_ok h (by decide : .execute ∈ Stage.allowed .executed)

theorem UpdateStatement.prepareExecute_executed {s : UpdateStatement} {c : CompiledStatement}
    (h : s.prepareExecute = .ok c) : s.executed.prepareExecute = .ok c :=
  Operation.guarded_of_ok h (by decide : .execute ∈ Stage.allowed .executed)

theorem DeleteStatement.prepareExecute_executed {s : DeleteStatement} {c : CompiledStatement}
    (h : s.prepareExecute = .ok c) : s.executed.prepareExecute = .ok c :=
  Operation.guarded_of_ok h (by decide : .execute ∈ Stage.allowed .executed)

/-! ### What is read from a reply -/

/-- **What the kinds of statements read from a reply.** A select statement takes its rows, in order
and under its columns, and a modification takes its counts. -/
structure Reply.ReadInFull : Prop where
  columns : ∀ columns rows, (Reply.rows columns rows).toRowResult.columns = columns
  values : ∀ columns rows, (Reply.rows columns rows).toRowResult.rows.map Row.values = rows
  names : ∀ columns rows, ∀ row ∈ (Reply.rows columns rows).toRowResult.rows,
    row.names = columns.map Column.name
  no_rows : ∀ n id, (Reply.done n id).toRowResult = ⟨[], []⟩
  counts : ∀ n id, (Reply.done n id).toMutationResult = ⟨n, id⟩
  no_counts : ∀ columns rows, (Reply.rows columns rows).toMutationResult = ⟨0, none⟩

theorem Reply.readInFull : Reply.ReadInFull where
  columns _ _ := rfl
  values columns rows := by
    show (rows.map _).map Row.values = rows
    rw [List.map_map]
    exact List.map_id rows
  names columns rows row hrow := by
    obtain ⟨values, -, rfl⟩ := List.mem_map.mp hrow
    rfl
  no_rows _ _ := rfl
  counts _ _ := rfl
  no_counts _ _ := rfl

/-! ### All four -/

namespace Builder

/-- **Executions that come to what they should**, alone and in a row. `moved` is the statement after
a reply. -/
structure Repeatable {S Start Call σ α : Type} [Builder S Start Call] (server : Server σ)
    (read : Reply → α) (moved : S → S)
    (execute : S → Session σ → Except Error α × S × Session σ) : Prop where
  comes : ∀ s session, Comes server read s (moved s) session (execute s session)
  repeats : ∀ (steps : List (Attempt Call)) s session,
    (attempts execute steps s session).1.any Report.isAccepted = false →
      Repeats server read s session (steps.countP Attempt.isExecute)
        (attempts execute steps s session)

/-- **Executions are atomic and repeatable**, whatever the server does and whatever state the
statement is in. A reply changes the stage of the statement and nothing else. -/
theorem executions_repeatable :
    (∀ {σ : Type} (server : Server σ),
      Repeatable server Reply.toRowResult
        (fun s : SelectStatement => { s with stage := .executed })
        (SelectStatement.execute server) ∧
      Repeatable server Reply.toMutationResult
        (fun s : InsertStatement => { s with stage := .executed })
        (InsertStatement.execute server) ∧
      Repeatable server Reply.toMutationResult
        (fun s : UpdateStatement => { s with stage := .executed })
        (UpdateStatement.execute server) ∧
      Repeatable server Reply.toMutationResult
        (fun s : DeleteStatement => { s with stage := .executed })
        (DeleteStatement.execute server)) ∧
    Reply.ReadInFull := by
  refine ⟨fun server => ⟨?_, ?_, ?_, ?_⟩, Reply.readInFull⟩
  · have hcomes := comes_of_perform (S := SelectStatement) server Reply.toRowResult
    exact ⟨hcomes, repeats_of_comes (fun _ _ => SelectStatement.prepareExecute_executed) hcomes⟩
  · have hcomes := comes_of_perform (S := InsertStatement) server Reply.toMutationResult
    exact ⟨hcomes, repeats_of_comes (fun _ _ => InsertStatement.prepareExecute_executed) hcomes⟩
  · have hcomes := comes_of_perform (S := UpdateStatement) server Reply.toMutationResult
    exact ⟨hcomes, repeats_of_comes (fun _ _ => UpdateStatement.prepareExecute_executed) hcomes⟩
  · have hcomes := comes_of_perform (S := DeleteStatement) server Reply.toMutationResult
    exact ⟨hcomes, repeats_of_comes (fun _ _ => DeleteStatement.prepareExecute_executed) hcomes⟩

/-- A select statement whose row is locked at first, with calls in between that come too late; an
insert statement without rows; and an update statement on a session that is closed. -/
theorem executions_repeatable_of_failures :
    (let script : ScriptedServer :=
      { replies := [.error (.server (some 3572) none "locked"), .ok (.rows [] [[.null]])] }
     (attempts (SelectStatement.execute ScriptedServer.server)
        [.execute, .call (.having (.text "h")), .execute, .call (.filter (.text "f")), .execute]
        (.all ⟨"", "t"⟩) { state := script }).2.2.statements =
      List.replicate 3 ⟨.select, "SELECT * FROM `t`", []⟩) ∧
    executions (attempts (InsertStatement.execute ScriptedServer.server) [.execute, .execute]
        (.ofTable ⟨"", "t"⟩) { state := {} }).1 =
      List.replicate 2 (.error (.invalidState "TableInsert.execute" .execute [.values])) ∧
    executions (attempts (UpdateStatement.execute ScriptedServer.server) [.execute, .execute]
        { table := ⟨"", "t"⟩, assignments := [⟨"a", .null⟩], stage := .set }
        { state := { isOpen := false } }).1 =
      [.error .sessionClosed, .error .sessionClosed] := by
  obtain ⟨select, insert, update, -⟩ := executions_repeatable.1 ScriptedServer.server
  refine ⟨?_, ?_, ?_⟩
  · exact ((select.repeats _ _ _ rfl).handed _ rfl).1
  · exact ((insert.repeats _ _ _ rfl).refused _ rfl).2
  · exact (update.repeats _ _ _ rfl).told _ rfl

end Builder

end TableSql
