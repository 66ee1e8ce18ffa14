import TableSql.Proofs.Builder.History
import TableSql.Proofs.Statement.Calls
import TableSql.ScriptedServer

/-!
# Executed statements

An executed statement is still there to be limited, bound and executed again, and for nothing else:
from the limit on, every call that is allowed leads to a stage from the limit on. So what was
gathered before stays as it was. A select statement that is limited anew may also be given an offset
and a lock anew, but only then.

## Main definitions

* `Builder.Executes` — a successful execution
* `Operation.isLate`, `Operation.needsLimit` — the operations that may follow an execution, and
  those of them that have to wait for a limit
* `SelectStatement.Frozen`, `UpdateStatement.Frozen`, `DeleteStatement.Frozen` — what an executed
  statement may become

## Main results

* `SelectStatement.frozen_after`, `UpdateStatement.frozen_after`, `DeleteStatement.frozen_after`
* `SelectStatement.exists_limit_of_stage` — offsets and locks stand behind a limit of their own
* `executed_statements_frozen` — all runs from an execution on
-/

namespace TableSql

/-- An execution of the first statement succeeds, and the second is what it leaves. -/
def Builder.Executes {S Start Call : Type} [Builder S Start Call] (s s₀ : S) : Prop :=
  ∃ answer, outcome s (.execute answer) = .ok () ∧ step s (.execute answer) = s₀

theorem Builder.Executes.eq_executed {S Start Call : Type} [Builder S Start Call] {s s₀ : S}
    (h : Executes s s₀) : s₀ = executed s := by
  obtain ⟨answer, hok, rfl⟩ := h
  exact (prepareExecute_of_ok hok).2

/-- So is an execution on a session that answers. -/
theorem Builder.executes_of_perform {S Start Call σ α : Type} [Builder S Start Call]
    (server : Server σ) (session : Session σ) (read : Reply → α) (s : S) {result : α}
    (h : (session.perform server (prepareExecute s) read).1 = .ok result) :
    Executes s
      (afterSuccess (session.perform server (prepareExecute s) read).1 s (executed s)) := by
  obtain ⟨answer, hout, hstep⟩ := exists_step_of_perform server session read s
  rw [h] at hout
  exact ⟨answer, hout, hstep⟩

namespace Operation

/-- The operations that may follow an execution. -/
def isLate : Operation → Bool
  | .limit | .offset | .lockShared | .lockExclusive | .bind | .execute => true
  | _ => false

/-- The operations that may follow an execution only behind a limit. -/
def needsLimit : Operation → Bool
  | .offset | .lockShared | .lockExclusive => true
  | _ => false

end Operation

/-- A binding changes the values and not the names. -/
theorem Bindings.exists_of_bind {b b' : Bindings} {name : String} {value : Value}
    (h : b.bind? name value = some b') : ∃ values, b' = { b with values } := by
  unfold bind? at h
  split at h <;> cases h
  exact ⟨_, rfl⟩

open Builder

/-! ### Select statements -/

namespace SelectStatement

/-- The stages from the limit on. -/
def Stage.isLate : Stage → Bool
  | .limit | .offset | .lock | .bind | .executed => true
  | _ => false

/-- What an executed statement may become. -/
structure Frozen (s t : SelectStatement) : Prop where
  late : t.stage.isLate = true
  /-- Whatever is not listed is as it was: the clauses, and the names that are referenced. -/
  kept : ∃ limit offset lock values stage,
    t = { s with limit, offset, lock, bindings := { s.bindings with values }, stage }

theorem Stage.isLate_of_mem_allowed {stage : Stage} (h : stage.isLate = true) :
    ∀ op ∈ stage.allowed, op.isLate = true := by
  cases stage with
  | limit | offset | lock | bind | executed => decide
  | select | filter | groupBy | having | orderBy => cases h

theorem Frozen.gives {s t u : SelectStatement} {c : Call} (hs : s.Frozen t) (h : Gives t c u)
    (hlate : c.operation.isLate = true) : s.Frozen u := by
  obtain ⟨-, _, _, _, _, _, rfl⟩ := hs
  cases h with
  | filter | groupBy | having | orderBy => cases hlate
  | limit | offset | lockShared | lockExclusive => exact ⟨rfl, _, _, _, _, _, rfl⟩
  | bind hb =>
    obtain ⟨values, rfl⟩ := Bindings.exists_of_bind hb
    exact ⟨rfl, _, _, _, values, _, rfl⟩

/-- No run leads from an execution back to a stage before the limit. -/
theorem frozen_after (s : SelectStatement) (steps : List (Step Call)) :
    s.Frozen (after s.executed steps) := by
  refine kept_by_run (P := s.Frozen) ?_ ?_ ⟨rfl, _, _, _, _, _, rfl⟩ steps
  · intro t c u ht hu
    obtain ⟨hop, hgives⟩ := apply_eq_ok_iff.mp hu
    exact ht.gives hgives (Stage.isLate_of_mem_allowed ht.late _ hop)
  · rintro t - ⟨-, _, _, _, _, _, rfl⟩ -
    exact ⟨rfl, _, _, _, _, _, rfl⟩

/-! #### Offsets and locks -/

theorem Stage.eq_of_needsLimit {stage : Stage} (h : stage.isLate = true) :
    ∀ op ∈ stage.allowed, op.needsLimit = true → stage = .limit ∨ stage = .offset := by
  cases stage with
  | limit | offset | lock | bind | executed => decide
  | select | filter | groupBy | having | orderBy => cases h

/-- **An offset or a lock can only be given behind a limit**, one that was accepted since the last
execution. -/
theorem exists_limit_of_stage (s : SelectStatement) (steps : List (Step Call))
    (h : (after s.executed steps).stage = .limit ∨ (after s.executed steps).stage = .offset) :
    ∃ count, Call.limit count ∈ callsSinceExecution s.executed steps := by
  induction steps using List.reverseRecOn with
  | nil => rcases h with h | h <;> cases h
  | append_singleton steps e ih =>
    rw [after_concat] at h
    rcases step_cases (after s.executed steps) e with
      ⟨⟨err, hout⟩, hstep⟩ | ⟨c, rfl, hout, hcall⟩ | ⟨answer, rfl, -, -, hstep⟩
    · rw [hstep] at h
      rw [callsSinceExecution_concat_of_error hout]
      exact ih h
    · rw [callsSinceExecution_concat_of_ok hout]
      obtain ⟨hop, hgives⟩ := apply_eq_ok_iff.mp hcall
      generalize step (after s.executed steps) (.call c) = u at h hgives
      cases hgives with
      | @limit count => exact ⟨count, List.mem_append_right _ (List.mem_singleton_self _)⟩
      | offset =>
        -- the limit that the offset waited for stands before it
        have hstage := Stage.eq_of_needsLimit (frozen_after s steps).late _ hop rfl
        obtain ⟨count, hcount⟩ := ih hstage
        exact ⟨count, List.mem_append_left _ hcount⟩
      | filter | groupBy | having | orderBy | lockShared | lockExclusive | bind =>
        rcases h with h | h <;> cases h
    · rw [hstep] at h
      rcases h with h | h <;> cases h

/-- What changes the offset or the lock is an operation for that. -/
theorem exists_needsLimit_of_ne {t : SelectStatement} {e : Step Call}
    (h : (step t e).offset ≠ t.offset ∨ (step t e).lock ≠ t.lock) :
    ∃ op ∈ t.stage.allowed, op.needsLimit = true := by
  rcases step_cases t e with ⟨-, hstep⟩ | ⟨c, rfl, -, hcall⟩ | ⟨answer, rfl, -, -, hstep⟩
  · rw [hstep] at h
    exact absurd h (by simp)
  · obtain ⟨hop, hgives⟩ := apply_eq_ok_iff.mp hcall
    generalize step t (.call c) = u at h hgives
    cases hgives with
    | offset | lockShared | lockExclusive => exact ⟨_, hop, rfl⟩
    | filter | groupBy | having | orderBy | limit | bind => exact absurd h (by simp)
  · rw [hstep] at h
    exact absurd h (not_or.mpr ⟨fun hne => hne rfl, fun hne => hne rfl⟩)

/-- Offset and lock change only behind a limit. -/
theorem exists_limit_of_ne {s : SelectStatement} {steps : List (Step Call)} {e : Step Call}
    (h : (step (after s.executed steps) e).offset ≠ (after s.executed steps).offset ∨
      (step (after s.executed steps) e).lock ≠ (after s.executed steps).lock) :
    ∃ count, Call.limit count ∈ callsSinceExecution s.executed steps := by
  obtain ⟨op, hop, hneeds⟩ := exists_needsLimit_of_ne h
  exact exists_limit_of_stage s steps
    (Stage.eq_of_needsLimit (frozen_after s steps).late op hop hneeds)

end SelectStatement

/-! ### Update statements -/

namespace UpdateStatement

/-- The stages from the limit on. -/
def Stage.isLate : Stage → Bool
  | .limit | .bind | .executed => true
  | _ => false

/-- What an executed statement may become. -/
structure Frozen (s t : UpdateStatement) : Prop where
  late : t.stage.isLate = true
  /-- Whatever is not listed is as it was: the clauses, and the names that are referenced. -/
  kept : ∃ limit values stage, t = { s with limit, bindings := { s.bindings with values }, stage }

theorem Stage.isLate_of_mem_allowed {stage : Stage} (h : stage.isLate = true) :
    ∀ op ∈ stage.allowed, op.isLate = true := by
  cases stage with
  | limit | bind | executed => decide
  | update | set | filter | orderBy => cases h

theorem Frozen.gives {s t u : UpdateStatement} {c : Call} (hs : s.Frozen t) (h : Gives t c u)
    (hlate : c.operation.isLate = true) : s.Frozen u := by
  obtain ⟨-, _, _, _, rfl⟩ := hs
  cases h with
  | set | filter | orderBy => cases hlate
  | limit => exact ⟨rfl, _, _, _, rfl⟩
  | bind hb =>
    obtain ⟨values, rfl⟩ := Bindings.exists_of_bind hb
    exact ⟨rfl, _, values, _, rfl⟩

/-- No run leads from an execution back to a stage before the limit. -/
theorem frozen_after (s : UpdateStatement) (steps : List (Step Call)) :
    s.Frozen (after s.executed steps) := by
  refine kept_by_run (P := s.Frozen) ?_ ?_ ⟨rfl, _, _, _, rfl⟩ steps
  · intro t c u ht hu
    obtain ⟨hop, hgives⟩ := apply_eq_ok_iff.mp hu
    exact ht.gives hgives (Stage.isLate_of_mem_allowed ht.late _ hop)
  · rintro t - ⟨-, _, _, _, rfl⟩ -
    exact ⟨rfl, _, _, _, rfl⟩

end UpdateStatement

/-! ### Delete statements -/

namespace DeleteStatement

/-- The stages from the limit on. -/
def Stage.isLate : Stage → Bool
  | .limit | .bind | .executed => true
  | _ => false

/-- What an executed statement may become. -/
structure Frozen (s t : DeleteStatement) : Prop where
  late : t.stage.isLate = true
  /-- Whatever is not listed is as it was: the clauses, and the names that are referenced. -/
  kept : ∃ limit values stage, t = { s with limit, bindings := { s.bindings with values }, stage }

theorem Stage.isLate_of_mem_allowed {stage : Stage} (h : stage.isLate = true) :
    ∀ op ∈ stage.allowed, op.isLate = true := by
  cases stage with
  | limit | bind | executed => decide
  | delete | filter | orderBy => cases h

theorem Frozen.gives {s t u : DeleteStatement} {c : Call} (hs : s.Frozen t) (h : Gives t c u)
    (hlate : c.operation.isLate = true) : s.Frozen u := by
  obtain ⟨-, _, _, _, rfl⟩ := hs
  cases h with
  | filter | orderBy => cases hlate
  | limit => exact ⟨rfl, _, _, _, rfl⟩
  | bind hb =>
    obtain ⟨values, rfl⟩ := Bindings.exists_of_bind hb
    exact ⟨rfl, _, values, _, rfl⟩

/-- No run leads from an execution back to a stage before the limit. -/
theorem frozen_after (s : DeleteStatement) (steps : List (Step Call)) :
    s.Frozen (after s.executed steps) := by
  refine kept_by_run (P := s.Frozen) ?_ ?_ ⟨rfl, _, _, _, rfl⟩ steps
  · intro t c u ht hu
    obtain ⟨hop, hgives⟩ := apply_eq_ok_iff.mp hu
    exact ht.gives hgives (Stage.isLate_of_mem_allowed ht.late _ hop)
  · rintro t - ⟨-, _, _, _, rfl⟩ -
    exact ⟨rfl, _, _, _, rfl⟩

end DeleteStatement

/-! ### Insert statements -/

/-- An executed insert statement takes no call. -/
theorem InsertStatement.after_executed (s : InsertStatement) (steps : List (Step Call)) :
    after s.executed steps = s.executed := by
  refine kept_by_run (P := (· = s.executed)) ?_ ?_ rfl steps
  · rintro t c u rfl hu
    obtain ⟨hop, hgives⟩ := apply_eq_ok_iff.mp hu
    cases hgives with
    | values =>
      have hop : Operation.values ∈ [Operation.execute] := hop
      exact absurd hop (by decide)
  · rintro t - rfl -
    rfl

/-! ### All statements -/

/-- **An executed statement is frozen except for its limit and its bound values.** Whatever is done
with it from then on, accepted or not, an update or a delete statement differs from what was
executed in its limit, its bound values and its stage at most, and an insert statement in its stage.
A select statement may also differ in its offset and its lock. These change only behind a limit that
was accepted since the last successful execution. The last part says that the executions meant are
those on sessions. -/
theorem executed_statements_frozen :
    (∀ s s₀ : SelectStatement, Executes s s₀ → ∀ steps, s.Frozen (after s₀ steps) ∧
      ∀ e, (step (after s₀ steps) e).offset ≠ (after s₀ steps).offset ∨
          (step (after s₀ steps) e).lock ≠ (after s₀ steps).lock →
        ∃ count, SelectStatement.Call.limit count ∈ callsSinceExecution s₀ steps) ∧
    (∀ s s₀ : UpdateStatement, Executes s s₀ → ∀ steps, s.Frozen (after s₀ steps)) ∧
    (∀ s s₀ : DeleteStatement, Executes s s₀ → ∀ steps, s.Frozen (after s₀ steps)) ∧
    (∀ s s₀ : InsertStatement, Executes s s₀ → ∀ steps,
      after s₀ steps = s₀ ∧ s₀ = { s with stage := .executed }) ∧
    ∀ (σ : Type) (server : Server σ) (session : Session σ),
      (∀ (s : SelectStatement) (r : RowResult), (s.execute server session).1 = .ok r →
        Executes s (s.execute server session).2.1) ∧
      (∀ (s : UpdateStatement) (r : MutationResult), (s.execute server session).1 = .ok r →
        Executes s (s.execute server session).2.1) ∧
      (∀ (s : DeleteStatement) (r : MutationResult), (s.execute server session).1 = .ok r →
        Executes s (s.execute server session).2.1) ∧
      ∀ (s : InsertStatement) (r : MutationResult), (s.execute server session).1 = .ok r →
        Executes s (s.execute server session).2.1 := by
  refine ⟨?_, ?_, ?_, ?_, fun σ server session => ⟨?_, ?_, ?_, ?_⟩⟩
  · rintro s s₀ h steps
    obtain rfl := h.eq_executed
    exact ⟨s.frozen_after steps, fun e he => SelectStatement.exists_limit_of_ne he⟩
  · rintro s s₀ h steps
    obtain rfl := h.eq_executed
    exact s.frozen_after steps
  · rintro s s₀ h steps
    obtain rfl := h.eq_executed
    exact s.frozen_after steps
  · rintro s s₀ h steps
    obtain rfl := h.eq_executed
    exact ⟨s.after_executed steps, rfl⟩
  · intro s r h
    exact executes_of_perform server session Reply.toRowResult s h
  · intro s r h
    exact executes_of_perform server session Reply.toMutationResult s h
  · intro s r h
    exact executes_of_perform server session Reply.toMutationResult s h
  · intro s r h
    exact executes_of_perform server session Reply.toMutationResult s h

/-- A select statement that is given an offset too early, is limited, and then given the offset and
a condition, which comes too late; an update statement that is assigned to; and an insert statement
that is given another row. -/
theorem executed_statements_frozen_of_late_calls :
    (∃ s s₀ t u : SelectStatement, Executes s s₀ ∧ s.grouping = ["g"] ∧
      t = after s₀ [.call (.offset 9), .call (.limit 5)] ∧
      u = after s₀ [.call (.offset 9), .call (.limit 5), .call (.offset 2),
        .call (.filter (.text "y"))] ∧
      t.offset = none ∧ u.offset = some 2 ∧ s.Frozen u ∧
      ∃ count, .limit count ∈ callsSinceExecution s₀ [.call (.offset 9), .call (.limit 5)]) ∧
    (∃ s s₀ : UpdateStatement, Executes s s₀ ∧ s.assignments = [⟨"a", .null⟩] ∧
      s.Frozen (after s₀ [.call (.set "b" .null), .call (.limit 1)])) ∧
    (∃ s s₀ : DeleteStatement, Executes s s₀ ∧
      s.Frozen (after s₀ [.call (.filter (.text "y"))])) ∧
    ∃ s s₀ : InsertStatement, Executes s s₀ ∧ s.rows = [[.null]] ∧
      after s₀ [.call (.values [.null])] = s₀ := by
  obtain ⟨select, update, delete, insert, sessions⟩ := executed_statements_frozen
  let selected : SelectStatement :=
    { table := ⟨"", "t"⟩, projection := [], grouping := ["g"], stage := .groupBy }
  let updated : UpdateStatement :=
    { table := ⟨"", "t"⟩, assignments := [⟨"a", .null⟩], stage := .set }
  let inserted : InsertStatement := { table := ⟨"", "t"⟩, rows := [[.null]], stage := .values }
  let session : Session ScriptedServer := { state := { replies := [.ok (.rows [] [])] } }
  have hselected := (sessions _ ScriptedServer.server session).1 selected ⟨[], []⟩ rfl
  have hupdated : Executes updated updated.executed := ⟨.ok (.done 0 none), rfl, rfl⟩
  have hdeleted : Executes (DeleteStatement.ofTable ⟨"", "t"⟩) (.executed (.ofTable ⟨"", "t"⟩)) :=
    ⟨.ok (.done 0 none), rfl, rfl⟩
  have hinserted : Executes inserted inserted.executed := ⟨.ok (.done 0 none), rfl, rfl⟩
  refine ⟨⟨_, _, _, _, hselected, rfl, rfl, rfl, rfl, rfl, (select _ _ hselected _).1, ?_⟩,
    ⟨_, _, hupdated, rfl, update _ _ hupdated _⟩, ⟨_, _, hdeleted, delete _ _ hdeleted _⟩,
    ⟨_, _, hinserted, rfl, (insert _ _ hinserted _).1⟩⟩
  refine (select _ _ hselected [.call (.offset 9), .call (.limit 5)]).2 (.call (.offset 2)) ?_
  exact .inl (by decide)

end TableSql
