import TableSql.Proofs.Builder.Grammar
import TableSql.Proofs.Statement.Calls

/-!
# The grammars of the statements

The order of the clauses is that of the SQL text, and a clause is given once. Behind an execution
the row limit may be set anew, and a select statement may be locked anew then.

## Main definitions

* `SelectStatement.grammar`, `UpdateStatement.grammar`, `DeleteStatement.grammar`,
  `InsertStatement.Start.grammar` — the sequences of calls that a new statement takes
* `SelectStatement.Stage.rest`, `UpdateStatement.Stage.rest`, `DeleteStatement.Stage.rest`,
  `InsertStatement.Stage.rest` — what is left of them in a stage
* the instances of `Builder.Staged`

## Main results

* `SelectStatement.matches'_deriv_rest`, `UpdateStatement.matches'_deriv_rest`,
  `DeleteStatement.matches'_deriv_rest`, `InsertStatement.matches'_deriv_rest` — the calls that a
  stage allows are those that the grammar goes on with
* `Builder.statements_speak_grammar` — every new statement speaks its grammar
-/

namespace TableSql

open RegularExpression (char star)
open Grammar (opt run runs)

/-! ### Select statements -/

namespace SelectStatement

/-- A row limit, which may come with a number of rows to skip. -/
def limiting : Grammar :=
  char .limit * opt (char .offset)

/-- At most one lock. -/
def locking : Grammar :=
  opt (char .lockShared + char .lockExclusive)

/-- Further executions, each behind a new limit and lock or not. -/
def again : Grammar :=
  runs (limiting * locking)

/-- The calls on a select statement. -/
def grammar : Grammar :=
  opt (char .filter) * opt (char .groupBy * opt (char .having)) * opt (char .orderBy) *
    opt limiting * locking * run * again

/-- The stage behind an operation. -/
def Stage.after : Operation → Stage
  | .filter => .filter
  | .groupBy => .groupBy
  | .having => .having
  | .orderBy => .orderBy
  | .limit => .limit
  | .offset => .offset
  | .lockShared | .lockExclusive => .lock
  | .bind => .bind
  | _ => .executed

/-- What is left of the grammar in a stage. -/
def Stage.rest : Stage → Grammar
  | .select =>
    opt (char .filter) * (opt (char .groupBy * opt (char .having)) * (opt (char .orderBy) *
      (opt limiting * (locking * (run * again)))))
  | .filter =>
    opt (char .groupBy * opt (char .having)) * (opt (char .orderBy) * (opt limiting *
      (locking * (run * again))))
  | .groupBy =>
    opt (char .having) * (opt (char .orderBy) * (opt limiting * (locking * (run * again))))
  | .having => opt (char .orderBy) * (opt limiting * (locking * (run * again)))
  | .orderBy => opt limiting * (locking * (run * again))
  | .limit => opt (char .offset) * (locking * (run * again))
  | .offset => locking * (run * again)
  | .lock | .bind => run * again
  | .executed => again

theorem rest_select : (Stage.rest .select).matches' = grammar.matches' := by
  simp [Stage.rest, grammar, mul_assoc]

/-- **The calls that a stage allows are those that the grammar goes on with.** -/
theorem matches'_deriv_rest (stage : Stage) (op : Operation) :
    (stage.rest.deriv op).matches' =
      if op ∈ stage.allowed then (Stage.after op).rest.matches' else 0 := by
  cases stage <;> cases op <;>
    simp [Stage.rest, Stage.allowed, Stage.after, opt, limiting, locking, run, runs, again,
      RegularExpression.deriv, RegularExpression.matchEpsilon, mul_assoc]

theorem exists_mem_rest (stage : Stage) : ∃ w, w ∈ stage.rest.matches' := by
  refine ⟨[.execute], (RegularExpression.rmatch_iff_matches' _ _).mp ?_⟩
  cases stage <;> rfl

instance : Builder.Staged SelectStatement Start Call where
  grammar _ := grammar
  rest s := s.stage.rest
  follow op := (Stage.after op).rest
  rest_start x s h := by
    obtain ⟨table, projection, rfl⟩ := exists_of_start h
    exact rest_select
  rest_apply s s' c h := by
    obtain ⟨-, hgives⟩ := apply_eq_ok_iff.mp h
    cases hgives <;> rfl
  rest_executed _ := rfl
  matches'_deriv_rest s op := matches'_deriv_rest s.stage op
  exists_mem_rest s := exists_mem_rest s.stage
  exists_mem_follow op := exists_mem_rest (Stage.after op)

end SelectStatement

/-! ### Update statements -/

namespace UpdateStatement

/-- The calls on an update statement. -/
def grammar : Grammar :=
  char .set * star (char .set) * opt (char .filter) * opt (char .orderBy) * opt (char .limit) *
    run * runs (char .limit)

/-- The stage behind an operation. -/
def Stage.after : Operation → Stage
  | .set => .set
  | .filter => .filter
  | .orderBy => .orderBy
  | .limit => .limit
  | .bind => .bind
  | _ => .executed

/-- What is left of the grammar in a stage. -/
def Stage.rest : Stage → Grammar
  | .update =>
    char .set * (star (char .set) * (opt (char .filter) * (opt (char .orderBy) *
      (opt (char .limit) * (run * runs (char .limit))))))
  | .set =>
    star (char .set) * (opt (char .filter) * (opt (char .orderBy) * (opt (char .limit) *
      (run * runs (char .limit)))))
  | .filter => opt (char .orderBy) * (opt (char .limit) * (run * runs (char .limit)))
  | .orderBy => opt (char .limit) * (run * runs (char .limit))
  | .limit | .bind => run * runs (char .limit)
  | .executed => runs (char .limit)

theorem rest_update : (Stage.rest .update).matches' = grammar.matches' := by
  simp [Stage.rest, grammar, mul_assoc]

/-- **The calls that a stage allows are those that the grammar goes on with.** -/
theorem matches'_deriv_rest (stage : Stage) (op : Operation) :
    (stage.rest.deriv op).matches' =
      if op ∈ stage.allowed then (Stage.after op).rest.matches' else 0 := by
  cases stage <;> cases op <;>
    simp [Stage.rest, Stage.allowed, Stage.after, opt, run, runs, RegularExpression.deriv,
      RegularExpression.matchEpsilon, mul_assoc]

theorem exists_mem_rest (stage : Stage) : ∃ w, w ∈ stage.rest.matches' := by
  cases stage with
  | update => exact ⟨[.set, .execute], (RegularExpression.rmatch_iff_matches' _ _).mp rfl⟩
  | _ => exact ⟨[.execute], (RegularExpression.rmatch_iff_matches' _ _).mp rfl⟩

instance : Builder.Staged UpdateStatement TableRef Call where
  grammar _ := grammar
  rest s := s.stage.rest
  follow op := (Stage.after op).rest
  rest_start _ _ h := by
    cases h
    exact rest_update
  rest_apply s s' c h := by
    obtain ⟨-, hgives⟩ := apply_eq_ok_iff.mp h
    cases hgives <;> rfl
  rest_executed _ := rfl
  matches'_deriv_rest s op := matches'_deriv_rest s.stage op
  exists_mem_rest s := exists_mem_rest s.stage
  exists_mem_follow op := exists_mem_rest (Stage.after op)

end UpdateStatement

/-! ### Delete statements -/

namespace DeleteStatement

/-- The calls on a delete statement. Without any clause it refers to nothing and takes no binding
before it is executed. -/
def grammar : Grammar :=
  (char .execute + (char .filter * opt (char .orderBy) * opt (char .limit) +
    char .orderBy * opt (char .limit) + char .limit) * run) * runs (char .limit)

/-- The stage behind an operation. -/
def Stage.after : Operation → Stage
  | .filter => .filter
  | .orderBy => .orderBy
  | .limit => .limit
  | .bind => .bind
  | _ => .executed

/-- What is left of the grammar in a stage. -/
def Stage.rest : Stage → Grammar
  | .delete => grammar
  | .filter => opt (char .orderBy) * (opt (char .limit) * (run * runs (char .limit)))
  | .orderBy => opt (char .limit) * (run * runs (char .limit))
  | .limit | .bind => run * runs (char .limit)
  | .executed => runs (char .limit)

/-- **The calls that a stage allows are those that the grammar goes on with.** -/
theorem matches'_deriv_rest (stage : Stage) (op : Operation) :
    (stage.rest.deriv op).matches' =
      if op ∈ stage.allowed then (Stage.after op).rest.matches' else 0 := by
  cases stage <;> cases op <;>
    simp [Stage.rest, Stage.allowed, Stage.after, grammar, opt, run, runs,
      RegularExpression.deriv, RegularExpression.matchEpsilon, mul_assoc]

theorem exists_mem_rest (stage : Stage) : ∃ w, w ∈ stage.rest.matches' := by
  refine ⟨[.execute], (RegularExpression.rmatch_iff_matches' _ _).mp ?_⟩
  cases stage <;> rfl

instance : Builder.Staged DeleteStatement TableRef Call where
  grammar _ := grammar
  rest s := s.stage.rest
  follow op := (Stage.after op).rest
  rest_start _ _ h := by
    cases h
    rfl
  rest_apply s s' c h := by
    obtain ⟨-, hgives⟩ := apply_eq_ok_iff.mp h
    cases hgives <;> rfl
  rest_executed _ := rfl
  matches'_deriv_rest s op := matches'_deriv_rest s.stage op
  exists_mem_rest s := exists_mem_rest s.stage
  exists_mem_follow op := exists_mem_rest (Stage.after op)

end DeleteStatement

/-! ### Insert statements -/

namespace InsertStatement

/-- The calls on an insert statement. One made from a document has its only row. -/
def Start.grammar : Start → Grammar
  | .table _ | .columns _ _ => char .values * star (char .values) * star (char .execute)
  | .document _ _ => star (char .execute)

/-- The stage behind an operation. -/
def Stage.after : Operation → Stage
  | .values => .values
  | _ => .executed

/-- What is left of the grammar in a stage. -/
def Stage.rest : Stage → Grammar
  | .insert => char .values * star (char .values) * star (char .execute)
  | .values => star (char .values) * star (char .execute)
  | .document | .executed => star (char .execute)

/-- **The calls that a stage allows are those that the grammar goes on with.** -/
theorem matches'_deriv_rest (stage : Stage) (op : Operation) :
    (stage.rest.deriv op).matches' =
      if op ∈ stage.allowed then (Stage.after op).rest.matches' else 0 := by
  cases stage <;> cases op <;>
    simp [Stage.rest, Stage.allowed, Stage.after, RegularExpression.deriv,
      RegularExpression.matchEpsilon]

theorem exists_mem_rest (stage : Stage) : ∃ w, w ∈ stage.rest.matches' := by
  cases stage with
  | insert => exact ⟨[.values], (RegularExpression.rmatch_iff_matches' _ _).mp rfl⟩
  | _ => exact ⟨[], (RegularExpression.rmatch_iff_matches' _ _).mp rfl⟩

theorem rest_start {x : Start} {s : InsertStatement} (h : Builder.start x = .ok s) :
    s.stage.rest = x.grammar := by
  cases x with
  | table table =>
    cases h
    rfl
  | columns table columns =>
    have h : ofColumns table columns = .ok s := h
    rw [ofColumns] at h
    split at h
    next => cases h; rfl
    next => cases h
  | document table document =>
    have h : ofDocument table document = .ok s := h
    rw [ofDocument] at h
    split at h
    next => cases h
    next => cases h
    next => cases h; rfl

instance : Builder.Staged InsertStatement Start Call where
  grammar := Start.grammar
  rest s := s.stage.rest
  follow op := (Stage.after op).rest
  rest_start _ _ h := by rw [rest_start h]
  rest_apply s s' c h := by
    obtain ⟨-, hgives⟩ := apply_eq_ok_iff.mp h
    cases hgives
    rfl
  rest_executed _ := rfl
  matches'_deriv_rest s op := matches'_deriv_rest s.stage op
  exists_mem_rest s := exists_mem_rest s.stage
  exists_mem_follow op := exists_mem_rest (Stage.after op)

end InsertStatement

/-! ### All four -/

namespace Builder

/-- **Every new statement speaks its grammar.** Executions on a session, whatever the server does,
are steps of the kind that this is about. -/
theorem statements_speak_grammar :
    (∀ (x : SelectStatement.Start) (s : SelectStatement), start x = .ok s →
      Speaks s SelectStatement.title SelectStatement.grammar.matches') ∧
    (∀ (x : InsertStatement.Start) (s : InsertStatement), start x = .ok s →
      Speaks s InsertStatement.title x.grammar.matches') ∧
    (∀ table : TableRef, Speaks (UpdateStatement.ofTable table) UpdateStatement.title
      UpdateStatement.grammar.matches') ∧
    (∀ table : TableRef, Speaks (DeleteStatement.ofTable table) DeleteStatement.title
      DeleteStatement.grammar.matches') ∧
    ∀ (σ : Type) (server : Server σ) (session : Session σ),
      (∀ s : SelectStatement, ∃ a,
        outcome s (.execute a) = ((s.execute server session).1.map fun _ => ()) ∧
        step s (.execute a) = (s.execute server session).2.1) ∧
      (∀ s : InsertStatement, ∃ a,
        outcome s (.execute a) = ((s.execute server session).1.map fun _ => ()) ∧
        step s (.execute a) = (s.execute server session).2.1) ∧
      (∀ s : UpdateStatement, ∃ a,
        outcome s (.execute a) = ((s.execute server session).1.map fun _ => ()) ∧
        step s (.execute a) = (s.execute server session).2.1) ∧
      (∀ s : DeleteStatement, ∃ a,
        outcome s (.execute a) = ((s.execute server session).1.map fun _ => ()) ∧
        step s (.execute a) = (s.execute server session).2.1) := by
  refine ⟨?_, ?_, ?_, ?_, fun σ server session => ⟨?_, ?_, ?_, ?_⟩⟩
  · intro x s h
    exact speaks_of_start h
  · intro x s h
    exact speaks_of_start h
  · intro table
    exact speaks_of_start (x := table) rfl
  · intro table
    exact speaks_of_start (x := table) rfl
  · intro s
    exact exists_step_of_perform server session Reply.toRowResult s
  · intro s
    exact exists_step_of_perform server session Reply.toMutationResult s
  · intro s
    exact exists_step_of_perform server session Reply.toMutationResult s
  · intro s
    exact exists_step_of_perform server session Reply.toMutationResult s

/-- A select statement that is bound, executed, limited anew and executed again; an insert statement
that has no row yet; an update statement that is filtered too early, by a condition that would be
refused anyway; and a delete statement that refers to nothing. -/
theorem statements_speak_grammar_of_runs :
    (let steps : List (Step SelectStatement.Call) :=
      [.call (.filter (.text ":x")), .call (.bind "x" .null), .execute (.ok (.rows [] [])),
        .call (.limit 1), .call (.offset 2), .call (.lockShared .unspecified),
        .execute (.ok (.rows [] []))]
     accepted (SelectStatement.all ⟨"", "t"⟩) steps = steps) ∧
    outcome (InsertStatement.ofTable ⟨"", "t"⟩) (.execute (.ok (.done 0 none))) =
      .error (.invalidState "TableInsert.execute" .execute [.values]) ∧
    outcome (UpdateStatement.ofTable ⟨"", "t"⟩) (.call (.filter (.text " "))) =
      .error (.invalidState "TableUpdate.where" .filter [.set]) ∧
    outcome (DeleteStatement.ofTable ⟨"", "t"⟩) (.call (.bind "x" .null)) =
      .error (.invalidState "TableDelete.bind" .bind [.filter, .orderBy, .limit, .execute]) := by
  obtain ⟨select, insert, update, delete, -⟩ := statements_speak_grammar
  refine ⟨?_, ?_, ?_, ?_⟩
  · have h := select (.all ⟨"", "t"⟩) (.all ⟨"", "t"⟩) rfl
    refine (h.accepted_iff _ ?_).mpr ⟨_, ?_, List.prefix_rfl⟩
    · exact ⟨fun _ => rfl, fun _ => rfl, fun _ => rfl, fun _ => rfl, fun _ => rfl, fun _ => rfl,
        fun _ => rfl, trivial⟩
    · exact (RegularExpression.rmatch_iff_matches' _ _).mp (by decide)
  · have h := insert (.table ⟨"", "t"⟩) (.ofTable ⟨"", "t"⟩) rfl
    exact h.refused [] _ ((h.operations_iff [] .execute).not.mp (by decide))
  · have h := update ⟨"", "t"⟩
    exact h.refused [] _ ((h.operations_iff [] .filter).not.mp (by decide))
  · have h := delete ⟨"", "t"⟩
    exact h.refused [] _ ((h.operations_iff [] .bind).not.mp (by decide))

end Builder

end TableSql
