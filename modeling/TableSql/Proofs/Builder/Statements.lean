import TableSql.Proofs.Builder.Basic

/-!
# The four builders

Each kind of statement says how it is made, what a call does and what an execution sends, and is a
builder by that. Select and insert statements can be made in several ways. The ways are a type of
their own, so that there is one function that makes a statement and it may fail.

## Main definitions

* `SelectStatement.Start`, `InsertStatement.Start` — the ways to make a statement that has several
* the instances of `Builder` for the statements on a table

## Main results

* `SelectStatement.exists_of_start` — what a new select statement has
* `Builder.reachable_execute` — executing a reachable statement on any session leads to a reachable
  one
-/

namespace TableSql

/-- The ways to make a select statement. -/
inductive SelectStatement.Start where
  | all (table : TableRef)
  | columns (table : TableRef) (columns : ColumnList)

instance : Builder SelectStatement SelectStatement.Start SelectStatement.Call where
  start
    | .all table => .ok (.all table)
    | .columns table columns => SelectStatement.ofColumns table columns
  apply := SelectStatement.apply
  operations := SelectStatement.operations
  missing s := s.bindings.missing
  compile := SelectStatement.compile
  prepareExecute := SelectStatement.prepareExecute
  executed := SelectStatement.executed

/-- A new select statement has nothing but its table and its columns. -/
theorem SelectStatement.exists_of_start {x : Start} {s : SelectStatement}
    (h : Builder.start x = .ok s) :
    ∃ (table : TableRef) (projection : List String), s = { table, projection } := by
  cases x with
  | all table =>
    cases h
    exact ⟨table, [], rfl⟩
  | columns table columns =>
    have h : ofColumns table columns = .ok s := h
    rw [ofColumns] at h
    split at h
    next projection _ =>
      cases h
      exact ⟨table, projection, rfl⟩
    next => cases h

/-- The ways to make an insert statement. -/
inductive InsertStatement.Start where
  | table (table : TableRef)
  | columns (table : TableRef) (columns : ColumnList)
  | document (table : TableRef) (document : Document)

instance : Builder InsertStatement InsertStatement.Start InsertStatement.Call where
  start
    | .table table => .ok (.ofTable table)
    | .columns table columns => InsertStatement.ofColumns table columns
    | .document table document => InsertStatement.ofDocument table document
  apply := InsertStatement.apply
  operations := InsertStatement.operations
  missing _ := []
  compile := InsertStatement.compile
  prepareExecute := InsertStatement.prepareExecute
  executed := InsertStatement.executed

instance : Builder UpdateStatement TableRef UpdateStatement.Call where
  start table := .ok (.ofTable table)
  apply := UpdateStatement.apply
  operations := UpdateStatement.operations
  missing s := s.bindings.missing
  compile := UpdateStatement.compile
  prepareExecute := UpdateStatement.prepareExecute
  executed := UpdateStatement.executed

instance : Builder DeleteStatement TableRef DeleteStatement.Call where
  start table := .ok (.ofTable table)
  apply := DeleteStatement.apply
  operations := DeleteStatement.operations
  missing s := s.bindings.missing
  compile := DeleteStatement.compile
  prepareExecute := DeleteStatement.prepareExecute
  executed := DeleteStatement.executed

/-- **Executions stay among the reachable statements**, whatever the server does. -/
theorem Builder.reachable_execute {σ : Type} (server : Server σ) (session : Session σ) :
    (∀ s : SelectStatement, Reachable s → Reachable (s.execute server session).2.1) ∧
    (∀ s : InsertStatement, Reachable s → Reachable (s.execute server session).2.1) ∧
    (∀ s : UpdateStatement, Reachable s → Reachable (s.execute server session).2.1) ∧
    (∀ s : DeleteStatement, Reachable s → Reachable (s.execute server session).2.1) := by
  refine ⟨?_, ?_, ?_, ?_⟩
  · intro s h
    exact h.perform server session Reply.toRowResult
  · intro s h
    exact h.perform server session Reply.toMutationResult
  · intro s h
    exact h.perform server session Reply.toMutationResult
  · intro s h
    exact h.perform server session Reply.toMutationResult

end TableSql
