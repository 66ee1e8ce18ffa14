import TableSql.Proofs.Builder.Statements
import TableSql.Proofs.Fragment.Rendering
import TableSql.Proofs.Statement.Calls

/-!
# Placeholders in the rows of an insert statement

Nothing can be bound to a placeholder of an insert statement, so one in a cell makes an execution
fail. The other statements compare the names that they refer to with those that are bound, and
report all that are missing. An insert statement has no such list: it renders its cells with no
values at all, one after another, and what is reported is the name that the rendering stops at.

## Main definitions

* `InsertStatement.names` — the names in the cells, row by row

## Main results

* `InsertStatement.checkLengths_eq_ok_iff` — the check of the rows' lengths
* `InsertStatement.error?_compile`, `InsertStatement.error?_rows` — rows that pass it fail with the
  first name in their cells
* `insert_reports_first_name` — the first name is reported, and no other
* `exists_insert_reports_one_of_two` — two names, one of them reported
-/

namespace TableSql

namespace InsertStatement

/-- The names of the placeholders in the cells, row by row, repeats included. -/
def names (s : InsertStatement) : List String :=
  s.rows.flatMap fun row => row.flatMap Value.names

/-- The check passes if every row is of the expected length. -/
theorem checkLengths_eq_ok_iff {expected index : Nat} {rows : List (List Value)} :
    checkLengths expected index rows = .ok () ↔ ∀ row ∈ rows, row.length = expected := by
  induction rows generalizing index with
  | nil => exact ⟨fun _ _ h => absurd h List.not_mem_nil, fun _ => rfl⟩
  | cons row rest ih =>
    rw [checkLengths, List.forall_mem_cons]
    split
    next h => rw [ih, and_iff_right h]
    next h => exact ⟨nofun, fun hall => absurd hall.1 h⟩

/-! ### The error of a compilation -/

/-- A row fails with its cells. -/
theorem error?_row (values : List Value) :
    Outcome.error? (row values) = Outcome.error? (values.mapM cell) :=
  Outcome.error?_bind_ok _ _

/-- Rows that are of the expected length fail with their cells. -/
theorem error?_compile {s : InsertStatement} (hrows : s.rows ≠ [])
    (hlength : ∀ row ∈ s.rows, row.length = s.rowLength) :
    Outcome.error? s.compile = Outcome.error? (s.rows.mapM row) := by
  have hcompile : Outcome.error? s.compile = Outcome.error? s.fragment :=
    Outcome.error?_bind_ok _ _
  rw [hcompile, fragment, if_neg hrows, checkLengths_eq_ok_iff.mpr hlength]
  exact Outcome.error?_bind_ok _ _

/-- Cells that scan fail with the first name in them. -/
theorem error?_rows {s : InsertStatement} (hscans : ∀ row ∈ s.rows, ∀ v ∈ row, v.Scans) :
    Outcome.error? (s.rows.mapM row) =
      s.names.findSome? (Bindings.empty.error? executeContext) := by
  refine Outcome.error?_mapM fun values hvalues => ?_
  rw [error?_row]
  exact Outcome.error?_mapM fun v hv =>
    v.error?_render executeContext .empty (hscans values hvalues v hv)

end InsertStatement

/-- **An insert statement reports the first of its placeholders**, and no other. The statement and
the session stay as they were. So all its names are reported if they are the same, and only then. -/
theorem insert_reports_first_name (s : InsertStatement) (name : String) (rest : List String)
    (hnames : s.names = name :: rest) (hallowed : .execute ∈ s.operations)
    (hlength : ∀ row ∈ s.rows, row.length = s.rowLength)
    (hscans : ∀ row ∈ s.rows, ∀ v ∈ row, v.Scans) :
    s.prepareExecute = .error (.unboundPlaceholders InsertStatement.executeContext [name]) ∧
    (∀ {σ : Type} (server : Server σ) (session : Session σ), s.execute server session =
      (.error (.unboundPlaceholders InsertStatement.executeContext [name]), s, session)) ∧
    ([name] = s.names.eraseDups ↔ ∀ other ∈ rest, other = name) := by
  have hrows : s.rows ≠ [] := by
    intro hnil
    rw [InsertStatement.names, hnil] at hnames
    cases hnames
  have hprepare : s.prepareExecute =
      .error (.unboundPlaceholders InsertStatement.executeContext [name]) := by
    rw [InsertStatement.prepareExecute, Operation.guarded_of_mem hallowed,
      ← Outcome.error?_eq_some_iff, InsertStatement.error?_compile hrows hlength,
      InsertStatement.error?_rows hscans, hnames, List.findSome?_cons, Bindings.error?_empty]
  refine ⟨hprepare, fun server session => ?_, ?_⟩
  · rw [InsertStatement.execute, hprepare]
    rfl
  · rw [hnames, List.eraseDups_cons]
    constructor
    · intro h other hother
      refine Classical.byContradiction fun hne => ?_
      have hmem : other ∈ (rest.filter fun n => !n == name).eraseDups := by
        simp [List.mem_eraseDups, hother, hne]
      rw [← (List.cons.inj h).2] at hmem
      cases hmem
    · intro h
      have hnil : (rest.filter fun n => !n == name) = [] := by
        simpa [List.filter_eq_nil_iff] using h
      rw [hnil]
      rfl

/-- A name that occurs twice is reported once, and no name is left out then. -/
theorem insert_reports_first_name_of_repeat :
    let s : InsertStatement :=
      { table := ⟨"", "t"⟩, rows := [[.null, .expression ":a+:a"]], stage := .values }
    s.prepareExecute = .error (.unboundPlaceholders "TableInsert.execute" ["a"]) ∧
      s.names.eraseDups = ["a"] := by
  have hscans : ∀ v ∈ [Value.null, .expression ":a+:a"], v.Scans := by
    refine List.forall_mem_cons.mpr ⟨nofun, List.forall_mem_singleton.mpr fun sql hsql => ?_⟩
    cases hsql
    exact ⟨_, rfl⟩
  have hall : ∀ other ∈ ["a"], other = "a" := List.forall_mem_singleton.mpr rfl
  intro s
  have hallowed : Operation.execute ∈ s.operations := by
    show Operation.execute ∈ InsertStatement.Stage.allowed .values
    decide
  obtain ⟨hprepare, -, hnames⟩ := insert_reports_first_name s "a" ["a"] rfl hallowed
    (List.forall_mem_singleton.mpr rfl) (List.forall_mem_singleton.mpr hscans)
  exact ⟨hprepare, (hnames.mpr hall).symm⟩

/-- **Of two names in a row the second is not reported.** A delete statement with the same names
reports both. -/
theorem exists_insert_reports_one_of_two :
    ∃ s : InsertStatement,
      s = Builder.after (.ofTable ⟨"test", "table1"⟩)
        [.call (.values [.expression ":a", .expression ":b"])] ∧
      Builder.Reachable s ∧ .execute ∈ s.operations ∧
      (∀ row ∈ s.rows, row.length = s.rowLength) ∧ (∀ row ∈ s.rows, ∀ v ∈ row, v.Scans) ∧
      s.names.eraseDups = ["a", "b"] ∧
      s.prepareExecute = .error (.unboundPlaceholders "TableInsert.execute" ["a"]) ∧
      (Builder.after (DeleteStatement.ofTable ⟨"test", "table1"⟩)
        [.call (.filter (.text ":a=:b"))]).prepareExecute =
        .error (.unboundPlaceholders "TableDelete.execute" ["a", "b"]) := by
  have hstart : Builder.Reachable (InsertStatement.ofTable ⟨"test", "table1"⟩) :=
    .start (x := .table ⟨"test", "table1"⟩) rfl
  have hscans : ∀ v ∈ [Value.expression ":a", .expression ":b"], v.Scans := by
    intro v hv sql hsql
    rcases List.mem_cons.mp hv with rfl | hv
    · cases hsql
      exact ⟨_, rfl⟩
    · cases List.mem_singleton.mp hv
      cases hsql
      exact ⟨_, rfl⟩
  refine ⟨_, rfl, Builder.reachable_after hstart _, ?_, ?_, ?_, rfl, rfl, rfl⟩
  · show Operation.execute ∈ InsertStatement.Stage.allowed .values
    decide
  · exact List.forall_mem_singleton.mpr rfl
  · exact List.forall_mem_singleton.mpr hscans

end TableSql
