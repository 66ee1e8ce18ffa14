import TableSql.Proofs.Fragment.Fill
import TableSql.Proofs.Session
import TableSql.Proofs.Statement.Cells

/-!
# What an insert statement sends

An execution of an insert statement first compares the lengths of its rows, and then writes them
cell by cell. Both passes stop at the first thing that is wrong. As no cell can look up a
placeholder, what is written for a cell depends on that cell alone, and so the statement that is
sent is told from the table, the columns and the rows.

## Main definitions

* `Value.Closed`, `Value.item` — a value that can be a cell, and the text that stands for it
* `InsertStatement.group`, `InsertStatement.columnList` — the text of a row and of the columns
* `InsertStatement.expected` — what should be sent
* `InsertStatement.Exact` — what comes of an execution

## Main results

* `Value.render_empty_eq_ok_iff` — a cell is written if it is closed
* `InsertStatement.compile_eq_ok_iff` — even rows with closed cells are sent, and no others
* `InsertStatement.checkLengths_eq_error`, `InsertStatement.compile_eq_error` — the first uneven row
  is reported, or else the first cell that is not closed
* `InsertStatement.rows_ne_nil` — a statement that may be executed has rows
* `InsertStatement.executions_exact` — executions are exact
-/

namespace TableSql

namespace Value

/-! ### Cells -/

/-- The value can be a cell: as an expression it leaves no quote open and holds no placeholder. -/
def Closed (v : Value) : Prop :=
  ∀ sql, v = .expression sql → Sql.placeholders? sql = .ok []

/-- The text that stands for a cell. -/
def item : Value → String
  | .expression sql => "(" ++ sql ++ ")"
  | _ => "?"

variable {v : Value} {context : String}

theorem closed_expression_iff {sql : String} :
    (expression sql).Closed ↔ Sql.placeholders? sql = .ok [] := by
  constructor
  · intro h
    exact h sql rfl
  · intro h other heq
    cases heq
    exact h

theorem closed_of_literal (h : v.isExpression = false) : v.Closed := by
  rintro sql rfl
  cases h

theorem sql_written (v : Value) : v.written.sql = v.item := by
  cases v <;> rfl

theorem params_written (v : Value) : v.written.params = [v].filter fun w => !w.isExpression := by
  cases v <;> rfl

/-- Where no name has a value, a placeholder can not be rendered. -/
theorem render_expression_ne_ok {sql : String} {p : Sql.Placeholder} {ps : List Sql.Placeholder}
    (h : Sql.placeholders? sql = .ok (p :: ps)) (f : Fragment) :
    (expression sql).render context .empty ≠ .ok f := by
  intro hrender
  obtain ⟨t, g, rfl, hg, -⟩ := render_eq_ok hrender
  have hplaceholders : t.placeholders = p :: ps := Except.ok.inj (t.scanned.symm.trans h)
  rw [Template.render, hplaceholders] at hg
  cases hg

/-- **A cell is written if it is closed**, and only then. -/
theorem render_empty_eq_ok_iff {f : Fragment} :
    v.render context .empty = .ok f ↔ v.Closed ∧ f = v.written := by
  cases v with
  | expression sql =>
    rw [closed_expression_iff]
    cases hscan : Sql.placeholders? sql with
    | ok ps =>
      cases ps with
      | nil =>
        rw [render_of_placeholders_eq_nil hscan, Except.ok.injEq, eq_comm]
        exact (and_iff_right rfl).symm
      | cons p ps =>
        exact iff_of_false (render_expression_ne_ok hscan f) fun h => nomatch h.1
    | error u =>
      refine iff_of_false (fun h => ?_) fun h => nomatch h.1
      obtain ⟨t, ht, -⟩ := Outcome.bind_eq_ok_iff.mp h
      cases hscan.symm.trans (Template.placeholders_of_ofText ht)
  | _ =>
    rw [render_of_literal rfl, Except.ok.injEq, eq_comm]
    exact (and_iff_right (closed_of_literal rfl)).symm

end Value

namespace InsertStatement

/-! ### Rows -/

/-- The text that stands for a row. -/
def group (row : List Value) : String :=
  "(" ++ ", ".intercalate (row.map Value.item) ++ ")"

/-- The text that stands for the columns, if some are given. -/
def columnList (columns : List String) : String :=
  if columns = [] then "" else " (" ++ ", ".intercalate (columns.map Sql.quoteIdentifier) ++ ")"

/-- What should be sent. -/
def expected (s : InsertStatement) : CompiledStatement where
  kind := .insert
  sql := "INSERT INTO " ++ s.table.toSql ++ columnList s.columns ++ " VALUES " ++
    ", ".intercalate (s.rows.map group)
  params := s.rows.flatten.filter fun v => !v.isExpression

/-- What is written for a row. -/
def written (values : List Value) : Fragment :=
  (Fragment.join ", " (values.map Value.written)).parenthesize

theorem sql_written (values : List Value) : (written values).sql = group values := by
  rw [written, Fragment.sql_parenthesize, Fragment.sql_join, List.map_map, group]
  exact congrArg (fun items => "(" ++ ", ".intercalate items ++ ")")
    (List.map_congr_left fun v _ => v.sql_written)

theorem params_written (values : List Value) :
    (written values).params = values.filter fun v => !v.isExpression := by
  rw [written, Fragment.params_parenthesize, Fragment.params_join, List.flatMap_map]
  induction values with
  | nil => rfl
  | cons v rest ih =>
    rw [List.flatMap_cons, ih, v.params_written, ← List.filter_append, List.singleton_append]

/-- A row is written if all its cells are closed. -/
theorem row_eq_ok_iff {values : List Value} {f : Fragment} :
    row values = .ok f ↔ (∀ v ∈ values, v.Closed) ∧ f = written values := by
  have hcells : ∀ fs, values.mapM cell = .ok fs ↔
      (∀ v ∈ values, v.Closed) ∧ fs = values.map Value.written :=
    fun fs => Outcome.mapM_eq_ok_iff_forall fun v f => Value.render_empty_eq_ok_iff
  rw [row, Outcome.bind_eq_ok_iff]
  simp only [hcells]
  constructor
  · rintro ⟨fs, ⟨hclosed, rfl⟩, h⟩
    exact ⟨hclosed, (Except.ok.inj h).symm⟩
  · rintro ⟨hclosed, rfl⟩
    exact ⟨_, ⟨hclosed, rfl⟩, rfl⟩

variable {s : InsertStatement}

theorem sql_columnClause (s : InsertStatement) : s.columnClause.sql = columnList s.columns := by
  rw [columnClause, columnList]
  cases s.columns <;> rfl

/-- **Even rows with closed cells are sent as they should be**, and no others are sent. -/
theorem compile_eq_ok_iff (hrows : s.rows ≠ []) {c : CompiledStatement} :
    s.compile = .ok c ↔ (∀ row ∈ s.rows, row.length = s.rowLength) ∧
      (∀ row ∈ s.rows, ∀ v ∈ row, v.Closed) ∧ c = s.expected := by
  have hwritten : ∀ fs, s.rows.mapM row = .ok fs ↔
      (∀ row ∈ s.rows, ∀ v ∈ row, v.Closed) ∧ fs = s.rows.map written :=
    fun fs => Outcome.mapM_eq_ok_iff_forall fun values f => row_eq_ok_iff
  have hexpected : CompiledStatement.ofFragment .insert
      (.ofText ("INSERT INTO " ++ s.table.toSql) ++ s.columnClause ++ .ofText " VALUES " ++
        Fragment.join ", " (s.rows.map written)) = s.expected := by
    rw [CompiledStatement.ofFragment, expected]
    congr 1
    · simp only [Fragment.sql_append, Fragment.sql_ofText, Fragment.sql_join, sql_columnClause,
        List.map_map, Function.comp_def, sql_written]
    · simp only [Fragment.params_append, Fragment.params_ofText, Fragment.params_join,
        params_columnClause, List.nil_append, List.flatMap_map, params_written, List.filter_flatten]
      rfl
  rw [compile, fragment, if_neg hrows]
  simp only [Outcome.bind_eq_ok_iff, hwritten]
  constructor
  · rintro ⟨f, ⟨u, hlengths, fs, ⟨hclosed, rfl⟩, hf⟩, hc⟩
    cases hf
    exact ⟨checkLengths_eq_ok_iff.mp hlengths, hclosed, hexpected ▸ (Except.ok.inj hc).symm⟩
  · rintro ⟨hlengths, hclosed, rfl⟩
    exact ⟨_, ⟨(), checkLengths_eq_ok_iff.mpr hlengths, _, ⟨hclosed, rfl⟩, rfl⟩,
      congrArg Except.ok hexpected⟩

/-! ### What is reported -/

/-- The first uneven row is reported, with its place, its length and that of the others. -/
theorem checkLengths_eq_error {expected index : Nat} {earlier later : List (List Value)}
    {row : List Value} (hearlier : ∀ r ∈ earlier, r.length = expected)
    (hrow : row.length ≠ expected) :
    checkLengths expected index (earlier ++ row :: later) = .error (.invalidArgument executeContext
      (.rowLength (index + earlier.length) row.length expected)) := by
  induction earlier generalizing index with
  | nil => rw [List.nil_append, checkLengths, if_neg hrow, List.length_nil, Nat.add_zero]
  | cons first rest ih =>
    obtain ⟨hfirst, hrest⟩ := List.forall_mem_cons.mp hearlier
    rw [List.cons_append, checkLengths, if_pos hfirst, ih hrest, List.length_cons,
      Nat.add_right_comm, Nat.add_assoc]

/-- Even rows are reported with the first cell that is not closed. -/
theorem compile_eq_error (hrows : s.rows ≠ []) (hlengths : ∀ row ∈ s.rows, row.length = s.rowLength)
    {earlier later : List Value} {v : Value} (hcells : s.rows.flatten = earlier ++ v :: later)
    (hearlier : ∀ w ∈ earlier, w.Closed) (hv : ¬ v.Closed) :
    ∃ e, v.render executeContext .empty = .error e ∧ s.compile = .error e := by
  have hrow : ∀ values ∈ s.rows,
      Outcome.error? (row values) = (id values).findSome? fun w => Outcome.error? (cell w) :=
    fun values _ => (error?_row values).trans (Outcome.error?_mapM_eq_findSome? cell values)
  have hfirst : Outcome.error? s.compile =
      s.rows.flatten.findSome? fun w => Outcome.error? (cell w) := by
    rw [error?_compile hrows hlengths, Outcome.error?_mapM hrow, List.flatMap_id]
  have hnone : ∀ w ∈ earlier, Outcome.error? (cell w) = none := by
    intro w hw
    have hcell : cell w = .ok w.written := Value.render_empty_eq_ok_iff.mpr ⟨hearlier w hw, rfl⟩
    rw [hcell, Outcome.error?_ok]
  cases hcell : cell v with
  | ok f => exact absurd (Value.render_empty_eq_ok_iff.mp hcell).1 hv
  | error e =>
    refine ⟨e, hcell, Outcome.error?_eq_some_iff.mp ?_⟩
    rw [hfirst, hcells, List.findSome?_append, List.findSome?_eq_none_iff.mpr hnone,
      List.findSome?_cons, hcell]
    rfl

/-! ### Executions -/

/-- Only a new statement has no rows. -/
theorem rows_ne_nil (h : Builder.Reachable s) : s.stage ≠ .insert → s.rows ≠ [] := by
  refine h.induction (P := fun s => s.stage ≠ .insert → s.rows ≠ []) ?_ ?_ ?_
  · intro x s hs
    cases x with
    | table table =>
      cases hs
      exact absurd rfl
    | columns table columns =>
      have hs : ofColumns table columns = .ok s := hs
      rw [ofColumns] at hs
      split at hs
      next =>
        cases hs
        exact absurd rfl
      next => cases hs
    | document table document =>
      have hs : ofDocument table document = .ok s := hs
      rw [ofDocument] at hs
      split at hs
      next => cases hs
      next => cases hs
      next =>
        cases hs
        exact fun _ => List.cons_ne_nil _ _
  · intro s c s' _ h
    obtain ⟨-, hgives⟩ := apply_eq_ok_iff.mp h
    cases hgives with
    | @values row _ =>
      exact fun _ => List.append_ne_nil_of_right_ne_nil s.rows (List.cons_ne_nil row [])
  · intro s c hs hc _
    refine hs fun hstage => ?_
    have hc : s.prepareExecute = .ok c := hc
    have hallowed := (Operation.guarded_eq_ok_iff.mp hc).1
    rw [operations, hstage] at hallowed
    cases List.mem_singleton.mp hallowed

theorem Stage.ne_of_execute_mem {stage : Stage} (h : .execute ∈ stage.allowed) :
    stage ≠ .insert := by
  rintro rfl
  revert h
  decide

/-- Even rows have as many cells as there are places in them, and each is a value or an
expression. -/
theorem length_params_expected (h : ∀ row ∈ s.rows, row.length = s.rowLength) :
    s.expected.params.length + s.rows.flatten.countP Value.isExpression =
      s.rows.length * s.rowLength := by
  have hlengths : s.rows.map List.length = List.replicate s.rows.length s.rowLength :=
    List.map_eq_replicate_iff.mpr h
  have hcells : s.rows.flatten.length = s.rows.length * s.rowLength := by
    rw [List.length_flatten, hlengths, List.sum_replicate_nat]
  have hparams : s.expected.params.length = s.rows.flatten.countP fun v => !v.isExpression :=
    List.countP_eq_length_filter.symm
  rw [← hcells, hparams, List.length_eq_countP_add_countP Value.isExpression, Nat.add_comm]
  simp only [Bool.not_eq_true, Bool.decide_eq_false]

/-- **What comes of an execution.** -/
structure Exact (s : InsertStatement) : Prop where
  /-- Rows should be as long as the list of columns, if there is one. -/
  rowLength_of_columns : s.columns ≠ [] → s.rowLength = s.columns.length
  /-- Without columns they should be as long as the first. -/
  rowLength_of_first : ∀ first rest, s.columns = [] → s.rows = first :: rest →
    s.rowLength = first.length
  exists_ok_iff : (∃ c, s.prepareExecute = .ok c) ↔
    (∀ row ∈ s.rows, row.length = s.rowLength) ∧ ∀ row ∈ s.rows, ∀ v ∈ row, v.Closed
  /-- The first uneven row is reported, whatever the cells. -/
  uneven : ∀ earlier row later, s.rows = earlier ++ row :: later →
    (∀ r ∈ earlier, r.length = s.rowLength) → row.length ≠ s.rowLength →
    ∃ e : Error, s.prepareExecute = .error e ∧ e.message = "TableInsert.execute: " ++
      ("Row #" ++ decimal (earlier.length + 1) ++ " has " ++ decimal row.length ++
        " values, expected " ++ decimal s.rowLength)
  /-- In even rows, it is the first cell that is not closed. -/
  unclosed : (∀ row ∈ s.rows, row.length = s.rowLength) → ∀ earlier v later,
    s.rows.flatten = earlier ++ v :: later → (∀ w ∈ earlier, w.Closed) → ¬ v.Closed →
    ∃ e, v.render "TableInsert.execute" .empty = .error e ∧ s.prepareExecute = .error e
  sent : ∀ c, s.prepareExecute = .ok c → c.kind = .insert ∧
    c.sql = "INSERT INTO " ++ s.table.toSql ++ columnList s.columns ++ " VALUES " ++
      ", ".intercalate (s.rows.map group) ∧
    c.params = s.rows.flatten.filter (fun v => !v.isExpression) ∧
    c.params.length + s.rows.flatten.countP Value.isExpression = s.rows.length * s.rowLength

theorem exact_of_execute_mem (hrows : s.rows ≠ []) (hallowed : .execute ∈ s.operations) :
    s.Exact := by
  have hprepare : s.prepareExecute = s.compile := Operation.guarded_of_mem hallowed
  have hcontext : executeContext = "TableInsert.execute" := rfl
  constructor
  · exact fun hcolumns => if_neg hcolumns
  · intro first rest hcolumns hfirst
    rw [rowLength, if_pos hcolumns, hfirst]
    rfl
  · rw [hprepare]
    simp only [compile_eq_ok_iff hrows, ← and_assoc, exists_and_left, exists_eq, and_true]
  · intro earlier row later heq hearlier hrow
    have hcheck : checkLengths s.rowLength 0 s.rows = .error
        (.invalidArgument executeContext (.rowLength earlier.length row.length s.rowLength)) := by
      rw [heq, checkLengths_eq_error hearlier hrow, Nat.zero_add]
    rw [hprepare, compile, fragment, if_neg hrows, hcheck]
    exact ⟨_, rfl, rfl⟩
  · intro hlengths earlier v later hcells hearlier hv
    rw [hprepare, ← hcontext]
    exact compile_eq_error hrows hlengths hcells hearlier hv
  · intro c hc
    rw [hprepare] at hc
    obtain ⟨hlengths, -, rfl⟩ := (compile_eq_ok_iff hrows).mp hc
    exact ⟨rfl, rfl, rfl, length_params_expected hlengths⟩

/-! ### A statement without rows -/

/-- A cell fails with a quote that it leaves open, or with a placeholder. -/
theorem cell_eq_error {v : Value} {e : Error} (h : cell v = .error e) :
    (∃ u, e = .invalidArgument executeContext (.ofUnterminated u)) ∨
      ∃ name, e = .unboundPlaceholders executeContext [name] := by
  cases v with
  | expression sql =>
    rcases Outcome.bind_eq_error_iff.mp h with hscan | ⟨t, -, h⟩
    · obtain ⟨u, -, rfl⟩ := Template.ofText_eq_error_iff.mp hscan
      exact .inl ⟨u, rfl⟩
    · rcases Outcome.bind_eq_error_iff.mp h with hrender | ⟨f, -, h⟩
      · obtain ⟨name, -, hname⟩ := (t.renders_render executeContext .empty).of_error e hrender
        exact .inr ⟨name, (Except.error.inj hname).symm⟩
      · cases h
  | _ => cases h

theorem exists_of_checkLengths_eq_error {expected index : Nat} {rows : List (List Value)}
    {e : Error} (h : checkLengths expected index rows = .error e) :
    ∃ i n, e = .invalidArgument executeContext (.rowLength i n expected) := by
  induction rows generalizing index with
  | nil => cases h
  | cons row rest ih =>
    rw [checkLengths] at h
    split at h
    next => exact ih h
    next => exact ⟨_, _, (Except.error.inj h).symm⟩

/-- A compilation fails with the length of a row, or with a cell. -/
theorem exists_of_compile_eq_error (hrows : s.rows ≠ []) {e : Error} (h : s.compile = .error e) :
    (∃ i n, e = .invalidArgument executeContext (.rowLength i n s.rowLength)) ∨
      ∃ v, cell v = .error e := by
  rw [compile, fragment, if_neg hrows] at h
  rcases Outcome.bind_eq_error_iff.mp h with h | ⟨f, -, h⟩
  · rcases Outcome.bind_eq_error_iff.mp h with h | ⟨u, -, h⟩
    · exact .inl (exists_of_checkLengths_eq_error h)
    · rcases Outcome.bind_eq_error_iff.mp h with h | ⟨fs, -, h⟩
      · obtain ⟨values, -, hvalues⟩ := Outcome.exists_of_mapM_eq_error h
        rw [← Outcome.error?_eq_some_iff, error?_row, Outcome.error?_eq_some_iff] at hvalues
        obtain ⟨v, -, hv⟩ := Outcome.exists_of_mapM_eq_error hvalues
        exact .inr ⟨v, hv⟩
      · cases h
  · cases h

/-- No reachable statement fails for want of rows, whether it may be executed or not. -/
theorem prepareExecute_ne_noRows (h : Builder.Reachable s) (context : String) :
    s.prepareExecute ≠ .error (.invalidArgument context .noRows) := by
  intro hprepare
  by_cases hallowed : .execute ∈ s.operations
  · rw [prepareExecute, Operation.guarded_of_mem hallowed] at hprepare
    have hrows := rows_ne_nil h (Stage.ne_of_execute_mem hallowed)
    rcases exists_of_compile_eq_error hrows hprepare with ⟨i, n, he⟩ | ⟨v, hv⟩
    · cases he
    · rcases cell_eq_error hv with ⟨u, he⟩ | ⟨name, he⟩
      · rw [Error.invalidArgument.injEq, ArgumentFault.ofUnterminated] at he
        split at he <;> cases he.2
      · cases he
  · rw [prepareExecute, Operation.guarded_of_not_mem hallowed] at hprepare
    cases hprepare

/-- **Executions of insert statements are exact.** For want of rows none fails, unless a server that
was sent the statement says so. -/
theorem executions_exact :
    (∀ s : InsertStatement, Builder.Reachable s → .execute ∈ s.operations → s.Exact) ∧
    (∀ s : InsertStatement, Builder.Reachable s → ∀ context,
      s.prepareExecute ≠ .error (.invalidArgument context .noRows) ∧
      ∀ {σ : Type} (server : Server σ) (session : Session σ),
        (s.execute server session).1 = .error (.invalidArgument context .noRows) →
        ∃ c, s.prepareExecute = .ok c ∧
          (server.execute c session.state).1 = .error (.invalidArgument context .noRows)) := by
  refine ⟨fun s h hallowed => ?_, fun s h context => ?_⟩
  · exact exact_of_execute_mem (rows_ne_nil h (Stage.ne_of_execute_mem hallowed)) hallowed
  · have hprepare := prepareExecute_ne_noRows h context
    refine ⟨hprepare, fun server session hexecute => ?_⟩
    exact (Session.perform_eq_error server session hexecute).resolve_left hprepare

/-- Two rows with a value and an expression each, for two columns. A row that is too short is
reported before the quote that another one leaves open. -/
theorem executions_exact_of_two_rows :
    let columns := Builder.after (⟨⟨"", "t"⟩, ["a", "b"], [], .insert⟩ : InsertStatement)
      [.call (.values [.null, .expression "NOW()"]),
        .call (.values [.expression "a+1", .bool true])]
    let uneven := Builder.after (ofTable ⟨"", "t"⟩)
      [.call (.values [.null, .expression "'"]), .call (.values [.null])]
    (∃ c, columns.prepareExecute = .ok c ∧
      c.sql = "INSERT INTO `t` (`a`, `b`) VALUES (?, (NOW())), ((a+1), ?)" ∧
      c.params = [.null, .bool true]) ∧
    ∃ e, uneven.prepareExecute = .error e ∧
      e.message = "TableInsert.execute: Row #2 has 1 values, expected 2" := by
  have hcolumns : Builder.Reachable (⟨⟨"", "t"⟩, ["a", "b"], [], .insert⟩ : InsertStatement) :=
    .start (x := .columns ⟨"", "t"⟩ (.texts ["a", "b"])) rfl
  have htable : Builder.Reachable (ofTable ⟨"", "t"⟩) := .start (x := .table ⟨"", "t"⟩) rfl
  have hallowed : Operation.execute ∈ Stage.allowed .values := by decide
  have hnow : (Value.expression "NOW()").Closed := Value.closed_expression_iff.mpr rfl
  have hsum : (Value.expression "a+1").Closed := Value.closed_expression_iff.mpr rfl
  have hnull : Value.null.Closed := Value.closed_of_literal rfl
  have htrue : (Value.bool true).Closed := Value.closed_of_literal rfl
  have hclosed : ∀ row ∈ [[Value.null, .expression "NOW()"], [.expression "a+1", .bool true]],
      ∀ v ∈ row, v.Closed := by
    simp [hnow, hsum, hnull, htrue]
  obtain ⟨hexact, -⟩ := executions_exact
  intro columns uneven
  have hsent := hexact columns (Builder.reachable_after hcolumns _) hallowed
  have hreported := hexact uneven (Builder.reachable_after htable _) hallowed
  refine ⟨?_, ?_⟩
  · obtain ⟨c, hc⟩ := hsent.exists_ok_iff.mpr ⟨by decide, hclosed⟩
    obtain ⟨-, hsql, hparams, -⟩ := hsent.sent c hc
    refine ⟨c, hc, hsql.trans ?_, hparams⟩
    decide +kernel
  · obtain ⟨e, he, hmessage⟩ := hreported.uneven [[.null, .expression "'"]] [.null] [] rfl
      (List.forall_mem_singleton.mpr rfl) (by decide)
    refine ⟨e, he, hmessage.trans ?_⟩
    decide +kernel

end InsertStatement

end TableSql
