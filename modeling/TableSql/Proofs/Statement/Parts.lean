import TableSql.Proofs.Fragment.Parts
import TableSql.Proofs.Statement.Origin
import TableSql.Proofs.Statement.Uses
import TableSql.ScriptedServer

/-!
# Expressions in statements

Each statement on a table is a list of parts, and its compilation writes them one after another. So
every expression in it is written out where its part stands, in parentheses if it was assigned,
inserted or bound, and is not among the values. A raw SQL statement has no place to write an
expression into, and refuses to be compiled with one. The queries and the transactions have no
expressions at all. So no session is ever handed an expression as a value.

## Main definitions

* `SelectStatement.parts`, `InsertStatement.parts`, `UpdateStatement.parts`,
  `DeleteStatement.parts` — the parts of a statement
* `Part.WrittenOut` — what it means that a statement is written part by part

## Main results

* `SelectStatement.composes_fragment`, `InsertStatement.composes_fragment`,
  `UpdateStatement.composes_fragment`, `DeleteStatement.composes_fragment` — a compilation writes
  the parts
* `Use.isExpression_of_handed` — what a use hands over has no expression among its values
* `expressions_never_sent` — no expression is ever handed over as a value
-/

namespace TableSql

/-! ### Statements on a table -/

namespace SelectStatement

/-- The parts of the statement, in order. -/
def parts (s : SelectStatement) : List Part :=
  [.text ("SELECT " ++ s.projectionText ++ " FROM " ++ s.table.toSql)] ++
    Part.ofCondition " WHERE " s.filter ++ [.text (Clause.list " GROUP BY " s.grouping).sql] ++
    Part.ofCondition " HAVING " s.having ++ [.text (Clause.ordering s.ordering).sql] ++
    [.text s.limitClause.sql] ++ [.text s.lockClause.sql]

theorem composes_fragment {s : SelectStatement} {f : Fragment} (h : s.fragment = .ok f) :
    Part.Composes s.bindings s.parts f := by
  obtain ⟨filter, hfilter, h⟩ := Outcome.bind_eq_ok_iff.mp h
  obtain ⟨having, hhaving, h⟩ := Outcome.bind_eq_ok_iff.mp h
  cases h
  exact ((((((Part.Composes.single (.text _)).append
    (Part.composes_of_condition hfilter)).append
    (Part.composes_text (Clause.params_list _ s.grouping))).append
    (Part.composes_of_condition hhaving)).append
    (Part.composes_text (Clause.params_list _ _))).append
    (Part.composes_text s.params_limitClause)).append
    (Part.composes_text s.params_lockClause)

end SelectStatement

namespace DeleteStatement

/-- The parts of the statement, in order. -/
def parts (s : DeleteStatement) : List Part :=
  [.text ("DELETE FROM " ++ s.table.toSql)] ++ Part.ofCondition " WHERE " s.filter ++
    [.text (Clause.ordering s.ordering).sql] ++ [.text (Clause.limit s.limit).sql]

theorem composes_fragment {s : DeleteStatement} {f : Fragment} (h : s.fragment = .ok f) :
    Part.Composes s.bindings s.parts f := by
  obtain ⟨filter, hfilter, h⟩ := Outcome.bind_eq_ok_iff.mp h
  cases h
  exact (((Part.Composes.single (.text _)).append
    (Part.composes_of_condition hfilter)).append
    (Part.composes_text (Clause.params_list _ _))).append
    (Part.composes_text (Clause.params_count _ s.limit))

end DeleteStatement

namespace UpdateStatement

/-- The parts of an assignment. -/
def Assignment.parts (a : Assignment) : List Part :=
  [.text (Sql.quoteIdentifier a.column ++ " = "), .value a.value]

/-- The parts of the statement, in order. -/
def parts (s : UpdateStatement) : List Part :=
  [.text ("UPDATE " ++ s.table.toSql ++ " SET ")] ++
    Part.separated (s.assignments.map Assignment.parts) ++ Part.ofCondition " WHERE " s.filter ++
    [.text (Clause.ordering s.ordering).sql] ++ [.text (Clause.limit s.limit).sql]

theorem Assignment.filterMap_value?_parts (a : Assignment) :
    a.parts.filterMap Part.value? = [a.value] := rfl

theorem Assignment.filterMap_condition?_parts (a : Assignment) :
    a.parts.filterMap Part.condition? = [] := rfl

theorem composes_assignment {b : Bindings} {a : Assignment} {f : Fragment}
    (h : assignment b a = .ok f) : Part.Composes b a.parts f := by
  obtain ⟨value, hvalue, h⟩ := Outcome.bind_eq_ok_iff.mp h
  cases h
  exact .cons (.text _) (.single (Part.writes_of_render hvalue))

theorem composes_fragment {s : UpdateStatement} {f : Fragment} (h : s.fragment = .ok f) :
    Part.Composes s.bindings s.parts f := by
  rw [fragment] at h
  split at h
  next => cases h
  next =>
    obtain ⟨fs, hfs, h⟩ := Outcome.bind_eq_ok_iff.mp h
    obtain ⟨filter, hfilter, h⟩ := Outcome.bind_eq_ok_iff.mp h
    cases h
    have hassigned := (Outcome.mapM_eq_ok_iff.mp hfs).imp fun _ _ => composes_assignment
    exact ((((Part.Composes.single (.text _)).append (.join hassigned)).append
      (Part.composes_of_condition hfilter)).append
      (Part.composes_text (Clause.params_list _ _))).append
      (Part.composes_text (Clause.params_count _ s.limit))

end UpdateStatement

namespace InsertStatement

/-- The parts of a row. -/
def rowParts (row : List Value) : List Part :=
  [.text "("] ++ Part.separated (row.map fun v => [.value v]) ++ [.text ")"]

/-- The parts of the statement, in order. -/
def parts (s : InsertStatement) : List Part :=
  [.text ("INSERT INTO " ++ s.table.toSql)] ++ [.text s.columnClause.sql] ++ [.text " VALUES "] ++
    Part.separated (s.rows.map rowParts)

theorem filterMap_value?_rowParts (row : List Value) :
    (rowParts row).filterMap Part.value? = row := by
  have hcells : (Part.separated (row.map fun v => [.value v])).filterMap Part.value? =
      row.flatMap fun v => [v] := Part.filterMap_separated rfl (fun _ => rfl) row
  simp [rowParts, List.filterMap_cons, hcells]

theorem filterMap_condition?_rowParts (row : List Value) :
    (rowParts row).filterMap Part.condition? = [] := by
  have hcells : (Part.separated (row.map fun v => [.value v])).filterMap Part.condition? =
      row.flatMap fun _ => [] := Part.filterMap_separated rfl (fun _ => rfl) row
  simp [rowParts, List.filterMap_cons, hcells]

theorem composes_row {values : List Value} {f : Fragment} (h : row values = .ok f) :
    Part.Composes .empty (rowParts values) f := by
  obtain ⟨cells, hcells, h⟩ := Outcome.bind_eq_ok_iff.mp h
  cases h
  have hcell : ∀ v g, cell v = .ok g → Part.Composes .empty [.value v] g :=
    fun _ _ hg => .single (Part.writes_of_render hg)
  exact (Part.Composes.join ((Outcome.mapM_eq_ok_iff.mp hcells).imp hcell)).parenthesize

theorem composes_fragment {s : InsertStatement} {f : Fragment} (h : s.fragment = .ok f) :
    Part.Composes .empty s.parts f := by
  rw [fragment] at h
  split at h
  next => cases h
  next =>
    obtain ⟨_, -, h⟩ := Outcome.bind_eq_ok_iff.mp h
    obtain ⟨fs, hfs, h⟩ := Outcome.bind_eq_ok_iff.mp h
    cases h
    have hrows := (Outcome.mapM_eq_ok_iff.mp hfs).imp fun _ _ => composes_row
    exact (((Part.Composes.single (.text _)).append
      (Part.composes_text s.params_columnClause)).append (.single (.text _))).append (.join hrows)

end InsertStatement

/-! ### What is handed over -/

/-- **A statement that is written part by part.** Its column values and its conditions are among the
parts. -/
structure Part.WrittenOut (parts : List Part) (b : Bindings) (values : List Value)
    (conditions : List Template) (kind : StatementKind)
    (compiled : Except Error CompiledStatement) : Prop where
  values_eq : parts.filterMap Part.value? = values
  conditions_eq : parts.filterMap Part.condition? = conditions
  composes : ∀ c, compiled = .ok c → ∃ f, Part.Composes b parts f ∧ c = .ofFragment kind f

theorem Part.WrittenOut.isExpression {parts : List Part} {b : Bindings} {values : List Value}
    {conditions : List Template} {kind : StatementKind}
    {compiled : Except Error CompiledStatement}
    (h : WrittenOut parts b values conditions kind compiled) {c : CompiledStatement}
    (hc : compiled = .ok c) : ∀ v ∈ c.params, v.isExpression = false := by
  obtain ⟨f, hf, rfl⟩ := h.composes c hc
  exact hf.isExpression

theorem SelectStatement.writtenOut (s : SelectStatement) :
    Part.WrittenOut s.parts s.bindings [] (s.filter.toList ++ s.having.toList) .select
      s.compile where
  values_eq := by simp [parts, List.filterMap_cons]
  conditions_eq := by simp [parts, List.filterMap_cons]
  composes c h := by
    obtain ⟨f, hf, h⟩ := Outcome.bind_eq_ok_iff.mp h
    exact ⟨f, composes_fragment hf, (Except.ok.inj h).symm⟩

theorem DeleteStatement.writtenOut (s : DeleteStatement) :
    Part.WrittenOut s.parts s.bindings [] s.filter.toList .delete s.compile where
  values_eq := by simp [parts, List.filterMap_cons]
  conditions_eq := by simp [parts, List.filterMap_cons]
  composes c h := by
    obtain ⟨f, hf, h⟩ := Outcome.bind_eq_ok_iff.mp h
    exact ⟨f, composes_fragment hf, (Except.ok.inj h).symm⟩

theorem UpdateStatement.writtenOut (s : UpdateStatement) :
    Part.WrittenOut s.parts s.bindings (s.assignments.map Assignment.value) s.filter.toList .update
      s.compile where
  values_eq := by
    simp [parts, List.filterMap_cons,
      Part.filterMap_separated rfl Assignment.filterMap_value?_parts, ← List.map_eq_flatMap]
  conditions_eq := by
    simp [parts, List.filterMap_cons,
      Part.filterMap_separated rfl Assignment.filterMap_condition?_parts]
  composes c h := by
    obtain ⟨f, hf, h⟩ := Outcome.bind_eq_ok_iff.mp h
    exact ⟨f, composes_fragment hf, (Except.ok.inj h).symm⟩

theorem InsertStatement.writtenOut (s : InsertStatement) :
    Part.WrittenOut s.parts .empty s.rows.flatten [] .insert s.compile where
  values_eq := by
    simp [parts, List.filterMap_cons, Part.filterMap_separated rfl filterMap_value?_rowParts]
  conditions_eq := by
    simp [parts, List.filterMap_cons, Part.filterMap_separated rfl filterMap_condition?_rowParts]
  composes c h := by
    obtain ⟨f, hf, h⟩ := Outcome.bind_eq_ok_iff.mp h
    exact ⟨f, composes_fragment hf, (Except.ok.inj h).symm⟩

/-! ### Whole runs -/

theorem Statement.isExpression_of_prepareExecute {s : Statement} {c : CompiledStatement}
    (h : s.prepareExecute = .ok c) : ∀ v ∈ c.params, v.isExpression = false := by
  cases s with
  | select s => exact s.writtenOut.isExpression (Builder.compile_of_prepareExecute (s := s) h)
  | insert s => exact s.writtenOut.isExpression (Builder.compile_of_prepareExecute (s := s) h)
  | update s => exact s.writtenOut.isExpression (Builder.compile_of_prepareExecute (s := s) h)
  | delete s => exact s.writtenOut.isExpression (Builder.compile_of_prepareExecute (s := s) h)
  | sql s =>
    obtain ⟨-, -, hnone, rfl⟩ := SqlStatement.compile_eq_ok_iff.mp h
    exact hnone

/-- What a use hands over has no expression among its values. -/
theorem Use.isExpression_of_handed {u : Use} {c : CompiledStatement} (h : c ∈ u.handed) :
    ∀ v ∈ c.params, v.isExpression = false := by
  cases u with
  | execute s =>
    have hprepare : s.prepareExecute = .ok c := by
      rw [handed] at h
      cases hs : s.prepareExecute with
      | ok c' =>
        rw [hs] at h
        rw [List.mem_singleton.mp h]
      | error e =>
        rw [hs] at h
        cases h
    exact s.isExpression_of_prepareExecute hprepare
  | lookup schema name =>
    rw [List.mem_singleton.mp h]
    exact List.forall_mem_cons.mpr ⟨rfl, List.forall_mem_singleton.mpr rfl⟩
  | tables schema | schemaExistence schema =>
    rw [List.mem_singleton.mp h]
    exact List.forall_mem_singleton.mpr rfl
  | tableExistence table =>
    rw [List.mem_singleton.mp h]
    exact List.forall_mem_cons.mpr ⟨rfl, List.forall_mem_singleton.mpr rfl⟩
  | count table | startTransaction | commit | rollback =>
    rw [List.mem_singleton.mp h]
    exact fun _ hv => nomatch hv

/-- **Expressions are never sent as values**, whatever is done on a session and whatever the server
answers. In the statements on a table each expression is written out instead, and raw SQL with an
expression among its values is not compiled. -/
theorem expressions_never_sent :
    (∀ {σ : Type} (server : Server σ) (session : Session σ) (uses : List Use), ∃ handed,
      (session.afterUses server uses).statements = session.statements ++ handed ∧
      ∀ c ∈ handed, ∀ v ∈ c.params, v.isExpression = false) ∧
    (∀ s : SelectStatement, Part.WrittenOut s.parts s.bindings []
      (s.filter.toList ++ s.having.toList) .select s.compile) ∧
    (∀ s : InsertStatement, Part.WrittenOut s.parts .empty s.rows.flatten [] .insert s.compile) ∧
    (∀ s : UpdateStatement, Part.WrittenOut s.parts s.bindings
      (s.assignments.map UpdateStatement.Assignment.value) s.filter.toList .update s.compile) ∧
    (∀ s : DeleteStatement, Part.WrittenOut s.parts s.bindings [] s.filter.toList .delete
      s.compile) ∧
    (∀ (s : SqlStatement) (v : Value), v ∈ s.params → v.isExpression = true →
      ∃ fault, s.compile = .error (.invalidArgument SqlStatement.context fault)) := by
  refine ⟨fun server session uses => ⟨_, session.statements_afterUses server uses, ?_⟩,
    SelectStatement.writtenOut, InsertStatement.writtenOut, UpdateStatement.writtenOut,
    DeleteStatement.writtenOut, fun s v => SqlStatement.compile_of_expression⟩
  intro c hc
  obtain ⟨u, -, hu⟩ := List.mem_flatMap.mp hc
  exact u.isExpression_of_handed hu

/-- An update statement with an expression bound inside the one that it assigns, in a transaction
together with raw SQL that is refused. -/
theorem expressions_never_sent_of_transaction :
    let update : UpdateStatement :=
      { table := ⟨"", "t"⟩, assignments := [⟨"a", .expression ":x-:x"⟩]
        bindings := ⟨["x"], [("x", .expression "?")]⟩, stage := .bind }
    let raw : SqlStatement := ⟨"SELECT ?", [.expression "now()"]⟩
    let uses : List Use :=
      [.startTransaction, .execute (.update update), .execute (.sql raw), .commit]
    (∀ c ∈ (Session.afterUses ScriptedServer.server { state := {} } uses).statements,
      ∀ v ∈ c.params, v.isExpression = false) ∧
    (∃ f, Part.Composes update.bindings update.parts f ∧
      f.sql = "UPDATE `t` SET `a` = ((?)-(?))") ∧
    ∃ fault, raw.compile = .error (.invalidArgument SqlStatement.context fault) := by
  have hcompile : UpdateStatement.compile
      { table := ⟨"", "t"⟩, assignments := [⟨"a", .expression ":x-:x"⟩]
        bindings := ⟨["x"], [("x", .expression "?")]⟩, stage := .bind } =
      .ok ⟨.update, "UPDATE `t` SET `a` = ((?)-(?))", []⟩ := rfl
  intro update raw uses
  obtain ⟨hruns, -, -, hupdate, -, hraw⟩ := expressions_never_sent
  refine ⟨?_, ?_, ?_⟩
  · obtain ⟨handed, hstatements, hnone⟩ :=
      hruns ScriptedServer.server { state := {} } uses
    rw [hstatements]
    exact hnone
  · obtain ⟨f, hf, hc⟩ := (hupdate update).composes _ hcompile
    exact ⟨f, hf, (congrArg CompiledStatement.sql hc).symm⟩
  · exact hraw raw (.expression "now()") List.mem_cons_self rfl

end TableSql
