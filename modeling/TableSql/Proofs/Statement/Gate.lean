import TableSql.Proofs.Fragment.Rendering
import TableSql.Proofs.Statement.Placeholders

/-!
# What an execution waits for

An execution of a statement that refers to placeholders waits for a value for each of them and for
nothing else. Once they are all bound, only an expression among the values can still be refused.

The compilation has other ways to fail, but they are closed here: a rendered name is bound, a stored
expression was scanned before, and an update statement in a stage that allows an execution assigns
something.

## Main definitions

* `Bindings.Gates` — how the bindings and expressions of a statement decide about its execution

## Main results

* `SelectStatement.renders_compile`, `UpdateStatement.renders_compile`,
  `DeleteStatement.renders_compile` — what is rendered by a compilation are the stored expressions
* `Builder.bindings_gate_execution` — a reachable statement's execution is gated by its bindings
-/

namespace TableSql

/-- **The bindings decide whether a statement with these expressions can be executed.** -/
structure Bindings.Gates (b : Bindings) (expressions : List String) (context : String)
    (prepared : Except Error CompiledStatement) : Prop where
  /-- Placeholders are reported if some have no value. -/
  unbound_iff : (∃ context' names, prepared = .error (.unboundPlaceholders context' names)) ↔
    ∃ text ∈ expressions, ∃ name ∈ Sql.names text, b.get? name = none
  /-- Those without a value are all reported, each once, in order of reference. -/
  unbound_names : ∀ context' names, prepared = .error (.unboundPlaceholders context' names) →
    context' = context ∧ names = b.referenced.filter (fun name => (b.get? name).isNone) ∧
    names.Nodup ∧ ∀ name, name ∈ names ↔
      (∃ text ∈ expressions, name ∈ Sql.names text) ∧ b.get? name = none
  /-- With a value for each, all expressions among the values have to be closed and to hold no
  placeholder. -/
  ok_iff : (∀ text ∈ expressions, ∀ name ∈ Sql.names text, b.get? name ≠ none) →
    ((∃ c, prepared = .ok c) ↔ ∀ name ∈ b.referenced, ∀ sql,
      b.get? name = some (.expression sql) → Sql.placeholders? sql = .ok [])
  /-- With a value for each, nothing but the values can be refused. -/
  error : (∀ text ∈ expressions, ∀ name ∈ Sql.names text, b.get? name ≠ none) →
    ∀ e, prepared = .error e → ∃ fault, e = .invalidArgument context fault
  /-- Past the check for missing values, no rendering misses one. -/
  render_ne_unbound : b.ensureComplete context = .ok () →
    ∀ text ∈ expressions, ∀ name ∈ Sql.names text, ∀ context' names,
      b.render context name ≠ .error (.unboundPlaceholders context' names)
  /-- Scanning a stored expression again does not fail. -/
  rescan : ∀ text ∈ expressions, ∃ t, Template.ofText context text = .ok t

namespace Bindings

variable {b : Bindings} {expressions : List String} {context : String}

theorem Fits.mem_missing_iff (h : b.Fits expressions) {name : String} :
    name ∈ b.missing ↔ (∃ text ∈ expressions, name ∈ Sql.names text) ∧ b.get? name = none := by
  rw [missing, List.mem_filter, h.mem_referenced_iff, Option.isNone_iff_eq_none]

theorem Fits.missing_eq_nil_iff (h : b.Fits expressions) :
    b.missing = [] ↔ ∀ text ∈ expressions, ∀ name ∈ Sql.names text, b.get? name ≠ none := by
  rw [List.eq_nil_iff_forall_not_mem]
  constructor
  · intro hnone text htext name hname hget
    exact hnone name (h.mem_missing_iff.mpr ⟨⟨text, htext, hname⟩, hget⟩)
  · intro hbound name hname
    obtain ⟨⟨text, htext, hname⟩, hget⟩ := h.mem_missing_iff.mp hname
    exact hbound text htext name hname hget

theorem Fits.bound_of_complete (h : b.Fits expressions) (hnil : b.missing = []) :
    ∀ name ∈ expressions.flatMap Sql.names, b.get? name ≠ none := by
  intro name hname
  obtain ⟨text, htext, hname⟩ := List.mem_flatMap.mp hname
  exact h.missing_eq_nil_iff.mp hnil text htext name hname

variable {compiled : Except Error CompiledStatement}

theorem ensureComplete_bind_of_complete (h : b.missing = []) :
    (b.ensureComplete context >>= fun _ => compiled) = compiled := by
  rw [ensureComplete, if_pos h]
  rfl

theorem ensureComplete_bind_of_incomplete (h : b.missing ≠ []) :
    (b.ensureComplete context >>= fun _ => compiled) =
      .error (.unboundPlaceholders context b.missing) := by
  rw [ensureComplete, if_neg h]
  rfl

/-- Only the check for missing values reports placeholders. -/
theorem Fits.missing_of_error (h : b.Fits expressions)
    (hcompiled : b.Renders context (expressions.flatMap Sql.names) compiled)
    {context' : String} {names : List String}
    (herr : (b.ensureComplete context >>= fun _ => compiled) =
      .error (.unboundPlaceholders context' names)) :
    b.missing ≠ [] ∧ context' = context ∧ names = b.missing := by
  by_cases hnil : b.missing = []
  · rw [ensureComplete_bind_of_complete hnil] at herr
    obtain ⟨fault, hfault⟩ := hcompiled.error (h.bound_of_complete hnil) herr
    cases hfault
  · rw [ensureComplete_bind_of_incomplete hnil] at herr
    cases herr
    exact ⟨hnil, rfl, rfl⟩

theorem Fits.render_ne_unbound (h : b.Fits expressions) (hcheck : b.ensureComplete context = .ok ())
    {text : String} (htext : text ∈ expressions) {name : String} (hname : name ∈ Sql.names text)
    (context' : String) (names : List String) :
    b.render context name ≠ .error (.unboundPlaceholders context' names) := by
  intro herr
  have hnil : b.missing = [] := by
    refine Classical.byContradiction fun hne => ?_
    rw [ensureComplete, if_neg hne] at hcheck
    cases hcheck
  have hget := h.missing_eq_nil_iff.mp hnil text htext name hname
  obtain ⟨fault, hfault⟩ := (Renders.single b context name).error
    (List.forall_mem_singleton.mpr hget) herr
  cases hfault

/-- A statement whose compilation renders its expressions is gated by its bindings. -/
theorem Fits.gates (h : b.Fits expressions)
    (hcompiled : b.Renders context (expressions.flatMap Sql.names) compiled) :
    b.Gates expressions context (b.ensureComplete context >>= fun _ => compiled) := by
  refine ⟨⟨?_, ?_⟩, ?_, ?_, ?_, ?_, ?_⟩
  · rintro ⟨context', names, herr⟩
    obtain ⟨hne, -⟩ := h.missing_of_error hcompiled herr
    obtain ⟨name, hname⟩ := List.exists_mem_of_ne_nil _ hne
    obtain ⟨⟨text, htext, hname⟩, hget⟩ := h.mem_missing_iff.mp hname
    exact ⟨text, htext, name, hname, hget⟩
  · rintro ⟨text, htext, name, hname, hget⟩
    refine ⟨context, b.missing, ensureComplete_bind_of_incomplete ?_⟩
    exact List.ne_nil_of_mem (h.mem_missing_iff.mpr ⟨⟨text, htext, hname⟩, hget⟩)
  · intro context' names herr
    obtain ⟨-, hcontext, rfl⟩ := h.missing_of_error hcompiled herr
    exact ⟨hcontext, rfl, h.nodup.filter _, fun _ => h.mem_missing_iff⟩
  · intro hall
    have hnil := h.missing_eq_nil_iff.mpr hall
    rw [ensureComplete_bind_of_complete hnil,
      hcompiled.exists_eq_ok_iff (h.bound_of_complete hnil)]
    simp only [← h.mem_names_iff]
    exact Iff.rfl
  · intro hall e he
    have hnil := h.missing_eq_nil_iff.mpr hall
    rw [ensureComplete_bind_of_complete hnil] at he
    exact hcompiled.error (h.bound_of_complete hnil) he
  · intro hcheck text htext name hname
    exact h.render_ne_unbound hcheck htext hname
  · intro text htext
    obtain ⟨t, rfl⟩ := (h.scans text htext).exists_template
    exact ⟨t, t.ofText_text context⟩

end Bindings

/-! ### Statements -/

theorem SelectStatement.renders_compile (s : SelectStatement) :
    s.bindings.Renders executeContext (s.expressions.flatMap Sql.names) s.compile := by
  simp only [expressions, List.flatMap_map, Template.names_text, List.flatMap_append]
  refine Bindings.Renders.bind_ok ?_ _
  refine (Clause.renders_condition _ _ s.bindings s.filter).bind fun filter => ?_
  exact (Clause.renders_condition _ _ s.bindings s.having).bind_ok _

theorem DeleteStatement.renders_compile (s : DeleteStatement) :
    s.bindings.Renders executeContext (s.expressions.flatMap Sql.names) s.compile := by
  simp only [expressions, List.flatMap_map, Template.names_text]
  refine Bindings.Renders.bind_ok ?_ _
  exact (Clause.renders_condition _ _ s.bindings s.filter).bind_ok _

theorem UpdateStatement.renders_compile {s : UpdateStatement} (h : s.assignments ≠ [])
    (hscans : ∀ text ∈ s.expressions, Sql.Scans text) :
    s.bindings.Renders executeContext (s.expressions.flatMap Sql.names) s.compile := by
  have hassigned : s.assignments.isEmpty = false := by simpa using h
  rw [flatMap_names_expressions]
  refine Bindings.Renders.bind_ok ?_ _
  rw [fragment, hassigned]
  refine (Bindings.Renders.mapM fun a ha => ?_).bind fun assignments => ?_
  · have hvalue := forall_scans_iff.mp hscans a ha
    exact (Value.renders_render executeContext s.bindings hvalue).bind_ok _
  · exact (Clause.renders_condition _ _ s.bindings s.filter).bind_ok _

namespace Builder

/-- **The execution of a reachable statement is gated by its bindings**, in every stage that allows
an execution. An update statement always has something to assign then. -/
theorem bindings_gate_execution :
    (∀ s : SelectStatement, Reachable s → .execute ∈ s.operations →
      s.bindings.Gates s.expressions SelectStatement.executeContext s.prepareExecute) ∧
    (∀ s : UpdateStatement, Reachable s → .execute ∈ s.operations →
      s.bindings.Gates s.expressions UpdateStatement.executeContext s.prepareExecute ∧
      s.assignments ≠ []) ∧
    (∀ s : DeleteStatement, Reachable s → .execute ∈ s.operations →
      s.bindings.Gates s.expressions DeleteStatement.executeContext s.prepareExecute) := by
  refine ⟨?_, ?_, ?_⟩
  · intro s h hallowed
    have hs := SelectStatement.consistent_of_reachable h
    rw [SelectStatement.prepareExecute, Operation.guarded_of_mem hallowed]
    exact hs.fits.gates s.renders_compile
  · intro s h hallowed
    have hs := UpdateStatement.consistent_of_reachable h
    have hassigned := hs.assignments_ne_nil_of_mem hallowed nofun
    rw [UpdateStatement.prepareExecute, Operation.guarded_of_mem hallowed]
    exact ⟨hs.fits.gates (UpdateStatement.renders_compile hassigned hs.fits.scans), hassigned⟩
  · intro s h hallowed
    have hs := DeleteStatement.consistent_of_reachable h
    rw [DeleteStatement.prepareExecute, Operation.guarded_of_mem hallowed]
    exact hs.fits.gates s.renders_compile

/-- A filter waits for its placeholder, and an assigned expression for its own, which may be bound
to an expression again. -/
theorem bindings_gate_execution_of_placeholder :
    (∃ context names, (after (SelectStatement.all ⟨"", "t"⟩)
      [.call (.filter (.text ":x"))]).prepareExecute =
        .error (.unboundPlaceholders context names)) ∧
    (∃ c, (after (UpdateStatement.ofTable ⟨"", "t"⟩)
      [.call (.set "a" (.expression ":x")), .call (.bind "x" (.expression "?"))]).prepareExecute =
        .ok c) ∧
    (∃ c, (after (DeleteStatement.ofTable ⟨"", "t"⟩)
      [.call (.filter (.text ":x")), .call (.bind "x" .null)]).prepareExecute = .ok c) := by
  have hselect : Reachable (SelectStatement.all ⟨"", "t"⟩) := .start (x := .all ⟨"", "t"⟩) rfl
  have hupdate : Reachable (UpdateStatement.ofTable ⟨"", "t"⟩) := .start (x := ⟨"", "t"⟩) rfl
  have hdelete : Reachable (DeleteStatement.ofTable ⟨"", "t"⟩) := .start (x := ⟨"", "t"⟩) rfl
  obtain ⟨select, update, delete⟩ := bindings_gate_execution
  refine ⟨(select _ (reachable_after hselect _) ?_).unbound_iff.mpr ?_,
    ((update _ (reachable_after hupdate _) ?_).1.ok_iff ?_).mpr ?_,
    ((delete _ (reachable_after hdelete _) ?_).ok_iff ?_).mpr ?_⟩
  · show Operation.execute ∈ SelectStatement.Stage.allowed .filter
    decide
  · exact ⟨":x", List.mem_cons_self, "x", List.mem_cons_self, rfl⟩
  · show Operation.execute ∈ UpdateStatement.Stage.allowed .bind
    decide
  · refine List.forall_mem_singleton.mpr (List.forall_mem_singleton.mpr ?_)
    exact Option.some_ne_none (Value.expression "?")
  · refine List.forall_mem_singleton.mpr fun sql hsql => ?_
    cases hsql
    rfl
  · show Operation.execute ∈ DeleteStatement.Stage.allowed .bind
    decide
  · refine List.forall_mem_singleton.mpr (List.forall_mem_singleton.mpr ?_)
    exact Option.some_ne_none Value.null
  · refine List.forall_mem_singleton.mpr fun sql hsql => ?_
    cases hsql

end Builder

end TableSql
