import TableSql.Proofs.Builder.Statements
import TableSql.Proofs.Statement.Calls
import TableSql.Proofs.Statement.Markers
import TableSql.Proofs.Statement.Raw
import TableSql.Statement.Execution

/-!
# Markers without a value

A `?` that a caller writes into a condition, a column or an expression goes into the SQL text as it
is. Nothing looks for it: not the call that takes the text, nor the compilation, nor the preparation
of an execution. So such a statement is sent with fewer values than markers, where a raw SQL
statement would be refused. This is told here for the statements that are sent.

## Main definitions

* `CompiledStatement.Supplied` — as many values as markers
* `Statement.prepareExecute`, `Statement.inlined` — what a statement of any kind sends, and the
  texts that it takes over with their markers

## Main results

* `supplied_iff_of_prepareExecute` — what is sent has a value for each marker if no text taken over
  has a marker of its own
* `exists_sent_without_value` — a marker in a condition is sent without a value
-/

namespace TableSql

open Sql (countMarkers? markers)

/-- The text has a marker for each value, and no more. -/
def CompiledStatement.Supplied (c : CompiledStatement) : Prop :=
  countMarkers? c.sql = .ok c.params.length

/-- A balanced fragment is supplied if no text that was taken over has a marker. -/
theorem CompiledStatement.supplied_ofFragment_iff {kind : StatementKind} {f : Fragment}
    {texts : List String} (h : f.Balanced (texts.map markers).sum) :
    (ofFragment kind f).Supplied ↔ ∀ t ∈ texts, markers t = 0 := by
  have hcount : countMarkers? (ofFragment kind f).sql =
      .ok ((ofFragment kind f).params.length + (texts.map markers).sum) := h
  rw [Supplied, hcount, Except.ok.injEq, Nat.add_eq_left, List.sum_eq_zero_iff_forall_eq_nat,
    List.forall_mem_map]

/-! ### Statements of any kind -/

namespace Statement

/-- The statement as an execution sends it. -/
def prepareExecute : Statement → Except Error CompiledStatement
  | .select s => s.prepareExecute
  | .insert s => s.prepareExecute
  | .update s => s.prepareExecute
  | .delete s => s.prepareExecute
  | .sql s => s.compile

/-- The texts that are taken over without a scan. The text of a raw SQL statement is scanned. -/
def columnTexts : Statement → List String
  | .select s => s.columnTexts
  | .update s => s.columnTexts
  | .delete s => s.columnTexts
  | .insert _ | .sql _ => []

/-- The texts that are taken over with their markers. -/
def inlined : Statement → List String
  | .select s => s.inlined
  | .insert s => s.inlined
  | .update s => s.inlined
  | .delete s => s.inlined
  | .sql _ => []

end Statement

/-- A raw SQL statement is sent with a value for each marker, or is not sent. -/
theorem SqlStatement.supplied_of_compile {s : SqlStatement} {c : CompiledStatement}
    (h : s.compile = .ok c) : c.Supplied := by
  obtain ⟨-, hcount, -, rfl⟩ := compile_eq_ok_iff.mp h
  exact hcount

/-- **What is sent has a value for each marker if no text taken over has a marker of its own**, and
only then. A raw SQL statement is always sent so. -/
theorem supplied_iff_of_prepareExecute (s : Statement) (c : CompiledStatement)
    (h : s.prepareExecute = .ok c)
    (hcolumns : ∀ t ∈ s.columnTexts, ∃ n, countMarkers? t = .ok n) :
    c.Supplied ↔ ∀ t ∈ s.inlined, markers t = 0 := by
  cases s with
  | select s =>
    have hcompile : s.compile = .ok c := Builder.compile_of_prepareExecute (s := s) h
    obtain ⟨f, hf, h⟩ := Outcome.bind_eq_ok_iff.mp hcompile
    cases h
    exact CompiledStatement.supplied_ofFragment_iff
      (s.balanced_fragment hf (Sql.forall_closed_iff.mpr hcolumns))
  | insert s =>
    have hcompile : s.compile = .ok c := Builder.compile_of_prepareExecute (s := s) h
    obtain ⟨f, hf, h⟩ := Outcome.bind_eq_ok_iff.mp hcompile
    cases h
    exact CompiledStatement.supplied_ofFragment_iff (s.balanced_fragment hf)
  | update s =>
    have hcompile : s.compile = .ok c := Builder.compile_of_prepareExecute (s := s) h
    obtain ⟨f, hf, h⟩ := Outcome.bind_eq_ok_iff.mp hcompile
    cases h
    exact CompiledStatement.supplied_ofFragment_iff
      (s.balanced_fragment hf (Sql.forall_closed_iff.mpr hcolumns))
  | delete s =>
    have hcompile : s.compile = .ok c := Builder.compile_of_prepareExecute (s := s) h
    obtain ⟨f, hf, h⟩ := Outcome.bind_eq_ok_iff.mp hcompile
    cases h
    exact CompiledStatement.supplied_ofFragment_iff
      (s.balanced_fragment hf (Sql.forall_closed_iff.mpr hcolumns))
  | sql s => exact iff_of_true (SqlStatement.supplied_of_compile h) fun _ ht => nomatch ht

/-- A projected `?` is sent without a value. A quoted `?` is not a marker, and that of a literal has
its value. -/
theorem supplied_iff_of_prepareExecute_of_marks :
    (∃ c, (Statement.select { table := ⟨"", "t"⟩, projection := ["?"] }).prepareExecute = .ok c ∧
      ¬ c.Supplied) ∧
    (∃ c, (Statement.update { table := ⟨"", "t"⟩, assignments := [⟨"?", .null⟩]
                              ordering := [⟨"'?'", .ascending⟩], stage := .set }).prepareExecute =
        .ok c ∧
      c.Supplied) := by
  have hmark : ∀ t ∈ ["?"], ∃ n, countMarkers? t = .ok n :=
    List.forall_mem_singleton.mpr ⟨1, rfl⟩
  have hquoted : ∀ t ∈ ["'?'"], ∃ n, countMarkers? t = .ok n :=
    List.forall_mem_singleton.mpr ⟨0, rfl⟩
  refine ⟨⟨?_, ?select, (supplied_iff_of_prepareExecute _ _ ?select hmark).not.mpr ?_⟩,
    ⟨?_, ?update, (supplied_iff_of_prepareExecute _ _ ?update hquoted).mpr ?_⟩⟩
  case select | update => rfl
  · exact fun h => absurd (h "?" List.mem_cons_self) (by decide)
  · exact List.forall_mem_singleton.mpr rfl

/-- **A marker in a condition is sent without a value.** -/
theorem exists_sent_without_value :
    ∃ (s : SelectStatement) (c : CompiledStatement),
      s = Builder.after (.all ⟨"test", "table1"⟩) [.call (.filter (.text "a=?"))] ∧
      Builder.Reachable s ∧ s.prepareExecute = .ok c ∧ c.params = [] ∧
      countMarkers? c.sql = .ok 1 ∧ ¬ c.Supplied := by
  have hstart : Builder.Reachable (SelectStatement.all ⟨"test", "table1"⟩) :=
    .start (x := .all ⟨"test", "table1"⟩) rfl
  have hcount : countMarkers? "SELECT * FROM `test`.`table1` WHERE a=?" = .ok 1 := by
    decide +kernel
  refine ⟨_, ⟨.select, "SELECT * FROM `test`.`table1` WHERE a=?", []⟩, rfl,
    Builder.reachable_after hstart _, rfl, rfl, hcount, fun h => ?_⟩
  have hnone : (Except.ok 1 : Except Sql.Unterminated Nat) = .ok 0 := hcount.symm.trans h
  cases hnone

end TableSql
