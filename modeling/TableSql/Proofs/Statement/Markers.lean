import TableSql.Proofs.Fragment.Balance
import TableSql.Statement.Delete
import TableSql.Statement.Insert
import TableSql.Statement.Select
import TableSql.Statement.Update

/-!
# Markers and values of whole statements

A compiled statement is a chain of fragments, and each of them is balanced: keywords, quoted names,
numbers and locks bring neither markers nor values, and a literal brings one of each. What is left
over are the `?` in texts that were taken over as they are. Those are listed here for each kind of
statement, and the count is exact.

Only three kinds of text are taken over without a scan: projected columns, grouping columns and the
columns of order criteria. That they are closed has to be assumed. An expression is scanned when it
is stored, and a bound one when it is rendered.

## Main definitions

* `SelectStatement.inlined`, `InsertStatement.inlined`, `UpdateStatement.inlined`,
  `DeleteStatement.inlined` — the texts taken over by a compilation
* `SelectStatement.columnTexts` — those of them that nothing scans

## Main results

* `SelectStatement.balanced_fragment`, `InsertStatement.balanced_fragment`,
  `UpdateStatement.balanced_fragment`, `DeleteStatement.balanced_fragment`
* `countMarkers?_compile` — the markers of a compiled statement are its values and the `?` of the
  texts taken over
-/

namespace TableSql

open Sql (Closed countMarkers? markers)

/-! ### Select statements -/

namespace SelectStatement

/-- The texts that a compilation takes over without a scan. -/
def columnTexts (s : SelectStatement) : List String :=
  s.projection ++ s.grouping ++ s.ordering.map OrderCriterion.column

/-- The texts that a compilation takes over. -/
def inlined (s : SelectStatement) : List String :=
  s.projection ++ s.filter.toList.flatMap (Template.inlined s.bindings) ++ s.grouping ++
    s.having.toList.flatMap (Template.inlined s.bindings) ++ s.ordering.map OrderCriterion.column

theorem countMarkers?_projectionText {s : SelectStatement} (h : ∀ t ∈ s.projection, Closed t) :
    countMarkers? s.projectionText = .ok (s.projection.map markers).sum := by
  rw [projectionText]
  split
  next hnil =>
    rw [hnil]
    rfl
  next =>
    have hcomma : countMarkers? ", " = .ok 0 := rfl
    exact Sql.countMarkers?_intercalate hcomma h

theorem balanced_limitClause (s : SelectStatement) : s.limitClause.Balanced 0 := by
  rw [limitClause]
  cases s.limit with
  | none => exact Fragment.balanced_empty
  | some n =>
    have hoffset : countMarkers? " OFFSET " = .ok 0 := rfl
    exact (Clause.balanced_limit (some n)).append (Clause.balanced_count hoffset s.offset)

theorem balanced_lockClause (s : SelectStatement) : s.lockClause.Balanced 0 := by
  rw [lockClause]
  cases s.lock with
  | none => exact Fragment.balanced_empty
  | some mode => exact Fragment.balanced_ofText mode.countMarkers?_toSql

theorem balanced_fragment {s : SelectStatement} {f : Fragment} (h : s.fragment = .ok f)
    (hclosed : ∀ t ∈ s.columnTexts, Closed t) : f.Balanced (s.inlined.map markers).sum := by
  obtain ⟨filter, hfilter, h⟩ := Outcome.bind_eq_ok_iff.mp h
  obtain ⟨having, hhaving, h⟩ := Outcome.bind_eq_ok_iff.mp h
  cases h
  simp only [columnTexts, List.forall_mem_append, List.forall_mem_map] at hclosed
  obtain ⟨⟨hprojection, hgrouping⟩, hordering⟩ := hclosed
  have hselect : countMarkers? "SELECT " = .ok 0 := rfl
  have hfrom : countMarkers? " FROM " = .ok 0 := rfl
  have hgroup : countMarkers? " GROUP BY " = .ok 0 := rfl
  have hkeyword : countMarkers? " HAVING " = .ok 0 := rfl
  have hhead := Sql.countMarkers?_append (Sql.countMarkers?_append
    (Sql.countMarkers?_append hselect (countMarkers?_projectionText hprojection)) hfrom)
    s.table.countMarkers?_toSql
  have hall := ((((((Fragment.balanced_ofText hhead).append
    (Clause.balanced_where hfilter)).append
    (Clause.balanced_list hgroup hgrouping)).append
    (Clause.balanced_condition hkeyword hhaving)).append
    (Clause.balanced_ordering hordering)).append s.balanced_limitClause).append
    s.balanced_lockClause
  simpa [inlined, Function.comp_def, Nat.add_assoc] using hall

end SelectStatement

/-! ### Delete statements -/

namespace DeleteStatement

/-- The texts that a compilation takes over without a scan. -/
def columnTexts (s : DeleteStatement) : List String :=
  s.ordering.map OrderCriterion.column

/-- The texts that a compilation takes over. -/
def inlined (s : DeleteStatement) : List String :=
  s.filter.toList.flatMap (Template.inlined s.bindings) ++ s.ordering.map OrderCriterion.column

theorem balanced_fragment {s : DeleteStatement} {f : Fragment} (h : s.fragment = .ok f)
    (hclosed : ∀ t ∈ s.columnTexts, Closed t) : f.Balanced (s.inlined.map markers).sum := by
  obtain ⟨filter, hfilter, h⟩ := Outcome.bind_eq_ok_iff.mp h
  cases h
  have hordering : ∀ c ∈ s.ordering, Closed c.column := by
    simpa only [columnTexts, List.forall_mem_map] using hclosed
  have hdelete : countMarkers? "DELETE FROM " = .ok 0 := rfl
  have hhead := Sql.countMarkers?_append hdelete s.table.countMarkers?_toSql
  have hall := (((Fragment.balanced_ofText hhead).append (Clause.balanced_where hfilter)).append
    (Clause.balanced_ordering hordering)).append (Clause.balanced_limit s.limit)
  simpa [inlined, Function.comp_def] using hall

end DeleteStatement

/-! ### Update statements -/

namespace UpdateStatement

/-- The texts that a compilation takes over without a scan. -/
def columnTexts (s : UpdateStatement) : List String :=
  s.ordering.map OrderCriterion.column

/-- The texts that a compilation takes over. -/
def inlined (s : UpdateStatement) : List String :=
  s.assignments.flatMap (·.value.inlined s.bindings) ++
    s.filter.toList.flatMap (Template.inlined s.bindings) ++ s.ordering.map OrderCriterion.column

theorem balanced_assignment {b : Bindings} {a : Assignment} {f : Fragment}
    (h : assignment b a = .ok f) : f.Balanced ((a.value.inlined b).map markers).sum := by
  obtain ⟨value, hvalue, h⟩ := Outcome.bind_eq_ok_iff.mp h
  cases h
  have hequals : countMarkers? " = " = .ok 0 := rfl
  have hcolumn := Sql.countMarkers?_append (Sql.countMarkers?_quoteIdentifier a.column) hequals
  have hall := (Fragment.balanced_ofText hcolumn).append (Value.balanced_render hvalue)
  rwa [Nat.zero_add] at hall

theorem balanced_fragment {s : UpdateStatement} {f : Fragment} (h : s.fragment = .ok f)
    (hclosed : ∀ t ∈ s.columnTexts, Closed t) : f.Balanced (s.inlined.map markers).sum := by
  rw [fragment] at h
  split at h
  next => cases h
  next =>
    obtain ⟨fs, hfs, h⟩ := Outcome.bind_eq_ok_iff.mp h
    obtain ⟨filter, hfilter, h⟩ := Outcome.bind_eq_ok_iff.mp h
    cases h
    have hordering : ∀ c ∈ s.ordering, Closed c.column := by
      simpa only [columnTexts, List.forall_mem_map] using hclosed
    have hupdate : countMarkers? "UPDATE " = .ok 0 := rfl
    have hset : countMarkers? " SET " = .ok 0 := rfl
    have hcomma : countMarkers? ", " = .ok 0 := rfl
    have hhead := Sql.countMarkers?_append
      (Sql.countMarkers?_append hupdate s.table.countMarkers?_toSql) hset
    have hassigned := (Outcome.mapM_eq_ok_iff.mp hfs).imp fun _ _ => balanced_assignment
    have hall := ((((Fragment.balanced_ofText hhead).append
      (Fragment.balanced_join hcomma hassigned)).append
      (Clause.balanced_where hfilter)).append
      (Clause.balanced_ordering hordering)).append (Clause.balanced_limit s.limit)
    simpa [inlined, Function.comp_def, sum_map_flatMap, Nat.add_assoc] using hall

end UpdateStatement

/-! ### Insert statements -/

namespace InsertStatement

/-- The texts that a compilation takes over: those of the expressions in the rows. -/
def inlined (s : InsertStatement) : List String :=
  s.rows.flatMap (List.filterMap Value.sql?)

theorem balanced_cell {v : Value} {f : Fragment} (h : cell v = .ok f) :
    f.Balanced (v.sql?.toList.map markers).sum := by
  have hinlined : v.inlined .empty = v.sql?.toList := by
    simp [Value.inlined, Bindings.inlined]
  rw [← hinlined]
  exact Value.balanced_render h

theorem balanced_row {values : List Value} {f : Fragment} (h : row values = .ok f) :
    f.Balanced ((values.filterMap Value.sql?).map markers).sum := by
  obtain ⟨cells, hcells, h⟩ := Outcome.bind_eq_ok_iff.mp h
  cases h
  have hcomma : countMarkers? ", " = .ok 0 := rfl
  have hcell := (Outcome.mapM_eq_ok_iff.mp hcells).imp fun _ _ => balanced_cell
  have hall := (Fragment.balanced_join hcomma hcell).parenthesize
  rwa [← sum_map_flatMap, ← List.filterMap_eq_flatMap_toList] at hall

theorem balanced_columnClause (s : InsertStatement) : s.columnClause.Balanced 0 := by
  rw [columnClause]
  split
  next => exact Fragment.balanced_empty
  next =>
    have hopen : countMarkers? " (" = .ok 0 := rfl
    have hclose : countMarkers? ")" = .ok 0 := rfl
    have hnames := Sql.countMarkers?_quoteIdentifiers s.columns
    exact Fragment.balanced_ofText
      (Sql.countMarkers?_append (Sql.countMarkers?_append hopen hnames) hclose)

theorem balanced_fragment {s : InsertStatement} {f : Fragment} (h : s.fragment = .ok f) :
    f.Balanced (s.inlined.map markers).sum := by
  rw [fragment] at h
  split at h
  next => cases h
  next =>
    obtain ⟨_, -, h⟩ := Outcome.bind_eq_ok_iff.mp h
    obtain ⟨fs, hfs, h⟩ := Outcome.bind_eq_ok_iff.mp h
    cases h
    have hinsert : countMarkers? "INSERT INTO " = .ok 0 := rfl
    have hcomma : countMarkers? ", " = .ok 0 := rfl
    have hvalues : countMarkers? " VALUES " = .ok 0 := rfl
    have hhead := Sql.countMarkers?_append hinsert s.table.countMarkers?_toSql
    have hrows := (Outcome.mapM_eq_ok_iff.mp hfs).imp fun _ _ => balanced_row
    have hall := (((Fragment.balanced_ofText hhead).append s.balanced_columnClause).append
      (Fragment.balanced_ofText hvalues)).append (Fragment.balanced_join hcomma hrows)
    simpa [inlined, sum_map_flatMap] using hall

end InsertStatement

/-! ### Compiled statements -/

/-- **The markers of a compiled statement are its values and the `?` of the texts taken over.**
Nothing that the compilation writes itself adds a marker beyond those, and nothing hides one. -/
theorem countMarkers?_compile :
    (∀ (s : SelectStatement) (c : CompiledStatement), s.compile = .ok c →
      (∀ t ∈ s.columnTexts, ∃ n, countMarkers? t = .ok n) →
      countMarkers? c.sql = .ok (c.params.length + (s.inlined.map markers).sum)) ∧
    (∀ (s : InsertStatement) (c : CompiledStatement), s.compile = .ok c →
      countMarkers? c.sql = .ok (c.params.length + (s.inlined.map markers).sum)) ∧
    (∀ (s : UpdateStatement) (c : CompiledStatement), s.compile = .ok c →
      (∀ t ∈ s.columnTexts, ∃ n, countMarkers? t = .ok n) →
      countMarkers? c.sql = .ok (c.params.length + (s.inlined.map markers).sum)) ∧
    (∀ (s : DeleteStatement) (c : CompiledStatement), s.compile = .ok c →
      (∀ t ∈ s.columnTexts, ∃ n, countMarkers? t = .ok n) →
      countMarkers? c.sql = .ok (c.params.length + (s.inlined.map markers).sum)) := by
  refine ⟨?_, ?_, ?_, ?_⟩
  · intro s c h hcolumns
    obtain ⟨f, hf, h⟩ := Outcome.bind_eq_ok_iff.mp h
    cases h
    exact s.balanced_fragment hf (Sql.forall_closed_iff.mpr hcolumns)
  · intro s c h
    obtain ⟨f, hf, h⟩ := Outcome.bind_eq_ok_iff.mp h
    cases h
    exact s.balanced_fragment hf
  · intro s c h hcolumns
    obtain ⟨f, hf, h⟩ := Outcome.bind_eq_ok_iff.mp h
    cases h
    exact s.balanced_fragment hf (Sql.forall_closed_iff.mpr hcolumns)
  · intro s c h hcolumns
    obtain ⟨f, hf, h⟩ := Outcome.bind_eq_ok_iff.mp h
    cases h
    exact s.balanced_fragment hf (Sql.forall_closed_iff.mpr hcolumns)

/-- One statement of each kind, with a `?` of its own beside its values: the expression `?` is bound
to a placeholder that occurs twice, inserted, assigned and sorted by. -/
theorem countMarkers?_compile_of_own_markers :
    (∃ c, SelectStatement.compile
        { table := ⟨"", "t"⟩, projection := ["?"]
          filter := some ⟨":x?:x", [⟨"x", 0, 2⟩, ⟨"x", 3, 5⟩], rfl⟩
          bindings := ⟨["x"], [("x", .expression "?")]⟩ } = .ok c ∧
      countMarkers? c.sql = .ok (c.params.length + 4)) ∧
    (∃ c, InsertStatement.compile
        { table := ⟨"", "t"⟩, rows := [[.null, .expression "?"]] } = .ok c ∧
      countMarkers? c.sql = .ok (c.params.length + 1)) ∧
    (∃ c, UpdateStatement.compile
        { table := ⟨"", "t"⟩
          assignments := [⟨"?", .null⟩, ⟨"b", .expression "?"⟩] } = .ok c ∧
      countMarkers? c.sql = .ok (c.params.length + 1)) ∧
    (∃ c, DeleteStatement.compile
        { table := ⟨"", "t"⟩, ordering := [⟨"?", .ascending⟩] } = .ok c ∧
      countMarkers? c.sql = .ok (c.params.length + 1)) := by
  have hcolumn : ∀ t ∈ ["?"], ∃ n, countMarkers? t = .ok n :=
    List.forall_mem_singleton.mpr ⟨1, rfl⟩
  have hnone : ∀ t ∈ ([] : List String), ∃ n, countMarkers? t = .ok n := fun _ h => nomatch h
  obtain ⟨select, insert, update, delete⟩ := countMarkers?_compile
  refine ⟨⟨?_, ?select, select _ _ ?select hcolumn⟩, ⟨?_, ?insert, insert _ _ ?insert⟩,
    ⟨?_, ?update, update _ _ ?update hnone⟩, ⟨?_, ?delete, delete _ _ ?delete hcolumn⟩⟩
  case select | insert | update | delete => rfl

end TableSql
