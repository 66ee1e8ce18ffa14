import TableSql.Proofs.Argument
import TableSql.Proofs.Builder.Recorded
import TableSql.Proofs.Statement.Grammar
import TableSql.Proofs.Statement.Placeholders

/-!
# The histories of the statements

Each accepted call replaces its own clause and leaves the others as they are. Three things could
still tell a statement from the last arguments of its calls, and the stages rule them out: rows to
skip without a limit, which are not written; groups filtered where there are none; and values that
an assignment forgets, as nothing is bound before the last assignment.

## Main definitions

* `SelectStatement.outline`, `UpdateStatement.outline`, `DeleteStatement.outline` — how each
  statement is told from its calls
* `SelectStatement.Paired` — rows are skipped under a limit, and filtered groups are groups
* `UpdateStatement.Unbound` — nothing is bound before the last assignment
* the instances of `Builder.Recorded`

## Main results

* `SelectStatement.Gives.argument_eq`, `UpdateStatement.Gives.argument_eq`,
  `DeleteStatement.Gives.argument_eq` — a call replaces its own clause and leaves the others
* `Builder.statements_follow_history` — every new statement follows its history
-/

namespace TableSql

open Clause (lastOf)

/-! ### Select statements -/

namespace SelectStatement

/-- The table of a new statement. -/
def Start.table : Start → TableRef
  | .all table => table
  | .columns table _ => table

/-- What a new statement selects. -/
def Start.projectionText : Start → String
  | .all _ => "*"
  | .columns _ list => String.intercalate ", " list.given

/-- What a call gives for a clause. -/
def Call.argument? : Call → Option Clause.Argument
  | .filter condition => some (.filter condition.given)
  | .groupBy columns => some (.groupBy columns.given)
  | .having condition => some (.having condition.given)
  | .orderBy criteria => some (.orderBy (criteria.given.map OrderCriterion.parse))
  | .limit count => some (.limit count)
  | .offset count => some (.offset count)
  | .lockShared mode => some (.lock (.shared mode.given))
  | .lockExclusive mode => some (.lock (.exclusive mode.given))
  | .bind _ _ => none

/-- The name that a call binds, and its value. -/
def Call.binding? : Call → Option (String × Value)
  | .bind name value => some (name, value)
  | _ => none

/-- The head of a select statement and the order of its clauses. -/
def outline (x : Start) : Outline where
  kind := .select
  context := executeContext
  head _ := .ok ⟨"SELECT " ++ x.projectionText ++ " FROM " ++ x.table.toSql, []⟩
  clauses := [.filter, .groupBy, .having, .orderBy, .limit, .offset, .lock]

/-- What the statement holds for a clause. -/
def argument (s : SelectStatement) : Clause.Kind → Option Clause.Argument
  | .filter => s.filter.map fun t => .filter t.text
  | .groupBy => if s.grouping = [] then none else some (.groupBy s.grouping)
  | .having => s.having.map fun t => .having t.text
  | .orderBy => if s.ordering = [] then none else some (.orderBy s.ordering)
  | .limit => s.limit.map .limit
  | .offset => s.offset.map .offset
  | .lock => s.lock.map .lock

/-- The statement holds what these calls gave. -/
structure Records (x : Start) (cs : List Call) (s : SelectStatement) : Prop where
  table : s.table = x.table
  projection : s.projectionText = x.projectionText
  arguments : ∀ kind, lastOf kind (cs.filterMap Call.argument?) = s.argument kind
  values : s.bindings.Reads (cs.filterMap Call.binding?)

variable {s s' : SelectStatement} {c : Call}

/-- **A call replaces its own clause and leaves the others.** -/
theorem Gives.argument_eq (h : Gives s c s') (kind : Clause.Kind) :
    s'.argument kind = (lastOf kind c.argument?.toList).or (s.argument kind) := by
  cases h with
  | filter h =>
    rw [Call.argument?, Condition.given_of_toText h]
    cases kind <;> rfl
  | groupBy h =>
    obtain ⟨hgiven, hne⟩ := ColumnList.given_of_toTexts h
    rw [Call.argument?, hgiven]
    cases kind with
    | groupBy => exact if_neg hne
    | _ => rfl
  | having h =>
    rw [Call.argument?, Condition.given_of_toText h]
    cases kind <;> rfl
  | orderBy h =>
    obtain ⟨hgiven, hne⟩ := given_of_orderCriteria h
    rw [Call.argument?, hgiven]
    cases kind with
    | orderBy => exact if_neg hne
    | _ => rfl
  | limit | offset | bind => cases kind <;> rfl
  | lockShared h =>
    rw [Call.argument?, LockArgument.given_of_toContention h]
    cases kind <;> rfl
  | lockExclusive h =>
    rw [Call.argument?, LockArgument.given_of_toContention h]
    cases kind <;> rfl

theorem Gives.head_eq (h : Gives s c s') :
    s'.table = s.table ∧ s'.projectionText = s.projectionText := by
  cases h <;> exact ⟨rfl, rfl⟩

theorem Gives.reads (h : Gives s c s') {cs : List Call}
    (hs : s.bindings.Reads (cs.filterMap Call.binding?)) :
    s'.bindings.Reads ((cs ++ [c]).filterMap Call.binding?) := by
  rw [List.filterMap_append]
  have hkept : s.bindings.Reads (cs.filterMap Call.binding? ++ []) := by
    rwa [List.append_nil]
  cases h with
  | filter _ => exact hkept.register _
  | having _ => exact hkept.register _
  | groupBy _ => exact hkept
  | orderBy _ => exact hkept
  | limit => exact hkept
  | offset => exact hkept
  | lockShared _ => exact hkept
  | lockExclusive _ => exact hkept
  | bind hb => exact hs.bind hb

theorem records_start {x : Start} (h : Builder.start x = .ok s) : Records x [] s := by
  cases x with
  | all table =>
    cases h
    exact ⟨rfl, if_pos rfl, fun kind => by cases kind <;> rfl, fun _ => rfl⟩
  | columns table columns =>
    have h : ofColumns table columns = .ok s := h
    rw [ofColumns] at h
    split at h
    next projection hprojection =>
      cases h
      obtain ⟨hgiven, hne⟩ := ColumnList.given_of_toTexts hprojection
      refine ⟨rfl, ?_, fun kind => by cases kind <;> rfl, fun _ => rfl⟩
      rw [projectionText, if_neg hne, Start.projectionText, hgiven]
    next => cases h

theorem Records.apply {x : Start} {cs : List Call} (hs : Records x cs s) (h : s.apply c = .ok s') :
    Records x (cs ++ [c]) s' := by
  obtain ⟨-, hgives⟩ := apply_eq_ok_iff.mp h
  obtain ⟨htable, hprojection⟩ := hgives.head_eq
  refine ⟨htable.trans hs.table, hprojection.trans hs.projection, fun kind => ?_,
    hgives.reads hs.values⟩
  rw [Clause.lastOf_filterMap_concat, hs.arguments, hgives.argument_eq]

/-! #### Clauses that need another one -/

/-- **Rows are skipped under a limit, and filtered groups are groups.** -/
structure Paired (s : SelectStatement) : Prop where
  limit_of_offset : s.offset ≠ none → s.limit ≠ none
  limit_of_stage : s.stage = .limit → s.limit ≠ none
  grouping_of_having : s.having ≠ none → s.grouping ≠ []
  grouping_of_stage : s.stage = .groupBy → s.grouping ≠ []

theorem Stage.eq_of_offset_mem {stage : Stage} (h : .offset ∈ stage.allowed) : stage = .limit := by
  revert h
  cases stage <;> decide

theorem Paired.apply (hs : s.Paired) (h : s.apply c = .ok s') : s'.Paired := by
  obtain ⟨hoffset, -, hhaving, -⟩ := id hs
  obtain ⟨hallowed, hgives⟩ := apply_eq_ok_iff.mp h
  cases hgives with
  | filter _ => exact ⟨hoffset, nofun, hhaving, nofun⟩
  | groupBy hcolumns =>
    have hne := (ColumnList.given_of_toTexts hcolumns).2
    exact ⟨hoffset, nofun, fun _ => hne, fun _ => hne⟩
  | having _ =>
    have hne := hs.grouping_of_stage (Stage.eq_of_having_mem hallowed)
    exact ⟨hoffset, nofun, fun _ => hne, nofun⟩
  | orderBy _ => exact ⟨hoffset, nofun, hhaving, nofun⟩
  | limit => exact ⟨fun _ => nofun, fun _ => nofun, hhaving, nofun⟩
  | offset =>
    have hne := hs.limit_of_stage (Stage.eq_of_offset_mem hallowed)
    exact ⟨fun _ => hne, nofun, hhaving, nofun⟩
  | lockShared _ => exact ⟨hoffset, nofun, hhaving, nofun⟩
  | lockExclusive _ => exact ⟨hoffset, nofun, hhaving, nofun⟩
  | bind _ => exact ⟨hoffset, nofun, hhaving, nofun⟩

theorem paired_start {x : Start} (h : Builder.start x = .ok s) : s.Paired := by
  obtain ⟨table, projection, rfl⟩ := exists_of_start h
  exact ⟨fun h => absurd rfl h, nofun, fun h => absurd rfl h, nofun⟩

theorem paired_of_reachable (h : Builder.Reachable s) : s.Paired := by
  refine h.induction (fun _ _ => paired_start) (fun _ _ _ hs => hs.apply) ?_
  intro s _ hs _
  exact ⟨hs.limit_of_offset, nofun, hs.grouping_of_having, nofun⟩

/-! #### Compiling -/

/-- Where rows are skipped only under a limit, the two clauses may be written one by one. -/
theorem Paired.limitClause_eq (h : s.Paired) :
    s.limitClause = Clause.limit s.limit ++ Clause.count " OFFSET " s.offset := by
  rw [limitClause]
  cases hlimit : s.limit with
  | some n => rfl
  | none =>
    have hoffset : s.offset = none := by
      refine Classical.byContradiction fun hne => ?_
      exact h.limit_of_offset hne hlimit
    rw [hoffset]
    rfl

theorem written_lock {context : String} {b : Bindings} {args : List Clause.Argument}
    (h : lastOf .lock args = s.lock.map .lock) :
    Clause.written context b args .lock = .ok s.lockClause := by
  rw [lockClause]
  cases hlock : s.lock with
  | none =>
    rw [hlock] at h
    exact Clause.written_of_none h
  | some mode =>
    rw [hlock] at h
    rw [Clause.written_of_some h]
    simp only [Clause.Argument.toSql_eq_lockText]
    rfl

theorem Records.compile_eq {x : Start} {cs : List Call} (hs : Records x cs s) (hpaired : s.Paired) :
    s.compile = (outline x).compile (.ofPairs (cs.filterMap Call.binding?))
      (cs.filterMap Call.argument?) := by
  have h := hs.arguments
  rw [compile, fragment, Outline.compile_eq]
  simp only [outline, Outcome.ok_bind, List.mapM_cons, List.mapM_nil,
    Clause.written_filter hs.values (h .filter), Clause.written_groupBy (h .groupBy),
    Clause.written_having hs.values (h .having), Clause.written_orderBy (h .orderBy),
    Clause.written_limit (h .limit), Clause.written_offset (h .offset), written_lock (h .lock),
    hpaired.limitClause_eq, hs.table, hs.projection]
  cases Clause.condition " WHERE " executeContext s.bindings s.filter with
  | error e => rfl
  | ok filter =>
    cases Clause.condition " HAVING " executeContext s.bindings s.having with
    | error e => rfl
    | ok having =>
      simp only [Outcome.ok_bind, pure_bind, Fragment.concat_cons, Fragment.concat_nil,
        Fragment.append_empty, Fragment.append_assoc, Fragment.ofText]

instance : Builder.Recorded SelectStatement Start Call where
  argument? := Call.argument?
  binding? := Call.binding?
  outline x _ := outline x
  Records := Records
  records_start _ _ := records_start
  records_apply _ _ _ _ _ _ hs h := hs.apply h
  records_executed _ _ _ hs :=
    ⟨hs.table, hs.projection, fun kind => by rw [hs.arguments]; cases kind <;> rfl, hs.values⟩
  compile_eq _ _ _ hreachable hs := hs.compile_eq (paired_of_reachable hreachable)
  kind_argument? c := by cases c <;> rfl
  kind_mem_clauses _ _ _ a _ := by
    show a.kind ∈ [Clause.Kind.filter, .groupBy, .having, .orderBy, .limit, .offset, .lock]
    cases a.kind <;> decide
  limit_of_offset x cs s hreachable hs h := by
    rw [hs.arguments] at h ⊢
    have hlimit := (paired_of_reachable hreachable).limit_of_offset
    exact Option.map_eq_none_iff.not.mpr (hlimit (Option.map_eq_none_iff.not.mp h))
  grouping_of_having x cs s hreachable hs h := by
    rw [hs.arguments] at h ⊢
    have hgrouping := (paired_of_reachable hreachable).grouping_of_having
    have hne := hgrouping (Option.map_eq_none_iff.not.mp h)
    exact ⟨s.grouping, hne, if_neg hne⟩

end SelectStatement

/-! ### Delete statements -/

namespace DeleteStatement

/-- What a call gives for a clause. -/
def Call.argument? : Call → Option Clause.Argument
  | .filter condition => some (.filter condition.given)
  | .orderBy criteria => some (.orderBy (criteria.given.map OrderCriterion.parse))
  | .limit count => some (.limit count)
  | .bind _ _ => none

/-- The name that a call binds, and its value. -/
def Call.binding? : Call → Option (String × Value)
  | .bind name value => some (name, value)
  | _ => none

/-- The head of a delete statement and the order of its clauses. -/
def outline (table : TableRef) : Outline where
  kind := .delete
  context := executeContext
  head _ := .ok ⟨"DELETE FROM " ++ table.toSql, []⟩
  clauses := [.filter, .orderBy, .limit]

/-- What the statement holds for a clause. -/
def argument (s : DeleteStatement) : Clause.Kind → Option Clause.Argument
  | .filter => s.filter.map fun t => .filter t.text
  | .orderBy => if s.ordering = [] then none else some (.orderBy s.ordering)
  | .limit => s.limit.map .limit
  | _ => none

/-- The statement holds what these calls gave. -/
structure Records (table : TableRef) (cs : List Call) (s : DeleteStatement) : Prop where
  table : s.table = table
  arguments : ∀ kind, lastOf kind (cs.filterMap Call.argument?) = s.argument kind
  values : s.bindings.Reads (cs.filterMap Call.binding?)

variable {s s' : DeleteStatement} {c : Call}

/-- **A call replaces its own clause and leaves the others.** -/
theorem Gives.argument_eq (h : Gives s c s') (kind : Clause.Kind) :
    s'.argument kind = (lastOf kind c.argument?.toList).or (s.argument kind) := by
  cases h with
  | filter h =>
    rw [Call.argument?, Condition.given_of_toText h]
    cases kind <;> rfl
  | orderBy h =>
    obtain ⟨hgiven, hne⟩ := given_of_orderCriteria h
    rw [Call.argument?, hgiven]
    cases kind with
    | orderBy => exact if_neg hne
    | _ => rfl
  | limit | bind => cases kind <;> rfl

theorem Gives.table_eq (h : Gives s c s') : s'.table = s.table := by
  cases h <;> rfl

theorem Gives.reads (h : Gives s c s') {cs : List Call}
    (hs : s.bindings.Reads (cs.filterMap Call.binding?)) :
    s'.bindings.Reads ((cs ++ [c]).filterMap Call.binding?) := by
  rw [List.filterMap_append]
  have hkept : s.bindings.Reads (cs.filterMap Call.binding? ++ []) := by
    rwa [List.append_nil]
  cases h with
  | filter _ => exact hkept.register _
  | orderBy _ => exact hkept
  | limit => exact hkept
  | bind hb => exact hs.bind hb

theorem Records.apply {table : TableRef} {cs : List Call} (hs : Records table cs s)
    (h : s.apply c = .ok s') : Records table (cs ++ [c]) s' := by
  obtain ⟨-, hgives⟩ := apply_eq_ok_iff.mp h
  refine ⟨hgives.table_eq.trans hs.table, fun kind => ?_, hgives.reads hs.values⟩
  rw [Clause.lastOf_filterMap_concat, hs.arguments, hgives.argument_eq]

theorem Records.compile_eq {table : TableRef} {cs : List Call} (hs : Records table cs s) :
    s.compile = (outline table).compile (.ofPairs (cs.filterMap Call.binding?))
      (cs.filterMap Call.argument?) := by
  have h := hs.arguments
  rw [compile, fragment, Outline.compile_eq]
  simp only [outline, Outcome.ok_bind, List.mapM_cons, List.mapM_nil,
    Clause.written_filter hs.values (h .filter), Clause.written_orderBy (h .orderBy),
    Clause.written_limit (h .limit), hs.table]
  cases Clause.condition " WHERE " executeContext s.bindings s.filter with
  | error e => rfl
  | ok filter =>
    simp only [Outcome.ok_bind, pure_bind, Fragment.concat_cons, Fragment.concat_nil,
      Fragment.append_empty, Fragment.append_assoc, Fragment.ofText]

instance : Builder.Recorded DeleteStatement TableRef Call where
  argument? := Call.argument?
  binding? := Call.binding?
  outline table _ := outline table
  Records := Records
  records_start _ _ h := by
    cases h
    exact ⟨rfl, fun kind => by cases kind <;> rfl, fun _ => rfl⟩
  records_apply _ _ _ _ _ _ hs h := hs.apply h
  records_executed _ _ _ hs :=
    ⟨hs.table, fun kind => by rw [hs.arguments]; cases kind <;> rfl, hs.values⟩
  compile_eq _ _ _ _ hs := hs.compile_eq
  kind_argument? c := by cases c <;> rfl
  kind_mem_clauses _ _ c a h := by
    show a.kind ∈ [Clause.Kind.filter, .orderBy, .limit]
    cases c <;> cases h <;> simp [Clause.Argument.kind]
  limit_of_offset _ _ _ _ hs h := absurd (hs.arguments .offset) h
  grouping_of_having _ _ _ _ hs h := absurd (hs.arguments .having) h

end DeleteStatement

/-! ### Update statements -/

namespace UpdateStatement

/-- The column that a call assigns to, and its value. -/
def Call.assignment? : Call → Option (String × Value)
  | .set column value => some (column, value)
  | _ => none

/-- What a call gives for a clause. -/
def Call.argument? : Call → Option Clause.Argument
  | .filter condition => some (.filter condition.given)
  | .orderBy criteria => some (.orderBy (criteria.given.map OrderCriterion.parse))
  | .limit count => some (.limit count)
  | .set _ _ | .bind _ _ => none

/-- The name that a call binds, and its value. -/
def Call.binding? : Call → Option (String × Value)
  | .bind name value => some (name, value)
  | _ => none

/-- An assignment as it is written: the quoted column, an equals sign, and a marker for a value or,
in parentheses, an expression with its placeholders replaced. -/
def item (b : Bindings) (a : Assignment) : Except Error Fragment :=
  match a.value with
  | .expression sql => do
    let t ← Template.ofText executeContext sql
    let f ← t.render executeContext b
    return ⟨Sql.quoteIdentifier a.column ++ " = (" ++ f.sql ++ ")", f.params⟩
  | v => .ok ⟨Sql.quoteIdentifier a.column ++ " = ?", [v]⟩

/-- The head of an update statement and the order of its clauses. -/
def outline (table : TableRef) (cs : List Call) : Outline where
  kind := .update
  context := executeContext
  head b :=
    let assignments := lastAssignments (cs.filterMap Call.assignment?)
    if assignments.isEmpty then .error (.invalidArgument executeContext .noAssignments)
    else do
      let items ← assignments.mapM (item b)
      return ⟨"UPDATE " ++ table.toSql ++ " SET " ++
        String.intercalate ", " (items.map Fragment.sql), items.flatMap Fragment.params⟩
  clauses := [.filter, .orderBy, .limit]

/-- What the statement holds for a clause. -/
def argument (s : UpdateStatement) : Clause.Kind → Option Clause.Argument
  | .filter => s.filter.map fun t => .filter t.text
  | .orderBy => if s.ordering = [] then none else some (.orderBy s.ordering)
  | .limit => s.limit.map .limit
  | _ => none

/-- The statement holds what these calls gave. -/
structure Records (table : TableRef) (cs : List Call) (s : UpdateStatement) : Prop where
  table : s.table = table
  assignments : s.assignments = lastAssignments (cs.filterMap Call.assignment?)
  arguments : ∀ kind, lastOf kind (cs.filterMap Call.argument?) = s.argument kind
  values : s.bindings.Reads (cs.filterMap Call.binding?)

variable {s s' : UpdateStatement} {c : Call}

theorem argument_assigned (s : UpdateStatement) (column : String) (value : Value)
    (kind : Clause.Kind) : (s.assigned column value).argument kind = s.argument kind := by
  rw [assigned]
  split <;> cases kind <;> rfl

/-! #### Values -/

/-- Nothing is bound before the last assignment, so that no assignment forgets a value. -/
def Unbound (s : UpdateStatement) : Prop :=
  s.stage = .update ∨ s.stage = .set → ∀ name, s.bindings.get? name = none

theorem Unbound.get?_assigned (hs : s.Unbound) (hallowed : .set ∈ s.operations) (column : String)
    (value : Value) (name : String) : (s.assigned column value).bindings.get? name = none := by
  have hnone := hs (Stage.eq_of_set_mem hallowed) name
  cases hassigns : s.assigns column with
  | true =>
    rw [bindings_assigned_of_assigns hassigns, Bindings.get?_retain, Bindings.get?_register, hnone,
      ite_self]
  | false => rw [assigned_of_not_assigns hassigns, Bindings.get?_register, hnone]

theorem unbound_of_reachable (h : Builder.Reachable s) : s.Unbound := by
  refine h.induction ?_ ?_ ?_
  · intro table s hs
    cases hs
    exact fun _ _ => rfl
  · intro s c s' hs h
    obtain ⟨hallowed, hgives⟩ := apply_eq_ok_iff.mp h
    cases hgives with
    | @set column value s₁ _ hassign =>
      obtain ⟨-, rfl⟩ := assign_eq_ok hassign
      exact fun _ => hs.get?_assigned hallowed column value
    | filter _ => exact nofun
    | orderBy _ => exact nofun
    | limit => exact nofun
    | bind _ => exact nofun
  · exact fun _ _ _ _ => nofun

/-! #### The record -/

/-- **A call replaces its own clause and leaves the others.** -/
theorem Gives.argument_eq (h : Gives s c s') (kind : Clause.Kind) :
    s'.argument kind = (lastOf kind c.argument?.toList).or (s.argument kind) := by
  cases h with
  | @set column value s₁ _ hassign =>
    obtain ⟨-, rfl⟩ := assign_eq_ok hassign
    exact argument_assigned s column value kind
  | filter h =>
    rw [Call.argument?, Condition.given_of_toText h]
    cases kind <;> rfl
  | orderBy h =>
    obtain ⟨hgiven, hne⟩ := given_of_orderCriteria h
    rw [Call.argument?, hgiven]
    cases kind with
    | orderBy => exact if_neg hne
    | _ => rfl
  | limit | bind => cases kind <;> rfl

theorem Gives.table_eq (h : Gives s c s') : s'.table = s.table := by
  cases h with
  | @set column value s₁ _ hassign =>
    obtain ⟨-, rfl⟩ := assign_eq_ok hassign
    exact table_assigned s column value
  | filter | orderBy | limit | bind => rfl

theorem Gives.assignments_eq (h : Gives s c s') {cs : List Call}
    (hs : s.assignments = lastAssignments (cs.filterMap Call.assignment?)) :
    s'.assignments = lastAssignments ((cs ++ [c]).filterMap Call.assignment?) := by
  rw [List.filterMap_append]
  have hkept : s.assignments = lastAssignments (cs.filterMap Call.assignment? ++ []) := by
    rwa [List.append_nil]
  cases h with
  | @set column value s₁ _ hassign =>
    obtain ⟨-, rfl⟩ := assign_eq_ok hassign
    exact assignments_assigned hs column value
  | filter | orderBy | limit | bind => exact hkept

theorem Gives.reads (h : Gives s c s') (hallowed : c.operation ∈ s.operations) (hs : s.Unbound)
    {cs : List Call} (hreads : s.bindings.Reads (cs.filterMap Call.binding?)) :
    s'.bindings.Reads ((cs ++ [c]).filterMap Call.binding?) := by
  rw [List.filterMap_append]
  have hkept : s.bindings.Reads (cs.filterMap Call.binding? ++ []) := by
    rwa [List.append_nil]
  cases h with
  | @set column value s₁ _ hassign =>
    obtain ⟨-, rfl⟩ := assign_eq_ok hassign
    intro name
    have hnone := hs (Stage.eq_of_set_mem hallowed) name
    exact (hs.get?_assigned hallowed column value name).trans (hnone.symm.trans (hkept name))
  | filter _ => exact hkept.register _
  | orderBy _ => exact hkept
  | limit => exact hkept
  | bind hb => exact hreads.bind hb

theorem Records.apply {table : TableRef} {cs : List Call} (hs : Records table cs s)
    (hunbound : s.Unbound) (h : s.apply c = .ok s') : Records table (cs ++ [c]) s' := by
  obtain ⟨hallowed, hgives⟩ := apply_eq_ok_iff.mp h
  refine ⟨hgives.table_eq.trans hs.table, hgives.assignments_eq hs.assignments, fun kind => ?_,
    hgives.reads hallowed hunbound hs.values⟩
  rw [Clause.lastOf_filterMap_concat, hs.arguments, hgives.argument_eq]

theorem assignment_congr {b b' : Bindings} (h : ∀ name, b.get? name = b'.get? name) :
    assignment b = assignment b' := by
  funext a
  rw [assignment, assignment, a.value.render_congr h executeContext]

theorem ofText_append_marker (text : String) (v : Value) :
    Fragment.ofText (text ++ " = ") ++ .marker v = ⟨text ++ " = ?", [v]⟩ := by
  have hsql : text ++ " = " ++ "?" = text ++ " = ?" := String.append_assoc
  exact congrArg (Fragment.mk · [v]) hsql

theorem ofText_append_parenthesize (text : String) (f : Fragment) :
    Fragment.ofText (text ++ " = ") ++ f.parenthesize =
      ⟨text ++ " = (" ++ f.sql ++ ")", f.params⟩ := by
  have hsql : text ++ " = " ++ "(" = text ++ " = (" := String.append_assoc
  refine Fragment.ext ?_ (Fragment.params_parenthesize f)
  rw [Fragment.sql_append, Fragment.sql_ofText, Fragment.sql_parenthesize, ← hsql]
  simp only [String.append_assoc]

/-- An assignment is written like that. -/
theorem assignment_eq_item (b : Bindings) : assignment b = item b := by
  funext a
  rw [assignment, item, Value.render.eq_def]
  cases a.value with
  | expression sql =>
    simp only
    cases Template.ofText executeContext sql with
    | error e => simp only [Outcome.error_bind]
    | ok t =>
      simp only [Outcome.ok_bind]
      cases t.render executeContext b with
      | error e => simp only [Outcome.error_bind]
      | ok f => simp only [Outcome.ok_bind, pure_bind, ofText_append_parenthesize]
  | _ => exact congrArg Except.ok (ofText_append_marker _ _)

/-- A text with fragments behind it. -/
theorem ofText_append_join (text separator : String) (fs : List Fragment) :
    Fragment.ofText text ++ Fragment.join separator fs =
      ⟨text ++ String.intercalate separator (fs.map Fragment.sql), fs.flatMap Fragment.params⟩ :=
  Fragment.ext (by rw [Fragment.sql_append, Fragment.sql_join]; rfl)
    (by rw [Fragment.params_append, Fragment.params_join]; rfl)

theorem Records.compile_eq {table : TableRef} {cs : List Call} (hs : Records table cs s) :
    s.compile = (outline table cs).compile (.ofPairs (cs.filterMap Call.binding?))
      (cs.filterMap Call.argument?) := by
  have h := hs.arguments
  rw [compile, fragment, Outline.compile_eq]
  simp only [outline, List.mapM_cons, List.mapM_nil, Clause.written_filter hs.values (h .filter),
    Clause.written_orderBy (h .orderBy), Clause.written_limit (h .limit), ← hs.table,
    ← hs.assignments, assignment_congr hs.values, assignment_eq_item]
  split
  next => rfl
  next =>
    cases s.assignments.mapM (item (.ofPairs (cs.filterMap Call.binding?))) with
    | error e => rfl
    | ok items =>
      cases Clause.condition " WHERE " executeContext s.bindings s.filter with
      | error e => rfl
      | ok filter =>
        simp only [Outcome.ok_bind, pure_bind, Fragment.concat_cons, Fragment.concat_nil,
          Fragment.append_empty, Fragment.append_assoc, ← ofText_append_join]

instance : Builder.Recorded UpdateStatement TableRef Call where
  argument? := Call.argument?
  binding? := Call.binding?
  outline := outline
  Records := Records
  records_start _ _ h := by
    cases h
    exact ⟨rfl, rfl, fun kind => by cases kind <;> rfl, fun _ => rfl⟩
  records_apply _ _ _ _ _ hreachable hs h := hs.apply (unbound_of_reachable hreachable) h
  records_executed _ _ _ hs := by
    refine ⟨hs.table, hs.assignments, fun kind => ?_, hs.values⟩
    rw [hs.arguments]
    cases kind <;> rfl
  compile_eq _ _ _ _ hs := hs.compile_eq
  kind_argument? c := by cases c <;> rfl
  kind_mem_clauses _ _ c a h := by
    show a.kind ∈ [Clause.Kind.filter, .orderBy, .limit]
    cases c <;> cases h <;> simp [Clause.Argument.kind]
  limit_of_offset _ _ _ _ hs h := absurd (hs.arguments .offset) h
  grouping_of_having _ _ _ _ hs h := absurd (hs.arguments .having) h

end UpdateStatement

/-! ### All three -/

namespace Builder

/-- **Every new statement follows its history.** -/
theorem statements_follow_history :
    (∀ (x : SelectStatement.Start) (s : SelectStatement), start x = .ok s → FollowsHistory x s) ∧
    (∀ table : TableRef, FollowsHistory table (UpdateStatement.ofTable table)) ∧
    (∀ table : TableRef, FollowsHistory table (DeleteStatement.ofTable table)) := by
  refine ⟨?_, ?_, ?_⟩
  · intro x s h
    refine followsHistory_of_start h ?_
    show ∀ op ∈ _, SelectStatement.grammar.most op ≤ 1
    decide
  · intro table
    refine followsHistory_of_start (x := table) rfl ?_
    show ∀ op ∈ _, UpdateStatement.grammar.most op ≤ 1
    decide
  · intro table
    refine followsHistory_of_start (x := table) rfl ?_
    show ∀ op ∈ _, DeleteStatement.grammar.most op ≤ 1
    decide

/-- A blank filter, a filter of groups where there are none and a failed execution leave no trace,
nor do an early filter of an update statement, a limit that comes too late and the first of two
assignments to a column. -/
theorem statements_follow_history_of_refusals :
    (compile (after (SelectStatement.all ⟨"", "t"⟩) [.call (.filter (.text "")),
        .call (.filter (.text "a = :x")), .call (.having (.text "h")),
        .call (.orderBy (.texts ["b desc", "c"])), .call (.limit 5), .call (.offset 2),
        .call (.lockExclusive (.text "nowait")), .call (.bind "x" .null),
        .execute (.error .sessionClosed), .call (.bind "x" (.bigint 1))]) =
      reference SelectStatement (.all ⟨"", "t"⟩)
        [.filter (.text "a = :x"), .orderBy (.texts ["b desc", "c"]), .limit 5, .offset 2,
          .lockExclusive (.text "nowait"), .bind "x" .null, .bind "x" (.bigint 1)] ∧
      reference SelectStatement (.all ⟨"", "t"⟩)
        [.filter (.text "a = :x"), .orderBy (.texts ["b desc", "c"]), .limit 5, .offset 2,
          .lockExclusive (.text "nowait"), .bind "x" .null, .bind "x" (.bigint 1)] =
        .ok ⟨.select, "SELECT * FROM `t` WHERE a = ? ORDER BY b DESC, c ASC LIMIT 5 OFFSET 2 " ++
          "FOR UPDATE NOWAIT", [.bigint 1]⟩) ∧
    (compile (after (UpdateStatement.ofTable ⟨"", "t"⟩) [.call (.filter (.text "f")),
        .call (.set "a" .null), .call (.set "b" (.expression "b + :x")),
        .call (.set "a" (.bigint 1)), .call (.bind "x" (.bigint 2)), .call (.limit 1),
        .execute (.ok (.done 1 none)), .call (.limit 3)]) =
      reference UpdateStatement ⟨"", "t"⟩
        [.set "a" .null, .set "b" (.expression "b + :x"), .set "a" (.bigint 1),
          .bind "x" (.bigint 2), .limit 3] ∧
      reference UpdateStatement ⟨"", "t"⟩
        [.set "a" .null, .set "b" (.expression "b + :x"), .set "a" (.bigint 1),
          .bind "x" (.bigint 2), .limit 3] =
        .ok ⟨.update, "UPDATE `t` SET `a` = ?, `b` = (b + ?) LIMIT 3",
          [.bigint 1, .bigint 2]⟩) ∧
    (compile (after (DeleteStatement.ofTable ⟨"", "t"⟩) [.call (.filter (.text "f")),
        .execute (.ok (.done 1 none)), .call (.limit 1), .call (.filter (.text "g"))]) =
      reference DeleteStatement ⟨"", "t"⟩ [.filter (.text "f"), .limit 1] ∧
      reference DeleteStatement ⟨"", "t"⟩ [.filter (.text "f"), .limit 1] =
        .ok ⟨.delete, "DELETE FROM `t` WHERE f LIMIT 1", []⟩) := by
  obtain ⟨select, update, delete⟩ := statements_follow_history
  refine ⟨⟨?_, by rfl⟩, ⟨?_, by rfl⟩, ⟨?_, by rfl⟩⟩
  · exact (select (.all ⟨"", "t"⟩) (.all ⟨"", "t"⟩) rfl).compile_eq _
  · exact (update ⟨"", "t"⟩).compile_eq _
  · exact (delete ⟨"", "t"⟩).compile_eq _

end Builder

end TableSql
