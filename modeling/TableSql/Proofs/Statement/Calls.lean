import TableSql.Proofs.Builder.Guarded
import TableSql.Proofs.Template

/-!
# What an accepted call does

A call is accepted if it is allowed at this point and its arguments are sound. Then it does one
thing to the statement. The relations here list these things, one constructor for each call, and
the theorems say that they are all that can happen. What is proved about accepted calls is proved
by cases on them.

## Main definitions

* `SelectStatement.Gives`, `InsertStatement.Gives`, `UpdateStatement.Gives`,
  `DeleteStatement.Gives` — the statement that a sound call makes

## Main results

* `SelectStatement.apply_eq_ok_iff`, `InsertStatement.apply_eq_ok_iff`,
  `UpdateStatement.apply_eq_ok_iff`, `DeleteStatement.apply_eq_ok_iff`
-/

namespace TableSql

/-! ### Parts of calls -/

theorem Bindings.bind_eq_ok_iff {b b' : Bindings} {context name : String} {value : Value} :
    b.bind context name value = .ok b' ↔ b.bind? name value = some b' := by
  rw [Bindings.bind]
  cases b.bind? name value <;> simp

/-! ### Select statements -/

namespace SelectStatement

/-- What a call that is allowed and sound makes of a statement. -/
inductive Gives (s : SelectStatement) : Call → SelectStatement → Prop where
  | filter {condition : Condition} {t : Template} :
    condition.toText (Operation.filter.context title) = .ok t.text →
    Gives s (.filter condition)
      { s with filter := some t, bindings := s.bindings.register t.names, stage := .filter }
  | groupBy {columns : ColumnList} {grouping : List String} :
    columns.toTexts (Operation.groupBy.context title) .grouping = .ok grouping →
    Gives s (.groupBy columns) { s with grouping, stage := .groupBy }
  | having {condition : Condition} {t : Template} :
    condition.toText (Operation.having.context title) = .ok t.text →
    Gives s (.having condition)
      { s with having := some t, bindings := s.bindings.register t.names, stage := .having }
  | orderBy {criteria : ColumnList} {ordering : List OrderCriterion} :
    orderCriteria (Operation.orderBy.context title) criteria = .ok ordering →
    Gives s (.orderBy criteria) { s with ordering, stage := .orderBy }
  | limit {count : UInt64} : Gives s (.limit count) { s with limit := some count, stage := .limit }
  | offset {count : UInt64} :
    Gives s (.offset count) { s with offset := some count, stage := .offset }
  | lockShared {mode : LockArgument} {contention : LockContention} :
    mode.toContention (Operation.lockShared.context title) = .ok contention →
    Gives s (.lockShared mode) { s with lock := some (.shared contention), stage := .lock }
  | lockExclusive {mode : LockArgument} {contention : LockContention} :
    mode.toContention (Operation.lockExclusive.context title) = .ok contention →
    Gives s (.lockExclusive mode) { s with lock := some (.exclusive contention), stage := .lock }
  | bind {name : String} {value : Value} {b : Bindings} :
    s.bindings.bind? name value = some b →
    Gives s (.bind name value) { s with bindings := b, stage := .bind }

theorem gives_of_perform {s s' : SelectStatement} {c : Call}
    (h : s.perform (c.operation.context title) c = .ok s') :
    Gives s c { s' with stage := c.stage } := by
  cases c with
  | filter condition =>
    obtain ⟨text, htext, h⟩ := Outcome.bind_eq_ok_iff.mp h
    obtain ⟨t, ht, h⟩ := Outcome.bind_eq_ok_iff.mp h
    cases h
    cases Template.ofText_eq_ok_iff.mp ht
    exact .filter htext
  | groupBy columns =>
    obtain ⟨_, hsound, h⟩ := Outcome.bind_eq_ok_iff.mp h
    cases h
    exact .groupBy hsound
  | having condition =>
    obtain ⟨text, htext, h⟩ := Outcome.bind_eq_ok_iff.mp h
    obtain ⟨t, ht, h⟩ := Outcome.bind_eq_ok_iff.mp h
    cases h
    cases Template.ofText_eq_ok_iff.mp ht
    exact .having htext
  | orderBy criteria =>
    obtain ⟨_, hsound, h⟩ := Outcome.bind_eq_ok_iff.mp h
    cases h
    exact .orderBy hsound
  | limit count =>
    cases h
    exact .limit
  | offset count =>
    cases h
    exact .offset
  | lockShared mode =>
    obtain ⟨_, hsound, h⟩ := Outcome.bind_eq_ok_iff.mp h
    cases h
    exact .lockShared hsound
  | lockExclusive mode =>
    obtain ⟨_, hsound, h⟩ := Outcome.bind_eq_ok_iff.mp h
    cases h
    exact .lockExclusive hsound
  | bind name value =>
    obtain ⟨_, hb, h⟩ := Outcome.bind_eq_ok_iff.mp h
    cases h
    exact .bind (Bindings.bind_eq_ok_iff.mp hb)

theorem Gives.map_perform {s s' : SelectStatement} {c : Call} (h : Gives s c s') :
    (s.perform (c.operation.context title) c).map ({ · with stage := c.stage }) = .ok s' := by
  cases h with
  | filter h =>
    rw [perform, Call.operation, h, Outcome.ok_bind, Template.ofText_text]
    rfl
  | groupBy h =>
    rw [perform, Call.operation, h]
    rfl
  | having h =>
    rw [perform, Call.operation, h, Outcome.ok_bind, Template.ofText_text]
    rfl
  | orderBy h =>
    rw [perform, Call.operation, h]
    rfl
  | limit | offset => rfl
  | lockShared h =>
    rw [perform, Call.operation, h]
    rfl
  | lockExclusive h =>
    rw [perform, Call.operation, h]
    rfl
  | bind h =>
    rw [perform, Bindings.bind_eq_ok_iff.mpr h]
    rfl

/-- **An accepted call is allowed and sound**, and does what the relation says. -/
theorem apply_eq_ok_iff {s s' : SelectStatement} {c : Call} :
    s.apply c = .ok s' ↔ c.operation ∈ s.operations ∧ Gives s c s' := by
  refine (Builder.apply_eq_ok_iff_made (s := s)).trans (and_congr_right fun _ => ?_)
  refine ⟨fun h => ?_, Gives.map_perform⟩
  obtain ⟨_, hperform, rfl⟩ := Outcome.map_eq_ok_iff.mp h
  exact gives_of_perform hperform

end SelectStatement

/-! ### Insert statements -/

namespace InsertStatement

/-- What a call that is allowed and sound makes of a statement. -/
inductive Gives (s : InsertStatement) : Call → InsertStatement → Prop where
  | values {row : List Value} :
    row ≠ [] → Gives s (.values row) { s with rows := s.rows ++ [row], stage := .values }

theorem gives_of_perform {s s' : InsertStatement} {c : Call}
    (h : s.perform (c.operation.context title) c = .ok s') :
    Gives s c { s' with stage := c.stage } := by
  cases c with
  | values row =>
    cases row with
    | nil => cases h
    | cons v row =>
      cases h
      exact .values (List.cons_ne_nil v row)

theorem Gives.map_perform {s s' : InsertStatement} {c : Call} (h : Gives s c s') :
    (s.perform (c.operation.context title) c).map ({ · with stage := c.stage }) = .ok s' := by
  cases h with
  | @values row hne =>
    cases row with
    | nil => exact absurd rfl hne
    | cons v row => rfl

/-- **An accepted call is allowed and sound**, and does what the relation says. -/
theorem apply_eq_ok_iff {s s' : InsertStatement} {c : Call} :
    s.apply c = .ok s' ↔ c.operation ∈ s.operations ∧ Gives s c s' := by
  refine (Builder.apply_eq_ok_iff_made (s := s)).trans (and_congr_right fun _ => ?_)
  refine ⟨fun h => ?_, Gives.map_perform⟩
  obtain ⟨_, hperform, rfl⟩ := Outcome.map_eq_ok_iff.mp h
  exact gives_of_perform hperform

/-- The columns bring no values. -/
theorem params_columnClause (s : InsertStatement) : s.columnClause.params = [] := by
  rw [columnClause]
  split <;> rfl

end InsertStatement

/-! ### Update statements -/

namespace UpdateStatement

/-- What a call that is allowed and sound makes of a statement. -/
inductive Gives (s : UpdateStatement) : Call → UpdateStatement → Prop where
  | set {column : String} {value : Value} {s₁ : UpdateStatement} :
    Text.isBlank column = false →
    s.assign (Operation.set.context title) column value = .ok s₁ →
    Gives s (.set column value) { s₁ with stage := .set }
  | filter {condition : Condition} {t : Template} :
    condition.toText (Operation.filter.context title) = .ok t.text →
    Gives s (.filter condition)
      { s with filter := some t, bindings := s.bindings.register t.names, stage := .filter }
  | orderBy {criteria : ColumnList} {ordering : List OrderCriterion} :
    orderCriteria (Operation.orderBy.context title) criteria = .ok ordering →
    Gives s (.orderBy criteria) { s with ordering, stage := .orderBy }
  | limit {count : UInt64} : Gives s (.limit count) { s with limit := some count, stage := .limit }
  | bind {name : String} {value : Value} {b : Bindings} :
    s.bindings.bind? name value = some b →
    Gives s (.bind name value) { s with bindings := b, stage := .bind }

theorem gives_of_perform {s s' : UpdateStatement} {c : Call}
    (h : s.perform (c.operation.context title) c = .ok s') :
    Gives s c { s' with stage := c.stage } := by
  cases c with
  | set column value =>
    rw [perform] at h
    split at h
    next => cases h
    next hblank => exact .set (Bool.eq_false_iff.mpr hblank) h
  | filter condition =>
    obtain ⟨text, htext, h⟩ := Outcome.bind_eq_ok_iff.mp h
    obtain ⟨t, ht, h⟩ := Outcome.bind_eq_ok_iff.mp h
    cases h
    cases Template.ofText_eq_ok_iff.mp ht
    exact .filter htext
  | orderBy criteria =>
    obtain ⟨_, hsound, h⟩ := Outcome.bind_eq_ok_iff.mp h
    cases h
    exact .orderBy hsound
  | limit count =>
    cases h
    exact .limit
  | bind name value =>
    obtain ⟨_, hb, h⟩ := Outcome.bind_eq_ok_iff.mp h
    cases h
    exact .bind (Bindings.bind_eq_ok_iff.mp hb)

theorem Gives.map_perform {s s' : UpdateStatement} {c : Call} (h : Gives s c s') :
    (s.perform (c.operation.context title) c).map ({ · with stage := c.stage }) = .ok s' := by
  cases h with
  | set hblank h =>
    rw [perform, hblank, if_neg Bool.false_ne_true, Call.operation, h]
    rfl
  | filter h =>
    rw [perform, Call.operation, h, Outcome.ok_bind, Template.ofText_text]
    rfl
  | orderBy h =>
    rw [perform, Call.operation, h]
    rfl
  | limit => rfl
  | bind h =>
    rw [perform, Bindings.bind_eq_ok_iff.mpr h]
    rfl

/-- **An accepted call is allowed and sound**, and does what the relation says. -/
theorem apply_eq_ok_iff {s s' : UpdateStatement} {c : Call} :
    s.apply c = .ok s' ↔ c.operation ∈ s.operations ∧ Gives s c s' := by
  refine (Builder.apply_eq_ok_iff_made (s := s)).trans (and_congr_right fun _ => ?_)
  refine ⟨fun h => ?_, Gives.map_perform⟩
  obtain ⟨_, hperform, rfl⟩ := Outcome.map_eq_ok_iff.mp h
  exact gives_of_perform hperform

/-- An allowed call that fails is not sound. -/
theorem apply_eq_error_iff {s : UpdateStatement} {c : Call} (h : c.operation ∈ s.operations)
    {e : Error} : s.apply c = .error e ↔ s.perform (c.operation.context title) c = .error e := by
  rw [apply, Operation.guarded_of_mem h]
  cases s.perform (c.operation.context title) c <;> simp

end UpdateStatement

/-! ### Delete statements -/

namespace DeleteStatement

/-- What a call that is allowed and sound makes of a statement. -/
inductive Gives (s : DeleteStatement) : Call → DeleteStatement → Prop where
  | filter {condition : Condition} {t : Template} :
    condition.toText (Operation.filter.context title) = .ok t.text →
    Gives s (.filter condition)
      { s with filter := some t, bindings := s.bindings.register t.names, stage := .filter }
  | orderBy {criteria : ColumnList} {ordering : List OrderCriterion} :
    orderCriteria (Operation.orderBy.context title) criteria = .ok ordering →
    Gives s (.orderBy criteria) { s with ordering, stage := .orderBy }
  | limit {count : UInt64} : Gives s (.limit count) { s with limit := some count, stage := .limit }
  | bind {name : String} {value : Value} {b : Bindings} :
    s.bindings.bind? name value = some b →
    Gives s (.bind name value) { s with bindings := b, stage := .bind }

theorem gives_of_perform {s s' : DeleteStatement} {c : Call}
    (h : s.perform (c.operation.context title) c = .ok s') :
    Gives s c { s' with stage := c.stage } := by
  cases c with
  | filter condition =>
    obtain ⟨text, htext, h⟩ := Outcome.bind_eq_ok_iff.mp h
    obtain ⟨t, ht, h⟩ := Outcome.bind_eq_ok_iff.mp h
    cases h
    cases Template.ofText_eq_ok_iff.mp ht
    exact .filter htext
  | orderBy criteria =>
    obtain ⟨_, hsound, h⟩ := Outcome.bind_eq_ok_iff.mp h
    cases h
    exact .orderBy hsound
  | limit count =>
    cases h
    exact .limit
  | bind name value =>
    obtain ⟨_, hb, h⟩ := Outcome.bind_eq_ok_iff.mp h
    cases h
    exact .bind (Bindings.bind_eq_ok_iff.mp hb)

theorem Gives.map_perform {s s' : DeleteStatement} {c : Call} (h : Gives s c s') :
    (s.perform (c.operation.context title) c).map ({ · with stage := c.stage }) = .ok s' := by
  cases h with
  | filter h =>
    rw [perform, Call.operation, h, Outcome.ok_bind, Template.ofText_text]
    rfl
  | orderBy h =>
    rw [perform, Call.operation, h]
    rfl
  | limit => rfl
  | bind h =>
    rw [perform, Bindings.bind_eq_ok_iff.mpr h]
    rfl

/-- **An accepted call is allowed and sound**, and does what the relation says. -/
theorem apply_eq_ok_iff {s s' : DeleteStatement} {c : Call} :
    s.apply c = .ok s' ↔ c.operation ∈ s.operations ∧ Gives s c s' := by
  refine (Builder.apply_eq_ok_iff_made (s := s)).trans (and_congr_right fun _ => ?_)
  refine ⟨fun h => ?_, Gives.map_perform⟩
  obtain ⟨_, hperform, rfl⟩ := Outcome.map_eq_ok_iff.mp h
  exact gives_of_perform hperform

end DeleteStatement

end TableSql
