import TableSql.Proofs.Bindings
import TableSql.Proofs.Builder.Statements
import TableSql.Proofs.Statement.Assign
import TableSql.Proofs.Statement.Binding
import TableSql.Proofs.Statement.Calls

/-!
# The placeholders of a statement

A name enters the bindings with the expression that refers to it. In select and delete statements
it stays, as an expression is never replaced there: the stages see to it that each is given once.
In an update statement an assignment may be replaced, and then the names go that no other
expression refers to.

## Main definitions

* `SelectStatement.expressions`, `DeleteStatement.expressions` — the texts of the stored
  expressions, in the order of their clauses
* `Bindings.Fits` — bindings for exactly the placeholders of some expressions
* `SelectStatement.Consistent`, `UpdateStatement.Consistent`, `DeleteStatement.Consistent` — the
  invariants

## Main results

* `SelectStatement.consistent_of_reachable`, `UpdateStatement.consistent_of_reachable`,
  `DeleteStatement.consistent_of_reachable`
* `Builder.bindings_fit` — a reachable statement's bindings are for the placeholders of its stored
  expressions, and it takes a value for those and no others
-/

namespace TableSql

/-- **The bindings are for the placeholders of these expressions.** -/
structure Bindings.Fits (b : Bindings) (expressions : List String) : Prop where
  /-- No name is there twice. -/
  nodup : b.referenced.Nodup
  /-- The names are those that occur. -/
  mem_referenced_iff : ∀ name, name ∈ b.referenced ↔ ∃ text ∈ expressions, name ∈ Sql.names text
  /-- Only these names have values. -/
  mem_of_get? : ∀ name value, b.get? name = some value → name ∈ b.referenced
  /-- The expressions leave no quote open. -/
  scans : ∀ text ∈ expressions, Sql.Scans text

namespace Bindings

variable {b : Bindings} {expressions : List String}

theorem fits_of_eraseDups (h : b.referenced = (expressions.flatMap Sql.names).eraseDups)
    (hscoped : b.Scoped) (hscans : ∀ text ∈ expressions, Sql.Scans text) : b.Fits expressions where
  nodup := nodup_of_eraseDups h
  mem_referenced_iff name := by rw [h, List.mem_eraseDups, List.mem_flatMap]
  mem_of_get? := hscoped
  scans := hscans

theorem Fits.mem_names_iff (h : b.Fits expressions) {name : String} :
    name ∈ b.referenced ↔ name ∈ expressions.flatMap Sql.names := by
  rw [h.mem_referenced_iff, List.mem_flatMap]

/-- A value may be bound to the names that occur, and to no others. -/
theorem Fits.exists_bind_iff (h : b.Fits expressions) {name : String} {value : Value} :
    (∃ b', b.bind? name value = some b') ↔ ∃ text ∈ expressions, name ∈ Sql.names text := by
  rw [← h.mem_referenced_iff, ← bind?_isSome_iff, Option.isSome_iff_exists]

/-- Binding a value leaves the names as they are. -/
theorem Fits.bind (h : b.Fits expressions) {b' : Bindings} {name : String} {value : Value}
    (hbind : b.bind? name value = some b') : b'.Fits expressions := by
  have hreferenced := referenced_bind hbind
  refine ⟨?_, fun other => ?_, Scoped.bind h.mem_of_get? hbind, h.scans⟩
  · rw [hreferenced]
    exact h.nodup
  · rw [hreferenced]
    exact h.mem_referenced_iff other

end Bindings

/-! ### Select statements -/

namespace SelectStatement

/-- The texts of the stored expressions. -/
def expressions (s : SelectStatement) : List String :=
  (s.filter.toList ++ s.having.toList).map Template.text

/-- The invariant of select statements. -/
structure Consistent (s : SelectStatement) : Prop where
  /-- The names are in order of first occurrence. -/
  referenced : s.bindings.referenced = (s.expressions.flatMap Sql.names).eraseDups
  /-- Only these names have values. -/
  values : s.bindings.Scoped
  /-- Nothing is filtered before the filter is given. -/
  filter_eq_none : s.stage = .select → s.filter = none
  /-- No groups are filtered before that filter is given. -/
  having_eq_none : s.stage = .select ∨ s.stage = .filter ∨ s.stage = .groupBy → s.having = none

variable {s s' : SelectStatement}

theorem Stage.eq_of_filter_mem {stage : Stage} (h : .filter ∈ stage.allowed) :
    stage = .select := by
  revert h
  cases stage <;> decide

theorem Stage.eq_of_groupBy_mem {stage : Stage} (h : .groupBy ∈ stage.allowed) :
    stage = .select ∨ stage = .filter := by
  revert h
  cases stage <;> decide

theorem Stage.eq_of_having_mem {stage : Stage} (h : .having ∈ stage.allowed) :
    stage = .groupBy := by
  revert h
  cases stage <;> decide

theorem consistent_start {x : Start} (h : Builder.start x = .ok s) : s.Consistent := by
  have hnew : s.bindings = .empty ∧ s.filter = none ∧ s.having = none := by
    cases x with
    | all table =>
      cases h
      exact ⟨rfl, rfl, rfl⟩
    | columns table columns =>
      have h : ofColumns table columns = .ok s := h
      rw [ofColumns] at h
      split at h
      next => cases h; exact ⟨rfl, rfl, rfl⟩
      next => cases h
  obtain ⟨hbindings, hfilter, hhaving⟩ := hnew
  refine ⟨?_, ?_, fun _ => hfilter, fun _ => hhaving⟩
  · rw [expressions, hbindings, hfilter, hhaving]
    rfl
  · rw [hbindings]
    exact Bindings.scoped_empty

theorem Consistent.apply (hs : s.Consistent) {c : Call} (h : s.apply c = .ok s') :
    s'.Consistent := by
  obtain ⟨hallowed, hgives⟩ := apply_eq_ok_iff.mp h
  cases hgives with
  | @filter condition t _ =>
    have hstage := Stage.eq_of_filter_mem hallowed
    have hhaving := hs.having_eq_none (.inl hstage)
    have hnone : s.bindings.referenced = ([] : List String).eraseDups := by
      rw [hs.referenced, expressions, hs.filter_eq_none hstage, hhaving]
      rfl
    refine ⟨?_, hs.values.register _, nofun, fun _ => hhaving⟩
    rw [Bindings.referenced_register_of_eraseDups hnone]
    simp [expressions, hhaving, t.names_text]
  | groupBy _ =>
    refine ⟨hs.referenced, hs.values, nofun, fun _ => hs.having_eq_none ?_⟩
    exact (Stage.eq_of_groupBy_mem hallowed).imp_right .inl
  | @having condition t _ =>
    have hhaving := hs.having_eq_none (.inr (.inr (Stage.eq_of_having_mem hallowed)))
    refine ⟨?_, hs.values.register _, nofun, nofun⟩
    rw [Bindings.referenced_register_of_eraseDups hs.referenced]
    simp [expressions, hhaving, t.names_text]
  | orderBy _ => exact ⟨hs.referenced, hs.values, nofun, nofun⟩
  | limit => exact ⟨hs.referenced, hs.values, nofun, nofun⟩
  | offset => exact ⟨hs.referenced, hs.values, nofun, nofun⟩
  | lockShared _ => exact ⟨hs.referenced, hs.values, nofun, nofun⟩
  | lockExclusive _ => exact ⟨hs.referenced, hs.values, nofun, nofun⟩
  | bind hb =>
    exact ⟨(Bindings.referenced_bind hb).trans hs.referenced, hs.values.bind hb, nofun, nofun⟩

/-- **Every reachable select statement is consistent.** -/
theorem consistent_of_reachable (h : Builder.Reachable s) : s.Consistent := by
  refine h.induction (fun _ _ => consistent_start) (fun _ _ _ hs => hs.apply) ?_
  intro s _ hs _
  exact ⟨hs.referenced, hs.values, nofun, nofun⟩

theorem Consistent.fits (h : s.Consistent) : s.bindings.Fits s.expressions := by
  refine Bindings.fits_of_eraseDups h.referenced h.values fun text htext => ?_
  obtain ⟨t, -, rfl⟩ := List.mem_map.mp htext
  exact t.scans_text

end SelectStatement

/-! ### Delete statements -/

namespace DeleteStatement

/-- The text of the stored expression. -/
def expressions (s : DeleteStatement) : List String :=
  s.filter.toList.map Template.text

/-- The invariant of delete statements. -/
structure Consistent (s : DeleteStatement) : Prop where
  /-- The names are in order of first occurrence. -/
  referenced : s.bindings.referenced = (s.expressions.flatMap Sql.names).eraseDups
  /-- Only these names have values. -/
  values : s.bindings.Scoped
  /-- Nothing is filtered before the filter is given. -/
  filter_eq_none : s.stage = .delete → s.filter = none

variable {s s' : DeleteStatement}

theorem Stage.eq_of_filter_mem {stage : Stage} (h : .filter ∈ stage.allowed) :
    stage = .delete := by
  revert h
  cases stage <;> decide

theorem consistent_start (table : TableRef) : (ofTable table).Consistent :=
  ⟨rfl, Bindings.scoped_empty, fun _ => rfl⟩

theorem Consistent.apply (hs : s.Consistent) {c : Call} (h : s.apply c = .ok s') :
    s'.Consistent := by
  obtain ⟨hallowed, hgives⟩ := apply_eq_ok_iff.mp h
  cases hgives with
  | @filter condition t _ =>
    have hnone : s.bindings.referenced = ([] : List String).eraseDups := by
      rw [hs.referenced, expressions, hs.filter_eq_none (Stage.eq_of_filter_mem hallowed)]
      rfl
    refine ⟨?_, hs.values.register _, nofun⟩
    rw [Bindings.referenced_register_of_eraseDups hnone]
    simp [expressions, t.names_text]
  | orderBy _ => exact ⟨hs.referenced, hs.values, nofun⟩
  | limit => exact ⟨hs.referenced, hs.values, nofun⟩
  | bind hb =>
    exact ⟨(Bindings.referenced_bind hb).trans hs.referenced, hs.values.bind hb, nofun⟩

/-- **Every reachable delete statement is consistent.** -/
theorem consistent_of_reachable (h : Builder.Reachable s) : s.Consistent := by
  refine h.induction ?_ (fun _ _ _ hs => hs.apply) ?_
  · intro table s hs
    cases hs
    exact consistent_start table
  · intro s _ hs _
    exact ⟨hs.referenced, hs.values, nofun⟩

theorem Consistent.fits (h : s.Consistent) : s.bindings.Fits s.expressions := by
  refine Bindings.fits_of_eraseDups h.referenced h.values fun text htext => ?_
  obtain ⟨t, -, rfl⟩ := List.mem_map.mp htext
  exact t.scans_text

end DeleteStatement

/-! ### Update statements -/

namespace UpdateStatement

/-- The invariant of update statements. -/
structure Consistent (s : UpdateStatement) : Prop where
  /-- The bindings are for the stored expressions. -/
  fits : s.bindings.Fits s.expressions
  /-- No column has two assignments. -/
  columns : (s.assignments.map Assignment.column).Nodup
  /-- Nothing is filtered before the filter is given. -/
  filter_eq_none : s.stage = .update ∨ s.stage = .set → s.filter = none
  /-- Only a new statement assigns nothing. -/
  assignments_ne_nil : s.stage ≠ .update → s.assignments ≠ []

variable {s s' : UpdateStatement}

theorem Stage.eq_of_filter_mem {stage : Stage} (h : .filter ∈ stage.allowed) : stage = .set := by
  revert h
  cases stage <;> decide

theorem Stage.eq_of_set_mem {stage : Stage} (h : .set ∈ stage.allowed) :
    stage = .update ∨ stage = .set := by
  revert h
  cases stage <;> decide

/-! #### Assigning -/

/-- An assignment brings its own names into use, and no others. -/
theorem mem_names_assigned {column name : String} {value : Value}
    (h : name ∈ (s.assigned column value).expressions.flatMap Sql.names) :
    name ∈ s.expressions.flatMap Sql.names ∨ name ∈ value.names := by
  rw [flatMap_names_expressions, filter_assigned] at h
  rw [flatMap_names_expressions]
  rcases List.mem_append.mp h with h | h
  · obtain ⟨a, ha, hname⟩ := List.mem_flatMap.mp h
    rcases mem_assignments_assigned ha with ⟨hold, -⟩ | rfl
    · exact .inl (List.mem_append_left _ (List.mem_flatMap.mpr ⟨a, hold, hname⟩))
    · exact .inr hname
  · exact .inl (List.mem_append_right _ h)

theorem mem_referenced_assigned (hs : s.bindings.Fits s.expressions) (column name : String)
    (value : Value) :
    name ∈ (s.assigned column value).bindings.referenced ↔
      name ∈ (s.assigned column value).expressions.flatMap Sql.names := by
  cases hassigns : s.assigns column with
  | true =>
    -- what is retained is what is in use, and that was registered before
    rw [bindings_assigned_of_assigns hassigns, Bindings.referenced_retain, List.mem_filter,
      Bindings.mem_referenced_register, hs.mem_names_iff]
    simp only [List.contains_eq_mem, decide_eq_true_eq, and_iff_right_iff_imp]
    exact mem_names_assigned
  | false =>
    rw [assigned_of_not_assigns hassigns, Bindings.mem_referenced_register, hs.mem_names_iff]
    simp only [flatMap_names_expressions, List.flatMap_append, List.mem_append,
      List.flatMap_singleton]
    exact or_right_comm

/-- Assigned expressions were scanned when they were assigned. -/
theorem scans_assigned (hs : ∀ text ∈ s.expressions, Sql.Scans text) {column : String}
    {value : Value} (hvalue : value.Scans) :
    ∀ text ∈ (s.assigned column value).expressions, Sql.Scans text := by
  refine forall_scans_iff.mpr fun a ha => ?_
  rcases mem_assignments_assigned ha with ⟨hold, -⟩ | rfl
  · exact forall_scans_iff.mp hs a hold
  · exact hvalue

theorem fits_assigned (hs : s.bindings.Fits s.expressions) {column : String} {value : Value}
    (hvalue : value.Scans) :
    (s.assigned column value).bindings.Fits (s.assigned column value).expressions := by
  refine ⟨?_, fun name => ?_, ?_, scans_assigned hs.scans hvalue⟩
  · cases hassigns : s.assigns column with
    | true =>
      rw [bindings_assigned_of_assigns hassigns]
      exact Bindings.nodup_retain (Bindings.nodup_register hs.nodup)
    | false =>
      rw [assigned_of_not_assigns hassigns]
      exact Bindings.nodup_register hs.nodup
  · rw [mem_referenced_assigned hs, List.mem_flatMap]
  · have hregistered := Bindings.Scoped.register hs.mem_of_get? value.names
    cases hassigns : s.assigns column with
    | true =>
      rw [bindings_assigned_of_assigns hassigns]
      exact hregistered.retain _
    | false =>
      rw [assigned_of_not_assigns hassigns]
      exact hregistered

/-- A filter brings its names behind those of the assignments. -/
theorem fits_filter (hs : s.bindings.Fits s.expressions) (hfilter : s.filter = none)
    (t : Template) :
    (s.bindings.register t.names).Fits (expressions { s with filter := some t }) := by
  refine ⟨Bindings.nodup_register hs.nodup, fun name => ?_,
    Bindings.Scoped.register hs.mem_of_get? t.names, ?_⟩
  · rw [Bindings.mem_referenced_register, hs.mem_names_iff, ← List.mem_flatMap]
    simp [flatMap_names_expressions, hfilter]
  · have hassigned := forall_scans_iff.mp hs.scans
    exact forall_scans_iff.mpr hassigned

/-! #### The invariant -/

/-- Wherever something other than an assignment is allowed, something was assigned before. -/
theorem Consistent.assignments_ne_nil_of_mem (hs : s.Consistent) {op : Operation}
    (h : op ∈ s.operations) (hne : op ≠ .set) : s.assignments ≠ [] := by
  refine hs.assignments_ne_nil ?_
  rintro hstage
  rw [operations, hstage] at h
  exact hne (List.mem_singleton.mp h)

theorem consistent_start (table : TableRef) : (ofTable table).Consistent where
  fits := Bindings.fits_of_eraseDups rfl Bindings.scoped_empty fun _ h => absurd h List.not_mem_nil
  columns := List.nodup_nil
  filter_eq_none _ := rfl
  assignments_ne_nil h := absurd rfl h

theorem Consistent.apply (hs : s.Consistent) {c : Call} (h : s.apply c = .ok s') :
    s'.Consistent := by
  obtain ⟨hallowed, hgives⟩ := apply_eq_ok_iff.mp h
  cases hgives with
  | @set column value s₁ _ hassign =>
    obtain ⟨hscans, rfl⟩ := assign_eq_ok hassign
    refine ⟨fits_assigned hs.fits hscans, columns_assigned hs.columns column value, fun _ => ?_,
      fun _ => ?_⟩
    · exact (filter_assigned s column value).trans
        (hs.filter_eq_none (Stage.eq_of_set_mem hallowed))
    · exact assignments_assigned_ne_nil s column value
  | @filter condition t _ =>
    have hfilter := hs.filter_eq_none (.inr (Stage.eq_of_filter_mem hallowed))
    have hassigned := hs.assignments_ne_nil_of_mem hallowed nofun
    exact ⟨fits_filter hs.fits hfilter t, hs.columns, nofun, fun _ => hassigned⟩
  | orderBy _ =>
    have hassigned := hs.assignments_ne_nil_of_mem hallowed nofun
    exact ⟨hs.fits, hs.columns, nofun, fun _ => hassigned⟩
  | limit =>
    have hassigned := hs.assignments_ne_nil_of_mem hallowed nofun
    exact ⟨hs.fits, hs.columns, nofun, fun _ => hassigned⟩
  | bind hb =>
    have hassigned := hs.assignments_ne_nil_of_mem hallowed nofun
    exact ⟨hs.fits.bind hb, hs.columns, nofun, fun _ => hassigned⟩

/-- **Every reachable update statement is consistent.** -/
theorem consistent_of_reachable (h : Builder.Reachable s) : s.Consistent := by
  refine h.induction ?_ (fun _ _ _ hs => hs.apply) ?_
  · intro table s hs
    cases hs
    exact consistent_start table
  · intro s c hs hc
    have hc : s.prepareExecute = .ok c := hc
    have hallowed : .execute ∈ s.operations := (Operation.guarded_eq_ok_iff.mp hc).1
    have hassigned := hs.assignments_ne_nil_of_mem hallowed nofun
    exact ⟨hs.fits, hs.columns, nofun, fun _ => hassigned⟩

/-- A value is assigned to a column with a name, unless it leaves a quote open. What was assigned
before does not matter. -/
theorem exists_apply_set_iff (h : s.Consistent) (hallowed : .set ∈ s.operations) (column : String)
    (value : Value) :
    (∃ s', s.apply (.set column value) = .ok s') ↔ Text.isBlank column = false ∧ value.Scans := by
  constructor
  · rintro ⟨s', hs'⟩
    obtain ⟨-, hgives⟩ := apply_eq_ok_iff.mp hs'
    cases hgives with
    | set hblank hassign => exact ⟨hblank, (assign_eq_ok hassign).1⟩
  · rintro ⟨hblank, hvalue⟩
    have hassigned := forall_scans_iff.mp h.fits.scans
    exact ⟨_, apply_eq_ok_iff.mpr ⟨hallowed, .set hblank (assign_of_scans hvalue hassigned)⟩⟩

end UpdateStatement

/-! ### All three -/

namespace Builder

/-- Where the bindings fit, values are taken for the names that occur, and for no others. -/
theorem exists_apply_bind_iff_of_fits {S Start Call : Type} [Builder S Start Call] [Named Call]
    [Guarded S Start Call] [Bindable S Start Call] {s : S} {expressions : List String}
    (h : (bindings s).Fits expressions) (hallowed : .bind ∈ operations s) (name : String)
    (value : Value) : (∃ s', apply s (Bindable.bind S name value) = .ok s') ↔
      ∃ text ∈ expressions, name ∈ Sql.names text :=
  (exists_apply_bind_iff hallowed name value).trans h.exists_bind_iff

/-- **The bindings of a reachable statement fit its stored expressions.** Calls may have been
accepted or refused in any order on the way. In select and delete statements the names are in the
order in which they first occur, and a value may be bound exactly where a stored expression has
the name. -/
theorem bindings_fit :
    (∀ s : SelectStatement, Reachable s → s.bindings.Fits s.expressions ∧
      s.bindings.referenced = (s.expressions.flatMap Sql.names).eraseDups ∧
      (.bind ∈ s.operations → ∀ name value,
        (∃ s', s.apply (.bind name value) = .ok s') ↔
          ∃ text ∈ s.expressions, name ∈ Sql.names text)) ∧
    (∀ s : UpdateStatement, Reachable s → s.bindings.Fits s.expressions ∧
      (.bind ∈ s.operations → ∀ name value,
        (∃ s', s.apply (.bind name value) = .ok s') ↔
          ∃ text ∈ s.expressions, name ∈ Sql.names text)) ∧
    (∀ s : DeleteStatement, Reachable s → s.bindings.Fits s.expressions ∧
      s.bindings.referenced = (s.expressions.flatMap Sql.names).eraseDups ∧
      (.bind ∈ s.operations → ∀ name value,
        (∃ s', s.apply (.bind name value) = .ok s') ↔
          ∃ text ∈ s.expressions, name ∈ Sql.names text)) := by
  refine ⟨?_, ?_, ?_⟩
  · intro s h
    have hs := SelectStatement.consistent_of_reachable h
    exact ⟨hs.fits, hs.referenced, exists_apply_bind_iff_of_fits (s := s) hs.fits⟩
  · intro s h
    have hs := UpdateStatement.consistent_of_reachable h
    exact ⟨hs.fits, exists_apply_bind_iff_of_fits (s := s) hs.fits⟩
  · intro s h
    have hs := DeleteStatement.consistent_of_reachable h
    exact ⟨hs.fits, hs.referenced, exists_apply_bind_iff_of_fits (s := s) hs.fits⟩

/-- A filter brings its placeholder, and so does an assigned expression, after a refused call. -/
theorem bindings_fit_of_filter :
    (∃ s', (after (SelectStatement.all ⟨"", "t"⟩) [.call (.filter (.text ":x"))]).apply
      (.bind "x" .null) = .ok s') ∧
    (∃ s', (after (UpdateStatement.ofTable ⟨"", "t"⟩)
      [.call (.filter (.text ":x")), .call (.set "a" (.expression ":x"))]).apply
      (.bind "x" .null) = .ok s') ∧
    (∃ s', (after (DeleteStatement.ofTable ⟨"", "t"⟩) [.call (.filter (.text ":x"))]).apply
      (.bind "x" .null) = .ok s') := by
  have hname : ∃ text ∈ [":x"], "x" ∈ Sql.names text := ⟨":x", by decide, List.mem_cons_self⟩
  have hselect : Reachable (SelectStatement.all ⟨"", "t"⟩) := .start (x := .all ⟨"", "t"⟩) rfl
  have hupdate : Reachable (UpdateStatement.ofTable ⟨"", "t"⟩) := .start (x := ⟨"", "t"⟩) rfl
  have hdelete : Reachable (DeleteStatement.ofTable ⟨"", "t"⟩) := .start (x := ⟨"", "t"⟩) rfl
  obtain ⟨select, update, delete⟩ := bindings_fit
  refine ⟨((select _ (reachable_after hselect _)).2.2 ?_ "x" .null).mpr hname,
    ((update _ (reachable_after hupdate _)).2 ?_ "x" .null).mpr hname,
    ((delete _ (reachable_after hdelete _)).2.2 ?_ "x" .null).mpr hname⟩
  · show Operation.bind ∈ SelectStatement.Stage.allowed .filter
    decide
  · show Operation.bind ∈ UpdateStatement.Stage.allowed .set
    decide
  · show Operation.bind ∈ DeleteStatement.Stage.allowed .filter
    decide

end Builder

end TableSql
