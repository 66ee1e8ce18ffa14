import TableSql.Proofs.Builder.Lockstep
import TableSql.Proofs.Statement.Recorded

/-!
# Assigning to a column again

An assignment to a column that has one replaces it in place and forgets the names that nothing else
refers to. The names that both the old value and another column refer to stay, and those that the
new value brings come last. So in the end the names may stand in another order than if each column
had been assigned to once. This order is all that is left of a replaced assignment, and it shows in
nothing but reports of missing values.

Two statements that differ in the order of their names are kept in lockstep by every call, as calls
ask only which names there are. What remains is that assigning once gives the same assignments, and
the names that belong to these are known.

## Main definitions

* `UpdateStatement.Alike` — statements that differ in the order of their names
* `UpdateStatement.sets` — calls that assign one after another
* `UpdateStatement.LeavesNoTrace` — what such calls come to, and that nothing else is left of them

## Main results

* `UpdateStatement.lockstep_alike` — no call tells such statements apart
* `UpdateStatement.accepted_sets_iff` — each assignment is accepted or refused for itself
* `UpdateStatement.reassignments_leave_no_trace` — replaced assignments leave no trace
-/

namespace TableSql.UpdateStatement

open Builder (Step accepted after outcome)

variable {s t : UpdateStatement} {table : TableRef} {pairs : List (String × Value)}
  {column context : String} {value : Value}

/-! ### Names in another order -/

/-- The statements differ in the order of their names, and in nothing else. -/
inductive Alike (s : UpdateStatement) : UpdateStatement → Prop where
  | mk {b : Bindings} : s.bindings.Alike b → Alike s { s with bindings := b }

namespace Alike

theorem bindings (h : Alike s t) : s.bindings.Alike t.bindings := by
  obtain ⟨hb⟩ := h
  exact hb

theorem reassign (h : Alike s t) (context column : String) (value : Value) :
    Outcome.Related Alike (s.reassign context column value) (t.reassign context column value) := by
  obtain ⟨hb⟩ := h
  -- the names in use are those of the assignments and of the filter, whatever the bindings
  exact .bind (UpdateStatement.namesInUse
    { s with assignments := s.assignments.map (Assignment.replaced column value) } context)
    fun used _ => .ok (.mk (hb.retain used))

theorem assign (h : Alike s t) (context column : String) (value : Value) :
    Outcome.Related Alike (s.assign context column value) (t.assign context column value) := by
  cases h with
  | @mk b hb =>
    refine .bind (value.scanNames context) fun names _ => ?_
    have hregistered : Alike { s with bindings := s.bindings.register names }
        { s with bindings := b.register names } := .mk (hb.register names)
    show Outcome.Related Alike
      (if s.assigns column then
        UpdateStatement.reassign { s with bindings := s.bindings.register names } _ _ _
        else .ok (assignNew { s with bindings := s.bindings.register names } _ _))
      (if s.assigns column then
        UpdateStatement.reassign { s with bindings := b.register names } _ _ _
        else .ok (assignNew { s with bindings := b.register names } _ _))
    split
    next => exact hregistered.reassign context column value
    next => exact .ok (.mk (hb.register names))

theorem perform (h : Alike s t) (context : String) (c : Call) :
    Outcome.Related Alike (s.perform context c) (t.perform context c) := by
  cases c with
  | set column value =>
    rw [UpdateStatement.perform, UpdateStatement.perform]
    split
    next => exact .error _
    next => exact h.assign context column value
  | filter condition =>
    obtain ⟨hb⟩ := h
    exact .bind _ fun text _ => .bind _ fun filter _ => .ok (.mk (hb.register filter.names))
  | orderBy criteria =>
    obtain ⟨hb⟩ := h
    exact .bind _ fun ordering _ => .ok (.mk hb)
  | limit count =>
    obtain ⟨hb⟩ := h
    exact .ok (.mk hb)
  | bind name value =>
    obtain ⟨hb⟩ := h
    rw [UpdateStatement.perform, UpdateStatement.perform, Bindings.bind, Bindings.bind]
    rcases hb.bind name value with ⟨hs, ht⟩ | ⟨c, c', hs, ht, hc⟩
    · simp only [hs, ht]
      exact .error _
    · simp only [hs, ht]
      exact .ok (.mk hc)

theorem apply (h : Alike s t) (c : Call) : Outcome.Related Alike (s.apply c) (t.apply c) := by
  have hoperations : t.operations = s.operations := by
    obtain ⟨hb⟩ := h
    rfl
  rw [UpdateStatement.apply, UpdateStatement.apply, hoperations]
  by_cases hallowed : c.operation ∈ s.operations
  · rw [Operation.guarded_of_mem hallowed, Operation.guarded_of_mem hallowed]
    rcases (h.perform (c.operation.context title) c).cases with
      ⟨e, hs, ht⟩ | ⟨s', t', hs, ht, ⟨hb⟩⟩
    · rw [hs, ht]
      exact .error e
    · rw [hs, ht]
      exact .ok (.mk hb)
  · rw [Operation.guarded_of_not_mem hallowed, Operation.guarded_of_not_mem hallowed]
    exact .error _

theorem compile_eq (h : Alike s t) : s.compile = t.compile := by
  cases h with
  | @mk b hb =>
    have hassignment := assignment_congr hb.get?_eq
    have hfilter := Clause.condition_congr hb.get?_eq executeContext " WHERE " s.filter
    show (fragment s >>= _) = (fragment { s with bindings := b } >>= _)
    rw [fragment, fragment, hassignment, hfilter]

theorem prepareExecute_eq_ok_iff (h : Alike s t) (c : CompiledStatement) :
    s.prepareExecute = .ok c ↔ t.prepareExecute = .ok c := by
  have hcompile := h.compile_eq
  cases h with
  | @mk b hb =>
    have hmissing := hb.missing_eq_nil_iff
    simp only [prepareExecute, Operation.guarded_eq_ok_iff, Outcome.bind_eq_ok_iff,
      Bindings.ensureComplete_eq_ok_iff, hmissing, hcompile]
    rfl

end Alike

/-- **No call tells statements apart that differ in the order of their names.** -/
theorem lockstep_alike : Builder.Lockstep Alike where
  apply _ _ h := h.apply
  compile _ _ h := h.compile_eq
  prepareExecute _ _ h := h.prepareExecute_eq_ok_iff
  executed s t h := by
    obtain ⟨hb⟩ := h
    exact .mk hb

/-! ### Calls that assign -/

/-- Calls that assign values to columns, one after another. -/
def sets (pairs : List (String × Value)) : List (Step Call) :=
  pairs.map fun p => .call (.set p.1 p.2)

theorem sets_concat (pairs : List (String × Value)) (p : String × Value) :
    sets (pairs ++ [p]) = sets pairs ++ [.call (.set p.1 p.2)] :=
  List.map_append

/-- The column and the value of an assignment. -/
def Assignment.pair (a : Assignment) : String × Value :=
  (a.column, a.value)

/-- A call that assigns is told of a blank column, or else of a quote that the new value leaves
open. It is never told of what was assigned before. -/
theorem apply_set_eq_error_iff (h : s.Consistent) (hallowed : .set ∈ s.operations) {e : Error} :
    s.apply (.set column value) = .error e ↔
      Text.isBlank column = true ∧ e = .invalidArgument "TableUpdate.set" .blankColumn ∨
      Text.isBlank column = false ∧ ∃ sql u, value = .expression sql ∧
        Sql.placeholders? sql = .error u ∧
        e = .invalidArgument "TableUpdate.set" (.ofUnterminated u) := by
  have hcontext : Operation.set.context title = "TableUpdate.set" := rfl
  rw [apply_eq_error_iff hallowed, Call.operation, hcontext, perform]
  cases Text.isBlank column with
  | true => simp [eq_comm]
  | false =>
    rw [if_neg Bool.false_ne_true, assign_eq_error_iff (forall_scans_iff.mp h.fits.scans),
      Value.scanNames_eq_error_iff]
    simp

/-! ### Statements that only assign -/

/-- The statement after some assignments, but for its bindings. -/
def assigning (table : TableRef) (pairs : List (String × Value)) (bindings : Bindings) :
    UpdateStatement where
  table := table
  assignments := lastAssignments pairs
  bindings := bindings
  stage := if pairs = [] then .update else .set

theorem set_mem_operations_assigning (table : TableRef) (pairs : List (String × Value))
    (b : Bindings) : .set ∈ (assigning table pairs b).operations := by
  show Operation.set ∈ Stage.allowed (if pairs = [] then .update else .set)
  split <;> decide

theorem apply_assigning {b : Bindings}
    (h : (assigning table pairs b).apply (.set column value) = .ok s) :
    s = assigning table (pairs ++ [(column, value)]) s.bindings := by
  obtain ⟨-, hgives⟩ := apply_eq_ok_iff.mp h
  cases hgives with
  | @set _ _ s₁ _ hassign =>
    obtain ⟨-, rfl⟩ := assign_eq_ok hassign
    have hlast := assignments_assigned (s := assigning table pairs b) rfl column value
    have hne : pairs ++ [(column, value)] ≠ [] :=
      List.append_ne_nil_of_right_ne_nil pairs (List.cons_ne_nil _ _)
    have hbehind : ∀ b', assigning table (pairs ++ [(column, value)]) b' =
        { table := table
          assignments := ((assigning table pairs b).assigned column value).assignments
          bindings := b'
          stage := .set } := by
      intro b'
      rw [hlast, assigning, if_neg hne]
    rw [hbehind]
    exact congrArg ({ · with stage := Stage.set })
      (assigned_eq (assigning table pairs b) column value)

/-- **Accepted assignments lead to a statement that only assigns.** -/
theorem after_sets (h : accepted (ofTable table) (sets pairs) = sets pairs) :
    ∃ b, after (ofTable table) (sets pairs) = assigning table pairs b := by
  induction pairs using List.reverseRecOn with
  | nil => exact ⟨_, rfl⟩
  | append_singleton pairs p ih =>
    rw [sets_concat] at h
    obtain ⟨hpairs, hlast⟩ := Builder.accepted_concat_eq_self_iff.mp h
    obtain ⟨b, hb⟩ := ih hpairs
    have hstep := Builder.apply_of_ok hlast
    rw [hb] at hstep
    rw [sets_concat, Builder.after_concat, hb]
    exact ⟨_, apply_assigning hstep⟩

/-- Each assignment is accepted or refused for itself. -/
theorem accepted_sets_iff : accepted (ofTable table) (sets pairs) = sets pairs ↔
    ∀ p ∈ pairs, Text.isBlank p.1 = false ∧ p.2.Scans := by
  have hstart : Builder.Reachable (ofTable table) := .start (x := table) rfl
  induction pairs using List.reverseRecOn with
  | nil => exact iff_of_true rfl fun _ h => absurd h List.not_mem_nil
  | append_singleton pairs p ih =>
    rw [sets_concat, Builder.accepted_concat_eq_self_iff, List.forall_mem_append,
      List.forall_mem_singleton]
    refine Iff.trans (and_congr_right fun hpairs => ?_) (and_congr_left' ih)
    obtain ⟨b, hb⟩ := after_sets hpairs
    have hallowed : .set ∈ (after (ofTable table) (sets pairs)).operations := by
      rw [hb]
      exact set_mem_operations_assigning table pairs b
    have hconsistent := consistent_of_reachable (Builder.reachable_after hstart (sets pairs))
    rw [← exists_apply_set_iff hconsistent hallowed]
    exact Outcome.map_eq_ok_iff.trans (exists_congr fun _ => and_iff_left rfl)

/-! ### Replaced assignments -/

/-- The assignments of a statement, as calls on a new one. -/
def once (s : UpdateStatement) : List (Step Call) :=
  sets (s.assignments.map Assignment.pair)

/-- **Nothing is left of replaced assignments.** The statement holds each column at the place where
it was first assigned to, with the value that was assigned to it last. Assigning just these leads to
a statement that nothing tells apart from it, and the two refer to the same names, whatever steps
come next. -/
structure LeavesNoTrace (table : TableRef) (pairs : List (String × Value)) (s : UpdateStatement) :
    Prop where
  columns : s.assignments.map Assignment.column = (pairs.map Prod.fst).eraseDups
  nodup : (s.assignments.map Assignment.column).Nodup
  last : ∀ a ∈ s.assignments, ∃ earlier later,
    pairs = earlier ++ (a.column, a.value) :: later ∧ a.column ∉ later.map Prod.fst
  once_accepted : accepted (ofTable table) s.once = s.once
  indistinct : Builder.Indistinct s (after (ofTable table) s.once)
  mem_referenced_iff : ∀ steps name, name ∈ (after s steps).bindings.referenced ↔
    name ∈ (after (after (ofTable table) s.once) steps).bindings.referenced

/-- The names that are referred to follow from the assignments, but for their order. -/
theorem alike_of_assigning {pairs' : List (String × Value)} {b b' : Bindings}
    (hs : Builder.Reachable (assigning table pairs b))
    (ht : Builder.Reachable (assigning table pairs' b'))
    (hlast : lastAssignments pairs' = lastAssignments pairs) (hnil : pairs' = [] ↔ pairs = []) :
    Alike (assigning table pairs b) (assigning table pairs' b') := by
  have heq : assigning table pairs' b' = { assigning table pairs b with bindings := b' } := by
    rw [assigning, assigning, hlast]
    simp only [hnil]
  have hstage := Stage.eq_of_set_mem (set_mem_operations_assigning table pairs b)
  have hunbound := unbound_of_reachable hs hstage
  have hfits := (consistent_of_reachable hs).fits
  rw [heq] at ht ⊢
  have hunbound' := unbound_of_reachable ht hstage
  have hfits' := (consistent_of_reachable ht).fits
  refine .mk ⟨fun name => ?_, fun name => (hunbound name).trans (hunbound' name).symm⟩
  exact (hfits.mem_referenced_iff name).trans (hfits'.mem_referenced_iff name).symm

theorem leavesNoTrace_of_accepted (h : accepted (ofTable table) (sets pairs) = sets pairs) :
    LeavesNoTrace table pairs (after (ofTable table) (sets pairs)) := by
  have hstart : Builder.Reachable (ofTable table) := .start (x := table) rfl
  have hreachable := Builder.reachable_after hstart (sets pairs)
  obtain ⟨b, hb⟩ := after_sets h
  rw [hb] at hreachable ⊢
  have hcolumns := columns_lastAssignments pairs
  have hnodup := (consistent_of_reachable hreachable).columns
  -- the calls that assign once take each value from a call that was accepted
  have hlast : ∀ a ∈ lastAssignments pairs, _ := fun a => exists_append_of_mem_lastAssignments
  have honce : accepted (ofTable table) (assigning table pairs b).once =
      (assigning table pairs b).once := by
    refine accepted_sets_iff.mpr (List.forall_mem_map.mpr fun a ha => ?_)
    obtain ⟨earlier, later, heq, -⟩ := hlast a ha
    exact accepted_sets_iff.mp h (a.column, a.value) (heq ▸ List.mem_append_cons_self)
  obtain ⟨b', hb'⟩ := after_sets honce
  have hreachable' := Builder.reachable_after hstart (assigning table pairs b).once
  have halike : Alike (assigning table pairs b)
      (after (ofTable table) (assigning table pairs b).once) := by
    rw [once, hb'] at hreachable' ⊢
    refine alike_of_assigning hreachable hreachable' ?_ ?_
    · rw [lastAssignments_of_nodup (by rwa [List.map_map]), List.map_map]
      exact List.map_id _
    · rw [List.map_eq_nil_iff]
      exact lastAssignments_eq_nil_iff
  refine ⟨hcolumns, hnodup, hlast, honce, lockstep_alike.indistinct halike, fun steps name => ?_⟩
  exact (lockstep_alike.after halike steps).bindings.mem_referenced_iff name

/-- **Replaced assignments leave no trace**, and a call that assigns is not told of them. -/
theorem reassignments_leave_no_trace :
    (∀ table pairs, accepted (ofTable table) (sets pairs) = sets pairs →
      LeavesNoTrace table pairs (after (ofTable table) (sets pairs))) ∧
    ∀ s : UpdateStatement, Builder.Reachable s → .set ∈ s.operations → ∀ column value e,
      s.apply (.set column value) = .error e ↔
        Text.isBlank column = true ∧ e = .invalidArgument "TableUpdate.set" .blankColumn ∨
        Text.isBlank column = false ∧ ∃ sql u, value = .expression sql ∧
          Sql.placeholders? sql = .error u ∧
          e = .invalidArgument "TableUpdate.set" (.ofUnterminated u) := by
  refine ⟨fun table pairs => leavesNoTrace_of_accepted, fun s hs hallowed column value e => ?_⟩
  exact apply_set_eq_error_iff (consistent_of_reachable hs) hallowed

/-- The replaced expression shares a name with one that stays, and so does the new one. The names
stand in another order than if each column had been assigned to once. A quote that is left open is
refused. -/
theorem reassignments_leave_no_trace_of_shared_names :
    let pairs := [("a", .expression ":x"), ("b", .expression ":x+:y"), ("a", .expression ":y")]
    let s := after (ofTable ⟨"", "t"⟩) (sets pairs)
    s.once = sets [("a", .expression ":y"), ("b", .expression ":x+:y")] ∧
      s.bindings.referenced = ["x", "y"] ∧
      (after (ofTable ⟨"", "t"⟩) s.once).bindings.referenced = ["y", "x"] ∧
      LeavesNoTrace ⟨"", "t"⟩ pairs s ∧
      s.apply (.set "a" (.expression "'")) =
        .error (.invalidArgument "TableUpdate.set" (.unterminatedString 0)) := by
  have hstart : Builder.Reachable (ofTable ⟨"", "t"⟩) := .start (x := ⟨"", "t"⟩) rfl
  obtain ⟨hnoTrace, hset⟩ := reassignments_leave_no_trace
  intro pairs s
  have hallowed : Operation.set ∈ Stage.allowed .set := by decide
  refine ⟨rfl, rfl, rfl, hnoTrace ⟨"", "t"⟩ pairs rfl, ?_⟩
  exact (hset s (Builder.reachable_after hstart _) hallowed _ _ _).mpr
    (.inr ⟨rfl, "'", _, rfl, rfl, rfl⟩)

end TableSql.UpdateStatement
