import Mathlib.Data.List.Induction
import TableSql.Proofs.Fragment.Values
import TableSql.Proofs.Members
import TableSql.Statement.Update

/-!
# Assigning

Assigning to a column replaces its assignment where there is one, and adds one where there is none.
Replacing scans all stored expressions once more, for the names that are still referred to. Where
that succeeds, what it leaves depends on no error and no context, and is written here as a function.

## Main definitions

* `UpdateStatement.expressions` — the texts of the stored expressions
* `UpdateStatement.assigned` — the statement after an assignment that succeeds
* `UpdateStatement.lastAssignments` — what some assignments in a row come to

## Main results

* `UpdateStatement.assign_eq_ok`, `UpdateStatement.assign_of_scans` — an assignment that succeeds
* `UpdateStatement.assign_eq_error_iff` — an assignment fails with its new value
* `UpdateStatement.bindings_assigned_of_assigns`, `UpdateStatement.assigned_of_not_assigns` — the
  two cases
* `UpdateStatement.mem_assignments_assigned`, `UpdateStatement.columns_assigned` — what is assigned
  afterwards, each column once
* `UpdateStatement.assignments_assigned` — an assignment comes behind those that were made before
* `UpdateStatement.columns_lastAssignments`,
  `UpdateStatement.exists_append_of_mem_lastAssignments` — each column at its first place with its
  last value
-/

namespace TableSql.UpdateStatement

variable {s s' : UpdateStatement} {column context : String} {value : Value}

/-! ### Stored expressions -/

/-- The texts of the stored expressions: those of the assignments, and the filter. -/
def expressions (s : UpdateStatement) : List String :=
  s.assignments.filterMap (·.value.sql?) ++ s.filter.toList.map Template.text

theorem flatMap_names_expressions (s : UpdateStatement) :
    s.expressions.flatMap Sql.names =
      s.assignments.flatMap (·.value.names) ++ s.filter.toList.flatMap Template.names := by
  rw [expressions, List.flatMap_append, List.flatMap_map]
  simp only [Template.names_text, List.filterMap_eq_flatMap_toList, List.flatMap_assoc]
  rfl

theorem forall_scans_iff :
    (∀ text ∈ s.expressions, Sql.Scans text) ↔ ∀ a ∈ s.assignments, a.value.Scans := by
  constructor
  · intro h a ha sql hsql
    exact h sql (List.mem_append_left _ (List.mem_filterMap.mpr ⟨a, ha, hsql⟩))
  · intro h text htext
    rcases List.mem_append.mp htext with htext | htext
    · obtain ⟨a, ha, hsql⟩ := List.mem_filterMap.mp htext
      exact h a ha text hsql
    · obtain ⟨t, -, rfl⟩ := List.mem_map.mp htext
      exact t.scans_text

/-- The names in use are those of the stored expressions, if all of these scan. -/
theorem namesInUse_eq_ok {used : List String} (h : s.namesInUse context = .ok used) :
    used = s.expressions.flatMap Sql.names := by
  obtain ⟨names, hnames, h⟩ := Outcome.bind_eq_ok_iff.mp h
  cases h
  have hassigned : names.flatten = s.assignments.flatMap (·.value.names) := by
    rw [← List.flatMap_id]
    refine Outcome.flatMap_of_mapM hnames fun a names ha => ?_
    exact (Value.scanNames_eq_ok_iff.mp ha).2
  rw [hassigned, flatMap_names_expressions]
  cases s.filter <;> simp

theorem namesInUse_of_scans (h : ∀ a ∈ s.assignments, a.value.Scans) (context : String) :
    s.namesInUse context = .ok (s.expressions.flatMap Sql.names) := by
  have hnames : s.assignments.mapM (fun a => a.value.scanNames context) =
      .ok (s.assignments.map fun a => a.value.names) := by
    rw [Outcome.mapM_eq_ok_iff, List.forall₂_map_right_iff, List.forall₂_same]
    exact fun a ha => Value.scanNames_eq_ok_iff.mpr ⟨h a ha, rfl⟩
  have hused : s.namesInUse context = .ok ((s.assignments.map fun a => a.value.names).flatten ++
      (s.filter.map Template.names).getD []) := by
    rw [namesInUse, hnames]
    rfl
  rw [hused, namesInUse_eq_ok hused]

/-! ### The statement after an assignment -/

theorem Assignment.column_replaced (column : String) (value : Value) (a : Assignment) :
    (a.replaced column value).column = a.column := by
  rw [replaced]
  split
  next h => exact (eq_of_beq h).symm
  next => rfl

theorem assigns_iff : s.assigns column = true ↔ column ∈ s.assignments.map Assignment.column := by
  simp [assigns]

/-- The statement after an assignment that succeeds. -/
def assigned (s : UpdateStatement) (column : String) (value : Value) : UpdateStatement :=
  let bindings := s.bindings.register value.names
  if s.assigns column then
    let s' := { s with assignments := s.assignments.map (Assignment.replaced column value) }
    { s' with bindings := bindings.retain (s'.expressions.flatMap Sql.names) }
  else { s with assignments := s.assignments ++ [⟨column, value⟩], bindings }

/-- An assignment to an assigned column takes the place of the old one. -/
theorem assignments_assigned_of_assigns (h : s.assigns column = true) :
    (s.assigned column value).assignments =
      s.assignments.map (Assignment.replaced column value) := by
  rw [assigned, if_pos h]

/-- Replacing forgets what is not in use afterwards. -/
theorem bindings_assigned_of_assigns (h : s.assigns column = true) :
    (s.assigned column value).bindings = (s.bindings.register value.names).retain
      ((s.assigned column value).expressions.flatMap Sql.names) := by
  rw [assigned, if_pos h]
  rfl

/-- An assignment to another column comes behind the others. -/
theorem assigned_of_not_assigns (h : s.assigns column = false) :
    s.assigned column value =
      { s with assignments := s.assignments ++ [⟨column, value⟩]
               bindings := s.bindings.register value.names } := by
  rw [assigned, h]
  rfl

/-- **What an assignment that succeeds does.** -/
theorem assign_eq_ok (h : s.assign context column value = .ok s') :
    value.Scans ∧ s' = s.assigned column value := by
  obtain ⟨names, hnames, h⟩ := Outcome.bind_eq_ok_iff.mp h
  obtain ⟨hscans, rfl⟩ := Value.scanNames_eq_ok_iff.mp hnames
  refine ⟨hscans, ?_⟩
  rw [assigned]
  split at h
  next hassigns =>
    obtain ⟨used, hused, h⟩ := Outcome.bind_eq_ok_iff.mp h
    cases h
    rw [namesInUse_eq_ok hused, if_pos hassigns]
    rfl
  next hassigns =>
    cases h
    rw [if_neg hassigns]
    rfl

/-- An assignment succeeds if nothing that is assigned leaves a quote open. -/
theorem assign_of_scans (hvalue : value.Scans) (h : ∀ a ∈ s.assignments, a.value.Scans) :
    s.assign context column value = .ok (s.assigned column value) := by
  have hnames : value.scanNames context = .ok value.names :=
    Value.scanNames_eq_ok_iff.mpr ⟨hvalue, rfl⟩
  rw [assign, hnames, Outcome.ok_bind, assigned]
  split
  next =>
    have hreplaced : ∀ a ∈ s.assignments.map (Assignment.replaced column value),
        a.value.Scans := by
      refine List.forall_mem_map.mpr fun a ha => ?_
      rw [Assignment.replaced]
      split
      next => exact hvalue
      next => exact h a ha
    rw [reassign, namesInUse_of_scans hreplaced]
    rfl
  next => rfl

/-- An assignment fails with its new value. -/
theorem assign_eq_error_iff (h : ∀ a ∈ s.assignments, a.value.Scans) {e : Error} :
    s.assign context column value = .error e ↔ value.scanNames context = .error e := by
  cases hnames : value.scanNames context with
  | ok names =>
    have hscans := (Value.scanNames_eq_ok_iff.mp hnames).1
    rw [assign_of_scans hscans h]
    exact iff_of_false nofun nofun
  | error err => rw [assign, hnames, Outcome.error_bind, Except.error.injEq, Except.error.injEq]

theorem filter_assigned (s : UpdateStatement) (column : String) (value : Value) :
    (s.assigned column value).filter = s.filter := by
  rw [assigned]
  split <;> rfl

/-- What is assigned afterwards was assigned to another column before, or is new. -/
theorem mem_assignments_assigned {a : Assignment}
    (h : a ∈ (s.assigned column value).assignments) :
    a ∈ s.assignments ∧ a.column ≠ column ∨ a = ⟨column, value⟩ := by
  cases hassigns : s.assigns column with
  | true =>
    rw [assignments_assigned_of_assigns hassigns] at h
    obtain ⟨b, hb, rfl⟩ := List.mem_map.mp h
    rw [Assignment.replaced]
    split
    next => exact .inr rfl
    next hne => exact .inl ⟨hb, fun heq => hne (beq_iff_eq.mpr heq)⟩
  | false =>
    rw [assigned_of_not_assigns hassigns] at h
    rcases List.mem_append.mp h with hold | hnew
    · refine .inl ⟨hold, fun heq => ?_⟩
      have hassigned : s.assigns column = true := assigns_iff.mpr (heq ▸ List.mem_map_of_mem hold)
      rw [hassigns] at hassigned
      cases hassigned
    · exact .inr (List.mem_singleton.mp hnew)

theorem assignments_assigned_ne_nil (s : UpdateStatement) (column : String) (value : Value) :
    (s.assigned column value).assignments ≠ [] := by
  cases h : s.assigns column with
  | true =>
    rw [assignments_assigned_of_assigns h]
    have hmem := assigns_iff.mp h
    intro hnil
    have hnil : s.assignments = [] := List.map_eq_nil_iff.mp hnil
    rw [hnil] at hmem
    cases hmem
  | false =>
    rw [assigned_of_not_assigns h]
    exact List.append_ne_nil_of_right_ne_nil _ (List.cons_ne_nil _ _)

theorem columns_assigned (h : (s.assignments.map Assignment.column).Nodup) (column : String)
    (value : Value) : ((s.assigned column value).assignments.map Assignment.column).Nodup := by
  cases hassigns : s.assigns column with
  | true =>
    rw [assignments_assigned_of_assigns hassigns, List.map_map]
    have hcolumns : Assignment.column ∘ Assignment.replaced column value = Assignment.column := by
      funext a
      exact a.column_replaced column value
    rwa [hcolumns]
  | false =>
    have hnew : column ∉ s.assignments.map Assignment.column := by
      rw [← assigns_iff, hassigns]
      exact Bool.false_ne_true
    rw [assigned_of_not_assigns hassigns, List.map_append, List.nodup_append]
    refine ⟨h, List.nodup_cons.mpr ⟨List.not_mem_nil, List.nodup_nil⟩, ?_⟩
    intro a ha b hb heq
    rw [heq, List.mem_singleton.mp hb] at ha
    exact hnew ha

theorem table_assigned (s : UpdateStatement) (column : String) (value : Value) :
    (s.assigned column value).table = s.table := by
  rw [assigned]
  split <;> rfl

/-- An assignment changes nothing but the assignments and the bindings. -/
theorem assigned_eq (s : UpdateStatement) (column : String) (value : Value) :
    s.assigned column value =
      { s with assignments := (s.assigned column value).assignments
               bindings := (s.assigned column value).bindings } := by
  rw [assigned]
  split <;> rfl

/-! ### Assignments in a row -/

/-- The assignments after values were assigned one after another: the columns in the order in which
they were first assigned to, each with its last value. -/
def lastAssignments (pairs : List (String × Value)) : List Assignment :=
  (pairs.map Prod.fst).eraseDups.filterMap fun column =>
    (Members.get? column pairs.reverse).map fun value => ⟨column, value⟩

theorem exists_get?_reverse {pairs : List (String × Value)} {column : String}
    (h : column ∈ pairs.map Prod.fst) :
    ∃ value, Members.get? column pairs.reverse = some value := by
  refine Option.ne_none_iff_exists'.mp ?_
  rw [Ne, Members.get?_eq_none_iff, List.map_reverse, List.mem_reverse]
  exact not_not_intro h

/-- A column that was assigned to before keeps its place, and another one comes last. -/
theorem lastAssignments_concat (pairs : List (String × Value)) (column : String) (value : Value) :
    lastAssignments (pairs ++ [(column, value)]) =
      if column ∈ pairs.map Prod.fst then
        (lastAssignments pairs).map (Assignment.replaced column value)
      else lastAssignments pairs ++ [⟨column, value⟩] := by
  have hget : ∀ other, Members.get? other (pairs ++ [(column, value)]).reverse =
      if other = column then some value else Members.get? other pairs.reverse := by
    intro other
    rw [List.reverse_concat, Members.get?]
  rw [lastAssignments, List.map_append, List.eraseDups_append]
  simp only [hget]
  split
  next hmem =>
    have hold : ([(column, value)].map Prod.fst).removeAll (pairs.map Prod.fst) = [] := by
      simp [List.removeAll, hmem]
    rw [hold, List.eraseDups_nil, List.append_nil, lastAssignments, List.map_filterMap]
    refine List.filterMap_congr fun other _ => ?_
    by_cases hother : other = column
    · obtain ⟨w, hw⟩ := exists_get?_reverse (hother ▸ hmem)
      rw [if_pos hother, hw, Option.map_some, Option.map_some, Option.map_some,
        Assignment.replaced, if_pos (beq_iff_eq.mpr hother), hother]
    · rw [if_neg hother]
      cases Members.get? other pairs.reverse with
      | none => rfl
      | some w =>
        rw [Option.map_some, Option.map_some, Assignment.replaced,
          if_neg (beq_iff_eq.not.mpr hother)]
  next hmem =>
    have hnew : (([(column, value)].map Prod.fst).removeAll (pairs.map Prod.fst)).eraseDups =
        [column] := by
      simp [List.removeAll, hmem, List.eraseDups_cons]
    rw [hnew, List.filterMap_append, lastAssignments]
    congr 1
    · refine List.filterMap_congr fun other hother => ?_
      have hne : other ≠ column := fun heq => hmem (heq ▸ List.mem_eraseDups.mp hother)
      rw [if_neg hne]
    · simp only [List.filterMap_cons, List.filterMap_nil, if_true, Option.map_some]

/-- The columns stand in the order in which they were first assigned to. -/
theorem columns_lastAssignments (pairs : List (String × Value)) :
    (lastAssignments pairs).map Assignment.column = (pairs.map Prod.fst).eraseDups := by
  rw [lastAssignments, List.map_filterMap]
  refine Eq.trans (List.filterMap_congr fun column hcolumn => ?_) List.filterMap_some
  obtain ⟨value, hvalue⟩ := exists_get?_reverse (List.mem_eraseDups.mp hcolumn)
  rw [hvalue, Option.map_some, Option.map_some]

theorem mem_columns_lastAssignments {pairs : List (String × Value)} {column : String} :
    column ∈ (lastAssignments pairs).map Assignment.column ↔ column ∈ pairs.map Prod.fst := by
  rw [columns_lastAssignments, List.mem_eraseDups]

theorem lastAssignments_eq_nil_iff {pairs : List (String × Value)} :
    lastAssignments pairs = [] ↔ pairs = [] := by
  constructor
  · intro h
    cases pairs with
    | nil => rfl
    | cons p rest =>
      have hmem : p.1 ∈ (lastAssignments (p :: rest)).map Assignment.column :=
        mem_columns_lastAssignments.mpr List.mem_cons_self
      rw [h] at hmem
      cases hmem
  · rintro rfl
    rfl

/-- Each column has the value that was assigned to it last. -/
theorem exists_append_of_mem_lastAssignments {pairs : List (String × Value)} {a : Assignment}
    (h : a ∈ lastAssignments pairs) : ∃ earlier later,
      pairs = earlier ++ (a.column, a.value) :: later ∧ a.column ∉ later.map Prod.fst := by
  obtain ⟨column, -, hmap⟩ := List.mem_filterMap.mp h
  obtain ⟨value, hvalue, rfl⟩ := Option.map_eq_some_iff.mp hmap
  obtain ⟨later, earlier, heq, hnot⟩ := Members.exists_append_of_get? hvalue
  refine ⟨earlier.reverse, later.reverse, ?_, ?_⟩
  · rw [← List.reverse_reverse pairs, heq, List.reverse_append, List.reverse_cons,
      List.append_assoc]
    rfl
  · rwa [List.map_reverse, List.mem_reverse]

/-- Where no column is assigned to twice, all assignments stay. -/
theorem lastAssignments_of_nodup {pairs : List (String × Value)} (h : (pairs.map Prod.fst).Nodup) :
    lastAssignments pairs = pairs.map fun p => ⟨p.1, p.2⟩ := by
  induction pairs using List.reverseRecOn with
  | nil => rfl
  | append_singleton pairs p ih =>
    rw [List.map_append, List.nodup_append] at h
    obtain ⟨hpairs, -, hne⟩ := h
    have hnew : p.1 ∉ pairs.map Prod.fst := fun hmem => hne _ hmem _ List.mem_cons_self rfl
    have hlast := lastAssignments_concat pairs p.1 p.2
    rw [if_neg hnew, ih hpairs] at hlast
    rw [hlast, List.map_append]
    rfl

/-- Assigning to a statement is assigning behind what it records. -/
theorem assignments_assigned {pairs : List (String × Value)}
    (h : s.assignments = lastAssignments pairs) (column : String) (value : Value) :
    (s.assigned column value).assignments = lastAssignments (pairs ++ [(column, value)]) := by
  have hassigns : s.assigns column = true ↔ column ∈ pairs.map Prod.fst := by
    rw [assigns_iff, h, mem_columns_lastAssignments]
  rw [lastAssignments_concat]
  split
  next hmem => rw [assignments_assigned_of_assigns (hassigns.mpr hmem), h]
  next hmem =>
    rw [assigned_of_not_assigns (Bool.eq_false_iff.mpr (hassigns.not.mpr hmem)), h]

end TableSql.UpdateStatement
