import TableSql.Proofs.Builder.Statements
import TableSql.Proofs.Fragment.Supply
import TableSql.Proofs.Statement.Assign
import TableSql.Proofs.Statement.Calls

/-!
# Where the values of statements come from

Each value that a statement sends is the literal bound to a placeholder, set for a column or
inserted as a cell. Here it is told which, for each kind of statement, together with the invariant
that the statement holds what was given last.

## Main definitions

* `SelectStatement.supplied`, `InsertStatement.supplied`, `UpdateStatement.supplied`,
  `DeleteStatement.supplied` — the values to send, in order, with their origins
* `InsertStatement.rowEntries`, `InsertStatement.tableEntries` — cells with their places
* the instances of `Builder.Traced`

## Main results

* `SelectStatement.params_compile`, `InsertStatement.params_compile`,
  `UpdateStatement.params_compile`, `DeleteStatement.params_compile` — these are the values sent
-/

namespace TableSql

/-! ### Select statements -/

namespace SelectStatement

/-- The values to send, in order, with their origins. -/
def supplied (s : SelectStatement) : List (Origin × Value) :=
  s.bindings.supplied (s.filter.toList.flatMap Template.names) ++
    s.bindings.supplied (s.having.toList.flatMap Template.names)

/-- The value that a call hands over. -/
def Call.handed : Call → List (Origin × Value)
  | .bind name value => [(.bound name, value)]
  | _ => []

theorem bindings_start {x : Start} {s : SelectStatement} (h : Builder.start x = .ok s) :
    s.bindings = .empty := by
  cases x with
  | all table =>
    cases h
    rfl
  | columns table columns =>
    have h : ofColumns table columns = .ok s := h
    rw [ofColumns] at h
    split at h
    next => cases h; rfl
    next => cases h

theorem backed_apply {s s' : SelectStatement} {c : Call} {earlier : List (Origin × Value)}
    (hs : s.bindings.Backed fun o => o.last earlier) (h : s.apply c = .ok s') :
    s'.bindings.Backed fun o => o.last (earlier ++ c.handed) := by
  have hkept : s.bindings.Backed fun o => o.last (earlier ++ []) := by
    simpa only [List.append_nil] using hs
  obtain ⟨-, hgives⟩ := apply_eq_ok_iff.mp h
  cases hgives with
  | filter _ => exact hkept.register _
  | having _ => exact hkept.register _
  | groupBy _ => exact hkept
  | orderBy _ => exact hkept
  | limit => exact hkept
  | offset => exact hkept
  | lockShared _ => exact hkept
  | lockExclusive _ => exact hkept
  | bind hb => exact hs.bind hb

theorem params_limitClause (s : SelectStatement) : s.limitClause.params = [] := by
  rw [limitClause]
  cases s.limit with
  | none => rfl
  | some n => simp [Clause.limit, Clause.params_count]

theorem params_lockClause (s : SelectStatement) : s.lockClause.params = [] := by
  rw [lockClause]
  cases s.lock <;> rfl

theorem params_compile {s : SelectStatement} {c : CompiledStatement} (h : s.compile = .ok c) :
    c.params = s.supplied.map Prod.snd := by
  obtain ⟨f, hf, h⟩ := Outcome.bind_eq_ok_iff.mp h
  cases h
  obtain ⟨filter, hfilter, h⟩ := Outcome.bind_eq_ok_iff.mp hf
  obtain ⟨having, hhaving, h⟩ := Outcome.bind_eq_ok_iff.mp h
  cases h
  rw [supplied, List.map_append, ← Clause.params_condition hfilter,
    ← Clause.params_condition hhaving]
  simp only [CompiledStatement.ofFragment, Fragment.params_append, Fragment.params_ofText,
    Clause.ordering, Clause.params_list, params_limitClause, params_lockClause, List.nil_append,
    List.append_nil]

instance : Builder.Traced SelectStatement Start Call where
  received _ := []
  handed _ := Call.handed
  supplied := supplied
  Backed s given := s.bindings.Backed given
  backed_start _ _ h := by
    rw [bindings_start h]
    exact Bindings.backed_empty _
  backed_apply _ _ _ _ := backed_apply
  backed_executed _ _ h := h
  given_of_supplied s given h p hp := by
    rcases List.mem_append.mp hp with hp | hp
    · exact h.given_of_supplied hp
    · exact h.given_of_supplied hp
  params_eq_supplied _ _ := params_compile

end SelectStatement

/-! ### Delete statements -/

namespace DeleteStatement

/-- The values to send, in order, with their origins. -/
def supplied (s : DeleteStatement) : List (Origin × Value) :=
  s.bindings.supplied (s.filter.toList.flatMap Template.names)

/-- The value that a call hands over. -/
def Call.handed : Call → List (Origin × Value)
  | .bind name value => [(.bound name, value)]
  | _ => []

theorem backed_apply {s s' : DeleteStatement} {c : Call} {earlier : List (Origin × Value)}
    (hs : s.bindings.Backed fun o => o.last earlier) (h : s.apply c = .ok s') :
    s'.bindings.Backed fun o => o.last (earlier ++ c.handed) := by
  have hkept : s.bindings.Backed fun o => o.last (earlier ++ []) := by
    simpa only [List.append_nil] using hs
  obtain ⟨-, hgives⟩ := apply_eq_ok_iff.mp h
  cases hgives with
  | filter _ => exact hkept.register _
  | orderBy _ => exact hkept
  | limit => exact hkept
  | bind hb => exact hs.bind hb

theorem params_compile {s : DeleteStatement} {c : CompiledStatement} (h : s.compile = .ok c) :
    c.params = s.supplied.map Prod.snd := by
  obtain ⟨f, hf, h⟩ := Outcome.bind_eq_ok_iff.mp h
  cases h
  obtain ⟨filter, hfilter, h⟩ := Outcome.bind_eq_ok_iff.mp hf
  cases h
  rw [supplied, ← Clause.params_condition hfilter]
  simp only [CompiledStatement.ofFragment, Fragment.params_append, Fragment.params_ofText,
    Clause.ordering, Clause.params_list, Clause.limit, Clause.params_count, List.nil_append,
    List.append_nil]

instance : Builder.Traced DeleteStatement TableRef Call where
  received _ := []
  handed _ := Call.handed
  supplied := supplied
  Backed s given := s.bindings.Backed given
  backed_start _ _ h := by
    cases h
    exact Bindings.backed_empty _
  backed_apply _ _ _ _ := backed_apply
  backed_executed _ _ h := h
  given_of_supplied _ _ h _ hp := h.given_of_supplied hp
  params_eq_supplied _ _ := params_compile

end DeleteStatement

/-! ### Update statements -/

namespace UpdateStatement

/-- The values to send, in order, with their origins. -/
def supplied (s : UpdateStatement) : List (Origin × Value) :=
  s.assignments.flatMap (fun a => a.value.supplied (.column a.column) s.bindings) ++
    s.bindings.supplied (s.filter.toList.flatMap Template.names)

/-- The value that a call hands over. -/
def Call.handed : Call → List (Origin × Value)
  | .set column value => [(.column column, value)]
  | .bind name value => [(.bound name, value)]
  | _ => []

/-- Bound and assigned values are those that were given. -/
structure Backed (s : UpdateStatement) (given : Origin → Option Value) : Prop where
  bindings : s.bindings.Backed given
  assignments : ∀ a ∈ s.assignments, given (.column a.column) = some a.value

theorem backed_assigned {s : UpdateStatement} {earlier : List (Origin × Value)}
    (hs : s.Backed fun o => o.last earlier) (column : String) (value : Value) :
    (s.assigned column value).Backed fun o => o.last (earlier ++ [(.column column, value)]) := by
  have hbindings := hs.bindings.set column value
  constructor
  · cases hassigns : s.assigns column with
    | true =>
      rw [bindings_assigned_of_assigns hassigns]
      exact (hbindings.register _).retain _
    | false =>
      rw [assigned_of_not_assigns hassigns]
      exact hbindings.register _
  · intro a ha
    show (Origin.column a.column).last _ = some a.value
    rw [Origin.last_append, Origin.last_singleton]
    rcases mem_assignments_assigned ha with ⟨hold, hne⟩ | rfl
    · rw [if_neg fun heq => hne (Origin.column.inj heq).symm]
      exact hs.assignments a hold
    · rw [if_pos rfl]
      rfl

theorem backed_apply {s s' : UpdateStatement} {c : Call} {earlier : List (Origin × Value)}
    (hs : s.Backed fun o => o.last earlier) (h : s.apply c = .ok s') :
    s'.Backed fun o => o.last (earlier ++ c.handed) := by
  have hkept : s.Backed fun o => o.last (earlier ++ []) := by
    simpa only [List.append_nil] using hs
  obtain ⟨-, hgives⟩ := apply_eq_ok_iff.mp h
  cases hgives with
  | @set column value s₁ _ hassign =>
    obtain ⟨-, rfl⟩ := assign_eq_ok hassign
    obtain ⟨hbindings, hassignments⟩ := backed_assigned hs column value
    exact ⟨hbindings, hassignments⟩
  | filter _ => exact ⟨hkept.bindings.register _, hkept.assignments⟩
  | orderBy _ => exact ⟨hkept.bindings, hkept.assignments⟩
  | limit => exact ⟨hkept.bindings, hkept.assignments⟩
  | bind hb =>
    refine ⟨hs.bindings.bind hb, fun a ha => ?_⟩
    show (Origin.column a.column).last (earlier ++ [_]) = some a.value
    rw [Origin.last_append, Origin.last_singleton, if_neg nofun]
    exact hs.assignments a ha

theorem params_assignment {b : Bindings} {a : Assignment} {f : Fragment}
    (h : assignment b a = .ok f) :
    f.params = (a.value.supplied (.column a.column) b).map Prod.snd := by
  obtain ⟨value, hvalue, h⟩ := Outcome.bind_eq_ok_iff.mp h
  cases h
  exact Value.params_render hvalue _

theorem params_compile {s : UpdateStatement} {c : CompiledStatement} (h : s.compile = .ok c) :
    c.params = s.supplied.map Prod.snd := by
  obtain ⟨f, hf, h⟩ := Outcome.bind_eq_ok_iff.mp h
  cases h
  rw [fragment] at hf
  split at hf
  next => cases hf
  next =>
    obtain ⟨fs, hfs, h⟩ := Outcome.bind_eq_ok_iff.mp hf
    obtain ⟨filter, hfilter, h⟩ := Outcome.bind_eq_ok_iff.mp h
    cases h
    have hassigned := Outcome.flatMap_of_mapM hfs fun _ _ => params_assignment
    rw [supplied, List.map_append, List.map_flatMap, ← hassigned,
      ← Clause.params_condition hfilter]
    simp only [CompiledStatement.ofFragment, Fragment.params_append, Fragment.params_ofText,
      Fragment.params_join, Clause.ordering, Clause.params_list, Clause.limit,
      Clause.params_count, List.nil_append, List.append_nil]

instance : Builder.Traced UpdateStatement TableRef Call where
  received _ := []
  handed _ := Call.handed
  supplied := supplied
  Backed := Backed
  backed_start _ _ h := by
    cases h
    exact ⟨Bindings.backed_empty _, fun _ ha => absurd ha List.not_mem_nil⟩
  backed_apply _ _ _ _ := backed_apply
  backed_executed _ _ h := ⟨h.bindings, h.assignments⟩
  given_of_supplied s given h p hp := by
    rcases List.mem_append.mp hp with hp | hp
    · obtain ⟨a, ha, hp⟩ := List.mem_flatMap.mp hp
      rw [Value.supplied] at hp
      split at hp
      next => exact h.bindings.given_of_supplied hp
      next =>
        cases List.mem_singleton.mp hp
        exact h.assignments a ha
    · exact h.bindings.given_of_supplied hp
  params_eq_supplied _ _ := params_compile

end UpdateStatement

/-! ### Insert statements -/

namespace InsertStatement

/-- The cells of a row from a place on. -/
def rowEntries (row : Nat) : (place : Nat) → List Value → List (Origin × Value)
  | _, [] => []
  | place, v :: rest => (.cell row place, v) :: rowEntries row (place + 1) rest

/-- The cells of the rows from a row on. -/
def tableEntries : (row : Nat) → List (List Value) → List (Origin × Value)
  | _, [] => []
  | row, values :: rest => rowEntries row 0 values ++ tableEntries (row + 1) rest

/-- The values to send, in order, with their origins: all cells but expressions. -/
def supplied (s : InsertStatement) : List (Origin × Value) :=
  (tableEntries 0 s.rows).filter fun p => !p.2.isExpression

/-- The values that a new statement is handed. -/
def Start.received : Start → List (Origin × Value)
  | .document _ d =>
    match d.members "Table.insert" with
    | .ok members => rowEntries 0 0 (members.map (·.2))
    | .error _ => []
  | _ => []

/-- The values that a call hands over. -/
def Call.handed (s : InsertStatement) : Call → List (Origin × Value)
  | .values row => rowEntries s.rows.length 0 row

theorem exists_of_mem_rowEntries {row place : Nat} {values : List Value} {p : Origin × Value}
    (h : p ∈ rowEntries row place values) : ∃ n, place ≤ n ∧ p.1 = .cell row n := by
  induction values generalizing place with
  | nil => cases h
  | cons v rest ih =>
    rcases List.mem_cons.mp h with rfl | h
    · exact ⟨place, Nat.le_refl place, rfl⟩
    · obtain ⟨n, hn, hp⟩ := ih h
      exact ⟨n, Nat.le_of_succ_le hn, hp⟩

theorem last_of_mem_rowEntries {row place : Nat} {values : List Value} {p : Origin × Value}
    (h : p ∈ rowEntries row place values) : p.1.last (rowEntries row place values) = some p.2 := by
  induction values generalizing place with
  | nil => cases h
  | cons v rest ih =>
    rw [rowEntries, Origin.last]
    rcases List.mem_cons.mp h with rfl | h
    · -- no later cell has the place of this one
      have hnone : (Origin.cell row place).last (rowEntries row (place + 1) rest) = none := by
        refine Origin.last_eq_none fun q hq heq => ?_
        obtain ⟨n, hn, hcell⟩ := exists_of_mem_rowEntries hq
        rw [heq] at hcell
        cases hcell
        exact absurd hn (Nat.not_succ_le_self place)
      rw [hnone, if_pos rfl, Option.none_or]
    · rw [ih h, Option.some_or]

theorem tableEntries_append (row : Nat) (rows more : List (List Value)) :
    tableEntries row (rows ++ more) =
      tableEntries row rows ++ tableEntries (row + rows.length) more := by
  induction rows generalizing row with
  | nil => rfl
  | cons values rest ih =>
    rw [List.cons_append, tableEntries, tableEntries, ih, List.append_assoc, List.length_cons]
    congr 3
    omega

theorem exists_of_mem_tableEntries {row : Nat} {rows : List (List Value)} {p : Origin × Value}
    (h : p ∈ tableEntries row rows) : ∃ r n, r < row + rows.length ∧ p.1 = .cell r n := by
  induction rows generalizing row with
  | nil => cases h
  | cons values rest ih =>
    rw [List.length_cons]
    rcases List.mem_append.mp h with h | h
    · obtain ⟨n, -, hp⟩ := exists_of_mem_rowEntries h
      exact ⟨row, n, by omega, hp⟩
    · obtain ⟨r, n, hr, hp⟩ := ih h
      exact ⟨r, n, by omega, hp⟩

/-- The cells are those that were given. -/
def Backed (s : InsertStatement) (given : Origin → Option Value) : Prop :=
  ∀ p ∈ tableEntries 0 s.rows, given p.1 = some p.2

theorem backed_start {x : Start} {s : InsertStatement} (h : Builder.start x = .ok s) :
    s.Backed fun o => o.last x.received := by
  cases x with
  | table table =>
    cases h
    exact fun _ hp => absurd hp List.not_mem_nil
  | columns table columns =>
    have h : ofColumns table columns = .ok s := h
    rw [ofColumns] at h
    split at h
    next =>
      cases h
      exact fun _ hp => absurd hp List.not_mem_nil
    next => cases h
  | document table document =>
    have h : ofDocument table document = .ok s := h
    intro p hp
    show p.1.last (Start.received (.document table document)) = some p.2
    rw [Start.received]
    rw [ofDocument] at h
    cases hmembers : document.members "Table.insert" with
    | error e =>
      rw [hmembers] at h
      cases h
    | ok members =>
      rw [hmembers] at h
      cases members with
      | nil => cases h
      | cons m rest =>
        cases h
        rw [tableEntries, tableEntries, List.append_nil] at hp
        exact last_of_mem_rowEntries hp

theorem backed_apply {s s' : InsertStatement} {c : Call} {earlier : List (Origin × Value)}
    (hs : s.Backed fun o => o.last earlier) (h : s.apply c = .ok s') :
    s'.Backed fun o => o.last (earlier ++ c.handed s) := by
  obtain ⟨-, hgives⟩ := apply_eq_ok_iff.mp h
  cases hgives with
  | @values row _ =>
    intro p hp
    show p.1.last (earlier ++ rowEntries s.rows.length 0 row) = some p.2
    rw [Origin.last_append]
    have hp : p ∈ tableEntries 0 (s.rows ++ [row]) := hp
    rw [tableEntries_append, Nat.zero_add, tableEntries, tableEntries, List.append_nil] at hp
    rcases List.mem_append.mp hp with hp | hp
    · -- the cells of the new row have other places
      have hnone : p.1.last (rowEntries s.rows.length 0 row) = none := by
        refine Origin.last_eq_none fun q hq heq => ?_
        obtain ⟨n, -, hcell⟩ := exists_of_mem_rowEntries hq
        obtain ⟨r, m, hr, hold⟩ := exists_of_mem_tableEntries hp
        rw [heq, hold] at hcell
        cases hcell
        omega
      rw [hnone, Option.none_or]
      exact hs p hp
    · rw [last_of_mem_rowEntries hp, Option.some_or]

theorem params_cell {v : Value} {f : Fragment} (h : cell v = .ok f) :
    f.params = [v].filter fun v => !v.isExpression := by
  have hnone : Bindings.empty.supplied v.names = [] := by
    simp [Bindings.supplied, Bindings.supplied?]
  rw [Value.params_render h (.cell 0 0), Value.supplied, hnone, List.filter_singleton]
  cases v.isExpression <;> rfl

theorem params_row {values : List Value} {f : Fragment} (h : row values = .ok f) :
    f.params = values.filter fun v => !v.isExpression := by
  obtain ⟨cells, hcells, h⟩ := Outcome.bind_eq_ok_iff.mp h
  cases h
  have hall := Outcome.flatMap_of_mapM hcells fun _ _ => params_cell
  rw [Fragment.params_parenthesize, Fragment.params_join, hall, ← List.filter_flatMap,
    List.flatMap_singleton']

theorem map_snd_rowEntries (row place : Nat) (values : List Value) :
    (rowEntries row place values).map Prod.snd = values := by
  induction values generalizing place with
  | nil => rfl
  | cons v rest ih => rw [rowEntries, List.map_cons, ih]

theorem map_snd_tableEntries (row : Nat) (rows : List (List Value)) :
    (tableEntries row rows).map Prod.snd = rows.flatten := by
  induction rows generalizing row with
  | nil => rfl
  | cons values rest ih =>
    rw [tableEntries, List.map_append, map_snd_rowEntries, ih, List.flatten_cons]

theorem params_compile {s : InsertStatement} {c : CompiledStatement} (h : s.compile = .ok c) :
    c.params = s.supplied.map Prod.snd := by
  obtain ⟨f, hf, h⟩ := Outcome.bind_eq_ok_iff.mp h
  cases h
  rw [fragment] at hf
  split at hf
  next => cases hf
  next =>
    obtain ⟨_, -, h⟩ := Outcome.bind_eq_ok_iff.mp hf
    obtain ⟨fs, hfs, h⟩ := Outcome.bind_eq_ok_iff.mp h
    cases h
    have hrows := Outcome.flatMap_of_mapM hfs fun _ _ => params_row
    have hsupplied : s.supplied.map Prod.snd = s.rows.flatMap (List.filter (!·.isExpression)) := by
      rw [List.flatMap_def, ← List.filter_flatten, ← map_snd_tableEntries 0, List.filter_map]
      rfl
    rw [hsupplied, ← hrows]
    simp only [CompiledStatement.ofFragment, Fragment.params_append, Fragment.params_ofText,
      Fragment.params_join, params_columnClause, List.nil_append, List.append_nil]

instance : Builder.Traced InsertStatement Start Call where
  received := Start.received
  handed := Call.handed
  supplied := supplied
  Backed := Backed
  backed_start _ _ := backed_start
  backed_apply _ _ _ _ := backed_apply
  backed_executed _ _ h := h
  given_of_supplied _ _ h p hp := h p (List.mem_of_mem_filter hp)
  params_eq_supplied _ _ := params_compile

end InsertStatement

end TableSql
