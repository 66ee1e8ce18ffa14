import TableSql.Proofs.Builder.Erasure
import TableSql.Proofs.Builder.Statements
import TableSql.Proofs.Statement.Assign

/-!
# Statements do not look at literals

For each kind of statement, erased: every call does to the statement without its literals what it
does to the statement, and so does compiling. A literal is only stored, and put among the values
when its marker is written.

## Main definitions

* `SelectStatement.erase`, `InsertStatement.erase`, `UpdateStatement.erase`,
  `DeleteStatement.erase` — statements without their literals
* the instances of `Builder.Erasable`
-/

namespace TableSql

theorem Operation.guarded_map {α β : Type} (statement : String) (allowed : List Operation)
    (op : Operation) {f : α → β} {call : String → Except Error α} {call' : String → Except Error β}
    (h : ∀ context, call' context = (call context).map f) :
    op.guarded statement allowed call' = (op.guarded statement allowed call).map f := by
  rw [guarded, guarded]
  split
  · exact h _
  · rfl

/-- An execution looks at the names without a value, and then compiles. -/
theorem Bindings.guarded_erase (statement : String) (allowed : List Operation) (b : Bindings)
    {x y : Except Error CompiledStatement} (h : y = x.map CompiledStatement.erase) :
    Operation.execute.guarded statement allowed
        (fun context => b.erase.ensureComplete context >>= fun _ => y) =
      (Operation.execute.guarded statement allowed
        (fun context => b.ensureComplete context >>= fun _ => x)).map CompiledStatement.erase := by
  refine Operation.guarded_map statement allowed .execute fun context => ?_
  rw [ensureComplete_erase]
  exact Outcome.map_bind_of_forall fun _ => h

/-! ### Select statements -/

namespace SelectStatement

/-- The call without its literal. -/
def Call.erase : Call → Call
  | .bind name value => .bind name value.erase
  | c => c

/-- The statement without its literals. -/
def erase (s : SelectStatement) : SelectStatement :=
  { s with bindings := s.bindings.erase }

theorem start_erase (x : Start) :
    (Builder.start x : Except Error SelectStatement) = (Builder.start x).map erase := by
  cases x with
  | all table => rfl
  | columns table columns =>
    show ofColumns table columns = (ofColumns table columns).map erase
    rw [ofColumns]
    split <;> rfl

theorem perform_erase (s : SelectStatement) (context : String) (c : Call) :
    s.erase.perform context c.erase = (s.perform context c).map erase := by
  cases c with
  | filter condition | having condition =>
    refine Outcome.map_bind_of_forall fun text => Outcome.map_bind_of_forall fun t => ?_
    refine congrArg Except.ok ?_
    rw [erase, erase, Bindings.register_erase]
  | groupBy columns => exact Outcome.map_bind_of_forall fun _ => rfl
  | orderBy criteria => exact Outcome.map_bind_of_forall fun _ => rfl
  | limit count => rfl
  | offset count => rfl
  | lockShared mode => exact Outcome.map_bind_of_forall fun _ => rfl
  | lockExclusive mode => exact Outcome.map_bind_of_forall fun _ => rfl
  | bind name value =>
    exact Outcome.map_bind_of_eq (s.bindings.bind_erase context name value) fun _ => rfl

theorem operation_erase (c : Call) : c.erase.operation = c.operation := by
  cases c <;> rfl

theorem stage_erase (c : Call) : c.erase.stage = c.stage := by
  cases c <;> rfl

theorem apply_erase (s : SelectStatement) (c : Call) :
    s.erase.apply c.erase = (s.apply c).map erase := by
  rw [apply, apply, operation_erase]
  refine Operation.guarded_map title s.operations c.operation fun context => ?_
  rw [perform_erase, stage_erase]
  cases s.perform context c <;> rfl

theorem fragment_erase (s : SelectStatement) :
    s.erase.fragment = s.fragment.map Fragment.erase := by
  refine Outcome.map_bind_of_eq (Clause.condition_erase _ _ s.bindings s.filter) fun filter => ?_
  refine Outcome.map_bind_of_eq (Clause.condition_erase _ _ s.bindings s.having) fun having => ?_
  refine congrArg Except.ok ?_
  have hlimit : s.limitClause.erase = s.limitClause := by
    rw [limitClause]
    cases s.limit with
    | none => rfl
    | some n => rw [Fragment.erase_append, Clause.limit, Clause.erase_count, Clause.erase_count]
  have hlock : s.lockClause.erase = s.lockClause := by
    rw [lockClause]
    cases s.lock <;> rfl
  simp only [Fragment.erase_append, Fragment.erase_ofText, Clause.erase_list, Clause.ordering,
    hlimit, hlock]
  rfl

theorem compile_erase (s : SelectStatement) :
    s.erase.compile = s.compile.map CompiledStatement.erase :=
  Outcome.map_bind_of_eq s.fragment_erase fun _ => rfl

theorem prepareExecute_erase (s : SelectStatement) :
    s.erase.prepareExecute = s.prepareExecute.map CompiledStatement.erase :=
  s.bindings.guarded_erase title s.operations s.compile_erase

instance : Builder.Erasable SelectStatement Start Call where
  eraseStart x := x
  eraseCall := Call.erase
  erase := erase
  start_erase := start_erase
  apply_erase := apply_erase
  operations_erase _ := rfl
  missing_erase s := s.bindings.missing_erase
  compile_erase := compile_erase
  prepareExecute_erase := prepareExecute_erase
  executed_erase _ := rfl

end SelectStatement

/-! ### Delete statements -/

namespace DeleteStatement

/-- The call without its literal. -/
def Call.erase : Call → Call
  | .bind name value => .bind name value.erase
  | c => c

/-- The statement without its literals. -/
def erase (s : DeleteStatement) : DeleteStatement :=
  { s with bindings := s.bindings.erase }

theorem perform_erase (s : DeleteStatement) (context : String) (c : Call) :
    s.erase.perform context c.erase = (s.perform context c).map erase := by
  cases c with
  | filter condition =>
    refine Outcome.map_bind_of_forall fun text => Outcome.map_bind_of_forall fun t => ?_
    refine congrArg Except.ok ?_
    rw [erase, erase, Bindings.register_erase]
  | orderBy criteria => exact Outcome.map_bind_of_forall fun _ => rfl
  | limit count => rfl
  | bind name value =>
    exact Outcome.map_bind_of_eq (s.bindings.bind_erase context name value) fun _ => rfl

theorem operation_erase (c : Call) : c.erase.operation = c.operation := by
  cases c <;> rfl

theorem stage_erase (c : Call) : c.erase.stage = c.stage := by
  cases c <;> rfl

theorem apply_erase (s : DeleteStatement) (c : Call) :
    s.erase.apply c.erase = (s.apply c).map erase := by
  rw [apply, apply, operation_erase]
  refine Operation.guarded_map title s.operations c.operation fun context => ?_
  rw [perform_erase, stage_erase]
  cases s.perform context c <;> rfl

theorem fragment_erase (s : DeleteStatement) :
    s.erase.fragment = s.fragment.map Fragment.erase := by
  refine Outcome.map_bind_of_eq (Clause.condition_erase _ _ s.bindings s.filter) fun filter => ?_
  refine congrArg Except.ok ?_
  simp only [Fragment.erase_append, Fragment.erase_ofText, Clause.erase_list, Clause.ordering,
    Clause.limit, Clause.erase_count]
  rfl

theorem compile_erase (s : DeleteStatement) :
    s.erase.compile = s.compile.map CompiledStatement.erase :=
  Outcome.map_bind_of_eq s.fragment_erase fun _ => rfl

theorem prepareExecute_erase (s : DeleteStatement) :
    s.erase.prepareExecute = s.prepareExecute.map CompiledStatement.erase :=
  s.bindings.guarded_erase title s.operations s.compile_erase

instance : Builder.Erasable DeleteStatement TableRef Call where
  eraseStart table := table
  eraseCall := Call.erase
  erase := erase
  start_erase _ := rfl
  apply_erase := apply_erase
  operations_erase _ := rfl
  missing_erase s := s.bindings.missing_erase
  compile_erase := compile_erase
  prepareExecute_erase := prepareExecute_erase
  executed_erase _ := rfl

end DeleteStatement

/-! ### Update statements -/

namespace UpdateStatement

/-- The call without its literal. -/
def Call.erase : Call → Call
  | .set column value => .set column value.erase
  | .bind name value => .bind name value.erase
  | c => c

/-- The assignment without its literal. -/
def Assignment.erase (a : Assignment) : Assignment :=
  ⟨a.column, a.value.erase⟩

/-- The statement without its literals. -/
def erase (s : UpdateStatement) : UpdateStatement :=
  { s with assignments := s.assignments.map Assignment.erase, bindings := s.bindings.erase }

theorem assigns_erase (s : UpdateStatement) (column : String) :
    s.erase.assigns column = s.assigns column := by
  rw [assigns, erase, List.any_map]
  rfl

theorem namesInUse_erase (s : UpdateStatement) (context : String) :
    s.erase.namesInUse context = s.namesInUse context := by
  have hscan : ((·.value.scanNames context) : Assignment → _) ∘ Assignment.erase =
      (·.value.scanNames context) := by
    funext a
    exact a.value.scanNames_erase context
  rw [namesInUse, namesInUse, erase, List.mapM_map, hscan]

theorem replaced_erase (column : String) (value : Value) (a : Assignment) :
    a.erase.replaced column value.erase = (a.replaced column value).erase := by
  rw [Assignment.replaced, Assignment.replaced]
  show (if a.column == column then _ else _) = _
  split <;> rfl

theorem reassign_erase (s : UpdateStatement) (context column : String) (value : Value) :
    s.erase.reassign context column value.erase =
      (s.reassign context column value).map erase := by
  have hassignments : s.erase.assignments.map (Assignment.replaced column value.erase) =
      (s.assignments.map (Assignment.replaced column value)).map Assignment.erase := by
    rw [erase, List.map_map, List.map_map]
    exact List.map_congr_left fun a _ => replaced_erase column value a
  have hnames : ∀ assignments,
      namesInUse { s.erase with assignments := assignments.map Assignment.erase } context =
        namesInUse { s with assignments } context :=
    fun assignments => namesInUse_erase { s with assignments } context
  rw [reassign, reassign, hassignments, hnames]
  refine Outcome.map_bind_of_forall fun used => congrArg Except.ok ?_
  have hbindings : s.erase.bindings.retain used = (s.bindings.retain used).erase :=
    s.bindings.retain_erase used
  rw [hbindings]
  rfl

theorem assign_erase (s : UpdateStatement) (context column : String) (value : Value) :
    s.erase.assign context column value.erase = (s.assign context column value).map erase := by
  rw [assign, assign, value.scanNames_erase]
  refine Outcome.map_bind_of_forall fun names => ?_
  have hregistered : { s.erase with bindings := s.erase.bindings.register names } =
      erase { s with bindings := s.bindings.register names } := by
    rw [erase, erase, Bindings.register_erase]
  rw [hregistered, assigns_erase]
  split
  · exact reassign_erase _ context column value
  · refine congrArg Except.ok ?_
    rw [assignNew, assignNew, erase, erase, List.map_append]
    rfl

theorem perform_erase (s : UpdateStatement) (context : String) (c : Call) :
    s.erase.perform context c.erase = (s.perform context c).map erase := by
  cases c with
  | set column value =>
    rw [Call.erase, perform, perform]
    split
    · rfl
    · exact s.assign_erase context column value
  | filter condition =>
    refine Outcome.map_bind_of_forall fun text => Outcome.map_bind_of_forall fun t => ?_
    refine congrArg Except.ok ?_
    rw [erase, erase, Bindings.register_erase]
  | orderBy criteria => exact Outcome.map_bind_of_forall fun _ => rfl
  | limit count => rfl
  | bind name value =>
    exact Outcome.map_bind_of_eq (s.bindings.bind_erase context name value) fun _ => rfl

theorem operation_erase (c : Call) : c.erase.operation = c.operation := by
  cases c <;> rfl

theorem stage_erase (c : Call) : c.erase.stage = c.stage := by
  cases c <;> rfl

theorem apply_erase (s : UpdateStatement) (c : Call) :
    s.erase.apply c.erase = (s.apply c).map erase := by
  rw [apply, apply, operation_erase]
  refine Operation.guarded_map title s.operations c.operation fun context => ?_
  rw [perform_erase, stage_erase]
  cases s.perform context c <;> rfl

theorem assignment_erase (b : Bindings) (a : Assignment) :
    assignment b.erase a.erase = (assignment b a).map Fragment.erase := by
  refine Outcome.map_bind_of_eq (a.value.render_erase executeContext b) fun f => ?_
  refine congrArg Except.ok ?_
  rw [Fragment.erase_append, Fragment.erase_ofText]
  rfl

theorem fragment_erase (s : UpdateStatement) :
    s.erase.fragment = s.fragment.map Fragment.erase := by
  have hnil : s.erase.assignments.isEmpty = s.assignments.isEmpty := List.isEmpty_map
  rw [fragment, fragment, hnil]
  split
  · rfl
  · refine Outcome.map_bind_of_eq (Outcome.mapM_map_of_eq fun a _ =>
      assignment_erase s.bindings a) fun assignments => ?_
    refine Outcome.map_bind_of_eq (Clause.condition_erase _ _ s.bindings s.filter) fun filter => ?_
    refine congrArg Except.ok ?_
    simp only [Fragment.erase_append, Fragment.erase_ofText, Fragment.erase_join,
      Clause.erase_list, Clause.ordering, Clause.limit, Clause.erase_count]
    rfl

theorem compile_erase (s : UpdateStatement) :
    s.erase.compile = s.compile.map CompiledStatement.erase :=
  Outcome.map_bind_of_eq s.fragment_erase fun _ => rfl

theorem prepareExecute_erase (s : UpdateStatement) :
    s.erase.prepareExecute = s.prepareExecute.map CompiledStatement.erase :=
  s.bindings.guarded_erase title s.operations s.compile_erase

instance : Builder.Erasable UpdateStatement TableRef Call where
  eraseStart table := table
  eraseCall := Call.erase
  erase := erase
  start_erase _ := rfl
  apply_erase := apply_erase
  operations_erase _ := rfl
  missing_erase s := s.bindings.missing_erase
  compile_erase := compile_erase
  prepareExecute_erase := prepareExecute_erase
  executed_erase _ := rfl

end UpdateStatement

/-! ### Insert statements -/

namespace InsertStatement

/-- The call without its literals. -/
def Call.erase : Call → Call
  | .values row => .values (row.map Value.erase)

/-- The way to make a statement, without literals. -/
def Start.erase : Start → Start
  | .document t d => .document t d.erase
  | x => x

/-- The statement without its literals. -/
def erase (s : InsertStatement) : InsertStatement :=
  { s with rows := s.rows.map (List.map Value.erase) }

theorem start_erase (x : Start) :
    (Builder.start x.erase : Except Error InsertStatement) = (Builder.start x).map erase := by
  cases x with
  | table table => rfl
  | columns table columns =>
    show ofColumns table columns = (ofColumns table columns).map erase
    rw [ofColumns]
    split <;> rfl
  | document table document =>
    show ofDocument table document.erase = (ofDocument table document).map erase
    rw [ofDocument, ofDocument, document.members_erase]
    cases document.members "Table.insert" with
    | error e => rfl
    | ok members =>
      cases members with
      | nil => rfl
      | cons m rest => simp [erase]

theorem apply_erase (s : InsertStatement) (c : Call) :
    s.erase.apply c.erase = (s.apply c).map erase := by
  cases c with
  | values row =>
    refine Operation.guarded_map title s.operations .values fun context => ?_
    cases row with
    | nil => rfl
    | cons v rest => simp [perform, erase, Call.erase, Call.stage]

theorem cell_erase (v : Value) : cell v.erase = (cell v).map Fragment.erase :=
  v.render_erase executeContext .empty

theorem row_erase (values : List Value) :
    row (values.map Value.erase) = (row values).map Fragment.erase := by
  refine Outcome.map_bind_of_eq (Outcome.mapM_map_of_eq fun v _ => cell_erase v) fun cells => ?_
  refine congrArg Except.ok ?_
  rw [Fragment.erase_parenthesize, Fragment.erase_join]

theorem rowLength_erase (s : InsertStatement) : s.erase.rowLength = s.rowLength := by
  rw [rowLength, rowLength, erase]
  cases s.rows <;> simp

theorem checkLengths_erase (expected index : Nat) (rows : List (List Value)) :
    checkLengths expected index (rows.map (List.map Value.erase)) =
      checkLengths expected index rows := by
  induction rows generalizing index with
  | nil => rfl
  | cons row rest ih => rw [List.map_cons, checkLengths, checkLengths, List.length_map, ih]

theorem fragment_erase (s : InsertStatement) :
    s.erase.fragment = s.fragment.map Fragment.erase := by
  have hnil : s.erase.rows = [] ↔ s.rows = [] := List.map_eq_nil_iff
  rw [fragment, fragment, rowLength_erase]
  simp only [hnil]
  split
  · rfl
  · show (checkLengths s.rowLength 0 (s.rows.map (List.map Value.erase)) >>= _) = _
    rw [checkLengths_erase]
    refine Outcome.map_bind_of_forall fun _ => ?_
    refine Outcome.map_bind_of_eq (Outcome.mapM_map_of_eq fun row _ => row_erase row)
      fun rows => ?_
    refine congrArg Except.ok ?_
    have hcolumns : s.columnClause.erase = s.columnClause := by
      rw [columnClause]
      split <;> rfl
    simp only [Fragment.erase_append, Fragment.erase_ofText, Fragment.erase_join, hcolumns]
    rfl

theorem compile_erase (s : InsertStatement) :
    s.erase.compile = s.compile.map CompiledStatement.erase :=
  Outcome.map_bind_of_eq s.fragment_erase fun _ => rfl

theorem prepareExecute_erase (s : InsertStatement) :
    s.erase.prepareExecute = s.prepareExecute.map CompiledStatement.erase :=
  Operation.guarded_map title s.operations .execute fun _ => s.compile_erase

instance : Builder.Erasable InsertStatement Start Call where
  eraseStart := Start.erase
  eraseCall := Call.erase
  erase := erase
  start_erase := start_erase
  apply_erase := apply_erase
  operations_erase _ := rfl
  missing_erase _ := rfl
  compile_erase := compile_erase
  prepareExecute_erase := prepareExecute_erase
  executed_erase _ := rfl

end InsertStatement

end TableSql
