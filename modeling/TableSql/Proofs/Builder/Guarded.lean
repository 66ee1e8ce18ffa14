import TableSql.Proofs.Builder.History
import TableSql.Proofs.Outcome

/-!
# Guarded calls

Every statement on a table makes its calls in the same way: a call that is not on offer is refused
before its argument is looked at, and any other does what it does and leaves the statement in a
stage of its own. An execution is guarded in the same way, and what it sends is the compiled
statement. What follows from this alone is stated here once, for all of them.

## Main definitions

* `Builder.Guarded` — a kind of statement with what its calls do where they are allowed
* the instances for the statements on a table

## Main results

* `Builder.apply_of_mem`, `Builder.apply_of_not_mem` — a call that is on offer, and one that is not
* `Builder.apply_eq_ok_iff_made` — when a call is accepted
* `Builder.prepareExecute_of_not_mem`, `Builder.outcome_of_not_mem` — an execution or any other step
  that is not on offer
* `Builder.compile_of_prepareExecute` — what an execution sends is the compiled statement
-/

namespace TableSql

theorem Operation.guarded_eq_ok_iff {α : Type} {statement : String} {allowed : List Operation}
    {op : Operation} {call : String → Except Error α} {a : α} :
    op.guarded statement allowed call = .ok a ↔
      op ∈ allowed ∧ call (op.context statement) = .ok a := by
  by_cases h : op ∈ allowed
  · rw [guarded_of_mem h]
    exact ⟨fun ha => ⟨h, ha⟩, fun ha => ha.2⟩
  · rw [guarded_of_not_mem h]
    exact ⟨fun ha => absurd ha (by simp), fun ha => absurd ha.1 h⟩

namespace Builder

/-- A kind of statement that makes its calls only where they are on offer. -/
class Guarded (S : Type) (Start Call : outParam Type) [Builder S Start Call] [Named Call] where
  /-- The statement as errors name it. -/
  title : String
  /-- The statement after a call that is on offer. -/
  made : S → (context : String) → Call → Except Error S
  /-- What is asked of a statement before it is sent. -/
  ready : S → (context : String) → Except Error Unit
  apply_eq : ∀ s c, apply s c = (Named.operation c).guarded title (operations s) (made s · c)
  prepareExecute_eq : ∀ s, prepareExecute s = Operation.execute.guarded title (operations s)
    fun context => ready s context >>= fun _ => compile s

instance : Guarded SelectStatement SelectStatement.Start SelectStatement.Call where
  title := SelectStatement.title
  made s context c :=
    (s.perform context c).map fun (s' : SelectStatement) => { s' with stage := c.stage }
  ready s := s.bindings.ensureComplete
  apply_eq s c := by
    show s.apply c = _
    rw [SelectStatement.apply]
    refine congrArg _ (funext fun context => ?_)
    cases s.perform context c <;> rfl
  prepareExecute_eq _ := rfl

instance : Guarded InsertStatement InsertStatement.Start InsertStatement.Call where
  title := InsertStatement.title
  made s context c :=
    (s.perform context c).map fun (s' : InsertStatement) => { s' with stage := c.stage }
  ready _ _ := .ok ()
  apply_eq s c := by
    show s.apply c = _
    rw [InsertStatement.apply]
    refine congrArg _ (funext fun context => ?_)
    cases s.perform context c <;> rfl
  prepareExecute_eq _ := rfl

instance : Guarded UpdateStatement TableRef UpdateStatement.Call where
  title := UpdateStatement.title
  made s context c :=
    (s.perform context c).map fun (s' : UpdateStatement) => { s' with stage := c.stage }
  ready s := s.bindings.ensureComplete
  apply_eq s c := by
    show s.apply c = _
    rw [UpdateStatement.apply]
    refine congrArg _ (funext fun context => ?_)
    cases s.perform context c <;> rfl
  prepareExecute_eq _ := rfl

instance : Guarded DeleteStatement TableRef DeleteStatement.Call where
  title := DeleteStatement.title
  made s context c :=
    (s.perform context c).map fun (s' : DeleteStatement) => { s' with stage := c.stage }
  ready s := s.bindings.ensureComplete
  apply_eq s c := by
    show s.apply c = _
    rw [DeleteStatement.apply]
    refine congrArg _ (funext fun context => ?_)
    cases s.perform context c <;> rfl
  prepareExecute_eq _ := rfl

variable {S Start Call : Type} [Builder S Start Call] [Named Call] [Guarded S Start Call]

variable (S) in
/-- The context that errors of an operation name. -/
def callContext (op : Operation) : String :=
  op.context (Guarded.title S)

variable {s s' : S} {c : Call}

/-- A call that is on offer is made. -/
theorem apply_of_mem (h : Named.operation c ∈ operations s) :
    apply s c = Guarded.made s (callContext S (Named.operation c)) c := by
  rw [Guarded.apply_eq, Operation.guarded_of_mem h]
  rfl

/-- Any other is refused for that, and the caller is told what is on offer. -/
theorem apply_of_not_mem (h : Named.operation c ∉ operations s) :
    apply s c = .error (.invalidState (callContext S (Named.operation c)) (Named.operation c)
      (operations s)) := by
  rw [Guarded.apply_eq, Operation.guarded_of_not_mem h]
  rfl

/-- **A call is accepted if it is on offer and can be made.** -/
theorem apply_eq_ok_iff_made : apply s c = .ok s' ↔ Named.operation c ∈ operations s ∧
    Guarded.made s (callContext S (Named.operation c)) c = .ok s' := by
  rw [Guarded.apply_eq, Operation.guarded_eq_ok_iff]
  rfl

theorem prepareExecute_of_not_mem (h : .execute ∉ operations s) : prepareExecute s =
    .error (.invalidState (callContext S .execute) .execute (operations s)) := by
  rw [Guarded.prepareExecute_eq, Operation.guarded_of_not_mem h]
  rfl

/-- A step that is not on offer is refused for that. -/
theorem outcome_of_not_mem {e : Step Call} (h : e.operation ∉ operations s) :
    outcome s e =
      .error (.invalidState (callContext S e.operation) e.operation (operations s)) := by
  cases e with
  | call c =>
    rw [outcome, apply_of_not_mem h]
    rfl
  | execute answer =>
    rw [outcome, prepareExecute_of_not_mem h]
    rfl

theorem mem_operations_of_ok {e : Step Call} (h : outcome s e = .ok ()) :
    e.operation ∈ operations s := by
  refine Decidable.byContradiction fun hmem => ?_
  rw [outcome_of_not_mem hmem] at h
  cases h

/-- **What an execution sends is the compiled statement.** -/
theorem compile_of_prepareExecute {c : CompiledStatement} (h : prepareExecute s = .ok c) :
    compile s = .ok c := by
  rw [Guarded.prepareExecute_eq, Operation.guarded_eq_ok_iff] at h
  obtain ⟨_, -, h⟩ := Outcome.bind_eq_ok_iff.mp h.2
  exact h

end Builder

end TableSql
