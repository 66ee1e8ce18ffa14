import TableSql.Statement.Execution

/-!
# Builders

The four statements on a table are built and executed in the same way. A call is accepted and gives
a new statement, or is refused and leaves the statement as it was. An execution moves the statement
on if the statement could be prepared and the server answered without an error. What the server
answers is not known here, so the answer is part of the step.

## Answers as part of a step

A run is a list of steps, and an execution carries with it whether the server answered. Runs need no
server and no session that way, and what is proved of all runs holds whatever is answered.
`Builder.step_execute` is where the two meet: an execution on a session is the step with the answer
that its server gave.

## Main definitions

* `Builder` — a kind of statement with its ways to be made, called, compiled and executed
* `Builder.Step`, `Builder.step`, `Builder.after` — a call or an execution, the statement after one
  and after many
* `Builder.Reachable` — the statements that some steps lead to

## Main results

* `Builder.kept_by_run` — what accepted calls and successful executions keep is kept by every run
* `Builder.Reachable.induction` — what holds of new statements and is kept by accepted calls and by
  successful executions holds of all reachable statements
* `Builder.reachable_after` — any steps lead to a reachable statement
* `Builder.step_execute` — an execution on a session is a step
-/

namespace TableSql

/-- A kind of statement that is built by calls. -/
class Builder (S : Type) (Start Call : outParam Type) where
  /-- A new statement. -/
  start : Start → Except Error S
  /-- The statement after a call. -/
  apply : S → Call → Except Error S
  /-- The calls that may come next. -/
  operations : S → List Operation
  /-- The placeholders without a value. -/
  missing : S → List String
  /-- The statement as it is sent. -/
  compile : S → Except Error CompiledStatement
  /-- The statement as an execution sends it. -/
  prepareExecute : S → Except Error CompiledStatement
  /-- The statement after a successful execution. -/
  executed : S → S

namespace Builder

/-- A call on a statement, or its execution and what the server answers to that. -/
inductive Step (Call : Type) where
  | call (c : Call)
  | execute (answer : Except Error Reply)

variable {S Start Call : Type} [Builder S Start Call]

/-- What the caller is told of a step. -/
def outcome (s : S) : Step Call → Except Error Unit
  | .call c => (apply s c).map fun _ => ()
  | .execute answer =>
    match prepareExecute s with
    | .ok _ => answer.map fun _ => ()
    | .error e => .error e

/-- The statement after a step. -/
def step (s : S) : Step Call → S
  | .call c =>
    match apply s c with
    | .ok s' => s'
    | .error _ => s
  | .execute answer => afterSuccess (outcome s (.execute answer)) s (executed s)

/-- The statement after some steps. -/
def after (s : S) (steps : List (Step Call)) : S :=
  steps.foldl step s

/-! ### Reachable statements -/

/-- Some steps from a new statement lead to this one. -/
inductive Reachable : S → Prop where
  | start {x : Start} {s : S} : Builder.start x = .ok s → Reachable s
  | step {s : S} (e : Step Call) : Reachable s → Reachable (step s e)

/-- Any steps from a reachable statement lead to a reachable one. -/
theorem reachable_after {s : S} (h : Reachable s) (steps : List (Step Call)) :
    Reachable (after s steps) := by
  induction steps generalizing s with
  | nil => exact h
  | cons e rest ih => exact ih (h.step e)

theorem step_call_of_ok {s s' : S} {c : Call} (h : apply s c = .ok s') :
    step s (.call c) = s' := by
  simp only [step, h]

theorem step_call_of_error {s : S} {c : Call} {e : Error} (h : apply s c = .error e) :
    step s (.call c) = s := by
  simp only [step, h]

/-- An execution moves a prepared statement on, or leaves the statement as it was. -/
theorem step_execute_eq (s : S) (answer : Except Error Reply) :
    (∃ c, prepareExecute s = .ok c) ∧ step s (.execute answer) = executed s ∨
      step s (.execute answer) = s := by
  rw [step, outcome]
  cases prepareExecute s with
  | ok c =>
    cases answer with
    | ok reply => exact .inl ⟨⟨c, rfl⟩, rfl⟩
    | error e => exact .inr rfl
  | error e => exact .inr rfl

/-- What accepted calls and successful executions keep is kept by every step. -/
theorem kept_by_step {P : S → Prop} (hcall : ∀ s c s', P s → apply s c = .ok s' → P s')
    (hexecuted : ∀ s c, P s → prepareExecute s = .ok c → P (executed s)) {s : S} (h : P s)
    (e : Step Call) : P (step s e) := by
  cases e with
  | call c =>
    cases happly : apply s c with
    | ok s' =>
      rw [step_call_of_ok happly]
      exact hcall s c s' h happly
    | error e =>
      rw [step_call_of_error happly]
      exact h
  | execute answer =>
    rcases step_execute_eq s answer with ⟨⟨c, hc⟩, hstep⟩ | hstep
    · rw [hstep]
      exact hexecuted s c h hc
    · rw [hstep]
      exact h

/-- It is kept by every run. -/
theorem kept_by_run {P : S → Prop} (hcall : ∀ s c s', P s → apply s c = .ok s' → P s')
    (hexecuted : ∀ s c, P s → prepareExecute s = .ok c → P (executed s)) {s : S} (h : P s)
    (steps : List (Step Call)) : P (after s steps) := by
  induction steps generalizing s with
  | nil => exact h
  | cons e rest ih => exact ih (kept_by_step hcall hexecuted h e)

/-- **Invariants.** What holds of new statements and is kept by accepted calls and by successful
executions holds of every reachable statement. -/
theorem Reachable.induction {P : S → Prop} (hstart : ∀ x s, Builder.start x = .ok s → P s)
    (hcall : ∀ s c s', P s → apply s c = .ok s' → P s')
    (hexecuted : ∀ s c, P s → prepareExecute s = .ok c → P (executed s))
    {s : S} (h : Reachable s) : P s := by
  induction h with
  | start hx => exact hstart _ _ hx
  | step e _ ih => exact kept_by_step hcall hexecuted ih e

/-! ### Executions -/

variable {σ α : Type}

/-- What a server answers to a prepared statement. -/
def answer (server : Server σ) (session : Session σ) :
    Except Error CompiledStatement → Except Error Reply
  | .ok c => (session.run server c).1
  | .error e => .error e

/-- An execution on a session is a step. -/
theorem step_execute (server : Server σ) (session : Session σ) (read : Reply → α) (s : S) :
    afterSuccess (session.perform server (prepareExecute s) read).1 s (executed s) =
      step s (.execute (answer server session (prepareExecute s))) := by
  rw [step, outcome]
  cases hprepare : prepareExecute s with
  | error e => rfl
  | ok c =>
    rw [answer, Session.perform]
    rcases session.run server c with ⟨_ | _, session'⟩ <;> rfl

theorem Reachable.perform (server : Server σ) (session : Session σ) (read : Reply → α) {s : S}
    (h : Reachable s) :
    Reachable (afterSuccess (session.perform server (prepareExecute s) read).1 s (executed s)) := by
  rw [step_execute]
  exact h.step _

end Builder

end TableSql
