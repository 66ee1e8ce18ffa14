import Mathlib.Data.List.DropRight
import TableSql.Proofs.Builder.Statements

/-!
# Histories

What is left of a run once its refused calls and failed executions are taken out of it. Those change
nothing, so the statement after a run depends on the rest alone.

## Main definitions

* `Builder.Named` — a kind of call that tells which operation it is
* `Builder.accepted` — the steps of a run that were not refused
* `Builder.calls` — the calls among some steps
* `Builder.callsSinceExecution` — the accepted calls behind the last successful execution

## Main results

* `Builder.step_of_error` — a refused step changes nothing
* `Builder.step_cases` — all that a step can do
* `Builder.accepted_append` — a run that goes on adds to what was accepted
* `Builder.accepted_concat_eq_self_iff` — a run that nothing was refused in
* `Builder.after_accepted` — the accepted steps alone lead to the same statement
* `Builder.exists_step_of_perform` — an execution on a session is told what a step is told
-/

namespace TableSql.Builder

/-- A kind of call that tells which operation it is. -/
class Named (Call : Type) where
  operation : Call → Operation

instance : Named SelectStatement.Call := ⟨SelectStatement.Call.operation⟩

instance : Named InsertStatement.Call := ⟨InsertStatement.Call.operation⟩

instance : Named UpdateStatement.Call := ⟨UpdateStatement.Call.operation⟩

instance : Named DeleteStatement.Call := ⟨DeleteStatement.Call.operation⟩

variable {S Start Call : Type} [Builder S Start Call]

/-- The step without its argument. -/
def Step.operation [Named Call] : Step Call → Operation
  | .call c => Named.operation c
  | .execute _ => .execute

/-- The calls among some steps, in order. -/
def calls (steps : List (Step Call)) : List Call :=
  steps.filterMap fun
    | .call c => some c
    | .execute _ => none

/-- The steps that were not refused, in order. -/
def accepted (s : S) : List (Step Call) → List (Step Call)
  | [] => []
  | e :: rest =>
    match outcome s e with
    | .ok _ => e :: accepted (step s e) rest
    | .error _ => accepted (step s e) rest

/-- The step is a call. -/
def Step.isCall : Step Call → Bool
  | .call _ => true
  | .execute _ => false

/-- The calls of a run that were accepted since its last successful execution. -/
def callsSinceExecution (s : S) (steps : List (Step Call)) : List Call :=
  calls ((accepted s steps).rtakeWhile Step.isCall)

theorem calls_append (steps more : List (Step Call)) :
    calls (steps ++ more) = calls steps ++ calls more :=
  List.filterMap_append

theorem mem_calls_iff {c : Call} {steps : List (Step Call)} :
    c ∈ calls steps ↔ .call c ∈ steps := by
  rw [calls, List.mem_filterMap]
  constructor
  · rintro ⟨e, he, h⟩
    cases e with
    | call c' =>
      cases h
      exact he
    | execute answer => cases h
  · intro h
    exact ⟨_, h, rfl⟩

/-! ### Single steps -/

section Step

variable {s : S} {e : Step Call}

/-- **A refused step changes nothing.** -/
theorem step_of_error {err : Error} (h : outcome s e = .error err) : step s e = s := by
  cases e with
  | call c =>
    rw [outcome] at h
    cases happly : apply s c with
    | ok s' =>
      rw [happly] at h
      cases h
    | error err => exact step_call_of_error happly
  | execute answer =>
    rw [step, h]
    rfl

/-- An accepted call gives the statement that it says. -/
theorem apply_of_ok {c : Call} (h : outcome s (.call c) = .ok ()) :
    apply s c = .ok (step s (.call c)) := by
  rw [outcome] at h
  cases happly : apply s c with
  | ok s' => rw [step_call_of_ok happly]
  | error err =>
    rw [happly] at h
    cases h

/-- A successful execution was prepared, and moves the statement on. -/
theorem prepareExecute_of_ok {answer : Except Error Reply}
    (h : outcome s (.execute answer) = .ok ()) :
    (∃ c, prepareExecute s = .ok c) ∧ step s (.execute answer) = executed s := by
  have hstep : step s (.execute answer) = executed s := by
    rw [step, h]
    rfl
  refine ⟨?_, hstep⟩
  rw [outcome] at h
  cases hprepare : prepareExecute s with
  | ok c => exact ⟨c, rfl⟩
  | error err =>
    rw [hprepare] at h
    cases h

theorem accepted_cons_of_ok (h : outcome s e = .ok ()) (rest : List (Step Call)) :
    accepted s (e :: rest) = e :: accepted (step s e) rest := by
  rw [accepted, h]

theorem accepted_cons_of_error {err : Error} (h : outcome s e = .error err)
    (rest : List (Step Call)) : accepted s (e :: rest) = accepted s rest := by
  rw [accepted, h, step_of_error h]

theorem after_cons_of_error {err : Error} (h : outcome s e = .error err)
    (rest : List (Step Call)) : after s (e :: rest) = after s rest :=
  congrArg (after · rest) (step_of_error h)

/-- **All that a step can do**: nothing where it is refused, what the call says, or the move of a
prepared statement behind its execution. -/
theorem step_cases (s : S) (e : Step Call) :
    (∃ err, outcome s e = .error err) ∧ step s e = s ∨
    (∃ c, e = .call c ∧ outcome s (.call c) = .ok () ∧ apply s c = .ok (step s (.call c))) ∨
    ∃ answer, e = .execute answer ∧ outcome s (.execute answer) = .ok () ∧
      (∃ c, prepareExecute s = .ok c) ∧ step s (.execute answer) = executed s := by
  cases h : outcome s e with
  | error err => exact .inl ⟨⟨err, rfl⟩, step_of_error h⟩
  | ok _ =>
    cases e with
    | call c => exact .inr (.inl ⟨c, rfl, h, apply_of_ok h⟩)
    | execute answer => exact .inr (.inr ⟨answer, rfl, h, prepareExecute_of_ok h⟩)

end Step

/-! ### Runs -/

theorem after_append (s : S) (steps more : List (Step Call)) :
    after s (steps ++ more) = after (after s steps) more :=
  List.foldl_append

theorem accepted_append (s : S) (steps more : List (Step Call)) :
    accepted s (steps ++ more) = accepted s steps ++ accepted (after s steps) more := by
  induction steps generalizing s with
  | nil => rfl
  | cons e rest ih =>
    rw [List.cons_append, accepted, accepted, ih]
    cases outcome s e <;> rfl

theorem accepted_sublist (s : S) (steps : List (Step Call)) : (accepted s steps).Sublist steps := by
  induction steps generalizing s with
  | nil => exact .slnil
  | cons e rest ih =>
    rw [accepted]
    cases outcome s e with
    | ok _ => exact (ih (step s e)).cons_cons e
    | error err => exact (ih (step s e)).cons e

theorem after_concat (s : S) (steps : List (Step Call)) (e : Step Call) :
    after s (steps ++ [e]) = step (after s steps) e :=
  after_append s steps [e]

/-- Steps are all accepted if those before the last are, and then the last one. -/
theorem accepted_concat_eq_self_iff {s : S} {steps : List (Step Call)} {e : Step Call} :
    accepted s (steps ++ [e]) = steps ++ [e] ↔
      accepted s steps = steps ∧ outcome (after s steps) e = .ok () := by
  rw [accepted_append]
  cases h : outcome (after s steps) e with
  | ok u =>
    rw [accepted_cons_of_ok h, accepted, List.append_left_inj]
    exact (and_iff_left rfl).symm
  | error err =>
    rw [accepted_cons_of_error h, accepted, List.append_nil]
    refine iff_of_false (fun hall => ?_) nofun
    have hlength := (accepted_sublist s steps).length_le
    rw [hall, List.length_append] at hlength
    exact Nat.not_succ_le_self _ hlength

/-- A refused step is not among the calls since the last successful execution. -/
theorem callsSinceExecution_concat_of_error {s : S} {steps : List (Step Call)} {e : Step Call}
    {err : Error} (h : outcome (after s steps) e = .error err) :
    callsSinceExecution s (steps ++ [e]) = callsSinceExecution s steps := by
  rw [callsSinceExecution, accepted_append, accepted_cons_of_error h, accepted, List.append_nil]
  rfl

/-- An accepted call is the last of them. -/
theorem callsSinceExecution_concat_of_ok {s : S} {steps : List (Step Call)} {c : Call}
    (h : outcome (after s steps) (.call c) = .ok ()) :
    callsSinceExecution s (steps ++ [.call c]) = callsSinceExecution s steps ++ [c] := by
  rw [callsSinceExecution, accepted_append, accepted_cons_of_ok h, accepted,
    List.rtakeWhile_concat_pos _ _ _ rfl, calls_append]
  rfl

/-- The accepted steps alone lead to the same statement. -/
theorem after_accepted (s : S) (steps : List (Step Call)) :
    after s (accepted s steps) = after s steps := by
  induction steps generalizing s with
  | nil => rfl
  | cons e rest ih =>
    show _ = after (step s e) rest
    rw [accepted, ← ih (step s e)]
    cases h : outcome s e with
    | ok _ => rfl
    | error err => rw [step_of_error h]

/-! ### Executions on a session -/

/-- An execution on a session is a step, and its caller is told what that of the step is told. -/
theorem exists_step_of_perform {σ α : Type} (server : Server σ) (session : Session σ)
    (read : Reply → α) (s : S) :
    ∃ a, outcome s (.execute a) =
        ((session.perform server (prepareExecute s) read).1.map fun _ => ()) ∧
      step s (.execute a) =
        afterSuccess (session.perform server (prepareExecute s) read).1 s (executed s) := by
  refine ⟨answer server session (prepareExecute s), ?_, (step_execute server session read s).symm⟩
  rw [outcome]
  cases hprepare : prepareExecute s with
  | error e => rfl
  | ok c =>
    rw [answer, Session.perform]
    rcases session.run server c with ⟨_ | _, session'⟩ <;> rfl

end TableSql.Builder
