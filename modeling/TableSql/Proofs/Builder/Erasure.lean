import TableSql.Proofs.Builder.Basic
import TableSql.Proofs.Fragment.Erasure

/-!
# Runs without their literals

Two runs are the same but for their literals if erasing the literals makes them equal. A kind of
statement is erasable if calls and views do not look at literals: what they do to an erased
statement is what they do to the statement, erased. Then the transcript of a run is that of the
erased run, and runs that are the same but for their literals have the same transcript.

## Why erasing

Two runs could be compared step by step, with a relation between values, another between bindings,
and so on up to statements. Erasing is a function instead. Each function of the model then has one
equation, and two runs are compared only once, at the end.

## Main definitions

* `Builder.Erasable` — calls and views that do not look at literals
* `Builder.View`, `Builder.observe` — what can be seen of a statement without its values
* `Builder.transcript` — what the caller is told of each step, and sees after it

## Main results

* `Builder.transcript_erase`, `Builder.after_erase` — an erased run
* `Builder.transcript_eq`, `Builder.after_eq` — two runs that are the same but for their literals
-/

namespace TableSql.Builder

/-- A call without its literals. The server's answers stay the same. -/
def Step.erase {Call : Type} (eraseCall : Call → Call) : Step Call → Step Call
  | .call c => .call (eraseCall c)
  | .execute answer => .execute answer

/-- A kind of statement that does not look at literals. -/
class Erasable (S : Type) (Start Call : outParam Type) [Builder S Start Call] where
  eraseStart : Start → Start
  eraseCall : Call → Call
  erase : S → S
  start_erase : ∀ x : Start, start (eraseStart x) = (start x).map erase
  apply_erase : ∀ (s : S) (c : Call), apply (erase s) (eraseCall c) = (apply s c).map erase
  operations_erase : ∀ s : S, operations (erase s) = operations s
  missing_erase : ∀ s : S, missing (erase s) = missing s
  compile_erase : ∀ s : S, compile (erase s) = (compile s).map CompiledStatement.erase
  prepareExecute_erase : ∀ s : S,
    prepareExecute (erase s) = (prepareExecute s).map CompiledStatement.erase
  executed_erase : ∀ s : S, executed (erase s) = erase (executed s)

/-- What can be seen of a statement without its values: the calls that may come next, the
placeholders without a value, and the error or the kind, text and number of values of what is
sent. -/
structure View where
  operations : List Operation
  missing : List String
  compiled : Except Error (StatementKind × String × Nat)

variable {S Start Call : Type} [Builder S Start Call]

/-- What can be seen of a statement. -/
def observe (s : S) : View :=
  ⟨operations s, missing s, (compile s).map fun c => (c.kind, c.sql, c.params.length)⟩

/-- For each step, what the caller is told and then sees. -/
def transcript (s : S) : List (Step Call) → List (Except Error Unit × View)
  | [] => []
  | e :: rest => (outcome s e, observe (step s e)) :: transcript (step s e) rest

variable [Erasable S Start Call]

/-- The call or execution without its literals. -/
def eraseStep (S : Type) {Start Call : Type} [Builder S Start Call] [Erasable S Start Call] :
    Step Call → Step Call :=
  Step.erase (Erasable.eraseCall S)

theorem observe_erase (s : S) : observe (Erasable.erase s) = observe s := by
  rw [observe, Erasable.operations_erase, Erasable.missing_erase, Erasable.compile_erase, observe]
  cases compile s with
  | ok c => simp [CompiledStatement.erase]
  | error e => rfl

theorem outcome_erase (s : S) (e : Step Call) :
    outcome (Erasable.erase s) (eraseStep S e) = outcome s e := by
  cases e with
  | call c =>
    show (apply (Erasable.erase s) (Erasable.eraseCall S c)).map _ = (apply s c).map _
    rw [Erasable.apply_erase]
    cases apply s c <;> rfl
  | execute answer =>
    rw [eraseStep, Step.erase, outcome, outcome, Erasable.prepareExecute_erase]
    cases prepareExecute s <;> rfl

theorem step_erase (s : S) (e : Step Call) :
    step (Erasable.erase s) (eraseStep S e) = Erasable.erase (step s e) := by
  cases e with
  | call c =>
    rw [eraseStep, Step.erase]
    have happly := Erasable.apply_erase s c
    cases h : apply s c with
    | ok s' =>
      rw [h] at happly
      rw [step_call_of_ok happly, step_call_of_ok h]
    | error e =>
      rw [h] at happly
      rw [step_call_of_error happly, step_call_of_error h]
  | execute answer =>
    have houtcome := outcome_erase s (.execute answer)
    rw [eraseStep, Step.erase] at houtcome ⊢
    rw [step, houtcome, Erasable.executed_erase, step]
    cases outcome s (.execute answer) <;> rfl

theorem after_erase (s : S) (steps : List (Step Call)) :
    after (Erasable.erase s) (steps.map (eraseStep S)) = Erasable.erase (after s steps) := by
  induction steps generalizing s with
  | nil => rfl
  | cons e rest ih =>
    show after (step (Erasable.erase s) (eraseStep S e)) _ = Erasable.erase (after (step s e) rest)
    rw [step_erase]
    exact ih (step s e)

theorem transcript_erase (s : S) (steps : List (Step Call)) :
    transcript (Erasable.erase s) (steps.map (eraseStep S)) = transcript s steps := by
  induction steps generalizing s with
  | nil => rfl
  | cons e rest ih =>
    rw [List.map_cons, transcript, transcript, outcome_erase, step_erase, observe_erase, ih]

/-! ### Two runs -/

theorem observe_eq {s t : S} (h : Erasable.erase s = Erasable.erase t) : observe s = observe t := by
  rw [← observe_erase s, h, observe_erase]

theorem transcript_eq {s t : S} {xs ys : List (Step Call)} (h : Erasable.erase s = Erasable.erase t)
    (hsteps : xs.map (eraseStep S) = ys.map (eraseStep S)) : transcript s xs = transcript t ys := by
  rw [← transcript_erase s, h, hsteps, transcript_erase]

theorem after_eq {s t : S} {xs ys : List (Step Call)} (h : Erasable.erase s = Erasable.erase t)
    (hsteps : xs.map (eraseStep S) = ys.map (eraseStep S)) :
    Erasable.erase (after s xs) = Erasable.erase (after t ys) := by
  rw [← after_erase s, h, hsteps, after_erase]

theorem compile_eq {s t : S} (h : Erasable.erase s = Erasable.erase t) :
    (compile s).map CompiledStatement.erase = (compile t).map CompiledStatement.erase := by
  rw [← Erasable.compile_erase, h, Erasable.compile_erase]

end TableSql.Builder
