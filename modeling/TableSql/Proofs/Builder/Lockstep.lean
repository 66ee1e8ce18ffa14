import TableSql.Proofs.Builder.History
import TableSql.Proofs.Outcome

/-!
# Statements in lockstep

Two statements may be stored differently and still be the same to their caller. To show this, a
relation between statements is given that no call and no execution leads out of, and that is not
seen in what a caller gets from a single statement. From then on nothing tells the two apart, in
whatever way they are used.

## Main definitions

* `Builder.Lockstep` — a relation that calls and executions keep and that a caller does not see
* `Builder.Indistinct` — two statements that nothing tells apart from here on

## Main results

* `Builder.Lockstep.step`, `Builder.Lockstep.after` — related statements stay related
* `Builder.Lockstep.indistinct` — nothing tells related statements apart
-/

namespace TableSql.Builder

variable {S Start Call : Type} [Builder S Start Call]

/-- **A relation that is kept and not seen.** Of an execution that can not be prepared it is not
seen why: a report may list the same names in another order. -/
structure Lockstep (R : S → S → Prop) : Prop where
  /-- A call fails with the same error, or leads to related statements. -/
  apply : ∀ s t, R s t → ∀ c, Outcome.Related R (Builder.apply s c) (Builder.apply t c)
  compile : ∀ s t, R s t → Builder.compile s = Builder.compile t
  prepareExecute : ∀ s t, R s t → ∀ c,
    Builder.prepareExecute s = .ok c ↔ Builder.prepareExecute t = .ok c
  executed : ∀ s t, R s t → R (Builder.executed s) (Builder.executed t)

/-- **Nothing tells the two statements apart from here on**, whatever steps are taken. -/
structure Indistinct (s t : S) : Prop where
  /-- The same steps are accepted. -/
  accepted : ∀ steps, Builder.accepted s steps = Builder.accepted t steps
  /-- The caller is told the same of a call, and of a binding in particular. -/
  told : ∀ steps c, outcome (after s steps) (.call c) = outcome (after t steps) (.call c)
  compile : ∀ steps, Builder.compile (after s steps) = Builder.compile (after t steps)
  /-- An execution sends the same, if anything. -/
  sent : ∀ steps c, Builder.prepareExecute (after s steps) = .ok c ↔
    Builder.prepareExecute (after t steps) = .ok c

namespace Lockstep

variable {R : S → S → Prop} (h : Lockstep R) {s t : S}

include h

theorem outcome_call (hst : R s t) (c : Call) : outcome s (.call c) = outcome t (.call c) :=
  (h.apply s t hst c).map_eq fun _ _ _ => rfl

/-- A step is accepted by both or by none. -/
theorem outcome_eq_ok_iff (hst : R s t) (e : Step Call) :
    outcome s e = .ok () ↔ outcome t e = .ok () := by
  cases e with
  | call c => rw [h.outcome_call hst]
  | execute answer =>
    have hprepare := h.prepareExecute s t hst
    cases hs : Builder.prepareExecute s with
    | ok c => simp only [outcome, hs, (hprepare c).mp hs]
    | error e =>
      cases ht : Builder.prepareExecute t with
      | ok c => cases hs.symm.trans ((hprepare c).mpr ht)
      | error e' => simp only [outcome, hs, ht, reduceCtorEq]

theorem step (hst : R s t) (e : Step Call) : R (Builder.step s e) (Builder.step t e) := by
  cases e with
  | call c =>
    rcases (h.apply s t hst c).cases with ⟨e, hs, ht⟩ | ⟨s', t', hs, ht, hst'⟩
    · rw [step_call_of_error hs, step_call_of_error ht]
      exact hst
    · rw [step_call_of_ok hs, step_call_of_ok ht]
      exact hst'
  | execute answer =>
    have hok := h.outcome_eq_ok_iff hst (.execute answer)
    cases hs : outcome s (.execute answer) with
    | ok u =>
      rw [(prepareExecute_of_ok hs).2, (prepareExecute_of_ok (hok.mp hs)).2]
      exact h.executed s t hst
    | error e =>
      cases ht : outcome t (.execute answer) with
      | ok u => cases hs.symm.trans (hok.mpr ht)
      | error e' =>
        rw [step_of_error hs, step_of_error ht]
        exact hst

theorem after (hst : R s t) (steps : List (Step Call)) :
    R (Builder.after s steps) (Builder.after t steps) := by
  induction steps generalizing s t with
  | nil => exact hst
  | cons e rest ih => exact ih (h.step hst e)

theorem accepted (hst : R s t) (steps : List (Step Call)) :
    Builder.accepted s steps = Builder.accepted t steps := by
  induction steps generalizing s t with
  | nil => rfl
  | cons e rest ih =>
    have hrest := ih (h.step hst e)
    have hok := h.outcome_eq_ok_iff hst e
    cases hs : outcome s e with
    | ok u => rw [accepted_cons_of_ok hs, accepted_cons_of_ok (hok.mp hs), hrest]
    | error err =>
      cases ht : outcome t e with
      | ok u => cases hs.symm.trans (hok.mpr ht)
      | error err' =>
        rw [step_of_error hs, step_of_error ht] at hrest
        rw [accepted_cons_of_error hs, accepted_cons_of_error ht, hrest]

/-- **Nothing tells related statements apart.** -/
theorem indistinct (hst : R s t) : Indistinct s t where
  accepted := h.accepted hst
  told steps c := h.outcome_call (h.after hst steps) c
  compile steps := h.compile _ _ (h.after hst steps)
  sent steps := h.prepareExecute _ _ (h.after hst steps)

end Lockstep

end TableSql.Builder
