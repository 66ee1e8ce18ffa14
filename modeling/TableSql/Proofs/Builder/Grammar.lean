import Mathlib.Computability.RegularExpressions
import TableSql.Proofs.Builder.Guarded

/-!
# Grammars of calls

Which calls a statement takes depends on the ones that it took before, and a grammar tells which
sequences it takes in all. What is left of the grammar for a statement is determined by the last
operation that it took. The two are tied together by the derivative: what is left behind an
operation is what may follow that operation if it is on offer, and nothing otherwise.

## Main definitions

* `Grammar` — regular expressions over the operations
* `Grammar.runs` — executions, and what may be done again ahead of each
* `Grammar.most` — how often an operation may occur in a word
* `Builder.Staged` — a kind of statement with the grammar that its stages go through
* `Builder.Sound` — steps that are refused for their place alone
* `Builder.Speaks` — what it means that a statement takes a language of calls

## Main results

* `Grammar.count_le_most` — that it occurs no more often
* `Builder.cons_mem_rest_iff` — the first operation of a word is on offer
* `Builder.accepted_append_mem_rest_iff` — what is left after a run goes on from what was accepted
* `Builder.accepted_eq_self_iff` — sound steps are all accepted if they begin a word
* `Builder.speaks_of_start` — a new statement speaks its grammar
-/

namespace TableSql

/-- A regular expression over the operations. -/
abbrev Grammar := RegularExpression Operation

/-- At most one word of a grammar. -/
def Grammar.opt (g : Grammar) : Grammar :=
  1 + g

/-- Any number of bindings, and an execution. -/
def Grammar.run : Grammar :=
  .star (.char .bind) * .char .execute

/-- Any number of executions, each behind an opening or not. -/
def Grammar.runs (opening : Grammar) : Grammar :=
  .star (opt opening * run)

/-- A bound on how often an operation occurs in a word: what is repeated may occur any number of
times, for which two stand here. -/
def Grammar.most (op : Operation) : Grammar → Nat
  | .zero | .epsilon => 0
  | .char a => if a = op then 1 else 0
  | .plus g h => max (most op g) (most op h)
  | .comp g h => most op g + most op h
  | .star g => if most op g = 0 then 0 else 2

/-- **An operation that may occur once occurs once in a word at the most.** -/
theorem Grammar.count_le_most {op : Operation} {g : Grammar} (h : g.most op ≤ 1)
    {w : List Operation} (hw : w ∈ g.matches') : w.count op ≤ g.most op := by
  induction g generalizing w with
  | zero => exact absurd hw (Language.notMem_zero w)
  | epsilon =>
    rw [(Language.mem_one w).mp hw]
    exact Nat.zero_le _
  | char a =>
    have hw : w = [a] := hw
    rw [hw, most, List.count_singleton]
    simp only [beq_iff_eq, le_refl]
  | plus g₁ g₂ ih₁ ih₂ =>
    have hmost : max (most op g₁) (most op g₂) ≤ 1 := h
    obtain ⟨h₁, h₂⟩ := Nat.max_le.mp hmost
    rcases (Language.mem_add _ _ w).mp hw with hw | hw
    · exact (ih₁ h₁ hw).trans (Nat.le_max_left _ _)
    · exact (ih₂ h₂ hw).trans (Nat.le_max_right _ _)
  | comp g₁ g₂ ih₁ ih₂ =>
    have hmost : most op g₁ + most op g₂ ≤ 1 := h
    obtain ⟨u, hu, v, hv, rfl⟩ := Language.mem_mul.mp hw
    rw [List.count_append]
    exact Nat.add_le_add (ih₁ (by omega) hu) (ih₂ (by omega) hv)
  | star g ih =>
    rw [most] at h
    split at h
    next hzero =>
      -- none in a part, so none in a row of parts
      obtain ⟨parts, rfl, hparts⟩ := Language.mem_kstar.mp hw
      rw [most, if_pos hzero, Nat.le_zero, List.count_eq_zero]
      intro hmem
      obtain ⟨part, hpart, hop⟩ := List.mem_flatten.mp hmem
      have hcount := ih (by omega) (hparts part hpart)
      rw [hzero, Nat.le_zero, List.count_eq_zero] at hcount
      exact hcount hop
    next => exact absurd h (by decide)

namespace Builder

/-- A kind of statement that goes through the stages of a grammar. -/
class Staged (S : Type) (Start Call : outParam Type) [Builder S Start Call] [Named Call]
    [Guarded S Start Call] where
  /-- The sequences of operations that a new statement may take. -/
  grammar : Start → Grammar
  /-- What is left of them for a statement. -/
  rest : S → Grammar
  /-- What is left of them behind an operation. -/
  follow : Operation → Grammar
  rest_start : ∀ (x : Start) (s : S), start x = .ok s → (rest s).matches' = (grammar x).matches'
  rest_apply : ∀ (s s' : S) (c : Call), apply s c = .ok s' → rest s' = follow (Named.operation c)
  rest_executed : ∀ s : S, rest (executed s) = follow .execute
  matches'_deriv_rest : ∀ (s : S) (op : Operation),
    ((rest s).deriv op).matches' = if op ∈ operations s then (follow op).matches' else 0
  exists_mem_rest : ∀ s : S, ∃ w, w ∈ (rest s).matches'
  exists_mem_follow : ∀ op : Operation, ∃ w, w ∈ (follow op).matches'

variable {S Start Call : Type} [Builder S Start Call] [Named Call]

/-- **The steps are refused for their place alone.** Where a step is allowed, its argument is taken,
and an execution succeeds. -/
def Sound (s : S) : List (Step Call) → Prop
  | [] => True
  | e :: more => (e.operation ∈ operations s → outcome s e = .ok ()) ∧ Sound (step s e) more

/-- **A statement speaks a language of calls.** -/
structure Speaks (s : S) (title : String) (words : Language Operation) : Prop where
  /-- Steps that are refused for their place alone are all accepted if they begin a word, and only
  then. -/
  accepted_iff : ∀ steps, Sound s steps →
    (accepted s steps = steps ↔ ∃ w ∈ words, steps.map Step.operation <+: w)
  /-- The calls on offer are those that go on with a word, after any run. -/
  operations_iff : ∀ steps op, op ∈ operations (after s steps) ↔
    ∃ w ∈ words, (accepted s steps).map Step.operation ++ [op] <+: w
  /-- A step that goes on with no word is refused for that, whatever its argument, and is told what
  is on offer. -/
  refused : ∀ steps e,
    (¬ ∃ w ∈ words, (accepted s steps).map Step.operation ++ [e.operation] <+: w) →
    outcome (after s steps) e = .error (.invalidState (e.operation.context title) e.operation
      (operations (after s steps)))
  /-- A step that is refused, for whatever reason, leaves the statement as it was. -/
  unmoved : ∀ steps e err, outcome (after s steps) e = .error err →
    after s (steps ++ [e]) = after s steps

variable [Guarded S Start Call] [Staged S Start Call]

open Staged (rest follow)

/-! ### One operation -/

/-- A word that is left begins with an operation on offer, and goes on with what may follow it. -/
theorem cons_mem_rest_iff {s : S} {op : Operation} {w : List Operation} :
    op :: w ∈ (rest s).matches' ↔ op ∈ operations s ∧ w ∈ (follow S op).matches' := by
  rw [← RegularExpression.rmatch_iff_matches', RegularExpression.rmatch,
    RegularExpression.rmatch_iff_matches', Staged.matches'_deriv_rest]
  by_cases h : op ∈ operations s
  · rw [if_pos h]
    exact (and_iff_right h).symm
  · rw [if_neg h]
    exact iff_of_false (Language.notMem_zero w) fun hw => h hw.1

/-- What is on offer begins a word that is left. -/
theorem mem_operations_iff {s : S} {op : Operation} :
    op ∈ operations s ↔ ∃ w, op :: w ∈ (rest s).matches' := by
  constructor
  · intro h
    obtain ⟨w, hw⟩ := Staged.exists_mem_follow (S := S) op
    exact ⟨w, cons_mem_rest_iff.mpr ⟨h, hw⟩⟩
  · rintro ⟨w, hw⟩
    exact (cons_mem_rest_iff.mp hw).1

/-! ### One step -/

/-- An accepted step leaves what may follow its operation. -/
theorem rest_step {s : S} {e : Step Call} (h : outcome s e = .ok ()) :
    rest (step s e) = follow S e.operation := by
  cases e with
  | call c => exact Staged.rest_apply s _ c (apply_of_ok h)
  | execute answer =>
    rw [(prepareExecute_of_ok h).2]
    exact Staged.rest_executed s

/-- What is left before an accepted step is what is left after it, with its operation in front. -/
theorem mem_rest_step_iff {s : S} {e : Step Call} (h : outcome s e = .ok ())
    {w : List Operation} :
    w ∈ (rest (step s e)).matches' ↔ e.operation :: w ∈ (rest s).matches' := by
  rw [rest_step h, cons_mem_rest_iff]
  exact (and_iff_right (mem_operations_of_ok h)).symm

/-! ### Runs -/

/-- **What is left after a run goes on from what was accepted.** Refused steps leave no trace. -/
theorem accepted_append_mem_rest_iff {s : S} {steps : List (Step Call)} {w : List Operation} :
    (accepted s steps).map Step.operation ++ w ∈ (rest s).matches' ↔
      w ∈ (rest (after s steps)).matches' := by
  induction steps generalizing s with
  | nil => rfl
  | cons e more ih =>
    cases h : outcome s e with
    | ok _ =>
      rw [accepted_cons_of_ok h, List.map_cons, List.cons_append, ← mem_rest_step_iff h]
      exact ih
    | error err =>
      rw [accepted_cons_of_error h, after_cons_of_error h]
      exact ih

/-- Accepted steps begin a word. -/
theorem exists_mem_rest_accepted_prefix (s : S) (steps : List (Step Call)) :
    ∃ w ∈ (rest s).matches', (accepted s steps).map Step.operation <+: w := by
  obtain ⟨w, hw⟩ := Staged.exists_mem_rest (after s steps)
  exact ⟨_, accepted_append_mem_rest_iff.mpr hw, List.prefix_append _ _⟩

/-- What the grammar has once at the most is accepted once at the most. -/
theorem count_accepted_le {x : Start} {s : S} (h : start x = .ok s) {op : Operation}
    (hmost : (Staged.grammar S x).most op ≤ 1) (steps : List (Step Call)) :
    ((accepted s steps).map Step.operation).count op ≤ 1 := by
  obtain ⟨w, hw, hprefix⟩ := exists_mem_rest_accepted_prefix s steps
  rw [Staged.rest_start x s h] at hw
  have hcount := hprefix.sublist.count_le op
  exact hcount.trans ((Grammar.count_le_most hmost hw).trans hmost)

/-- **Sound steps are all accepted if they begin a word.** -/
theorem accepted_eq_self_iff {s : S} {steps : List (Step Call)} (hsound : Sound s steps) :
    accepted s steps = steps ↔
      ∃ w ∈ (rest s).matches', steps.map Step.operation <+: w := by
  constructor
  · intro h
    have hword := exists_mem_rest_accepted_prefix s steps
    rwa [h] at hword
  · rintro ⟨_, hw, v, rfl⟩
    induction steps generalizing s with
    | nil => rfl
    | cons e more ih =>
      obtain ⟨hfirst, hmore⟩ := hsound
      have h : outcome s e = .ok () := hfirst (cons_mem_rest_iff.mp hw).1
      rw [accepted_cons_of_ok h, ih hmore ((mem_rest_step_iff h).mpr hw)]

/-- After any run, what is on offer goes on with a word. -/
theorem mem_operations_after_iff {s : S} {steps : List (Step Call)} {op : Operation} :
    op ∈ operations (after s steps) ↔
      ∃ w ∈ (rest s).matches', (accepted s steps).map Step.operation ++ [op] <+: w := by
  rw [mem_operations_iff]
  constructor
  · rintro ⟨w, hw⟩
    refine ⟨_, accepted_append_mem_rest_iff.mpr hw, ?_⟩
    exact ⟨w, by simp⟩
  · rintro ⟨_, hw, v, rfl⟩
    rw [List.append_assoc] at hw
    exact ⟨v, accepted_append_mem_rest_iff.mp hw⟩

/-- **A new statement speaks its grammar.** -/
theorem speaks_of_start {x : Start} {s : S} (h : start x = .ok s) :
    Speaks s (Guarded.title S) (Staged.grammar S x).matches' := by
  rw [← Staged.rest_start x s h]
  constructor
  · intro steps
    exact accepted_eq_self_iff
  · intro steps op
    exact mem_operations_after_iff
  · intro steps e hnone
    exact outcome_of_not_mem fun hmem => hnone (mem_operations_after_iff.mp hmem)
  · intro steps e err herr
    rw [after_append]
    exact step_of_error herr

end Builder

end TableSql
