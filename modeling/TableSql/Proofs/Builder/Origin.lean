import TableSql.Proofs.Builder.Basic

/-!
# Where the values come from

A value that is sent was handed over by a call: bound to a name, set for a column or inserted as a
cell. A kind of statement is traced if it tells for each value that it sends which of these places
the value is from, and the value is the one that was handed over last for that place.

## Main definitions

* `Origin`, `Origin.last` — the places, and the value that was handed over last for one
* `Builder.Traced` — a kind of statement that tells where its values are from
* `Builder.ledger`, `Builder.given` — what the accepted calls of a run handed over

## Main results

* `Builder.params_eq_given` — a run sends what was handed over last for the origins of its values
-/

namespace TableSql

/-- Where a value comes from. -/
inductive Origin where
  /-- It was bound to a name. -/
  | bound (name : String)
  /-- It was set for a column. -/
  | column (name : String)
  /-- It was inserted, at a place of a row. -/
  | cell (row place : Nat)
deriving DecidableEq, Repr

/-- The value that was handed over last for an origin. -/
def Origin.last (o : Origin) : List (Origin × Value) → Option Value
  | [] => none
  | (p, v) :: rest => (o.last rest).or (if p = o then some v else none)

theorem Origin.last_append (o : Origin) (earlier later : List (Origin × Value)) :
    o.last (earlier ++ later) = (o.last later).or (o.last earlier) := by
  induction earlier with
  | nil => rw [List.nil_append, last, Option.or_none]
  | cons p rest ih => rw [List.cons_append, last, ih, last, Option.or_assoc]

theorem Origin.last_eq_none {o : Origin} {entries : List (Origin × Value)}
    (h : ∀ p ∈ entries, p.1 ≠ o) : o.last entries = none := by
  induction entries with
  | nil => rfl
  | cons p rest ih =>
    obtain ⟨hp, hrest⟩ := List.forall_mem_cons.mp h
    rw [last, ih hrest, if_neg hp, Option.none_or]

theorem Origin.last_singleton (o p : Origin) (v : Value) :
    o.last [(p, v)] = if p = o then some v else none := rfl

namespace Builder

/-- A kind of statement that tells where its values are from. -/
class Traced (S : Type) (Start Call : outParam Type) [Builder S Start Call] where
  /-- What a new statement is handed. -/
  received : Start → List (Origin × Value)
  /-- What an accepted call hands over. -/
  handed : S → Call → List (Origin × Value)
  /-- The values to send, in order, with their origins. -/
  supplied : S → List (Origin × Value)
  /-- What the statement holds is what was given. -/
  Backed : S → (Origin → Option Value) → Prop
  backed_start : ∀ (x : Start) (s : S), start x = .ok s → Backed s fun o => o.last (received x)
  backed_apply : ∀ (s s' : S) (c : Call) (earlier : List (Origin × Value)),
    Backed s (fun o => o.last earlier) → apply s c = .ok s' →
      Backed s' fun o => o.last (earlier ++ handed s c)
  backed_executed : ∀ (s : S) (given : Origin → Option Value),
    Backed s given → Backed (executed s) given
  given_of_supplied : ∀ (s : S) (given : Origin → Option Value), Backed s given →
    ∀ p ∈ supplied s, given p.1 = some p.2
  params_eq_supplied : ∀ (s : S) (c : CompiledStatement), compile s = .ok c →
    c.params = (supplied s).map Prod.snd

variable {S Start Call : Type} [Builder S Start Call] [Traced S Start Call]

/-- The origins of the values to send, in order. -/
def origins (s : S) : List Origin :=
  (Traced.supplied s).map Prod.fst

/-- What a step hands over: nothing if it is refused. -/
def entries (s : S) : Step Call → List (Origin × Value)
  | .call c =>
    match apply s c with
    | .ok _ => Traced.handed s c
    | .error _ => []
  | .execute _ => []

/-- What some steps hand over, in order. -/
def ledger (s : S) : List (Step Call) → List (Origin × Value)
  | [] => []
  | e :: rest => entries s e ++ ledger (step s e) rest

/-- The value that a run was given last for an origin. -/
def given (S : Type) {Start Call : Type} [Builder S Start Call] [Traced S Start Call]
    (x : Start) (steps : List (Step Call)) (o : Origin) : Option Value :=
  match (start x : Except Error S) with
  | .ok s => o.last (Traced.received S x ++ ledger s steps)
  | .error _ => none

theorem backed_step {s : S} {earlier : List (Origin × Value)}
    (h : Traced.Backed s fun o => o.last earlier) (e : Step Call) :
    Traced.Backed (step s e) fun o => o.last (earlier ++ entries s e) := by
  cases e with
  | call c =>
    rw [entries]
    cases happly : apply s c with
    | ok s' =>
      rw [step_call_of_ok happly]
      exact Traced.backed_apply s s' c earlier h happly
    | error e =>
      rw [step_call_of_error happly]
      simpa using h
  | execute answer =>
    rw [entries, List.append_nil]
    rcases step_execute_eq s answer with ⟨-, hstep⟩ | hstep
    · rw [hstep]
      exact Traced.backed_executed s _ h
    · rwa [hstep]

theorem backed_after {s : S} {earlier : List (Origin × Value)}
    (h : Traced.Backed s fun o => o.last earlier) (steps : List (Step Call)) :
    Traced.Backed (after s steps) fun o => o.last (earlier ++ ledger s steps) := by
  induction steps generalizing s earlier with
  | nil =>
    rw [ledger, List.append_nil]
    exact h
  | cons e rest ih =>
    rw [ledger, ← List.append_assoc]
    exact ih (backed_step h e)

/-- **A run sends what it was given.** Each value is the one that was handed over last for its
origin. -/
theorem params_eq_given {x : Start} {s : S} (hstart : start x = .ok s) (steps : List (Step Call))
    {c : CompiledStatement} (h : compile (after s steps) = .ok c) :
    c.params.map some = (origins (after s steps)).map (given S x steps) := by
  have hbacked := backed_after (Traced.backed_start x s hstart) steps
  rw [Traced.params_eq_supplied _ _ h, origins, List.map_map, List.map_map]
  refine List.map_congr_left fun p hp => ?_
  have hgiven := Traced.given_of_supplied _ _ hbacked p hp
  rw [Function.comp_apply, Function.comp_apply, given, hstart]
  exact hgiven.symm

end Builder

end TableSql
