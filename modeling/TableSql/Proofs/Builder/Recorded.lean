import TableSql.Proofs.Builder.Grammar
import TableSql.Proofs.Statement.Outline

/-!
# Statements as records of their history

A statement keeps what its calls gave it, and nothing else. So the SQL text can be told from the way
it was made and from the calls that it took, without a look at the statement: each clause is the
last that was given, and each value is the last that was bound.

## Main definitions

* `Builder.Recorded` — a kind of statement that records its calls
* `Builder.reference` — the statement that is told from a history
* `Builder.arguments` — what a run gave for the clauses
* `Builder.FollowsHistory` — what it means that a statement is determined by its history

## Main results

* `Builder.records_after` — after any run, the statement records the calls that were accepted
* `Builder.lastOf_arguments_append` — a clause that is given once stays as it is
* `Builder.followsHistory_of_start` — a new statement follows its history
-/

namespace TableSql.Builder

/-- A kind of statement that records its calls. -/
class Recorded (S : Type) (Start Call : outParam Type) [Builder S Start Call] [Named Call] where
  /-- What a call gives for a clause. -/
  argument? : Call → Option Clause.Argument
  /-- The name that a call binds, and its value. -/
  binding? : Call → Option (String × Value)
  /-- The head of a statement and the order of its clauses. -/
  outline : Start → List Call → Outline
  /-- The statement holds what these calls gave. -/
  Records : Start → List Call → S → Prop
  records_start : ∀ (x : Start) (s : S), start x = .ok s → Records x [] s
  records_apply : ∀ (x : Start) (cs : List Call) (s : S) (c : Call) (s' : S),
    Reachable s → Records x cs s → apply s c = .ok s' → Records x (cs ++ [c]) s'
  records_executed : ∀ (x : Start) (cs : List Call) (s : S),
    Records x cs s → Records x cs (executed s)
  compile_eq : ∀ (x : Start) (cs : List Call) (s : S), Reachable s → Records x cs s → compile s =
    (outline x cs).compile (.ofPairs (cs.filterMap binding?)) (cs.filterMap argument?)
  kind_argument? : ∀ c : Call,
    (argument? c).map Clause.Argument.kind = Clause.Kind.ofOperation? (Named.operation c)
  kind_mem_clauses : ∀ (x : Start) (cs : List Call) (c : Call) (a : Clause.Argument),
    argument? c = some a → a.kind ∈ (outline x cs).clauses
  limit_of_offset : ∀ (x : Start) (cs : List Call) (s : S), Reachable s → Records x cs s →
    Clause.lastOf .offset (cs.filterMap argument?) ≠ none →
    Clause.lastOf .limit (cs.filterMap argument?) ≠ none
  grouping_of_having : ∀ (x : Start) (cs : List Call) (s : S), Reachable s → Records x cs s →
    Clause.lastOf .having (cs.filterMap argument?) ≠ none → ∃ columns, columns ≠ [] ∧
      Clause.lastOf .groupBy (cs.filterMap argument?) = some (.groupBy columns)

variable {S Start Call : Type} [Builder S Start Call] [Named Call] [Recorded S Start Call]

/-! ### The history of a run -/

/-- The statement that is told from the way it was made and from the calls that it took. -/
def reference (S : Type) {Start Call : Type} [Builder S Start Call] [Named Call]
    [Recorded S Start Call] (x : Start) (cs : List Call) : Except Error CompiledStatement :=
  (Recorded.outline S x cs).compile (.ofPairs (cs.filterMap (Recorded.binding? S)))
    (cs.filterMap (Recorded.argument? S))

/-- What the accepted calls of a run gave for the clauses. -/
def arguments (s : S) (steps : List (Step Call)) : List Clause.Argument :=
  (calls (accepted s steps)).filterMap (Recorded.argument? S)

/-- The values that the accepted calls of a run bound. -/
def bound (s : S) (steps : List (Step Call)) : Bindings :=
  .ofPairs ((calls (accepted s steps)).filterMap (Recorded.binding? S))

/-- The context that a rendering after a run names in its errors. -/
def contextOf (x : Start) (s : S) (steps : List (Step Call)) : String :=
  (Recorded.outline S x (calls (accepted s steps))).context

/-- **A statement follows its history**, whatever calls are made and refused and whatever its
executions come to. -/
structure FollowsHistory (x : Start) (s : S) : Prop where
  /-- The statement is the one that is told from the calls that were accepted. -/
  compile_eq : ∀ steps, compile (after s steps) = reference S x (calls (accepted s steps))
  /-- This is also what an execution sends, if it sends anything. -/
  sent : ∀ steps c, prepareExecute (after s steps) = .ok c →
    reference S x (calls (accepted s steps)) = .ok c
  /-- These calls are accepted once at the most. -/
  once : ∀ steps, ∀ op ∈ [Operation.filter, .groupBy, .having, .orderBy],
    ((accepted s steps).map Step.operation).count op ≤ 1
  /-- Rows are skipped only under a limit. -/
  limit_of_offset : ∀ steps, Clause.lastOf .offset (arguments s steps) ≠ none →
    Clause.lastOf .limit (arguments s steps) ≠ none
  /-- Groups are filtered only where there are groups. -/
  grouping_of_having : ∀ steps, Clause.lastOf .having (arguments s steps) ≠ none →
    ∃ columns, columns ≠ [] ∧
      Clause.lastOf .groupBy (arguments s steps) = some (.groupBy columns)
  /-- What was given for these clauses stays, whatever comes later. -/
  kept : ∀ steps more, ∀ kind ∈ [Clause.Kind.filter, .groupBy, .having, .orderBy], ∀ a,
    Clause.lastOf kind (arguments s steps) = some a →
    Clause.lastOf kind (arguments s (steps ++ more)) = some a
  /-- And it is found in the text of the statement from then on. -/
  written : ∀ steps more, ∀ kind ∈ [Clause.Kind.filter, .groupBy, .having, .orderBy], ∀ a c,
    Clause.lastOf kind (arguments s steps) = some a →
    compile (after s (steps ++ more)) = .ok c →
    ∃ f before behind, a.render (contextOf x s (steps ++ more)) (bound s (steps ++ more)) = .ok f ∧
      c.sql = before ++ f.sql ++ behind

/-- **After any run, the statement records the calls that were accepted.** -/
theorem records_after {x : Start} {cs : List Call} {s : S} (hs : Reachable s)
    (h : Recorded.Records x cs s) (steps : List (Step Call)) :
    Recorded.Records x (cs ++ calls (accepted s steps)) (after s steps) := by
  induction steps generalizing cs s with
  | nil =>
    rw [accepted, calls, List.filterMap_nil, List.append_nil]
    exact h
  | cons e more ih =>
    rcases step_cases s e with
      ⟨⟨err, hout⟩, -⟩ | ⟨c, rfl, hout, hcall⟩ | ⟨answer, rfl, hout, -, hstep⟩
    · rw [accepted_cons_of_error hout, after_cons_of_error hout]
      exact ih hs h
    · rw [accepted_cons_of_ok hout]
      have hall := ih (hs.step _) (Recorded.records_apply x cs s c _ hs h hcall)
      rwa [List.append_assoc] at hall
    · rw [accepted_cons_of_ok hout]
      have hnext := Recorded.records_executed x cs s h
      rw [← hstep] at hnext
      exact ih (hs.step _) hnext

theorem arguments_append (s : S) (steps more : List (Step Call)) :
    arguments s (steps ++ more) = arguments s steps ++ arguments (after s steps) more := by
  rw [arguments, accepted_append, calls_append, List.filterMap_append]
  rfl

/-- What was given for a clause was given by an operation on it. -/
theorem exists_mem_accepted_of_arguments {s : S} {steps : List (Step Call)} {a : Clause.Argument}
    (h : a ∈ arguments s steps) :
    ∃ op ∈ (accepted s steps).map Step.operation, Clause.Kind.ofOperation? op = some a.kind := by
  obtain ⟨c, hc, ha⟩ := List.mem_filterMap.mp h
  refine ⟨Named.operation c, List.mem_map.mpr ⟨.call c, mem_calls_iff.mp hc, rfl⟩, ?_⟩
  rw [← Recorded.kind_argument? (S := S) c, ha]
  rfl

/-- **A clause whose operation is accepted once at the most stays as it is.** -/
theorem lastOf_arguments_append {s : S} {steps more : List (Step Call)} {kind : Clause.Kind}
    {op : Operation} (hop : ∀ op', Clause.Kind.ofOperation? op' = some kind → op' = op)
    (honce : ((accepted s (steps ++ more)).map Step.operation).count op ≤ 1)
    {a : Clause.Argument} (ha : Clause.lastOf kind (arguments s steps) = some a) :
    Clause.lastOf kind (arguments s (steps ++ more)) = some a := by
  have hgiven : ∀ {s : S} {steps : List (Step Call)} {b : Clause.Argument},
      b ∈ arguments s steps → b.kind = kind →
        0 < ((accepted s steps).map Step.operation).count op := by
    intro s steps b hb hkind
    obtain ⟨op', hmem, hop'⟩ := exists_mem_accepted_of_arguments hb
    rw [hkind] at hop'
    exact List.count_pos_iff.mpr (hop op' hop' ▸ hmem)
  obtain ⟨hmem, hkind⟩ := Clause.mem_of_lastOf ha
  have hfirst := hgiven hmem hkind
  have hnone : Clause.lastOf kind (arguments (after s steps) more) = none := by
    refine Clause.lastOf_eq_none_iff.mpr fun b hb hkind => ?_
    have hsecond := hgiven hb hkind
    rw [accepted_append, List.map_append, List.count_append] at honce
    omega
  rw [arguments_append, Clause.lastOf_append, hnone, Option.none_or, ha]

/-! ### New statements -/

/-- After any run, the statement is told from the calls that were accepted. -/
theorem compile_after {x : Start} {s : S} (h : start x = .ok s) (steps : List (Step Call)) :
    compile (after s steps) = reference S x (calls (accepted s steps)) := by
  have hs : Reachable s := .start h
  have hrecords := records_after hs (Recorded.records_start x s h) steps
  exact Recorded.compile_eq x _ _ (reachable_after hs steps) hrecords

/-- **A new statement follows its history**, if its grammar has the clauses that are never replaced
once at the most. -/
theorem followsHistory_of_start [Guarded S Start Call] [Staged S Start Call] {x : Start} {s : S}
    (h : start x = .ok s) (hmost : ∀ op ∈ [Operation.filter, .groupBy, .having, .orderBy],
      (Staged.grammar S x).most op ≤ 1) : FollowsHistory x s := by
  have hs : Reachable s := .start h
  have hrecords := records_after hs (Recorded.records_start x s h)
  have hkept : ∀ steps more, ∀ kind ∈ [Clause.Kind.filter, .groupBy, .having, .orderBy], ∀ a,
      Clause.lastOf kind (arguments s steps) = some a →
        Clause.lastOf kind (arguments s (steps ++ more)) = some a := by
    intro steps more kind hkind a ha
    obtain ⟨op, hop, honly⟩ := Clause.Kind.exists_operation hkind
    exact lastOf_arguments_append honly (count_accepted_le h (hmost op hop) _) ha
  refine ⟨compile_after h, ?_, ?_, ?_, ?_, hkept, ?_⟩
  · intro steps c hc
    rw [← compile_after h]
    exact compile_of_prepareExecute hc
  · intro steps op hop
    exact count_accepted_le h (hmost op hop) steps
  · intro steps
    exact Recorded.limit_of_offset x _ _ (reachable_after hs steps) (hrecords steps)
  · intro steps
    exact Recorded.grouping_of_having x _ _ (reachable_after hs steps) (hrecords steps)
  · intro steps more kind hkind a c ha hc
    rw [compile_after h] at hc
    have hlast := hkept steps more kind hkind a ha
    obtain ⟨hmem, rfl⟩ := Clause.mem_of_lastOf hlast
    obtain ⟨call, -, hcall⟩ := List.mem_filterMap.mp hmem
    exact Outline.exists_append_of_compile hc (Recorded.kind_mem_clauses x _ call a hcall) hlast

end TableSql.Builder
