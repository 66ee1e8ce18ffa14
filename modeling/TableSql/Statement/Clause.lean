import TableSql.Argument
import TableSql.Compiled
import TableSql.Sql.Identifier

/-!
# Clauses

What the statements on a table have in common: the check that a call is allowed, and the clauses
of their SQL text.

## The guard comes first

`Operation.guarded` decides by the operation alone and takes the rest of a call as a function. A
call that is out of order is therefore refused before its argument is looked at, with an error that
does not depend on the argument, and executions are guarded in the same way as calls.

## Main definitions

* `Operation.guarded` — a call, if the statement takes it at this point
* `Clause.condition`, `Clause.list`, `Clause.ordering`, `Clause.limit` — clauses, each empty where
  the statement has nothing to say

## Main results

* `Operation.guarded_of_mem`, `Operation.guarded_of_not_mem` — when a call is made and when not
-/

namespace TableSql

/-- A call that is made only if it is among the allowed ones. What the call does is told the
context that its errors name. -/
def Operation.guarded {α : Type} (statement : String) (allowed : List Operation) (op : Operation)
    (call : (context : String) → Except Error α) : Except Error α :=
  if allowed.contains op then call (op.context statement)
  else .error (.invalidState (op.context statement) op allowed)

/-- An allowed call is made. -/
theorem Operation.guarded_of_mem {α : Type} {statement : String} {allowed : List Operation}
    {op : Operation} {call : String → Except Error α} (h : op ∈ allowed) :
    op.guarded statement allowed call = call (op.context statement) := by
  simp [guarded, h]

/-- Any other call is refused, with the calls that would be allowed. -/
theorem Operation.guarded_of_not_mem {α : Type} {statement : String} {allowed : List Operation}
    {op : Operation} {call : String → Except Error α} (h : op ∉ allowed) :
    op.guarded statement allowed call =
      .error (.invalidState (op.context statement) op allowed) := by
  simp [guarded, h]

namespace Clause

/-- A keyword and a condition. -/
def condition (keyword context : String) (b : Bindings) : Option Template → Except Error Fragment
  | none => .ok .empty
  | some t =>
    match t.render context b with
    | .ok f => .ok (.ofText keyword ++ f)
    | .error e => .error e

/-- A keyword and texts between commas. -/
def list (keyword : String) : List String → Fragment
  | [] => .empty
  | entries => .ofText (keyword ++ String.intercalate ", " entries)

/-- The criteria that rows are sorted by. -/
def ordering (criteria : List OrderCriterion) : Fragment :=
  list " ORDER BY " (criteria.map OrderCriterion.toSql)

/-- A keyword and a count. -/
def count (keyword : String) : Option UInt64 → Fragment
  | none => .empty
  | some n => .ofText (keyword ++ decimal n.toNat)

/-- The greatest number of rows. -/
def limit : Option UInt64 → Fragment :=
  count " LIMIT "

end Clause

end TableSql
