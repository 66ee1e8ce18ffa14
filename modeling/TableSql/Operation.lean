/-!
# Operations

The calls that a statement may take, by the names that messages use for them.

## Implementation notes

All kinds of statements share one type of operations, though none takes all of them. Which ones it
takes, and when, is up to its stages; the same lists are what an error tells as allowed.

## Main definitions

* `Operation` — the calls
* `Operation.name` — the name of a call
* `Operation.context` — a call of a statement, as an error names it
-/

namespace TableSql

/-- A call on a statement. -/
inductive Operation where
  | filter
  | groupBy
  | having
  | orderBy
  | limit
  | offset
  | lockShared
  | lockExclusive
  | values
  | set
  | bind
  | execute
deriving DecidableEq, Repr

namespace Operation

/-- The name of the call. -/
def name : Operation → String
  | .filter => "where"
  | .groupBy => "group_by"
  | .having => "having"
  | .orderBy => "order_by"
  | .limit => "limit"
  | .offset => "offset"
  | .lockShared => "lock_shared"
  | .lockExclusive => "lock_exclusive"
  | .values => "values"
  | .set => "set"
  | .bind => "bind"
  | .execute => "execute"

/-- Every call. -/
def all : List Operation :=
  [.filter, .groupBy, .having, .orderBy, .limit, .offset, .lockShared, .lockExclusive, .values,
    .set, .bind, .execute]

/-- The call of a name. -/
def ofName? (name : String) : Option Operation :=
  all.find? (·.name == name)

/-- The call of a kind of statement, as an error names it. -/
def context (statement : String) (op : Operation) : String :=
  statement ++ "." ++ op.name

end Operation

end TableSql
