import TableSql.Result.Cursor

/-!
# Replies

What a server sends back for a statement, and how each kind of statement takes it.

## Total readings

Every reply can be read in every way. Counts read as rows are no rows, and rows read as counts are
zero; a reply of the unexpected kind is no error.

## Main definitions

* `Reply` — rows, or the counts of a modification
* `MutationResult`, `SqlResult` — what modifications and raw SQL statements return
* `Reply.toRowResult`, `Reply.toMutationResult`, `Reply.toSqlResult` — a reply as a result
-/

namespace TableSql

/-- What a server sends back for a statement. -/
inductive Reply where
  | rows (columns : List Column) (rows : List (List Value))
  | done (affected : UInt64) (lastInsertId : Option UInt64)

/-- What an insert, update or delete did. -/
structure MutationResult where
  affected : UInt64
  /-- The first number that an insert generated. -/
  autoIncrement : Option UInt64
deriving DecidableEq, Repr

/-- What a raw SQL statement returned. -/
inductive SqlResult where
  | rows (r : RowResult)
  | mutation (m : MutationResult)

namespace SqlResult

/-- Rows are left to be fetched. -/
def hasData : SqlResult → Bool
  | .rows r => r.hasData
  | .mutation _ => false

/-- The number of rows that were changed; none where rows were returned. -/
def affected : SqlResult → UInt64
  | .rows _ => 0
  | .mutation m => m.affected

/-- The first number that an insert generated. -/
def autoIncrement : SqlResult → Option UInt64
  | .rows _ => none
  | .mutation m => m.autoIncrement

/-- The rows that were returned, if the statement returns rows. -/
def rows? : SqlResult → Option RowResult
  | .rows r => some r
  | .mutation _ => none

end SqlResult

namespace Reply

/-- The rows of a reply; none where it has counts. -/
def toRowResult : Reply → RowResult
  | .rows columns values => .ofRows columns values
  | .done _ _ => .empty

/-- The counts of a reply; zero where it has rows. -/
def toMutationResult : Reply → MutationResult
  | .rows _ _ => ⟨0, none⟩
  | .done affected id => ⟨affected, id⟩

/-- Whatever a reply has. -/
def toSqlResult (r : Reply) : SqlResult :=
  match r with
  | .rows _ _ => .rows r.toRowResult
  | .done _ _ => .mutation r.toMutationResult

end Reply

end TableSql
