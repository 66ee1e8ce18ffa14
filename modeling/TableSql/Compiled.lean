import TableSql.Fragment

/-!
# Compiled statements

What is sent to a server: SQL text, the values of its markers, and the kind of statement it is.

## Implementation notes

A compiled statement is plain data and does not remember what it was made from. That its values are
as many as its markers is no field: it is true of statements that are built, where callers type no
markers of their own, and is checked of raw SQL.

## Main definitions

* `StatementKind`, `CompiledStatement` — what is sent
* `CompiledStatement.ofFragment`, `CompiledStatement.control` — the ways to make one
-/

namespace TableSql

/-- What a statement does. -/
inductive StatementKind where
  | select
  | insert
  | update
  | delete
  /-- Raw SQL. -/
  | sql
  /-- Control of a transaction. -/
  | control
deriving DecidableEq, Repr

/-- The kind as logs name it. -/
def StatementKind.name : StatementKind → String
  | .select => "select"
  | .insert => "insert"
  | .update => "update"
  | .delete => "delete"
  | .sql => "sql"
  | .control => "control"

/-- SQL text with `?` markers and their values in order. -/
structure CompiledStatement where
  kind : StatementKind
  sql : String
  params : List Value

namespace CompiledStatement

/-- A statement of a kind, from its text and values. -/
def ofFragment (kind : StatementKind) (f : Fragment) : CompiledStatement :=
  ⟨kind, f.sql, f.params⟩

/-- A transaction control statement, which has no values. -/
def control (sql : String) : CompiledStatement :=
  ⟨.control, sql, []⟩

end CompiledStatement

end TableSql
