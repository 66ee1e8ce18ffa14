/-!
# Quoted names

Identifiers of SQL text stand between backticks, with every backtick of the name written twice.

## Main definitions

* `Sql.quoteIdentifier` — a name as an identifier
* `TableRef` — the schema and name of a table, with the identifier `TableRef.toSql`
-/

namespace TableSql

namespace Sql

/-- The characters of a name between backticks. -/
def doubleBackticks (cs : List Char) : List Char :=
  cs.flatMap fun c => if c = '\x60' then ['\x60', '\x60'] else [c]

/-- A name as an identifier. -/
def quoteIdentifier (name : String) : String :=
  String.ofList ('\x60' :: (doubleBackticks name.toList ++ ['\x60']))

end Sql

/-- The schema and the name of a table. An empty schema is the session's own. -/
structure TableRef where
  schema : String
  name : String
deriving DecidableEq, Repr

/-- The table's name, behind its schema's name where it has one. -/
def TableRef.toSql (t : TableRef) : String :=
  if t.schema = "" then Sql.quoteIdentifier t.name
  else Sql.quoteIdentifier t.schema ++ "." ++ Sql.quoteIdentifier t.name

end TableSql
