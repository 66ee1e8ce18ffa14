import TableSql.Statement.Execution

/-!
# Schemas and tables

Handles of schemas and tables: the statements they start and the queries about them. Handles are
names, so they may be of things that do not exist.

## Implementation notes

A handle is made without asking the server. A query is a statement with the reading of its reply,
and the two are fixed before anything is sent: `Session.ask` runs all of them. Names are sent as
values of markers, except that of the table whose rows are counted, which has to be quoted.

## Main definitions

* `Schema`, `Table` — the handles
* `Schema.lookup`, `Schema.tables`, `Schema.existence` — queries about a schema
* `Table.count`, `Table.existence` — queries about a table
-/

namespace TableSql

/-- A select statement as a query that is read from its rows. -/
def Query.ofRows {α : Type} (sql : String) (params : List Value)
    (read : RowResult → Except Error α) : Query α where
  statement := ⟨.select, sql, params⟩
  read := fun reply => read reply.toRowResult

/-- The count at the start of the first row. -/
def RowResult.firstCount (r : RowResult) : Except Error UInt64 :=
  match (r.fetchOne.1.bind (·.get? 0)).bind Value.asUInt64? with
  | some n => .ok n
  | none => .error (.decode "COUNT(*)" .notCount)

/-- A schema. -/
structure Schema where
  name : String
deriving DecidableEq, Repr

/-- A table, which may be a view. -/
structure Table where
  ref : TableRef
  isView : Bool := false
deriving DecidableEq, Repr

/-! ### Schemas -/

namespace Schema

/-- The handle of a table, whether it exists or not. -/
def table (s : Schema) (name : String) : Table :=
  { ref := ⟨s.name, name⟩ }

/-- The value is the type that the server gives to views. -/
def isViewType (v : Option Value) : Bool :=
  v.bind Value.asText? == some "VIEW"

/-- The handle of a table that exists. -/
def lookup (s : Schema) (name : String) : Query Table :=
  .ofRows
    "SELECT TABLE_TYPE FROM information_schema.tables WHERE TABLE_SCHEMA = ? AND TABLE_NAME = ?"
    [.text s.name, .text name] fun r =>
      match r.fetchOne.1 with
      | none => .error (.tableNotFound s.name name)
      | some row => .ok { ref := ⟨s.name, name⟩, isView := isViewType (row.get? 0) }

/-- The table that a row of names and types describes. -/
def tableOfRow (s : Schema) (row : Row) : Except Error Table :=
  match (row.get? 0).bind Value.asText? with
  | some name => .ok { ref := ⟨s.name, name⟩, isView := isViewType (row.get? 1) }
  | none => .error (.decode "TABLE_NAME" .notText)

/-- All tables and views of the schema, by name. -/
def tables (s : Schema) : Query (List Table) :=
  .ofRows
    ("SELECT TABLE_NAME, TABLE_TYPE FROM information_schema.tables WHERE TABLE_SCHEMA = ? " ++
      "ORDER BY TABLE_NAME")
    [.text s.name] fun r => r.rows.mapM s.tableOfRow

/-- Whether the schema exists. -/
def existence (s : Schema) : Query Bool :=
  .ofRows "SELECT COUNT(*) FROM information_schema.schemata WHERE SCHEMA_NAME = ?"
    [.text s.name] fun r => r.firstCount.map (0 < ·)

end Schema

/-! ### Tables -/

namespace Table

/-- The name without its schema. -/
def name (t : Table) : String := t.ref.name

/-- The name of the schema, which may be empty. -/
def schemaName (t : Table) : String := t.ref.schema

/-- The table's name as statements spell it. -/
def qualifiedName (t : Table) : String := t.ref.toSql

/-- A select statement of some columns. -/
def select (t : Table) (columns : ColumnList) : Except Error SelectStatement :=
  SelectStatement.ofColumns t.ref columns

/-- A select statement of every column. -/
def selectAll (t : Table) : SelectStatement :=
  .all t.ref

/-- An insert statement whose rows have a value for every column. -/
def insert (t : Table) : InsertStatement :=
  .ofTable t.ref

/-- An insert statement whose rows have a value for each of some columns. -/
def insertColumns (t : Table) (columns : ColumnList) : Except Error InsertStatement :=
  InsertStatement.ofColumns t.ref columns

/-- An insert statement of one row, given by name. -/
def insertDocument (t : Table) (document : Document) : Except Error InsertStatement :=
  InsertStatement.ofDocument t.ref document

/-- An update statement that assigns nothing yet. -/
def update (t : Table) : UpdateStatement :=
  .ofTable t.ref

/-- A delete statement of every row. -/
def delete (t : Table) : DeleteStatement :=
  .ofTable t.ref

/-- The number of rows. -/
def count (t : Table) : Query UInt64 :=
  .ofRows ("SELECT COUNT(*) FROM " ++ t.qualifiedName) [] RowResult.firstCount

/-- Whether the table exists. -/
def existence (t : Table) : Query Bool :=
  .ofRows
    ("SELECT COUNT(*) FROM information_schema.tables " ++
      "WHERE TABLE_SCHEMA = ? AND TABLE_NAME = ?")
    [.text t.schemaName, .text t.name] fun r => r.firstCount.map (0 < ·)

end Table

end TableSql
