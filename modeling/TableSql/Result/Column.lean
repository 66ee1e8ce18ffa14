/-!
# Columns

The columns of a result, with the type that the server declares for each.

## Main definitions

* `ColumnType` — the broad classes of declared types
* `ColumnType.ofTypeName` — the class of a declared type
* `Column` — a name and a declared type
-/

namespace TableSql

/-- A broad class of declared column types. -/
inductive ColumnType where
  | bool
  | integer
  | unsignedInteger
  | float
  | double
  | decimal
  | text
  | bytes
  | bit
  | json
  | date
  | time
  | dateTime
  | other
deriving DecidableEq, Repr

namespace ColumnType

/-- The name of the class. -/
def name : ColumnType → String
  | .bool => "Bool"
  | .integer => "Integer"
  | .unsignedInteger => "UnsignedInteger"
  | .float => "Float"
  | .double => "Double"
  | .decimal => "Decimal"
  | .text => "String"
  | .bytes => "Bytes"
  | .bit => "Bit"
  | .json => "Json"
  | .date => "Date"
  | .time => "Time"
  | .dateTime => "DateTime"
  | .other => "Other"

/-- The types whose name is the whole declaration. -/
def exactNames : List (String × ColumnType) :=
  [("BOOLEAN", .bool), ("BOOL", .bool), ("FLOAT", .float), ("DOUBLE", .double), ("REAL", .double),
    ("DECIMAL", .decimal), ("NUMERIC", .decimal), ("JSON", .json), ("DATE", .date),
    ("TIME", .time), ("DATETIME", .dateTime), ("TIMESTAMP", .dateTime), ("BIT", .bit)]

/-- The integer types, which attributes may follow after a space. -/
def integerNames : List String :=
  ["TINYINT", "SMALLINT", "MEDIUMINT", "INT", "INTEGER", "BIGINT", "YEAR"]

/-- A declaration of an integer type. -/
def isInteger (upper : List Char) : Bool :=
  integerNames.any fun t => upper == t.toList || (t.toList ++ [' ']).isPrefixOf upper

/-- A declaration that has `part` somewhere in it. -/
def mentions (part : String) : List Char → Bool
  | [] => part.isEmpty
  | c :: rest => part.toList.isPrefixOf (c :: rest) || mentions part rest

/-- The class of a declaration in upper case. -/
def ofUpperName (upper : List Char) : ColumnType :=
  match exactNames.find? (·.1.toList == upper) with
  | some (_, t) => t
  | none =>
    if isInteger upper then
      if "UNSIGNED".toList.isSuffixOf upper then .unsignedInteger else .integer
    else if mentions "BLOB" upper || mentions "BINARY" upper || upper == "GEOMETRY".toList then
      .bytes
    else if mentions "CHAR" upper || mentions "TEXT" upper || upper == "ENUM".toList ||
        upper == "SET".toList then .text
    else .other

/-- The class of a declaration such as `BIGINT UNSIGNED`, in any case. -/
def ofTypeName (typeName : String) : ColumnType :=
  ofUpperName (typeName.toList.map Char.toUpper)

end ColumnType

/-- A column of a result. -/
structure Column where
  name : String
  typeName : String
deriving DecidableEq, Repr

/-- The class of the declared type. -/
def Column.type (c : Column) : ColumnType :=
  .ofTypeName c.typeName

end TableSql
