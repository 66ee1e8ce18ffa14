import TableSql.Operation
import TableSql.Sql.Scan
import TableSql.Uri.Parser

/-!
# Errors

What can go wrong, told by its cause, and the message of each cause. Causes that a server or a
caller tells in words of its own are kept as their words.

## Causes, not texts

An error holds what went wrong, and its text is made from that in one place. So two calls that fail
alike are compared by their causes, and what a message says is decided by a small function of the
cause. Each kind of fault has its own function, so a new cause is one more line in one of them.

## Main definitions

* `Criteria` — the lists of column texts that calls take
* `ArgumentFault`, `ConfigFault`, `DecodeFault` — causes of one kind of error each
* `Error` — the errors, with `Error.message`
* `Error.isLockContention` — the server gave up on a row lock
* `DriverFailure` — failures of the connection, with the `Error` they become
-/

namespace TableSql

/-- Decimal digits of a number inside a message. -/
def decimal (n : Nat) : String :=
  String.ofList (Nat.toDigits 10 n)

/-! ### Causes -/

/-- A list of column texts that a call takes. -/
inductive Criteria where
  | projection
  | columns
  | grouping
  | ordering
deriving DecidableEq, Repr

/-- The list as messages name it. -/
def Criteria.title : Criteria → String
  | .projection => "Field selection criteria"
  | .columns => "Column list"
  | .grouping => "Grouping criteria"
  | .ordering => "Order criteria"

/-- What is wrong with an argument, or with the texts and values a statement is made of. Elements,
rows and offsets count from zero here and from one in messages. -/
inductive ArgumentFault where
  | blankExpression
  | notText
  | notTextOrTexts
  | elementNotText (index : Nat)
  | blankElement (index : Nat)
  | noElements (criteria : Criteria)
  | notLockMode
  | blankColumn
  | noValues
  | noMembers
  | notObject
  | unterminatedString (offset : Nat)
  | unterminatedIdentifier (offset : Nat)
  | nestedPlaceholder (name : String)
  | noRows
  | rowLength (index length expected : Nat)
  | noAssignments
  | blankSql
  | markerCount (markers values : Nat)
  | expressionParameter
  | other (message : String)
deriving DecidableEq, Repr

/-- What a message says of an argument. -/
def ArgumentFault.message : ArgumentFault → String
  | .blankExpression => "Expression can not be empty"
  | .notText => "Argument #1 is expected to be a string"
  | .notTextOrTexts => "Argument #1 is expected to be a string or an array of strings"
  | .elementNotText i => "Element #" ++ decimal (i + 1) ++ " is expected to be a string"
  | .blankElement i => "Element #" ++ decimal (i + 1) ++ " is expected to be a non-empty string"
  | .noElements criteria => criteria.title ++ " can not be empty"
  | .notLockMode => "Argument #1 is expected to be one of DEFAULT, NOWAIT or SKIP_LOCKED"
  | .blankColumn => "Column name can not be empty"
  | .noValues => "Values can not be empty"
  | .noMembers => "Document can not be empty"
  | .notObject => "Argument #1 is expected to be an object"
  | .unterminatedString offset =>
    "Unterminated quoted string starting at position " ++ decimal (offset + 1)
  | .unterminatedIdentifier offset =>
    "Unterminated quoted identifier starting at position " ++ decimal (offset + 1)
  | .nestedPlaceholder name =>
    "Expression bound to placeholder '" ++ name ++ "' can not contain placeholders"
  | .noRows => "INSERT requires values to be specified with .values()"
  | .rowLength i length expected =>
    "Row #" ++ decimal (i + 1) ++ " has " ++ decimal length ++ " values, expected " ++
      decimal expected
  | .noAssignments => "UPDATE requires at least one set() call"
  | .blankSql => "SQL can not be empty"
  | .markerCount markers values =>
    "Statement has " ++ decimal markers ++ " placeholders but " ++ decimal values ++
      " values were bound"
  | .expressionParameter => "Expressions can not be bound to raw SQL placeholders"
  | .other message => message

/-- An unterminated quote inside an expression. -/
def ArgumentFault.ofUnterminated (u : Sql.Unterminated) : ArgumentFault :=
  match u.quote with
  | .backtick => .unterminatedIdentifier u.offset
  | _ => .unterminatedString u.offset

/-- What is wrong with a session's configuration. -/
inductive ConfigFault where
  | invalidUri (uri : String) (fault : Uri.Fault)
  | unsupportedScheme (scheme : String)
  | other (message : String)
deriving DecidableEq, Repr

/-- What a message says of a configuration. -/
def ConfigFault.message : ConfigFault → String
  | .invalidUri uri fault => "Invalid URI '" ++ uri ++ "': " ++ fault.message
  | .unsupportedScheme scheme =>
    "Unsupported scheme '" ++ scheme ++ "', expected mysql or mysqlx"
  | .other message => message

/-- What a returned value should have been. -/
inductive DecodeFault where
  | notText
  | notCount
  | other (message : String)
deriving DecidableEq, Repr

/-- What a message says of a returned value. -/
def DecodeFault.message : DecodeFault → String
  | .notText => "expected a string"
  | .notCount => "expected a non-negative count"
  | .other message => message

/-! ### Errors -/

/-- An error of a call, a statement or a session. -/
inductive Error where
  /-- An argument is malformed or missing. -/
  | invalidArgument (context : String) (fault : ArgumentFault)
  /-- A call that the statement does not take at this point. -/
  | invalidState (context : String) (operation : Operation) (allowed : List Operation)
  /-- A value for a placeholder that no expression holds. -/
  | unknownPlaceholder (context name : String)
  /-- Placeholders without a value. -/
  | unboundPlaceholders (context : String) (names : List String)
  /-- The server refused the statement. -/
  | server (code : Option UInt16) (sqlState : Option String) (message : String)
  /-- The connection failed. -/
  | database (message : String)
  /-- A value does not fit the type it is read as. -/
  | serialization
  /-- No column of a row has the name. -/
  | columnNotFound (column : String)
  /-- Two columns of a row have the name. -/
  | ambiguousColumn (column : String)
  /-- The schema has no such table. -/
  | tableNotFound (schema table : String)
  /-- The session was closed before the statement ran. -/
  | sessionClosed
  /-- The configuration of a session is malformed. -/
  | config (fault : ConfigFault)
  /-- A returned value is of the wrong type. -/
  | decode (column : String) (fault : DecodeFault)
deriving DecidableEq, Repr

namespace Error

/-- The message of an error. -/
def message : Error → String
  | .invalidArgument context fault => context ++ ": " ++ fault.message
  | .invalidState context operation allowed =>
    context ++ ": operation '" ++ operation.name ++
      "' is not available at this point, allowed: " ++
      String.intercalate ", " (allowed.map Operation.name)
  | .unknownPlaceholder context name =>
    context ++ ": Unable to bind value for unexisting placeholder: " ++ name
  | .unboundPlaceholders context names =>
    context ++ ": Missing value bindings for the following placeholders: " ++
      String.intercalate ", " names
  | .server code _ message =>
    let number := match code with
      | some n => " " ++ decimal n.toNat
      | none => ""
    "Server error" ++ number ++ ": " ++ message
  | .database message => "Database error: " ++ message
  | .serialization => "Serialization error"
  | .columnNotFound column => "Column '" ++ column ++ "' not found"
  | .ambiguousColumn column =>
    "Column name '" ++ column ++ "' is ambiguous, use positional access"
  | .tableNotFound schema table =>
    "Table '" ++ table ++ "' not found in schema '" ++ schema ++ "'"
  | .sessionClosed => "Session is closed"
  | .config fault => "Configuration error: " ++ fault.message
  | .decode column fault => "Decode error on column '" ++ column ++ "': " ++ fault.message

/-- The number of a server error. -/
def serverCode? : Error → Option UInt16
  | .server code _ _ => code
  | _ => none

/-- The server's number for a row that is locked while `NOWAIT` is asked for. -/
def lockNoWaitCode : UInt16 := 3572

/-- The server's number for a wait on a row lock that took too long. -/
def lockTimeoutCode : UInt16 := 1205

/-- The server refused to wait for a row lock, or waited too long. -/
def isLockContention (e : Error) : Bool :=
  e.serverCode? == some lockNoWaitCode || e.serverCode? == some lockTimeoutCode

end Error

/-! ### Failures of the connection -/

/-- A failure that the connection reports, rather than a server's numbered error. -/
inductive DriverFailure where
  | database (sqlState : Option String) (message : String)
  | rowNotFound
  | poolClosed
  | columnNotFound (column : String)
  | protocol (message : String)
deriving DecidableEq, Repr

/-- The error a failure becomes. A database's own error counts as the server's. -/
def DriverFailure.toError : DriverFailure → Error
  | .database sqlState message => .server none sqlState message
  | .rowNotFound =>
    .database "no rows returned by a query that expected to return at least one row"
  | .poolClosed => .database "attempted to acquire a connection on a closed pool"
  | .columnNotFound column => .database ("no column found for name: " ++ column)
  | .protocol message => .database ("encountered unexpected or invalid data: " ++ message)

end TableSql
