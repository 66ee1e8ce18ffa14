import TableSql.Json.Printer
import TableSql.Json.Reader
import TableSql.Text.Blank

/-!
# Row locks

The locks that a select statement may ask for, and what it does when a row is locked already.

## Implementation notes

A mode has one name. Arguments may write it in any case and with spaces around it, JSON text may
not; both go through the list of all modes.

## Main definitions

* `LockContention` — what to do about a row that another session has locked
* `LockContention.parse?` — the mode of a text, in any case and with spaces around it
* `LockMode` — a shared or an exclusive lock
-/

namespace TableSql

/-- What to do about a row that another session has locked. -/
inductive LockContention where
  /-- Wait for it. -/
  | default
  /-- Fail at once. -/
  | noWait
  /-- Leave it out of the result. -/
  | skipLocked
deriving DecidableEq, Repr, Inhabited

namespace LockContention

/-- The name of the mode. -/
def name : LockContention → String
  | .default => "DEFAULT"
  | .noWait => "NOWAIT"
  | .skipLocked => "SKIP_LOCKED"

/-- Every mode. -/
def all : List LockContention := [.default, .noWait, .skipLocked]

/-- The end of a locking clause. -/
def sqlEnding : LockContention → String
  | .default => ""
  | .noWait => " NOWAIT"
  | .skipLocked => " SKIP LOCKED"

/-- The mode that a text names, whatever the case of its letters and the white space around it. -/
def parse? (text : String) : Option LockContention :=
  all.find? fun mode => Text.equalIgnoringCase mode.name (Text.trim text)

/-- What is said about a text that names no mode. -/
def parseFailure (text : String) : String :=
  "Invalid lock contention mode '" ++ text ++ "'"

/-- The mode of an exact name. -/
def ofName? (name : String) : Option LockContention :=
  all.find? (·.name == name)

/-- The mode as JSON text. -/
def jsonText (mode : LockContention) : String :=
  String.ofList (Json.stringChars mode.name)

/-- The mode of JSON text: its exact name, alone or as the key of a null value. -/
def ofJson? (text : String) : Option LockContention :=
  match Json.Node.parse? text with
  | some (.string parts) => (Json.decodeString? parts).bind ofName?
  | some (.object [(key, .null)]) => (Json.decodeString? key).bind ofName?
  | _ => none

end LockContention

/-- A lock on the rows that a select statement reads. -/
inductive LockMode where
  | shared (contention : LockContention)
  | exclusive (contention : LockContention)
deriving DecidableEq, Repr

namespace LockMode

/-- What the lock does about rows that are locked already. -/
def contention : LockMode → LockContention
  | .shared c => c
  | .exclusive c => c

/-- The locking clause with a space in front. -/
def toSql : LockMode → String
  | .shared c => " FOR SHARE" ++ c.sqlEnding
  | .exclusive c => " FOR UPDATE" ++ c.sqlEnding

end LockMode

end TableSql
