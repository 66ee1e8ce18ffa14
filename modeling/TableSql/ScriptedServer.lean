import TableSql.Session

/-!
# Scripted servers

A server that answers from a list of prepared replies and keeps a record of what it was asked,
until it is closed.

## Implementation notes

Replies are used up one by one and never run out: after the last one every statement is done without
changing a row. A statement that arrives when the server is closed neither uses up a reply nor is it
recorded.

## Main definitions

* `ScriptedServer` — the replies to come and the record
* `ScriptedServer.server` — how it answers
-/

namespace TableSql

/-- The state of a scripted server. -/
structure ScriptedServer where
  isOpen : Bool := true
  /-- The statements it was asked while it was open. -/
  received : List CompiledStatement := []
  /-- The answers to come; an empty reply follows the last. -/
  replies : List (Except Error Reply) := []

namespace ScriptedServer

/-- The next answer. -/
def next (s : ScriptedServer) : Except Error Reply :=
  s.replies.head?.getD (.ok (.done 0 none))

/-- The answer to a statement: a closed server takes no notice of it. -/
def answer (statement : CompiledStatement) (s : ScriptedServer) :
    Except Error Reply × ScriptedServer :=
  if s.isOpen then
    (s.next, { s with received := s.received ++ [statement], replies := s.replies.drop 1 })
  else (.error .sessionClosed, s)

/-- A server that answers from its script. -/
def server : Server ScriptedServer := ⟨answer⟩

/-- The server once it is closed. -/
def close (s : ScriptedServer) : ScriptedServer :=
  { s with isOpen := false }

end ScriptedServer

end TableSql
