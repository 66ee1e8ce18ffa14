import TableSql.Json.Token

/-!
# The shape of JSON text

JSON text as a tree in which numbers and strings are still as written and members stand in the
order of the text, repeated keys included. A reader for a particular form walks this tree, and may
pass over any part of it.

## Implementation notes

Text that is passed over must still have the form of JSON, but not more: a number out of range or a
lone surrogate does no harm there. That is why the tree keeps numbers and strings as written and
leaves their reading to whoever needs them. The tree is built by a machine with an explicit stack,
one token at a time, so that no depth of nesting is too much; a reader may set a bound of its own.

## Main definitions

* `Json.Node` — the tree
* `Json.Node.ofTokens?` — the tree of a list of tokens, built by a machine with a stack
* `Json.Node.parse?` — the tree of a text
-/

namespace TableSql.Json

/-- JSON text without its spaces. -/
inductive Node where
  | null
  | bool (b : Bool)
  | number (n : NumberLiteral)
  | string (parts : List StringPart)
  | array (elements : List Node)
  | object (members : List (List StringPart × Node))

namespace Node

/-- An array or object that waits for a value; what it holds so far is newest first. -/
inductive Frame where
  | array (elements : List Node)
  | object (members : List (List StringPart × Node)) (key : List StringPart)

/-- What may come next, inside a stack of open arrays and objects. -/
inductive State where
  /-- A value. -/
  | value (stack : List Frame)
  /-- The first value of an array, or its end. -/
  | firstElement (stack : List Frame)
  /-- The first key of an object, or its end. -/
  | firstKey (stack : List Frame)
  /-- A key. -/
  | key (members : List (List StringPart × Node)) (stack : List Frame)
  /-- The colon after a key. -/
  | colon (members : List (List StringPart × Node)) (key : List StringPart) (stack : List Frame)
  /-- A comma or the end of an array. -/
  | afterElement (elements : List Node) (stack : List Frame)
  /-- A comma or the end of an object. -/
  | afterMember (members : List (List StringPart × Node)) (stack : List Frame)
  /-- Nothing. -/
  | finished (node : Node)

/-- The state after a value. -/
def State.deliver (node : Node) : List Frame → State
  | [] => .finished node
  | .array elements :: stack => .afterElement (node :: elements) stack
  | .object members k :: stack => .afterMember ((k, node) :: members) stack

/-- The state after a token that starts a value. -/
def State.startValue (stack : List Frame) : Token → Option State
  | .null => some (.deliver .null stack)
  | .bool b => some (.deliver (.bool b) stack)
  | .number n => some (.deliver (.number n) stack)
  | .string parts => some (.deliver (.string parts) stack)
  | .openArray => some (.firstElement stack)
  | .openObject => some (.firstKey stack)
  | _ => none

/-- The state after a token, or none where the token may not stand. -/
def State.step : State → Token → Option State
  | .value stack, t => startValue stack t
  | .firstElement stack, .closeArray => some (.deliver (.array []) stack)
  | .firstElement stack, t => startValue (.array [] :: stack) t
  | .firstKey stack, .closeObject => some (.deliver (.object []) stack)
  | .firstKey stack, .string k => some (.colon [] k stack)
  | .key members stack, .string k => some (.colon members k stack)
  | .colon members k stack, .colon => some (.value (.object members k :: stack))
  | .afterElement elements stack, .comma => some (.value (.array elements :: stack))
  | .afterElement elements stack, .closeArray => some (.deliver (.array elements.reverse) stack)
  | .afterMember members stack, .comma => some (.key members stack)
  | .afterMember members stack, .closeObject => some (.deliver (.object members.reverse) stack)
  | _, _ => none

/-- The state after a list of tokens. -/
def State.run : State → List Token → Option State
  | s, [] => some s
  | s, t :: rest => (s.step t).bind (·.run rest)

/-- The tree of a list of tokens that is one value. -/
def ofTokens? (tokens : List Token) : Option Node :=
  match (State.value []).run tokens with
  | some (.finished node) => some node
  | _ => none

/-- The tree of a text that is one value with spaces around its tokens. -/
def parse? (text : String) : Option Node :=
  (tokens? text.toList).bind ofTokens?

end Node

end TableSql.Json
