import TableSql.Json.Basic
import TableSql.Decimal.Layout

/-!
# JSON text

The compact text of a JSON value: no space between tokens, members in key order, and only those
characters escaped that must be.

## Main definitions

* `Json.stringChars` — a quoted string
* `Json.chars`, `Json.text` — the text of a value
-/

namespace TableSql.Json

/-- The text of an integer: its decimal digits after an optional sign. -/
def integerChars (n : Int) : List Char :=
  if n < 0 then '-' :: Nat.toDigits 10 n.natAbs else Nat.toDigits 10 n.natAbs

/-- One character inside quotes. -/
def escapeChar (c : Char) : List Char :=
  if c = '"' then ['\\', '"']
  else if c = '\\' then ['\\', '\\']
  else if c = '\x08' then ['\\', 'b']
  else if c = '\x0c' then ['\\', 'f']
  else if c = '\n' then ['\\', 'n']
  else if c = '\x0d' then ['\\', 'r']
  else if c = '\t' then ['\\', 't']
  else if c.toNat < 0x20 then
    ['\\', 'u', '0', '0', Nat.digitChar (c.toNat / 16), Nat.digitChar (c.toNat % 16)]
  else [c]

/-- A string in quotes. -/
def stringChars (s : String) : List Char :=
  '"' :: (s.toList.flatMap escapeChar ++ ['"'])

mutual

/-- The compact text of a value. -/
def chars : Json → List Char
  | .null => ['n', 'u', 'l', 'l']
  | .bool true => ['t', 'r', 'u', 'e']
  | .bool false => ['f', 'a', 'l', 's', 'e']
  | .integer n => integerChars n.val
  | .float x => (Decimal.Layout.json.ofFloat x).toList
  | .string s => stringChars s
  | .array elements => '[' :: (elementChars elements ++ [']'])
  | .object members => '\x7b' :: (memberChars members ++ ['\x7d'])

/-- Elements between brackets. -/
def elementChars : List Json → List Char
  | [] => []
  | [x] => chars x
  | x :: y :: rest => chars x ++ ',' :: elementChars (y :: rest)

/-- Members between braces. -/
def memberChars : List (String × Json) → List Char
  | [] => []
  | [(k, x)] => stringChars k ++ ':' :: chars x
  | (k, x) :: m :: rest => stringChars k ++ ':' :: (chars x ++ ',' :: memberChars (m :: rest))

end

/-- The compact text of a value. -/
def text (j : Json) : String :=
  String.ofList j.chars

end TableSql.Json
