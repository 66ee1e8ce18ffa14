import TableSql.Json.Node
import TableSql.Json.Number

/-!
# Reading JSON values

The value that JSON text stands for. Of a repeated key the last value stands. Arrays and objects
may be nested to a fixed depth; a number that no double holds and a surrogate that stands alone
are refused.

## Main definitions

* `Json.decodeString?` — the characters of a string
* `Json.Node.toJson?` — the value of a tree
* `Json.parse?` — the value of a text
-/

namespace TableSql.Json

/-- The characters of a string, with surrogate pairs joined. -/
def decodeChars? : List StringPart → Option (List Char)
  | [] => some []
  | .char c :: rest => (decodeChars? rest).map (c :: ·)
  | .unit n :: rest =>
    if n < 0xd800 ∨ 0xdfff < n then (decodeChars? rest).map (Char.ofNat n :: ·)
    else if 0xdbff < n then none
    else match rest with
      | .unit m :: after =>
        if 0xdc00 ≤ m ∧ m ≤ 0xdfff then
          (decodeChars? after).map
            (Char.ofNat (0x10000 + (n - 0xd800) * 0x400 + (m - 0xdc00)) :: ·)
        else none
      | _ => none

/-- The text of a string; none where a surrogate stands alone. -/
def decodeString? (parts : List StringPart) : Option String :=
  (decodeChars? parts).map String.ofList

/-- How many arrays and objects may stand inside each other. -/
def depthLimit : Nat := 127

namespace Node

mutual

/-- The value of a tree in which at most `depth` arrays and objects stand inside each other. -/
def toJson? (depth : Nat) : Node → Option Json
  | .null => some .null
  | .bool b => some (.bool b)
  | .number n => n.value?.map fun
    | .integer i => .integer i
    | .float x => .float x
  | .string parts => (decodeString? parts).map .string
  | .array elements =>
    if depth = 0 then none else (toElements? (depth - 1) elements).map .array
  | .object members =>
    if depth = 0 then none else (toMembers? (depth - 1) members).map .ofMembers

/-- The values of elements. -/
def toElements? (depth : Nat) : List Node → Option (List Json)
  | [] => some []
  | x :: rest =>
    match toJson? depth x, toElements? depth rest with
    | some y, some ys => some (y :: ys)
    | _, _ => none

/-- The keys and values of members. -/
def toMembers? (depth : Nat) : List (List StringPart × Node) → Option (List (String × Json))
  | [] => some []
  | (k, x) :: rest =>
    match decodeString? k, toJson? depth x, toMembers? depth rest with
    | some k, some y, some ys => some ((k, y) :: ys)
    | _, _, _ => none

end

end Node

/-- The value of a text. -/
def parse? (text : String) : Option Json :=
  (Node.parse? text).bind (·.toJson? depthLimit)

end TableSql.Json
