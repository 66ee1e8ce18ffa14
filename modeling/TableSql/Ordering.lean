import TableSql.Text.Blank

/-!
# Order criteria

The criteria that rows are sorted by: a column or expression, and a direction.

## Implementation notes

A criterion is not parsed as SQL. Its last word is compared with the names of the directions, and
everything before it is the column, whatever it is; so an expression may be sorted by. The direction
is always spelled out when the criterion is written.

## Main definitions

* `Direction`, `OrderCriterion` — the criteria
* `OrderCriterion.parse` — the criterion of a text such as `age desc`
* `OrderCriterion.toSql` — a criterion with its direction spelled out
-/

namespace TableSql

/-- A sort direction. -/
inductive Direction where
  | ascending
  | descending
deriving DecidableEq, Repr

/-- The direction as SQL spells it. -/
def Direction.name : Direction → String
  | .ascending => "ASC"
  | .descending => "DESC"

/-- The direction that a word names, in any case. -/
def Direction.ofWord? (word : String) : Option Direction :=
  if Text.equalIgnoringCase word "asc" then some .ascending
  else if Text.equalIgnoringCase word "desc" then some .descending
  else none

/-- What rows are sorted by. -/
structure OrderCriterion where
  column : String
  direction : Direction
deriving DecidableEq, Repr

namespace OrderCriterion

/-- The text before the last white space, and the word after it. -/
def splitLastWord? (cs : List Char) : Option (List Char × List Char) :=
  match cs.reverse.dropWhile (!Text.isBlankChar ·) with
  | [] => none
  | _ :: before => some (before.reverse, (cs.reverse.takeWhile (!Text.isBlankChar ·)).reverse)

/-- The criterion of a text: a last word that is a direction gives the direction, and all before
it, or else the whole text, is the column. -/
def parse (text : String) : OrderCriterion :=
  let trimmed := Text.trim text
  match splitLastWord? trimmed.toList with
  | none => ⟨trimmed, .ascending⟩
  | some (before, word) =>
    match Direction.ofWord? (String.ofList word) with
    | some direction => ⟨Text.trimEnd (String.ofList before), direction⟩
    | none => ⟨trimmed, .ascending⟩

/-- The criterion with its direction. -/
def toSql (c : OrderCriterion) : String :=
  c.column ++ " " ++ c.direction.name

end OrderCriterion

end TableSql
