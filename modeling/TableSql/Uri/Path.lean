import TableSql.Text.Split
import TableSql.Uri.Percent

/-!
# Paths of a URI

A path is a list of segments with slashes between them. A segment `.` stands for nothing and a
segment `..` takes the segment before it away; either dot may be percent-encoded.

## Main definitions

* `Uri.Path` — a path with its dot segments resolved
* `Uri.Path.ofText`, `Uri.Path.chars` — the path of a text, and the text of a path
-/

namespace TableSql.Uri

/-- A segment with its encoded dots written as dots. -/
def plainDots : List Char → List Char
  | '%' :: '2' :: 'e' :: rest => '.' :: plainDots rest
  | '%' :: '2' :: 'E' :: rest => '.' :: plainDots rest
  | c :: rest => c :: plainDots rest
  | [] => []

/-- The segment of the path itself. -/
def isSingleDot (segment : List Char) : Bool :=
  plainDots segment == ['.']

/-- The segment of the path above. -/
def isDoubleDot (segment : List Char) : Bool :=
  plainDots segment == ['.', '.']

/-- A drive letter with its mark. -/
def isDrive : List Char → Bool
  | [letter, mark] => letter.isAlpha && (mark == ':' || mark == '|')
  | _ => false

/-- A drive letter, alone or before a backslash: nothing takes it away. -/
def startsWithDrive (segment : List Char) : Bool :=
  isDrive (segment.take 2) && (segment.length == 2 || segment[2]? == some '\\')

/-- A path as its closed segments, last one first, and the segment that no slash follows. -/
structure Path where
  closed : List (List Char)
  last : List Char
deriving DecidableEq, Repr

namespace Path

/-- The closed segments after a `..`. The first segment, which is empty, stays. -/
def parent : List (List Char) → List (List Char)
  | top :: below :: rest => if startsWithDrive top then top :: below :: rest else below :: rest
  | closed => closed

/-- The path that goes on from closed segments with the segments to come. -/
def resolve (closed : List (List Char)) : List (List Char) → Path
  | [] => ⟨closed, []⟩
  | [segment] =>
    if isDoubleDot segment then ⟨parent closed, []⟩
    else if isSingleDot segment then ⟨closed, []⟩
    else ⟨closed, segment⟩
  | segment :: next :: rest =>
    if isDoubleDot segment then resolve (parent closed) (next :: rest)
    else if isSingleDot segment then resolve closed (next :: rest)
    else resolve (segment :: closed) (next :: rest)

/-- The path of the text after its first slash. -/
def ofText (cs : List Char) : Path :=
  resolve [[]] (Text.splitAt '/' (percentEncode isPathSafe cs))

/-- The text of a path. -/
def chars (p : Path) : List Char :=
  p.closed.reverse.flatMap (· ++ ['/']) ++ p.last

end Path

end TableSql.Uri
