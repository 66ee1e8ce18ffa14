import TableSql.Text.Blank
import TableSql.Uri.Percent
import TableSql.Uri.Punycode
import TableSql.Text.Split

/-!
# Domain names

A domain name as a URI writes it, and the name it stands for: percent-decoded, in lower case, with
wide forms of ASCII characters narrowed and marks that nobody sees left out. Of the characters
beyond ASCII only those are refused that no text holds; whether a registry admits the others is
not asked.

## Main definitions

* `Uri.Domain.fold` — the characters that a written character stands for
* `Uri.Domain.isRefused` — a character that no name holds
* `Uri.Domain.isLabel` — a label that is not encoded, or one whose encoding can be read
* `Uri.Domain.ofText?` — the name of a written one
-/

namespace TableSql.Uri.Domain

/-- A mark without a shape of its own. -/
def isInvisible (c : Char) : Bool :=
  let n := c.toNat
  n == 0xad || n == 0x34f || (0x180b ≤ n && n ≤ 0x180d) || n == 0x180f || n == 0x200b ||
    n == 0x2060 || n == 0x2064 || (0xfe00 ≤ n && n ≤ 0xfe0f) || n == 0xfeff ||
    (0xe0100 ≤ n && n ≤ 0xe01ef)

/-- The characters that a written character stands for. Three other full stops are points. -/
def fold (c : Char) : List Char :=
  let n := c.toNat
  if isInvisible c then []
  else if n == 0x3002 || n == 0xff61 then ['.']
  else if 0xff01 ≤ n && n ≤ 0xff5e then [(Char.ofNat (n - 0xfee0)).toLower]
  else [c.toLower]

/-- A character that no name holds: controls, white space, what has a meaning in a URI, private
characters and those that are no characters. -/
def isRefused (c : Char) : Bool :=
  let n := c.toNat
  n ≤ 0x20 || (0x7f ≤ n && n ≤ 0x9f) || Text.isBlankChar c ||
    ['#', '%', '/', ':', '<', '>', '?', '@', '[', '\\', ']', '^', '|'].contains c ||
    (0xe000 ≤ n && n ≤ 0xf8ff) || (0xfdd0 ≤ n && n ≤ 0xfdef) || (0xfff9 ≤ n && n ≤ 0xfffd) ||
    0xfffe ≤ n % 0x10000 || 0xf0000 ≤ n

/-- A character beyond ASCII. -/
def isWide (c : Char) : Bool :=
  0x80 ≤ c.toNat

/-- A label that is not encoded, or one whose encoding can be read and was needed. -/
def isLabel : List Char → Bool
  | 'x' :: 'n' :: '-' :: '-' :: encoded =>
    match Punycode.decode? encoded with
    | some label => label.any isWide && label.all fun c => fold c == [c] && !isRefused c
    | none => false
  | _ => true

/-- The name of a written one. -/
def ofText? (written : List Char) : Option (List Char) := do
  let text ← String.fromUTF8? (percentDecode written).toByteArray
  let name := text.toList.flatMap fold
  if name.any isRefused || !(Text.splitAt '.' name).all isLabel then none else some name

end TableSql.Uri.Domain
