import TableSql.Json.Token
import TableSql.Text.Bytes

/-!
# Percent encoding

Characters that a part of a URI can not hold as they are stand there as the bytes of their UTF-8
form, each written as `%` and two hexadecimal digits. Each part has its own set of such
characters. A `%` is never one of them, so a part that is encoded already stays as it is.

## Main definitions

* `Uri.isOpaqueSafe`, `Uri.isPathSafe`, `Uri.isUserSafe` — the characters that stand as they are
* `Uri.percentEncode` — a part with all other characters encoded
* `Uri.percentDecode` — the bytes that a part stands for

## Main results

* `Uri.percentEncode_of_safe` — a part of safe characters is left as it is
-/

namespace TableSql.Uri

/-- A printing ASCII character. -/
def isOpaqueSafe (c : Char) : Bool :=
  0x20 ≤ c.toNat && c.toNat < 0x7f

/-- A character that a path holds as it is. -/
def isPathSafe (c : Char) : Bool :=
  isOpaqueSafe c && !([' ', '"', '#', '<', '>', '?', '\x60', '\x7b', '\x7d'].contains c)

/-- A character that a user name or password holds as it is. -/
def isUserSafe (c : Char) : Bool :=
  isPathSafe c && !(['/', ':', ';', '=', '@', '[', '\\', ']', '^', '|'].contains c)

/-- An upper-case hexadecimal digit. -/
def upperHexDigit (n : Nat) : Char :=
  (Nat.digitChar n).toUpper

/-- A byte as `%` and two digits. -/
def percentByte (b : UInt8) : List Char :=
  ['%', upperHexDigit (b.toNat / 16), upperHexDigit (b.toNat % 16)]

/-- A character as it is, or as its encoded bytes. -/
def percentChar (isSafe : Char → Bool) (c : Char) : List Char :=
  if isSafe c then [c] else (String.utf8EncodeChar c).flatMap percentByte

/-- A part of a URI with all but the safe characters encoded. -/
def percentEncode (isSafe : Char → Bool) (cs : List Char) : List Char :=
  cs.flatMap (percentChar isSafe)

/-- The bytes of a part, where a `%` and two hexadecimal digits stand for one byte. Any other `%`
stands for itself. -/
def percentDecode : List Char → List UInt8
  | '%' :: a :: b :: rest =>
    match Json.hexValue? a, Json.hexValue? b with
    | some high, some low => UInt8.ofNat (high * 16 + low) :: percentDecode rest
    | _, _ => 37 :: percentDecode (a :: b :: rest)
  | c :: rest => String.utf8EncodeChar c ++ percentDecode rest
  | [] => []

theorem percentEncode_nil (isSafe : Char → Bool) : percentEncode isSafe [] = [] := rfl

theorem percentEncode_cons (isSafe : Char → Bool) (c : Char) (cs : List Char) :
    percentEncode isSafe (c :: cs) = percentChar isSafe c ++ percentEncode isSafe cs := by
  simp [percentEncode]

/-- A part of safe characters is left as it is. -/
theorem percentEncode_of_safe {isSafe : Char → Bool} {cs : List Char}
    (h : ∀ c ∈ cs, isSafe c = true) : percentEncode isSafe cs = cs := by
  induction cs with
  | nil => rfl
  | cons c cs ih =>
    rw [percentEncode_cons, ih fun d hd => h d (List.mem_cons_of_mem _ hd)]
    simp [percentChar, h c List.mem_cons_self]

end TableSql.Uri
