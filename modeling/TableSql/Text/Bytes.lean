/-!
# Texts by the byte

Positions in statement text count UTF-8 bytes. A text is read here as the list of its bytes, and
is cut at byte offsets.

## Main definitions

* `Text.bytes` — the UTF-8 bytes of a text
* `Text.slice`, `Text.sliceFrom` — the part of a text between two byte offsets, or after one

## Main results

* `Text.bytes_append` — the bytes of a joined text are the joined bytes
* `Text.takeBytes_append_dropBytes` — a text cut at an offset loses nothing
-/

namespace TableSql.Text

/-- The UTF-8 bytes of a list of characters. -/
def encode (cs : List Char) : List UInt8 :=
  cs.flatMap String.utf8EncodeChar

/-- The UTF-8 bytes of a text. -/
def bytes (s : String) : List UInt8 :=
  encode s.toList

/-- The length of a text in bytes. -/
def byteLength (s : String) : Nat :=
  (bytes s).length

/-- The text that a list of ASCII bytes spells. -/
def ofAscii (bs : List UInt8) : String :=
  String.ofList (bs.map fun b => Char.ofNat b.toNat)

/-- The characters that start before byte offset `n`. -/
def takeBytes : Nat → List Char → List Char
  | 0, _ => []
  | _ + 1, [] => []
  | n + 1, c :: cs => c :: takeBytes (n + 1 - c.utf8Size) cs

/-- The characters that start at byte offset `n` or after it. -/
def dropBytes : Nat → List Char → List Char
  | 0, cs => cs
  | _ + 1, [] => []
  | n + 1, c :: cs => dropBytes (n + 1 - c.utf8Size) cs

/-- The part of a text from byte offset `start` up to byte offset `stop`. -/
def slice (s : String) (start stop : Nat) : String :=
  String.ofList (takeBytes (stop - start) (dropBytes start s.toList))

/-- The part of a text from byte offset `start` on. -/
def sliceFrom (s : String) (start : Nat) : String :=
  String.ofList (dropBytes start s.toList)

/-! ### Joining and cutting -/

@[simp] theorem encode_nil : encode [] = [] := rfl

theorem encode_cons (c : Char) (cs : List Char) :
    encode (c :: cs) = String.utf8EncodeChar c ++ encode cs := by
  simp [encode]

theorem encode_append (cs ds : List Char) : encode (cs ++ ds) = encode cs ++ encode ds := by
  simp [encode]

theorem bytes_append (s t : String) : bytes (s ++ t) = bytes s ++ bytes t := by
  simp [bytes, encode_append]

/-- A cut at a byte offset loses no character and changes none. -/
theorem takeBytes_append_dropBytes (n : Nat) (cs : List Char) :
    takeBytes n cs ++ dropBytes n cs = cs := by
  induction cs generalizing n with
  | nil => cases n <;> rfl
  | cons c cs ih =>
    cases n with
    | zero => rfl
    | succ n => simp [takeBytes, dropBytes, ih]

end TableSql.Text
