import TableSql.Json.Token

/-!
# IPv6 addresses

An IPv6 address as its eight groups: read from any of its spellings and written in one.

## Main definitions

* `Uri.Address` — the groups
* `Uri.Address.parse?` — the address of a text, which may leave out one run of zeros and may write
  the last two groups as four decimal numbers
* `Uri.Address.chars` — the text of an address, with its longest run of zeros left out
-/

namespace TableSql.Uri

/-- The groups of an IPv6 address. -/
abbrev Address := List Nat

namespace Address

/-! ### Reading -/

/-- A part of a written address: a group, or the gap where zeros are left out. -/
inductive Piece where
  | group (n : Nat)
  | gap
deriving DecidableEq, Repr

/-- The value of hexadecimal digits. -/
def hexDigitsValue (cs : List Char) : Nat :=
  cs.foldl (fun n c => n * 16 + (Json.hexValue? c).getD 0) 0

/-- A hexadecimal digit of either case. -/
def isHexDigit (c : Char) : Bool :=
  (Json.hexValue? c).isSome

/-- A number up to 255 with no zero in front, and what follows it. -/
def octet? (cs : List Char) : Option (Nat × List Char) :=
  let digits := cs.takeWhile Char.isDigit
  let n := digits.foldl (fun n c => n * 10 + (c.toNat - '0'.toNat)) 0
  match digits with
  | [] => none
  | '0' :: _ :: _ => none
  | _ => if n ≤ 255 then some (n, cs.dropWhile Char.isDigit) else none

/-- `count` numbers with points between them, and nothing after them. -/
def octets? : (count : Nat) → List Char → Option (List Nat)
  | 0, _ => none
  | 1, cs =>
    match octet? cs with
    | some (n, []) => some [n]
    | _ => none
  | count + 1, cs =>
    match octet? cs with
    | some (n, '.' :: rest) => (octets? count rest).map (n :: ·)
    | _ => none

/-- The pieces of an address that has room for `room` more, after a gap or not. -/
def pieces? : (room : Nat) → (hadGap : Bool) → List Char → Option (List Piece)
  | _, _, [] => some []
  | 0, _, _ :: _ => none
  | room + 1, hadGap, ':' :: rest =>
    if hadGap then none else (pieces? room true rest).map (.gap :: ·)
  | room + 1, hadGap, cs =>
    let digits := (cs.take 4).takeWhile isHexDigit
    match cs.drop digits.length with
    | [] => some [.group (hexDigitsValue digits)]
    | ':' :: rest =>
      if rest = [] then none
      else (pieces? room hadGap rest).map (.group (hexDigitsValue digits) :: ·)
    | '.' :: _ =>
      if digits = [] ∨ room = 0 then none
      else match octets? 4 cs with
        | some [a, b, c, d] => some [.group (a * 256 + b), .group (c * 256 + d)]
        | _ => none
    | _ => none

/-- The number of a group, none for the gap. -/
def Piece.value? : Piece → Option Nat
  | .group n => some n
  | .gap => none

/-- Eight groups, where the gap stands for the ones that are missing. -/
def ofPieces? (pieces : List Piece) : Option Address :=
  let before := (pieces.takeWhile (· != .gap)).filterMap Piece.value?
  let after := (pieces.dropWhile (· != .gap)).filterMap Piece.value?
  if pieces.contains .gap then
    some (before ++ List.replicate (8 - before.length - after.length) 0 ++ after)
  else if before.length = 8 then some before
  else none

/-- The address that a text spells. -/
def parse? (cs : List Char) : Option Address :=
  match cs with
  | ':' :: ':' :: rest => ((pieces? 7 true rest).map (.gap :: ·)).bind ofPieces?
  | ':' :: _ => none
  | [] => none
  | [_] => none
  | cs => (pieces? 8 false cs).bind ofPieces?

/-! ### Writing -/

/-- The number of zeros in front. -/
def leadingZeros (groups : List Nat) : Nat :=
  (groups.takeWhile (· == 0)).length

/-- The place and length of the longest run of zeros, the first of several; at least two. -/
def longestRun (groups : Address) : Option (Nat × Nat) :=
  (List.range groups.length).foldl (fun best start =>
    let length := leadingZeros (groups.drop start)
    let record := match best with
      | some (_, n) => n
      | none => 1
    if record < length then some (start, length) else best) none

/-- Groups between colons. -/
def groupChars : List Nat → List Char
  | [] => []
  | [n] => Nat.toDigits 16 n
  | n :: m :: rest => Nat.toDigits 16 n ++ ':' :: groupChars (m :: rest)

/-- The address with its longest run of zeros left out. -/
def chars (groups : Address) : List Char :=
  match longestRun groups with
  | some (start, length) =>
    groupChars (groups.take start) ++ ':' :: ':' :: groupChars (groups.drop (start + length))
  | none => groupChars groups

end Address

end TableSql.Uri
