import TableSql.Text.Bytes

/-!
# Scanning SQL text

SQL text is never parsed. It is scanned, byte by byte, for what stands outside quotes: named
placeholders such as `:name`, and positional markers `?`. A quoted token starts with a quote byte
and ends with the next one of its kind that is not doubled; within single and double quotes a
backslash takes the byte after it along.

A scan carries the number of bytes that the last token still covers, so it goes down the list of
bytes one at a time.

## Bytes, not characters

Offsets count bytes. Everything a scan looks for is ASCII, and no byte of another character's UTF-8
form is, so a scan by bytes finds the same places as one by characters would. A placeholder is
decided by what follows the colon, without a look back: the second colon of `::x` starts one.

There is no token for text outside quotes. What SQL makes of it does not matter to a scan, so a
quote inside a comment of the statement opens a quoted token like any other.

## Main definitions

* `Sql.Quote` — the three quotes
* `Sql.Quote.tailLength?` — the length of a quoted token after its first byte
* `Sql.Placeholder` — a placeholder with the place it stands at
* `Sql.placeholders?` — the placeholders of a text
* `Sql.countMarkers?` — the number of markers of a text
* `Sql.Unterminated` — the quote that keeps a scan from its end

## Main results

* `Sql.Quote.tailLength?_le` — a quoted token ends inside the text
-/

namespace TableSql.Sql

/-! ### Quoted tokens -/

/-- A byte that opens and closes a quoted token. -/
inductive Quote where
  /-- Around a string. -/
  | single
  /-- Around a string. -/
  | double
  /-- Around an identifier. -/
  | backtick
deriving DecidableEq, Repr

namespace Quote

/-- The quote as a byte. -/
def byte : Quote → UInt8
  | .single => 39
  | .double => 34
  | .backtick => 96

/-- The quote that a byte is. -/
def ofByte? (b : UInt8) : Option Quote :=
  if b = 39 then some .single
  else if b = 34 then some .double
  else if b = 96 then some .backtick
  else none

/-- A backslash takes the next byte along. -/
def hasEscapes : Quote → Bool
  | .backtick => false
  | _ => true

/-- The number of bytes after an opening quote up to the end of its token; none without an end. -/
def tailLength? (q : Quote) : List UInt8 → Option Nat
  | [] => none
  | b :: rest =>
    if q.hasEscapes && b == 92 then
      match rest with
      | [] => none
      | _ :: after => (tailLength? q after).map (· + 2)
    else if b == q.byte then
      match rest with
      | [] => some 1
      | c :: after => if c == q.byte then (tailLength? q after).map (· + 2) else some 1
    else (tailLength? q rest).map (· + 1)

theorem ofByte?_byte (q : Quote) : ofByte? q.byte = some q := by
  cases q <;> rfl

/-- A quoted token ends inside the text. -/
theorem tailLength?_le {q : Quote} {bs : List UInt8} {n : Nat} (h : q.tailLength? bs = some n) :
    n ≤ bs.length := by
  fun_induction tailLength? q bs generalizing n with
  | case1 => simp at h
  | case2 => simp at h
  | case3 _ _ _ _ ih =>
    obtain ⟨m, hm, rfl⟩ := Option.map_eq_some_iff.1 h
    have := ih hm
    simp
    omega
  | case4 => simp_all
  | case5 _ _ _ _ _ _ ih =>
    obtain ⟨m, hm, rfl⟩ := Option.map_eq_some_iff.1 h
    have := ih hm
    simp
    omega
  | case6 => simp_all
  | case7 _ _ _ _ ih =>
    obtain ⟨m, hm, rfl⟩ := Option.map_eq_some_iff.1 h
    have := ih hm
    simp
    omega

end Quote

/-- A quote that is never closed, with the number of bytes before it. -/
structure Unterminated where
  quote : Quote
  offset : Nat
deriving DecidableEq, Repr

/-! ### Placeholders -/

/-- A named placeholder. Its span holds the colon and the name. -/
structure Placeholder where
  name : String
  start : Nat
  stop : Nat
deriving DecidableEq, Repr

/-- A byte of a placeholder's name: an ASCII letter, a digit or an underscore. -/
def isNameByte (b : UInt8) : Bool :=
  (48 ≤ b && b ≤ 57) || (65 ≤ b && b ≤ 90) || (97 ≤ b && b ≤ 122) || b == 95

/-- The placeholders from byte `pos` on, after `skip` bytes that are part of the last token. -/
def placeholdersFrom : (skip pos : Nat) → List UInt8 → Except Unterminated (List Placeholder)
  | _, _, [] => .ok []
  | skip + 1, pos, _ :: rest => placeholdersFrom skip (pos + 1) rest
  | 0, pos, b :: rest =>
    match Quote.ofByte? b with
    | some q =>
      match q.tailLength? rest with
      | some n => placeholdersFrom n (pos + 1) rest
      | none => .error ⟨q, pos⟩
    | none =>
      let name := rest.takeWhile isNameByte
      if b == 58 && !name.isEmpty then
        match placeholdersFrom name.length (pos + 1) rest with
        | .ok others => .ok (⟨Text.ofAscii name, pos, pos + 1 + name.length⟩ :: others)
        | .error e => .error e
      else placeholdersFrom 0 (pos + 1) rest

/-- The placeholders of a text from left to right, or the quote that is never closed. -/
def placeholders? (text : String) : Except Unterminated (List Placeholder) :=
  placeholdersFrom 0 0 (Text.bytes text)

/-! ### Markers -/

/-- The number of markers from byte `pos` on, after `skip` bytes that are part of the last
token. -/
def countMarkersFrom : (skip pos : Nat) → List UInt8 → Except Unterminated Nat
  | _, _, [] => .ok 0
  | skip + 1, pos, _ :: rest => countMarkersFrom skip (pos + 1) rest
  | 0, pos, b :: rest =>
    match Quote.ofByte? b with
    | some q =>
      match q.tailLength? rest with
      | some n => countMarkersFrom n (pos + 1) rest
      | none => .error ⟨q, pos⟩
    | none =>
      match countMarkersFrom 0 (pos + 1) rest with
      | .ok n => .ok (if b == 63 then n + 1 else n)
      | .error e => .error e

/-- The number of `?` outside quotes, or the quote that is never closed. -/
def countMarkers? (text : String) : Except Unterminated Nat :=
  countMarkersFrom 0 0 (Text.bytes text)

end TableSql.Sql
