/-!
# Tokens of JSON text

JSON text as tokens. A string token keeps its `\u` escapes as code units and a number token keeps
its digits, so that a reader that passes over a value asks nothing of them but their form.

## Main definitions

* `Json.StringPart`, `Json.NumberLiteral`, `Json.Token` — the tokens
* `Json.string?`, `Json.number?`, `Json.token?` — one token off the front of a text
* `Json.tokens?` — the tokens of a text

## Main results

* `Json.length_token?_lt` — a token takes at least one character
-/

namespace TableSql.Json

/-- A part of a string: a character, or the code unit of a `\u` escape. -/
inductive StringPart where
  | char (c : Char)
  | unit (n : Nat)
deriving Repr, DecidableEq

/-- A number as written: its sign, and the digits of its parts. -/
structure NumberLiteral where
  negative : Bool
  whole : List Char
  fraction : List Char
  /-- The exponent's sign and digits, if there is an exponent. -/
  exponent : Option (Bool × List Char)
deriving Repr, DecidableEq

/-- A token of JSON text. -/
inductive Token where
  | null
  | bool (b : Bool)
  | number (n : NumberLiteral)
  | string (parts : List StringPart)
  | openArray
  | closeArray
  | openObject
  | closeObject
  | comma
  | colon
deriving Repr, DecidableEq

/-! ### Characters -/

/-- White space between tokens. -/
def isSpace (c : Char) : Bool :=
  c = ' ' || c = '\t' || c = '\n' || c = '\x0d'

/-- The value of a hexadecimal digit. -/
def hexValue? (c : Char) : Option Nat :=
  if '0' ≤ c ∧ c ≤ '9' then some (c.toNat - '0'.toNat)
  else if 'a' ≤ c ∧ c ≤ 'f' then some (c.toNat - 'a'.toNat + 10)
  else if 'A' ≤ c ∧ c ≤ 'F' then some (c.toNat - 'A'.toNat + 10)
  else none

/-- The code unit of four hexadecimal digits. -/
def unit? (a b c d : Char) : Option Nat := do
  return (((← hexValue? a) * 16 + (← hexValue? b)) * 16 + (← hexValue? c)) * 16 + (← hexValue? d)

/-- The character that a backslash and `c` stand for. -/
def unescape? (c : Char) : Option Char :=
  if c = '"' ∨ c = '\\' ∨ c = '/' then some c
  else if c = 'b' then some '\x08'
  else if c = 'f' then some '\x0c'
  else if c = 'n' then some '\n'
  else if c = 'r' then some '\x0d'
  else if c = 't' then some '\t'
  else none

/-! ### Tokens -/

/-- The rest of a string after its opening quote: its parts, and what follows it. -/
def string? : List Char → Option (List StringPart × List Char)
  | [] => none
  | '"' :: rest => some ([], rest)
  | '\\' :: 'u' :: a :: b :: c :: d :: rest =>
    match unit? a b c d, string? rest with
    | some n, some (parts, after) => some (.unit n :: parts, after)
    | _, _ => none
  | '\\' :: c :: rest =>
    match unescape? c, string? rest with
    | some e, some (parts, after) => some (.char e :: parts, after)
    | _, _ => none
  | c :: rest =>
    if c.toNat < 0x20 then none
    else match string? rest with
      | some (parts, after) => some (.char c :: parts, after)
      | none => none

/-- A whole part is one zero, or digits that start with another digit. -/
def isWhole : List Char → Bool
  | [] => false
  | ['0'] => true
  | c :: _ => c != '0'

/-- The digits after a point, if a point comes first: none where digits are missing. -/
def fraction? : List Char → Option (List Char × List Char)
  | '.' :: rest =>
    let digits := rest.takeWhile Char.isDigit
    if digits = [] then none else some (digits, rest.dropWhile Char.isDigit)
  | cs => some ([], cs)

/-- An optional sign, and what follows it. -/
def sign : List Char → Bool × List Char
  | '-' :: rest => (true, rest)
  | '+' :: rest => (false, rest)
  | cs => (false, cs)

/-- The exponent, if one comes first: none where its digits are missing. -/
def exponent? : List Char → Option (Option (Bool × List Char) × List Char)
  | [] => some (none, [])
  | c :: rest =>
    if c = 'e' ∨ c = 'E' then
      let (negative, after) := sign rest
      let digits := after.takeWhile Char.isDigit
      if digits = [] then none
      else some (some (negative, digits), after.dropWhile Char.isDigit)
    else some (none, c :: rest)

/-- A number without its sign, off the front of a text. -/
def unsignedNumber? (negative : Bool) (cs : List Char) : Option (NumberLiteral × List Char) :=
  let whole := cs.takeWhile Char.isDigit
  if isWhole whole then
    match fraction? (cs.dropWhile Char.isDigit) with
    | none => none
    | some (fraction, afterFraction) =>
      match exponent? afterFraction with
      | none => none
      | some (exponent, rest) => some (⟨negative, whole, fraction, exponent⟩, rest)
  else none

/-- A number off the front of a text. -/
def number? : List Char → Option (NumberLiteral × List Char)
  | '-' :: rest => unsignedNumber? true rest
  | cs => unsignedNumber? false cs

/-- A token off the front of a text. -/
def token? : List Char → Option (Token × List Char)
  | '[' :: rest => some (.openArray, rest)
  | ']' :: rest => some (.closeArray, rest)
  | '\x7b' :: rest => some (.openObject, rest)
  | '\x7d' :: rest => some (.closeObject, rest)
  | ',' :: rest => some (.comma, rest)
  | ':' :: rest => some (.colon, rest)
  | '"' :: rest => (string? rest).map fun (parts, after) => (.string parts, after)
  | 'n' :: 'u' :: 'l' :: 'l' :: rest => some (.null, rest)
  | 't' :: 'r' :: 'u' :: 'e' :: rest => some (.bool true, rest)
  | 'f' :: 'a' :: 'l' :: 's' :: 'e' :: rest => some (.bool false, rest)
  | cs => (number? cs).map fun (n, after) => (.number n, after)

/-! ### What is left is shorter -/

theorem length_dropWhile_le (p : Char → Bool) (cs : List Char) :
    (cs.dropWhile p).length ≤ cs.length :=
  (List.dropWhile_suffix p).length_le

theorem length_string?_lt {cs : List Char} {parts : List StringPart} {rest : List Char}
    (h : string? cs = some (parts, rest)) : rest.length < cs.length := by
  fun_induction string? cs generalizing parts rest with
  | case1 => simp at h
  | case2 r => simp_all
  | case3 a b c d r n ps after hs hn ih =>
    have := ih hs
    simp_all
    omega
  | case4 => simp at h
  | case5 c r _ e ps after hs he ih =>
    have := ih hs
    simp_all
    omega
  | case6 => simp at h
  | case7 => simp at h
  | case8 c r _ _ _ hc ps after hs ih =>
    have := ih hs
    simp_all
    omega
  | case9 => simp at h

theorem length_fraction?_le {cs fraction rest : List Char}
    (h : fraction? cs = some (fraction, rest)) : rest.length ≤ cs.length := by
  unfold fraction? at h
  split at h
  next r =>
    have := length_dropWhile_le Char.isDigit r
    simp only at h
    split at h <;> simp_all
    omega
  next => simp_all

theorem length_sign_le (cs : List Char) : (sign cs).2.length ≤ cs.length := by
  unfold sign
  split <;> simp

theorem length_exponent?_le {cs : List Char} {e : Option (Bool × List Char)} {rest : List Char}
    (h : exponent? cs = some (e, rest)) : rest.length ≤ cs.length := by
  unfold exponent? at h
  split at h
  next => simp_all
  next c r =>
    split at h
    next =>
      have h1 := length_sign_le r
      have h2 := length_dropWhile_le Char.isDigit (sign r).2
      simp only at h
      split at h <;> simp_all
      omega
    next => simp_all

theorem length_unsignedNumber?_lt {negative : Bool} {cs : List Char} {n : NumberLiteral}
    {rest : List Char} (h : unsignedNumber? negative cs = some (n, rest)) :
    rest.length < cs.length := by
  unfold unsignedNumber? at h
  simp only at h
  split at h
  next hwhole =>
    split at h
    next => simp at h
    next fraction afterFraction hf =>
      split at h
      next => simp at h
      next e r he =>
        have hlen : (cs.takeWhile Char.isDigit).length + (cs.dropWhile Char.isDigit).length =
            cs.length := by
          rw [← List.length_append, List.takeWhile_append_dropWhile]
        have hpos : 0 < (cs.takeWhile Char.isDigit).length := by
          cases hw : cs.takeWhile Char.isDigit with
          | nil => simp [hw, isWhole] at hwhole
          | cons => simp
        have := length_fraction?_le hf
        have := length_exponent?_le he
        simp only [Option.some.injEq, Prod.mk.injEq] at h
        rw [h.2] at this
        omega
  next => simp at h

theorem length_number?_lt {cs : List Char} {n : NumberLiteral} {rest : List Char}
    (h : number? cs = some (n, rest)) : rest.length < cs.length := by
  unfold number? at h
  split at h
  next r =>
    have := length_unsignedNumber?_lt h
    simp
    omega
  next => exact length_unsignedNumber?_lt h

/-- A token takes at least one character. -/
theorem length_token?_lt {cs : List Char} {t : Token} {rest : List Char}
    (h : token? cs = some (t, rest)) : rest.length < cs.length := by
  unfold token? at h
  split at h
  case h_7 r =>
    cases hs : string? r with
    | none => simp [hs] at h
    | some p =>
      have := @length_string?_lt _ p.1 p.2 hs
      simp [hs] at h
      rw [h.2] at this
      simp
      omega
  case h_11 =>
    cases hn : number? cs with
    | none => simp [hn] at h
    | some p =>
      have := @length_number?_lt _ p.1 p.2 hn
      simp [hn] at h
      rw [h.2] at this
      exact this
  all_goals
    simp at h
    obtain ⟨-, rfl⟩ := h
    simp
    try omega

/-! ### Token lists -/

/-- The tokens of a text, or none where it has something that is no token. -/
def tokens? (cs : List Char) : Option (List Token) :=
  match _hcs : cs.dropWhile isSpace with
  | [] => some []
  | c :: after =>
    match _ht : token? (c :: after) with
    | none => none
    | some (t, rest) => (tokens? rest).map (t :: ·)
termination_by cs.length
decreasing_by
  have h1 := length_token?_lt _ht
  have h2 := length_dropWhile_le isSpace cs
  rw [_hcs] at h2
  omega

end TableSql.Json
