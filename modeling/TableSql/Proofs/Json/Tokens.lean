import TableSql.Json.Printer
import TableSql.Json.Reader
import TableSql.Proofs.Text.Digits

/-!
# Tokens of printed text

What is printed for a string, a number or a word is one token, and it is that token whatever stands
behind it. A number needs that what stands behind it does not carry it on, which no comma and no
closing bracket does.

## Main definitions

* `Json.Spells`, `Json.Mark` — a text in front of another one gives these tokens, or a character
  gives this one
* `Json.Closes` — the text behind a value: a comma, a closing bracket, or nothing
* `Json.StringPart.ofChar`, `Json.NumberLiteral.ofInt` — what a character and an integer are read as

## Main results

* `Json.spells_string`, `Json.decodeString?_ofChar` — strings
* `Json.spells_integer`, `Json.NumberLiteral.value?_ofInt` — integers
-/

namespace TableSql.Json

/-! ### One token after another -/

/-- In front of `rest` the text is the tokens `ts`. -/
def Spells (cs : List Char) (ts : List Token) (rest : List Char) : Prop :=
  tokens? (cs ++ rest) = (tokens? rest).map (ts ++ ·)

variable {cs ds rest : List Char} {ts us : List Token} {t : Token}

theorem tokens?_of_token? {c : Char} (hc : isSpace c = false)
    (h : token? (c :: cs) = some (t, rest)) : tokens? (c :: cs) = (tokens? rest).map (t :: ·) := by
  have hdrop : (c :: cs).dropWhile isSpace = c :: cs := by simp [hc]
  rw [tokens?]
  split
  next hnil =>
    rw [hdrop] at hnil
    cases hnil
  next d after hcons =>
    rw [hdrop] at hcons
    cases hcons
    split
    next hnone =>
      rw [h] at hnone
      cases hnone
    next t' rest' hsome =>
      rw [h] at hsome
      cases hsome
      rfl

theorem spells_nil (rest : List Char) : Spells [] [] rest := by
  cases h : tokens? rest <;> simp [Spells, h]

theorem spells_of_token? {c : Char} (hc : isSpace c = false)
    (h : token? (c :: cs ++ rest) = some (t, rest)) : Spells (c :: cs) [t] rest :=
  tokens?_of_token? hc h

theorem Spells.append (hcs : Spells cs ts (ds ++ rest)) (hds : Spells ds us rest) :
    Spells (cs ++ ds) (ts ++ us) rest := by
  rw [Spells, List.append_assoc, hcs, hds, Option.map_map]
  simp only [Function.comp_def, List.append_assoc]

/-- A character that is a token by itself. -/
structure Mark (c : Char) (t : Token) : Prop where
  not_space : isSpace c = false
  token?_eq : ∀ after, token? (c :: after) = some (t, after)

theorem mark_openArray : Mark '[' .openArray := ⟨rfl, fun _ => rfl⟩

theorem mark_closeArray : Mark ']' .closeArray := ⟨rfl, fun _ => rfl⟩

theorem mark_openObject : Mark '\x7b' .openObject := ⟨rfl, fun _ => rfl⟩

theorem mark_closeObject : Mark '\x7d' .closeObject := ⟨rfl, fun _ => rfl⟩

theorem mark_comma : Mark ',' .comma := ⟨rfl, fun _ => rfl⟩

theorem mark_colon : Mark ':' .colon := ⟨rfl, fun _ => rfl⟩

theorem Spells.cons {c : Char} (h : Mark c t) (hcs : Spells cs ts rest) :
    Spells (c :: cs) (t :: ts) rest := by
  have hmark : Spells [c] [t] (cs ++ rest) := spells_of_token? h.not_space (h.token?_eq _)
  exact hmark.append hcs

/-! ### Strings -/

/-- What a printed character is read as. Only control characters without a short form stand as code
units. -/
def StringPart.ofChar (c : Char) : StringPart :=
  if c.toNat < 0x20 ∧ c ∉ ['\x08', '\x0c', '\n', '\x0d', '\t'] then .unit c.toNat else .char c

theorem hexValue?_digitChar {d : Nat} (h : d < 16) : hexValue? (Nat.digitChar d) = some d := by
  have hall : ∀ d, d < 16 → hexValue? (Nat.digitChar d) = some d := by decide
  exact hall d h

theorem string?_escapeChar (c : Char) {parts : List StringPart}
    (h : string? cs = some (parts, rest)) :
    string? (escapeChar c ++ cs) = some (.ofChar c :: parts, rest) := by
  by_cases hshort : c ∈ ['"', '\\', '\x08', '\x0c', '\n', '\x0d', '\t']
  · -- a backslash and one character
    simp only [List.mem_cons, List.not_mem_nil, or_false] at hshort
    rcases hshort with rfl | rfl | rfl | rfl | rfl | rfl | rfl <;>
      simp [escapeChar, string?, unescape?, h, StringPart.ofChar]
  · simp only [List.mem_cons, List.not_mem_nil, or_false, not_or] at hshort
    obtain ⟨h1, h2, h3, h4, h5, h6, h7⟩ := hshort
    by_cases hcontrol : c.toNat < 0x20
    · -- a code unit with four digits
      have hunit : unit? '0' '0' (Nat.digitChar (c.toNat / 16)) (Nat.digitChar (c.toNat % 16)) =
          some c.toNat := by
        have hzero : hexValue? '0' = some 0 := by decide
        simp only [unit?, hzero, hexValue?_digitChar (show c.toNat / 16 < 16 by omega),
          hexValue?_digitChar (show c.toNat % 16 < 16 by omega)]
        simp
        omega
      simp [escapeChar, StringPart.ofChar, string?, h1, h2, h3, h4, h5, h6, h7, hcontrol, hunit, h]
    · simp [escapeChar, StringPart.ofChar, h1, h2, h3, h4, h5, h6, h7, hcontrol]
      rw [string?]
      · simp [hcontrol, h]
      all_goals simp [h1, h2]

theorem string?_flatMap (cs rest : List Char) :
    string? (cs.flatMap escapeChar ++ '"' :: rest) = some (cs.map .ofChar, rest) := by
  induction cs with
  | nil => rfl
  | cons c cs ih =>
    rw [List.flatMap_cons, List.append_assoc, string?_escapeChar c ih]
    rfl

/-- **A printed string is one token.** -/
theorem spells_string (s : String) (rest : List Char) :
    Spells (stringChars s) [.string (s.toList.map .ofChar)] rest := by
  refine spells_of_token? (by decide) ?_
  have hstring := string?_flatMap s.toList rest
  simp [token?, hstring]

theorem decodeChars?_ofChar (cs : List Char) : decodeChars? (cs.map .ofChar) = some cs := by
  induction cs with
  | nil => rfl
  | cons c cs ih =>
    rw [List.map_cons, StringPart.ofChar]
    split
    next h =>
      have hlow : c.toNat < 0xd800 ∨ 0xdfff < c.toNat := .inl (Nat.lt_trans h.1 (by decide))
      rw [decodeChars?.eq_def]
      simp only [if_pos hlow, ih, Char.ofNat_toNat, Option.map_some]
    next =>
      rw [decodeChars?, ih]
      rfl

/-- **A string is read as what was printed.** -/
theorem decodeString?_ofChar (s : String) : decodeString? (s.toList.map .ofChar) = some s := by
  rw [decodeString?, decodeChars?_ofChar, Option.map_some, String.ofList_toList]

/-! ### Integers -/

/-- What stands behind a value: a comma, a closing bracket, or nothing. -/
def Closes (rest : List Char) : Prop :=
  ∀ c, rest.head? = some c → c = ',' ∨ c = ']' ∨ c = '\x7d'

theorem closes_cons {c : Char} (h : c = ',' ∨ c = ']' ∨ c = '\x7d') : Closes (c :: rest) := by
  rintro d ⟨⟩
  exact h

/-- What a printed integer is read as. -/
def NumberLiteral.ofInt (n : Int) : NumberLiteral :=
  ⟨decide (n < 0), Nat.toDigits 10 n.natAbs, [], none⟩

/-- Digits with no zero in front of others are a whole part. -/
theorem isWhole_toDigits (n : Nat) : isWhole (Nat.toDigits 10 n) = true := by
  by_cases hn : n = 0
  · subst hn
    rfl
  · obtain ⟨c, ds, hdigits⟩ := List.exists_cons_of_ne_nil (@Nat.toDigits_ne_nil n 10)
    have hc : c ≠ '0' := by
      rintro rfl
      exact hn (Text.eq_zero_of_head?_toDigits (show 1 < 10 by decide) (by rw [hdigits]; rfl))
    rw [hdigits]
    cases ds <;> simp [isWhole, hc]

theorem unsignedNumber?_toDigits (negative : Bool) (n : Nat) (hrest : Closes rest) :
    unsignedNumber? negative (Nat.toDigits 10 n ++ rest) =
      some (⟨negative, Nat.toDigits 10 n, [], none⟩, rest) := by
  have hdigits : ∀ c ∈ Nat.toDigits 10 n, c.isDigit = true := fun _ => Text.isDigit_of_mem_toDigits
  have hend : ∀ c, rest.head? = some c → c.isDigit = false := by
    intro c hc
    rcases hrest c hc with rfl | rfl | rfl <;> rfl
  have hfraction : fraction? rest = some ([], rest) := by
    unfold fraction?
    split
    next r =>
      rcases hrest '.' rfl with h | h | h <;> cases h
    next => rfl
  have hexponent : exponent? rest = some (none, rest) := by
    cases rest with
    | nil => rfl
    | cons c r =>
      have hc : ¬ (c = 'e' ∨ c = 'E') := by
        rcases hrest c rfl with rfl | rfl | rfl <;> decide
      rw [exponent?, if_neg hc]
  simp only [unsignedNumber?, Text.takeWhile_append_of_head? hdigits hend,
    Text.dropWhile_append_of_head? hdigits hend, isWhole_toDigits, if_true, hfraction, hexponent]

theorem number?_integerChars (n : Int) (hrest : Closes rest) :
    number? (integerChars n ++ rest) = some (.ofInt n, rest) := by
  rw [integerChars, NumberLiteral.ofInt]
  split
  next hn => simp [number?, unsignedNumber?_toDigits true n.natAbs hrest, hn]
  next hn =>
    obtain ⟨c, ds, hdigits⟩ := List.exists_cons_of_ne_nil (@Nat.toDigits_ne_nil n.natAbs 10)
    have hc : c ≠ '-' := by
      rintro rfl
      have hdigit : '-'.isDigit = true :=
        Text.isDigit_of_mem_toDigits (hdigits ▸ List.mem_cons_self)
      cases hdigit
    have hunsigned := unsignedNumber?_toDigits false n.natAbs hrest
    rw [hdigits, List.cons_append] at hunsigned ⊢
    rw [number?, hunsigned]
    · simp [hn]
    · exact fun r hr => hc (List.cons.inj hr).1

/-- A token that starts with a digit or a sign is a number. -/
theorem token?_of_digit {c : Char} (h : c.isDigit = true ∨ c = '-') :
    token? (c :: cs) = (number? (c :: cs)).map fun (n, after) => (.number n, after) := by
  have hne : ∀ d ∈ ['[', ']', '\x7b', '\x7d', ',', ':', '"', 'n', 't', 'f'], c ≠ d := by
    rintro d hd rfl
    simp only [List.mem_cons, List.not_mem_nil, or_false] at hd
    rcases hd with rfl | rfl | rfl | rfl | rfl | rfl | rfl | rfl | rfl | rfl <;> simp at h
  simp only [List.forall_mem_cons] at hne
  unfold token?
  split <;> simp_all

/-- **A printed integer is one token** in front of a text that does not carry it on. -/
theorem spells_integer (n : Int) (hrest : Closes rest) :
    Spells (integerChars n) [.number (.ofInt n)] rest := by
  have hnumber := number?_integerChars n hrest
  obtain ⟨c, ds, hchars, hc⟩ : ∃ c ds, integerChars n = c :: ds ∧ (c.isDigit = true ∨ c = '-') := by
    rw [integerChars]
    split
    next => exact ⟨'-', _, rfl, .inr rfl⟩
    next =>
      obtain ⟨c, ds, hdigits⟩ := List.exists_cons_of_ne_nil (@Nat.toDigits_ne_nil n.natAbs 10)
      exact ⟨c, ds, hdigits, .inl (Text.isDigit_of_mem_toDigits (hdigits ▸ List.mem_cons_self))⟩
  have hspace : isSpace c = false := by
    rcases hc with hc | rfl
    · simp only [isSpace, Bool.or_eq_false_iff, decide_eq_false_iff_not]
      refine ⟨⟨⟨?_, ?_⟩, ?_⟩, ?_⟩ <;> (rintro rfl; simp at hc)
    · rfl
  rw [hchars] at hnumber ⊢
  refine spells_of_token? hspace ?_
  rw [List.cons_append, token?_of_digit hc, ← List.cons_append, hnumber]
  rfl

theorem digitsValue_toDigits (n : Nat) : digitsValue (Nat.toDigits 10 n) = n :=
  Text.foldl_toDigits (by decide) (fun _ hd => Nat.toNat_digitChar_sub_48_of_lt_ten hd) n

/-- **An integer is read as what was printed.** -/
theorem NumberLiteral.value?_ofInt (n : Integer) :
    (NumberLiteral.ofInt n.val).value? = some (.integer n) := by
  have hzero : ¬ (decide (n.val < 0) = true ∧ n.val.natAbs = 0) := by
    rintro ⟨hneg, hzero⟩
    exact Int.ne_of_lt (of_decide_eq_true hneg) (Int.natAbs_eq_zero.mp hzero)
  have hval : (if decide (n.val < 0) = true then -(n.val.natAbs : Int) else n.val.natAbs)
      = n.val := by
    by_cases hneg : n.val < 0
    · rw [if_pos (decide_eq_true hneg)]
      omega
    · rw [if_neg fun h => hneg (of_decide_eq_true h)]
      omega
  have hint : Integer.ofInt? n.val = some n := dif_pos n.inRange
  simp only [value?, ofInt, digitsValue_toDigits, hzero, not_false_eq_true, and_self, if_true, hval,
    hint]

end TableSql.Json
