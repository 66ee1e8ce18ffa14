import TableSql.Proofs.Text.Encoding
import TableSql.Uri.Percent

/-!
# Encoded parts

What a part of a URI is encoded as holds only safe characters, the `%` and the digits of the bytes
among them. Where the `%` itself is encoded, decoding gives the bytes of the text back, and a text
is its own encoding only if all of it is safe.

## Main definitions

* `Uri.encodingChars` — the characters that bytes are written with

## Main results

* `Uri.percentDecode_percentEncode` — decoding what was encoded
* `Uri.percentEncode_eq_self_iff` — texts that are their own encoding
-/

namespace TableSql.Uri

/-- The characters that bytes are written with. -/
def encodingChars : List Char :=
  ['%', '0', '1', '2', '3', '4', '5', '6', '7', '8', '9', 'A', 'B', 'C', 'D', 'E', 'F']

variable {isSafe : Char → Bool} {cs : List Char} {c : Char}

theorem upperHexDigit_mem {d : Nat} (h : d < 16) : upperHexDigit d ∈ encodingChars := by
  have hall : ∀ d, d < 16 → upperHexDigit d ∈ encodingChars := by decide
  exact hall d h

theorem hexValue?_upperHexDigit {d : Nat} (h : d < 16) :
    Json.hexValue? (upperHexDigit d) = some d := by
  have hall : ∀ d, d < 16 → Json.hexValue? (upperHexDigit d) = some d := by decide
  exact hall d h

/-! ### Safe characters -/

theorem ne_of_safe {d : Char} (hc : isSafe c = true) (hd : isSafe d = false) : c ≠ d :=
  ne_of_apply_ne isSafe (by rw [hc, hd]; decide)

theorem isPathSafe_of_isUserSafe (h : isUserSafe c = true) : isPathSafe c = true :=
  (Bool.and_eq_true_iff.mp h).1

theorem isOpaqueSafe_of_isPathSafe (h : isPathSafe c = true) : isOpaqueSafe c = true :=
  (Bool.and_eq_true_iff.mp h).1

/-- ASCII letters and digits stand as they are in every part. -/
theorem isUserSafe_of_isAlphanum (h : c.isAlphanum = true) : isUserSafe c = true := by
  have hrange : 0x20 ≤ c.toNat ∧ c.toNat < 0x7f := by
    delta Char.isAlphanum Char.isAlpha Char.isUpper Char.isLower Char.isDigit at h
    simp only [Bool.or_eq_true, Bool.and_eq_true, decide_eq_true_eq, ge_iff_le,
      UInt32.le_iff_toNat_le] at h
    change (((65 ≤ c.toNat ∧ c.toNat ≤ 90) ∨ (97 ≤ c.toNat ∧ c.toNat ≤ 122)) ∨
      (48 ≤ c.toNat ∧ c.toNat ≤ 57)) at h
    omega
  have hnot : ∀ {marks : List Char}, marks.any Char.isAlphanum = false →
      marks.contains c = false := by
    intro marks hmarks
    rw [List.contains_eq_mem, decide_eq_false_iff_not]
    exact fun hc => List.any_eq_false.mp hmarks c hc h
  rw [isUserSafe, isPathSafe, isOpaqueSafe, hnot (by decide), hnot (by decide),
    decide_eq_true hrange.1, decide_eq_true hrange.2]
  rfl

/-! ### Encoding -/

theorem mem_encodingChars_of_percentByte {b : UInt8} (h : c ∈ percentByte b) :
    c ∈ encodingChars := by
  have hb := b.toNat_lt
  simp only [percentByte, List.mem_cons, List.not_mem_nil, or_false] at h
  rcases h with rfl | rfl | rfl
  · decide
  · exact upperHexDigit_mem (by omega)
  · exact upperHexDigit_mem (by omega)

theorem mem_percentEncode (h : c ∈ percentEncode isSafe cs) :
    (c ∈ cs ∧ isSafe c = true) ∨ c ∈ encodingChars := by
  obtain ⟨d, hd, hc⟩ := List.mem_flatMap.mp h
  rw [percentChar] at hc
  split at hc
  next hsafe =>
    rw [List.mem_singleton] at hc
    subst hc
    exact .inl ⟨hd, hsafe⟩
  next =>
    obtain ⟨b, -, hc⟩ := List.mem_flatMap.mp hc
    exact .inr (mem_encodingChars_of_percentByte hc)

/-- **What is encoded is safe** where the marks of the encoding are. -/
theorem isSafe_of_mem_percentEncode (hmarks : encodingChars.all isSafe = true)
    (h : c ∈ percentEncode isSafe cs) : isSafe c = true := by
  rcases mem_percentEncode h with ⟨-, hsafe⟩ | hmark
  · exact hsafe
  · exact List.all_eq_true.mp hmarks c hmark

/-- Where letters and digits stand alone, what is encoded is safe in every part. -/
theorem isUserSafe_of_mem_percentEncode (h : c ∈ percentEncode Char.isAlphanum cs) :
    isUserSafe c = true := by
  rcases mem_percentEncode h with ⟨-, halnum⟩ | hmark
  · exact isUserSafe_of_isAlphanum halnum
  · have hall : encodingChars.all isUserSafe = true := by decide
    exact List.all_eq_true.mp hall c hmark

theorem percentEncode_ne_nil (h : cs ≠ []) : percentEncode isSafe cs ≠ [] := by
  obtain ⟨c, cs, rfl⟩ := List.exists_cons_of_ne_nil h
  rw [percentEncode_cons, percentChar]
  split
  · exact List.cons_ne_nil _ _
  · obtain ⟨b, bs, hbytes⟩ := List.exists_cons_of_ne_nil (@String.utf8EncodeChar_ne_nil c)
    rw [hbytes, List.flatMap_cons, percentByte]
    exact List.cons_ne_nil _ _

/-! ### Decoding -/

theorem percentDecode_cons_of_ne (h : c ≠ '%') (cs : List Char) :
    percentDecode (c :: cs) = String.utf8EncodeChar c ++ percentDecode cs := by
  rw [percentDecode]
  exact fun a b rest hc _ => h hc

theorem percentDecode_percentByte (b : UInt8) (cs : List Char) :
    percentDecode (percentByte b ++ cs) = b :: percentDecode cs := by
  have hb := b.toNat_lt
  have hhigh : b.toNat / 16 < 16 := by omega
  have hlow : b.toNat % 16 < 16 := by omega
  have hsum : b.toNat / 16 * 16 + b.toNat % 16 = b.toNat := by omega
  simp only [percentByte, List.cons_append, List.nil_append, percentDecode,
    hexValue?_upperHexDigit hhigh, hexValue?_upperHexDigit hlow, hsum, UInt8.ofNat_toNat]

theorem percentDecode_flatMap (bs : List UInt8) (cs : List Char) :
    percentDecode (bs.flatMap percentByte ++ cs) = bs ++ percentDecode cs := by
  induction bs with
  | nil => rfl
  | cons b bs ih =>
    rw [List.flatMap_cons, List.append_assoc, percentDecode_percentByte, ih, List.cons_append]

/-- **What was encoded is decoded to the bytes of the text.** -/
theorem percentDecode_percentEncode (hmark : isSafe '%' = false) (cs : List Char) :
    percentDecode (percentEncode isSafe cs) = Text.encode cs := by
  induction cs with
  | nil => rfl
  | cons c cs ih =>
    rw [percentEncode_cons, percentChar, Text.encode_cons]
    split
    next hsafe =>
      have hc : c ≠ '%' := by
        rintro rfl
        rw [hmark] at hsafe
        cases hsafe
      rw [List.singleton_append, percentDecode_cons_of_ne hc, ih]
    next => rw [percentDecode_flatMap, ih]

/-! ### Texts that are their own encoding -/

theorem length_le_percentEncode (isSafe : Char → Bool) (cs : List Char) :
    cs.length ≤ (percentEncode isSafe cs).length := by
  induction cs with
  | nil => exact Nat.le_refl 0
  | cons c cs ih =>
    have hpos : 0 < (percentEncode isSafe [c]).length :=
      List.length_pos_iff.mpr (percentEncode_ne_nil (List.cons_ne_nil c []))
    rw [percentEncode_cons, List.length_append, List.length_cons]
    rw [percentEncode_cons, percentEncode_nil, List.append_nil] at hpos
    omega

/-- **A text is its own encoding only if all of it is safe.** -/
theorem percentEncode_eq_self_iff :
    percentEncode isSafe cs = cs ↔ ∀ c ∈ cs, isSafe c = true := by
  refine ⟨fun h => ?_, percentEncode_of_safe⟩
  induction cs with
  | nil => exact nofun
  | cons c cs ih =>
    rw [percentEncode_cons, percentChar] at h
    split at h
    next hsafe => exact List.forall_mem_cons.mpr ⟨hsafe, ih (List.cons.inj h).2⟩
    next =>
      -- a byte takes three characters
      have hlength := congrArg List.length h
      have hle := length_le_percentEncode isSafe cs
      obtain ⟨b, bs, hbytes⟩ := List.exists_cons_of_ne_nil (@String.utf8EncodeChar_ne_nil c)
      simp [hbytes, percentByte] at hlength
      omega

end TableSql.Uri
