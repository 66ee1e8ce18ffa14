import Mathlib.Data.List.TakeWhile

/-!
# Digits of numbers

The digits that `Nat.toDigits` writes are read back by Horner's rule, whatever the base and the way
to tell the value of a digit. There is at least one digit, and no zero stands in front of others.

## Main results

* `Text.foldl_toDigits` — digits are read back
* `Text.eq_zero_of_head?_toDigits` — what starts with a zero is zero
* `Text.takeWhile_append_of_head?`, `Text.dropWhile_append_of_head?` — a run of characters off the
  front of a text
-/

namespace TableSql.Text

variable {base n : Nat}

theorem exists_of_mem_toDigits (hb : 1 < base) {c : Char} (h : c ∈ Nat.toDigits base n) :
    ∃ d, d < base ∧ c = Nat.digitChar d := by
  induction n using Nat.base_induction base hb with
  | single m hm =>
    rw [Nat.toDigits_of_lt_base hm, List.mem_singleton] at h
    exact ⟨m, hm, h⟩
  | digit m d hd hm ih =>
    rw [← Nat.toDigits_append_toDigits hb hm hd, List.mem_append,
      Nat.toDigits_of_lt_base hd, List.mem_singleton] at h
    rcases h with h | rfl
    · exact ih h
    · exact ⟨d, hd, rfl⟩

/-- **Digits are read back by Horner's rule.** -/
theorem foldl_toDigits (hb : 1 < base) {value : Char → Nat}
    (hvalue : ∀ d, d < base → value (Nat.digitChar d) = d) (n : Nat) :
    (Nat.toDigits base n).foldl (fun m c => m * base + value c) 0 = n := by
  induction n using Nat.base_induction base hb with
  | single m hm => simp [Nat.toDigits_of_lt_base hm, hvalue m hm]
  | digit m d hd hm ih =>
    rw [← Nat.toDigits_append_toDigits hb hm hd, List.foldl_append, ih, Nat.toDigits_of_lt_base hd]
    simp [hvalue d hd, Nat.mul_comm]

/-- No zero stands in front of other digits. -/
theorem eq_zero_of_head?_toDigits (hb : 1 < base) (h : (Nat.toDigits base n).head? = some '0') :
    n = 0 := by
  induction n using Nat.base_induction base hb with
  | single m hm =>
    rw [Nat.toDigits_of_lt_base hm] at h
    simpa using h
  | digit m d hd hm ih =>
    obtain ⟨c, rest, hfront⟩ := List.exists_cons_of_ne_nil (@Nat.toDigits_ne_nil m base)
    rw [← Nat.toDigits_append_toDigits hb hm hd, hfront] at h
    exact absurd (ih (by rw [hfront]; exact h)) (Nat.ne_of_gt hm)

/-! ### Off the front of a text -/

variable {p : Char → Bool} {cs rest : List Char}

theorem takeWhile_append_of_head? (h : ∀ c ∈ cs, p c = true)
    (hrest : ∀ c, rest.head? = some c → p c = false) : (cs ++ rest).takeWhile p = cs := by
  rw [List.takeWhile_append_of_pos h]
  cases rest with
  | nil => simp
  | cons c rest => simp [hrest c rfl]

theorem dropWhile_append_of_head? (h : ∀ c ∈ cs, p c = true)
    (hrest : ∀ c, rest.head? = some c → p c = false) : (cs ++ rest).dropWhile p = rest := by
  rw [List.dropWhile_append_of_pos h]
  cases rest with
  | nil => rfl
  | cons c rest => simp [hrest c rfl]

theorem isDigit_of_mem_toDigits {c : Char} (h : c ∈ Nat.toDigits 10 n) : c.isDigit = true :=
  Nat.isDigit_of_mem_toDigits (by decide) (by decide) h

end TableSql.Text
