import Mathlib.Tactic.SplitIfs
import TableSql.Text.Bytes

/-!
# The order of texts

Texts are ordered by their characters, and their UTF-8 bytes are in the same order. For the first
characters that differ also have bytes that differ, and the first of these are in the order of the
characters: as a longer encoding starts with a greater byte, and one of the same length has the
digits of its character.

## Main definitions

* `Text.Below` — the first bytes that differ are in order

## Main results

* `Text.below_utf8EncodeChar` — the bytes of characters in order
* `Text.bytes_lt_iff` — texts are in the order of their bytes
-/

namespace TableSql.Text

/-- The lists differ at a place of both, and there the first list has the lesser byte. -/
def Below : List UInt8 → List UInt8 → Prop
  | a :: as, b :: bs => a < b ∨ a = b ∧ Below as bs
  | _, _ => False

/-- What comes behind bytes that differ does not matter. -/
theorem Below.append_lt {as bs : List UInt8} (h : Below as bs) (us vs : List UInt8) :
    as ++ us < bs ++ vs := by
  induction as generalizing bs with
  | nil => cases h
  | cons a as ih =>
    cases bs with
    | nil => cases h
    | cons b bs =>
      rw [List.cons_append, List.cons_append, List.cons_lt_cons_iff]
      exact h.imp_right fun ⟨heq, hrest⟩ => ⟨heq, ih hrest⟩

/-- **The bytes of a lesser character are below those of a greater one.** -/
theorem below_utf8EncodeChar {c d : Char} (h : c < d) :
    Below (String.utf8EncodeChar c) (String.utf8EncodeChar d) := by
  have hlt : c.val.toNat < d.val.toNat := UInt32.lt_iff_toNat_lt.mp h
  have hmax : d.val.toNat < 1114112 := by
    rcases d.valid with h | ⟨-, h⟩
    · exact Nat.lt_trans h (by decide)
    · exact h
  have hdigits : ∀ n : Nat, n / 64 / 64 = n / 4096 ∧ n / 4096 / 64 = n / 262144 :=
    fun n => ⟨Nat.div_div_eq_div_mul n 64 64, Nat.div_div_eq_div_mul n 4096 64⟩
  have hc := hdigits c.val.toNat
  have hd := hdigits d.val.toNat
  -- one case for each two lengths, of which the second is not less than the first
  simp only [String.utf8EncodeChar]
  split_ifs <;>
    simp (disch := omega) only [Below, UInt8.lt_iff_toNat_lt, ← UInt8.toNat_inj,
      UInt8.toNat_ofNat', Nat.mod_eq_of_lt] <;>
    omega

theorem encode_lt {cs ds : List Char} (h : cs < ds) : encode cs < encode ds := by
  induction cs generalizing ds with
  | nil =>
    cases ds with
    | nil => cases h
    | cons d ds =>
      obtain ⟨b, bs, hb⟩ := List.exists_cons_of_ne_nil (String.utf8EncodeChar_ne_nil (c := d))
      rw [encode_nil, encode_cons, hb]
      exact List.nil_lt_cons b _
  | cons c cs ih =>
    cases ds with
    | nil => cases h
    | cons d ds =>
      rw [encode_cons, encode_cons]
      rcases List.cons_lt_cons_iff.mp h with hlt | ⟨rfl, hrest⟩
      · exact (below_utf8EncodeChar hlt).append_lt _ _
      · exact List.append_left_lt (ih hrest)

/-- **Texts are in the order of their bytes.** -/
theorem bytes_lt_iff {s t : String} : bytes s < bytes t ↔ s < t := by
  refine ⟨fun h => Decidable.byContradiction fun hnot => ?_, encode_lt⟩
  by_cases heq : s = t
  · rw [heq] at h
    exact List.lt_irrefl _ h
  · have hgt := Std.lt_of_le_of_ne (String.not_lt.mp hnot) (Ne.symm heq)
    exact List.lt_asymm h (encode_lt hgt)

end TableSql.Text
