import TableSql.Proofs.Text.Encoding

/-!
# Slices of a text

A text may only be cut where a character starts or where it ends. `Text.slice` cuts at any offsets;
here is the slice that fails where the text may not be cut. A cut next to an ASCII byte never
fails.

## Main definitions

* `Text.IsBoundary` — a text may be cut at a byte offset
* `Text.slice?` — a slice that fails

## Main results

* `Text.isBoundary_iff` — a text may be cut where characters are ahead
* `Text.Ahead.slice?_eq`, `Text.Ahead.slice?_end` — a slice between characters
* `Text.slice?_ascii` — a slice of ASCII bytes behind an ASCII byte
-/

namespace TableSql.Text

/-- A character starts at the byte offset, or the text ends there. -/
def IsBoundary (s : String) (n : Nat) : Prop :=
  String.Pos.Raw.IsValid s ⟨n⟩

instance (s : String) (n : Nat) : Decidable (IsBoundary s n) :=
  inferInstanceAs (Decidable (String.Pos.Raw.IsValid s ⟨n⟩))

/-- The part of a text from byte offset `start` up to byte offset `stop`, if the text may be cut at
both of them in this order. -/
def slice? (s : String) (start stop : Nat) : Option String :=
  if start ≤ stop ∧ IsBoundary s start ∧ IsBoundary s stop then some (slice s start stop) else none

/-! ### Boundaries -/

theorem utf8ByteSize_ofList (cs : List Char) :
    (String.ofList cs).utf8ByteSize = (encode cs).length := by
  induction cs with
  | nil => rfl
  | cons c cs ih =>
    have hone : (String.ofList [c]).utf8ByteSize = c.utf8Size := by
      rw [← String.singleton_eq_ofList, String.utf8ByteSize_singleton]
    rw [← List.singleton_append, String.ofList_append, String.utf8ByteSize_append, hone, ih,
      List.singleton_append, length_encode_cons]

theorem isBoundary_iff {s : String} {n : Nat} : IsBoundary s n ↔ ∃ cs, Ahead s n cs := by
  rw [IsBoundary, String.Pos.Raw.isValid_iff_exists_append]
  constructor
  · rintro ⟨t, u, rfl, hn⟩
    have hlen := utf8ByteSize_ofList t.toList
    rw [String.ofList_toList] at hlen
    exact ⟨u.toList, t.toList, String.toList_append, hlen.symm.trans (congrArg (·.byteIdx) hn.symm)⟩
  · rintro ⟨cs, as, htext, rfl⟩
    refine ⟨String.ofList as, String.ofList cs, ?_, ?_⟩
    · rw [← String.ofList_append, ← htext, String.ofList_toList]
    · rw [← utf8ByteSize_ofList]
      rfl

namespace Ahead

variable {text : String} {pos : Nat} {cs ds : List Char}

theorem isBoundary (h : Ahead text pos cs) : IsBoundary text pos :=
  isBoundary_iff.mpr ⟨cs, h⟩

/-- What is ahead ends where the text does. -/
theorem byteLength_eq (h : Ahead text pos cs) : byteLength text = pos + (encode cs).length := by
  obtain ⟨as, htext, rfl⟩ := h
  rw [byteLength, bytes, htext, encode_append, List.length_append]

/-- A slice between characters. -/
theorem slice?_eq (h : Ahead text pos (cs ++ ds)) :
    slice? text pos (pos + (encode cs).length) = some (String.ofList cs) := by
  rw [slice?, if_pos ⟨Nat.le_add_right _ _, h.isBoundary, h.behind.isBoundary⟩, h.slice_eq]

/-- A slice up to the end. -/
theorem slice?_end (h : Ahead text pos cs) :
    slice? text pos (byteLength text) = some (String.ofList cs) := by
  have hnil : Ahead text pos (cs ++ []) := by rwa [List.append_nil]
  rw [h.byteLength_eq]
  exact hnil.slice?_eq

end Ahead

/-! ### ASCII -/

/-- What is behind an ASCII byte is text. -/
theorem exists_ahead_of_ascii {text : String} {xs ys : List UInt8} {b : UInt8}
    (h : bytes text = xs ++ b :: ys) (hb : b.toNat < 128) :
    ∃ cs, encode cs = ys ∧ Ahead text (xs.length + 1) cs := by
  obtain ⟨as, ds, htext, rfl, rfl⟩ := encode_eq_append_cons h hb
  refine ⟨ds, rfl, as ++ [Char.ofNat b.toNat], by rw [htext, List.append_assoc]; rfl, ?_⟩
  rw [bytes, htext, encode_append, encode_cons, List.append_cancel_left_eq] at h
  have hlen := congrArg List.length h
  rw [List.length_append, List.length_cons] at hlen
  rw [encode_append, List.length_append, encode_cons, List.length_append, encode_nil,
    List.length_nil]
  omega

/-- A slice of ASCII bytes behind an ASCII byte is the text that they spell. -/
theorem slice?_ascii {text : String} {xs name ys : List UInt8} {b : UInt8}
    (h : bytes text = xs ++ b :: (name ++ ys)) (hb : b.toNat < 128)
    (hname : ∀ c ∈ name, c.toNat < 128) :
    slice? text (xs.length + 1) (xs.length + 1 + name.length) = some (ofAscii name) := by
  obtain ⟨cs, hcs, hahead⟩ := exists_ahead_of_ascii h hb
  obtain ⟨ds, rfl, -⟩ := encode_eq_append_of_lt hcs hname
  have hslice := hahead.slice?_eq
  have hspelled : encode (name.map fun c => Char.ofNat c.toNat) = name := by
    rw [← bytes_ofList]
    exact bytes_ofAscii hname
  rwa [hspelled] at hslice

end TableSql.Text
