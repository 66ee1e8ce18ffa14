import TableSql.Text.Bytes

/-!
# Characters behind bytes

Positions in statement text count bytes, and text is cut between characters. The two meet at the
ASCII bytes. In UTF-8 a byte below 128 is never part of a longer character, and so wherever one
stands the text may be cut before and after it. All marks of SQL text that matter to a scan are
such bytes.

## Main definitions

* `Text.Ahead` — the characters from a byte on

## Main results

* `Text.encode_eq_append_cons` — the bytes before and after an ASCII byte are texts of their own
* `Text.slice_append`, `Text.sliceFrom_append` — a cut between characters is what it should be
* `Text.append_inj_of_byteLength` — a joined text falls apart in one way at a byte length
* `Text.bytes_ofAscii`, `Text.ofList_of_encode` — ASCII bytes spell a text that is made of them
-/

namespace TableSql.Text

/-! ### One character -/

theorem utf8EncodeChar_of_lt {c : Char} (h : c.toNat < 128) :
    String.utf8EncodeChar c = [UInt8.ofNat c.toNat] := by
  have hle : c.toNat ≤ 127 := Nat.le_of_lt_succ h
  simp [String.utf8EncodeChar, Nat.not_lt.mpr hle]

/-- Every byte of a character beyond ASCII is 128 or more. -/
theorem le_of_mem_utf8EncodeChar {c : Char} (h : 128 ≤ c.toNat) {b : UInt8}
    (hb : b ∈ String.utf8EncodeChar c) : 128 ≤ b.toNat := by
  have hgt : ¬c.val.toNat ≤ 127 := Nat.not_le.mpr h
  simp only [String.utf8EncodeChar, hgt, if_false] at hb
  -- two, three or four bytes, each a constant of 128 or more with less than that added
  split at hb
  · simp only [List.mem_cons, List.not_mem_nil, or_false] at hb
    rcases hb with rfl | rfl <;> simp <;> omega
  · split at hb
    · simp only [List.mem_cons, List.not_mem_nil, or_false] at hb
      rcases hb with rfl | rfl | rfl <;> simp <;> omega
    · simp only [List.mem_cons, List.not_mem_nil, or_false] at hb
      rcases hb with rfl | rfl | rfl | rfl <;> simp <;> omega

/-- An ASCII byte of a character is the whole of it. -/
theorem eq_of_mem_utf8EncodeChar {c : Char} {b : UInt8} (hb : b ∈ String.utf8EncodeChar c)
    (hlt : b.toNat < 128) : c = Char.ofNat b.toNat ∧ String.utf8EncodeChar c = [b] := by
  have hc : c.toNat < 128 :=
    Nat.lt_of_not_le fun hge => absurd (le_of_mem_utf8EncodeChar hge hb) (Nat.not_le.mpr hlt)
  have henc := utf8EncodeChar_of_lt hc
  rw [henc, List.mem_singleton] at hb
  subst hb
  refine ⟨?_, henc⟩
  rw [UInt8.toNat_ofNat_of_lt' (Nat.lt_trans hc (by decide)), Char.ofNat_toNat]

/-! ### Where a text may be cut -/

/-- **An ASCII byte is a character, and what stands before and after it is text.** -/
theorem encode_eq_append_cons {cs : List Char} {xs ys : List UInt8} {b : UInt8}
    (h : encode cs = xs ++ b :: ys) (hb : b.toNat < 128) :
    ∃ as ds, cs = as ++ Char.ofNat b.toNat :: ds ∧ encode as = xs ∧ encode ds = ys := by
  induction cs generalizing xs with
  | nil => simp at h
  | cons c cs ih =>
    rw [encode_cons] at h
    rcases List.append_eq_append_iff.mp h with ⟨zs, rfl, hrest⟩ | ⟨zs, henc, hrest⟩
    · -- the character ends before the byte
      obtain ⟨as, ds, rfl, has, hds⟩ := ih hrest
      exact ⟨c :: as, ds, rfl, by rw [encode_cons, has], hds⟩
    · cases zs with
      | nil =>
        have hrest : encode cs = [] ++ b :: ys := hrest.symm
        obtain ⟨as, ds, rfl, has, hds⟩ := ih hrest
        refine ⟨c :: as, ds, rfl, ?_, hds⟩
        rw [encode_cons, has, henc, List.append_nil, List.append_nil]
      | cons z zs =>
        obtain ⟨rfl, rfl⟩ := List.cons.inj hrest
        have hmem : b ∈ String.utf8EncodeChar c := by rw [henc]; simp
        obtain ⟨rfl, hone⟩ := eq_of_mem_utf8EncodeChar hmem hb
        rw [hone] at henc
        cases xs with
        | nil =>
          obtain ⟨-, rfl⟩ := List.cons.inj henc
          exact ⟨[], cs, rfl, rfl, rfl⟩
        | cons x xs => simp at henc

/-- Leading ASCII bytes are characters. -/
theorem encode_eq_append_of_lt {cs : List Char} {xs ys : List UInt8} (h : encode cs = xs ++ ys)
    (hxs : ∀ b ∈ xs, b.toNat < 128) :
    ∃ ds, cs = xs.map (fun b => Char.ofNat b.toNat) ++ ds ∧ encode ds = ys := by
  induction xs generalizing cs with
  | nil => exact ⟨cs, rfl, h⟩
  | cons x xs ih =>
    have h : encode cs = [] ++ x :: (xs ++ ys) := h
    obtain ⟨as, ds, rfl, has, hds⟩ := encode_eq_append_cons h (hxs x (by simp))
    have hnil : as = [] := by
      cases as with
      | nil => rfl
      | cons a as =>
        rw [encode_cons] at has
        exact absurd (List.append_eq_nil_iff.mp has).1 String.utf8EncodeChar_ne_nil
    obtain ⟨es, rfl, hes⟩ := ih hds fun b hb => hxs b (List.mem_cons_of_mem _ hb)
    exact ⟨es, by rw [hnil]; rfl, hes⟩

/-! ### Cuts -/

theorem length_encode_cons (c : Char) (cs : List Char) :
    (encode (c :: cs)).length = c.utf8Size + (encode cs).length := by
  rw [encode_cons, List.length_append, String.length_utf8EncodeChar]

theorem takeBytes_append (as ds : List Char) : takeBytes (encode as).length (as ++ ds) = as := by
  induction as with
  | nil => rw [encode_nil, List.length_nil, takeBytes]
  | cons c as ih =>
    have hpos : 0 < c.utf8Size := c.utf8Size_pos
    obtain ⟨n, hn⟩ : ∃ n, (encode (c :: as)).length = n + 1 :=
      ⟨(encode (c :: as)).length - 1, by rw [length_encode_cons]; omega⟩
    have hsub : n + 1 - c.utf8Size = (encode as).length := by
      rw [← hn, length_encode_cons]
      omega
    rw [hn, List.cons_append, takeBytes, hsub, ih]

theorem dropBytes_append (as ds : List Char) : dropBytes (encode as).length (as ++ ds) = ds := by
  have h := takeBytes_append_dropBytes (encode as).length (as ++ ds)
  rw [takeBytes_append] at h
  exact List.append_cancel_left h

/-- A cut from between two characters to between two others. -/
theorem slice_append {s : String} {as bs ds : List Char} (h : s.toList = as ++ (bs ++ ds)) :
    slice s (encode as).length ((encode as).length + (encode bs).length) = String.ofList bs := by
  rw [slice, h, dropBytes_append, Nat.add_sub_cancel_left, takeBytes_append]

/-- A cut from between two characters to the end. -/
theorem sliceFrom_append {s : String} {as ds : List Char} (h : s.toList = as ++ ds) :
    sliceFrom s (encode as).length = String.ofList ds := by
  rw [sliceFrom, h, dropBytes_append]

/-- The characters of a text from byte `pos` on, where one starts. -/
def Ahead (text : String) (pos : Nat) (cs : List Char) : Prop :=
  ∃ as, text.toList = as ++ cs ∧ (encode as).length = pos

theorem ahead_zero (text : String) : Ahead text 0 text.toList :=
  ⟨[], rfl, rfl⟩

namespace Ahead

variable {text : String} {pos : Nat} {cs ds : List Char}

theorem behind (h : Ahead text pos (cs ++ ds)) : Ahead text (pos + (encode cs).length) ds := by
  obtain ⟨as, htext, rfl⟩ := h
  exact ⟨as ++ cs, by rw [htext, List.append_assoc], by rw [encode_append, List.length_append]⟩

theorem slice_eq (h : Ahead text pos (cs ++ ds)) :
    slice text pos (pos + (encode cs).length) = String.ofList cs := by
  obtain ⟨as, htext, rfl⟩ := h
  exact slice_append htext

theorem sliceFrom_eq (h : Ahead text pos cs) : sliceFrom text pos = String.ofList cs := by
  obtain ⟨as, htext, rfl⟩ := h
  exact sliceFrom_append htext

end Ahead

/-- A joined text falls apart in one way at a byte length. -/
theorem append_inj_of_byteLength {s t u v : String} (hlen : byteLength s = byteLength t)
    (h : s ++ u = t ++ v) : s = t ∧ u = v := by
  have hchars : s.toList ++ u.toList = t.toList ++ v.toList := by
    rw [← String.toList_append, h, String.toList_append]
  have hfirst : s.toList = t.toList := calc
    s.toList = takeBytes (byteLength s) (s.toList ++ u.toList) := (takeBytes_append _ _).symm
    _ = takeBytes (byteLength t) (t.toList ++ v.toList) := by rw [hlen, hchars]
    _ = t.toList := takeBytes_append _ _
  rw [hfirst] at hchars
  exact ⟨String.toList_injective hfirst, String.toList_injective (List.append_cancel_left hchars)⟩

theorem bytes_ofList (cs : List Char) : bytes (String.ofList cs) = encode cs := by
  rw [bytes, String.toList_ofList]

/-- ASCII bytes are the bytes of the text that they spell. -/
theorem bytes_ofAscii {bs : List UInt8} (h : ∀ b ∈ bs, b.toNat < 128) :
    bytes (ofAscii bs) = bs := by
  rw [ofAscii, bytes_ofList]
  induction bs with
  | nil => rfl
  | cons b bs ih =>
    obtain ⟨hb, hbs⟩ := List.forall_mem_cons.mp h
    have hvalid : b.toNat.isValidChar := .inl (Nat.lt_trans hb (by decide))
    have hchar : (Char.ofNat b.toNat).toNat = b.toNat := by
      rw [Char.ofNat, dif_pos hvalid]
      rfl
    rw [List.map_cons, encode_cons, ih hbs, utf8EncodeChar_of_lt (by rwa [hchar]), hchar,
      UInt8.ofNat_toNat, List.singleton_append]

/-- A text that is made of ASCII bytes is the one that they spell. -/
theorem ofList_of_encode {cs : List Char} {bs : List UInt8} (h : encode cs = bs)
    (hlt : ∀ b ∈ bs, b.toNat < 128) : String.ofList cs = ofAscii bs := by
  have h : encode cs = bs ++ [] := by rw [h, List.append_nil]
  obtain ⟨ds, rfl, hds⟩ := encode_eq_append_of_lt h hlt
  cases ds with
  | nil => rw [List.append_nil, ofAscii]
  | cons d ds =>
    rw [encode_cons] at hds
    exact absurd (List.append_eq_nil_iff.mp hds).1 String.utf8EncodeChar_ne_nil

end TableSql.Text
