import TableSql.Proofs.Text.Encoding

/-!
# Woven texts

A text with marks in it is made of the pieces around the marks and of the marks themselves. The
same pieces with other fillers between them make another text, and the one is had from the other by
replacing the bytes of each filler.

## Main definitions

* `Text.weave` — pieces with fillers between them
* `Text.fillerSpans` — where the fillers of a woven text stand
* `Text.replaceSpans` — a text with others in the place of some of its bytes

## Main results

* `Text.replaceSpans_weave` — replacing the fillers keeps the pieces
-/

namespace TableSql.Text

/-- Pieces with fillers between them. There is one piece more than there are fillers. -/
def weave : (pieces fillers : List String) → String
  | [], _ => ""
  | piece :: _, [] => piece
  | piece :: pieces, filler :: fillers => piece ++ (filler ++ weave pieces fillers)

/-- The byte offsets at which the fillers of a woven text start and end. Its first byte is at
`pos`. -/
def fillerSpans : (pos : Nat) → (pieces fillers : List String) → List (Nat × Nat)
  | _, [], _ => []
  | _, _ :: _, [] => []
  | pos, piece :: pieces, filler :: fillers =>
    let start := pos + byteLength piece
    let stop := start + byteLength filler
    (start, stop) :: fillerSpans stop pieces fillers

/-- The text from byte `cursor` on, with another text in the place of each span. -/
def replaceFrom (text : String) : (cursor : Nat) → List (Nat × Nat) → List String → String
  | cursor, [], _ => sliceFrom text cursor
  | cursor, _ :: _, [] => sliceFrom text cursor
  | cursor, (start, stop) :: spans, other :: others =>
    slice text cursor start ++ (other ++ replaceFrom text stop spans others)

/-- The text with another text in the place of each span. -/
def replaceSpans (text : String) (spans : List (Nat × Nat)) (others : List String) : String :=
  replaceFrom text 0 spans others

/-! ### Cuts of joined texts -/

theorem byteLength_append (s t : String) : byteLength (s ++ t) = byteLength s + byteLength t := by
  rw [byteLength, bytes_append, List.length_append]
  rfl

theorem slice_append_append (s t u : String) :
    slice (s ++ (t ++ u)) (byteLength s) (byteLength s + byteLength t) = t := by
  have hchars : (s ++ (t ++ u)).toList = s.toList ++ (t.toList ++ u.toList) := by simp
  rw [byteLength, byteLength, bytes, bytes, slice_append hchars, String.ofList_toList]

theorem sliceFrom_append_right (s t : String) : sliceFrom (s ++ t) (byteLength s) = t := by
  have hchars : (s ++ t).toList = s.toList ++ t.toList := String.toList_append
  rw [byteLength, bytes, sliceFrom_append hchars, String.ofList_toList]

/-! ### Other fillers -/

theorem replaceFrom_weave {text before : String} {pieces fillers others : List String}
    (h : text = before ++ weave pieces fillers) (hlen : others.length = fillers.length) :
    replaceFrom text (byteLength before) (fillerSpans (byteLength before) pieces fillers) others =
      weave pieces others := by
  induction pieces generalizing before fillers others with
  | nil => rw [h, fillerSpans, replaceFrom, sliceFrom_append_right, weave, weave]
  | cons piece pieces ih =>
    cases fillers with
    | nil =>
      obtain rfl := List.eq_nil_of_length_eq_zero hlen
      rw [h, fillerSpans, replaceFrom, sliceFrom_append_right]
    | cons filler fillers =>
      cases others with
      | nil => cases hlen
      | cons other others =>
        -- what was read so far, this piece and this filler stand before the rest
        have hbehind : text = (before ++ piece ++ filler) ++ weave pieces fillers := by
          rw [h, weave, String.append_assoc, String.append_assoc]
        have hrest := ih hbehind (Nat.succ.inj hlen)
        rw [byteLength_append, byteLength_append] at hrest
        rw [fillerSpans, replaceFrom, hrest, h, weave, slice_append_append, weave]

/-- **Replacing the fillers of a woven text keeps its pieces.** -/
theorem replaceSpans_weave (pieces : List String) {fillers others : List String}
    (hlen : others.length = fillers.length) :
    replaceSpans (weave pieces fillers) (fillerSpans 0 pieces fillers) others =
      weave pieces others := by
  have h : weave pieces fillers = "" ++ weave pieces fillers := String.empty_append.symm
  exact replaceFrom_weave h hlen

end TableSql.Text
