import TableSql.Proofs.Sql.Positions
import TableSql.Proofs.Text.Weave

/-!
# Text without placeholders

A text that is closed and holds no placeholder is bare. Bare texts are not closed under joining: a
colon at the end of the one may find a name at the start of the other. Nothing else can happen, and
what is written in a placeholder's place neither starts like a name nor ends with a colon, so it can
be put between any two bare texts.

The pieces between the placeholders of a text are bare. A placeholder within a piece would be one of
the text, at a position before that of the placeholder which the piece ends at.

## Main definitions

* `Sql.Bare` — a text that scans and holds no placeholder
* `Sql.Inert` — a bare text that neither starts like a name nor ends with a colon
* `Sql.Covers` — placeholders that leave none out

## Main results

* `Sql.Bare.append` — bare texts joined where no placeholder can arise
* `Sql.Bare.weave` — bare pieces with inert fillers between them
* `Sql.Covers.before`, `Sql.Covers.behind` — what lies before the first placeholder, and behind it
-/

namespace TableSql.Sql

/-- The text is closed and holds no placeholder. -/
def Bare (text : String) : Prop :=
  placeholders? text = .ok []

instance (text : String) : Decidable (Bare text) :=
  inferInstanceAs (Decidable (placeholders? text = .ok []))

/-- The positions at which the reader gets to a placeholder. -/
def colons (bs : List UInt8) : List Nat :=
  Mode.positions Mode.atPlaceholder .outside bs

theorem mem_colons {bs : List UInt8} {p : Nat} :
    p ∈ colons bs ↔ Mode.after .outside (bs.take p) = .outside ∧ bs[p]? = some 58 ∧
      ∃ b, bs[p + 1]? = some b ∧ isNameByte b = true :=
  Mode.mem_positions_atPlaceholder

theorem bare_iff {text : String} :
    Bare text ↔ Closed text ∧ ∀ p, p ∉ colons (Text.bytes text) := by
  rw [Bare, placeholders?, placeholdersFrom_eq_ok_iff, List.map_eq_nil_iff,
    ← List.eq_nil_iff_forall_not_mem]
  rfl

/-! ### Joined bytes -/

section Joined

variable {as bs : List UInt8} {p : Nat}

theorem mem_colons_append_left (bs : List UInt8) (h : p ∈ colons as) : p ∈ colons (as ++ bs) := by
  obtain ⟨hout, hcolon, b, hb, hname⟩ := mem_colons.mp h
  have hp : p < as.length := (List.getElem?_eq_some_iff.mp hcolon).1
  have hnext : p + 1 < as.length := (List.getElem?_eq_some_iff.mp hb).1
  refine mem_colons.mpr ⟨?_, ?_, b, ?_, hname⟩
  · rwa [List.take_append_of_le_length (Nat.le_of_lt hp)]
  · rwa [List.getElem?_append_left hp]
  · rwa [List.getElem?_append_left hnext]

theorem mem_colons_append_right (has : Mode.after .outside as = .outside) :
    as.length + p ∈ colons (as ++ bs) ↔ p ∈ colons bs := by
  have hshift : ∀ k, (as ++ bs)[as.length + k]? = bs[k]? := fun k => by
    rw [List.getElem?_append_right (Nat.le_add_right _ _), Nat.add_sub_cancel_left]
  rw [mem_colons, mem_colons, List.take_length_add_append, Mode.after_append, has, hshift,
    Nat.add_assoc, hshift]

/-- A placeholder of joined bytes is one of the first, one of the second, or made where they
meet. -/
theorem mem_colons_append (has : Mode.after .outside as = .outside) (h : p ∈ colons (as ++ bs)) :
    p ∈ colons as ∨ (∃ q, q ∈ colons bs) ∨
      (as.getLast? = some 58 ∧ ∃ b, bs.head? = some b ∧ isNameByte b = true) := by
  by_cases hp : as.length ≤ p
  · obtain ⟨q, rfl⟩ := Nat.exists_eq_add_of_le hp
    exact .inr (.inl ⟨q, (mem_colons_append_right has).mp h⟩)
  · have hp : p < as.length := Nat.lt_of_not_le hp
    obtain ⟨hout, hcolon, b, hb, hname⟩ := mem_colons.mp h
    rw [List.take_append_of_le_length (Nat.le_of_lt hp)] at hout
    rw [List.getElem?_append_left hp] at hcolon
    by_cases hnext : p + 1 < as.length
    · rw [List.getElem?_append_left hnext] at hb
      exact .inl (mem_colons.mpr ⟨hout, hcolon, b, hb, hname⟩)
    · -- the colon is the last byte, and the byte behind it is the first of the others
      have hlast : as.length - 1 = p := by omega
      refine .inr (.inr ⟨?_, b, ?_, hname⟩)
      · rw [List.getLast?_eq_getElem?, hlast, hcolon]
      · rw [List.getElem?_append_right (Nat.le_of_not_lt hnext)] at hb
        rwa [List.head?_eq_getElem?, show 0 = p + 1 - as.length by omega]

end Joined

/-! ### Joined texts -/

/-- **Bare texts joined where no placeholder can arise.** -/
theorem Bare.append {s t : String} (hs : Bare s) (ht : Bare t)
    (hseam : (Text.bytes s).getLast? = some 58 →
      ∀ b, (Text.bytes t).head? = some b → isNameByte b = false) : Bare (s ++ t) := by
  obtain ⟨hsc, hsnone⟩ := bare_iff.mp hs
  obtain ⟨htc, htnone⟩ := bare_iff.mp ht
  refine bare_iff.mpr ⟨hsc.append htc, fun p hp => ?_⟩
  rw [Text.bytes_append] at hp
  rcases mem_colons_append hsc hp with hp | ⟨q, hq⟩ | ⟨hlast, b, hb, hname⟩
  · exact hsnone p hp
  · exact htnone q hq
  · rw [hseam hlast b hb] at hname
    cases hname

/-- A bare text that neither starts like a name nor ends with a colon. -/
structure Inert (text : String) : Prop where
  bare : Bare text
  /-- Whatever colon stands before it, no name stands behind that. -/
  starts : ∃ b, (Text.bytes text).head? = some b ∧ isNameByte b = false
  /-- Whatever name stands behind it, no colon stands before that. -/
  ends : (Text.bytes text).getLast? ≠ some 58

theorem inert_marker : Inert "?" where
  bare := by decide
  starts := ⟨63, by decide, by decide⟩
  ends := by decide

theorem Bare.inert_parenthesize {text : String} (h : Bare text) : Inert ("(" ++ text ++ ")") where
  bare := by
    have hopen : Bare ("(" ++ text) := by
      refine Bare.append (by decide) h fun hlast => absurd hlast (by decide)
    refine hopen.append (by decide) fun _ b hb => ?_
    obtain rfl : 41 = b := Option.some.inj hb
    decide
  starts := by
    refine ⟨40, ?_, by decide⟩
    rw [Text.bytes_append, Text.bytes_append]
    rfl
  ends := by
    have hclose : (Text.bytes ")").getLast? = some 41 := rfl
    rw [Text.bytes_append, List.getLast?_append, hclose, Option.some_or]
    decide

/-- **Bare pieces stay bare with inert fillers between them.** -/
theorem Bare.weave {pieces fillers : List String} (hpieces : ∀ piece ∈ pieces, Bare piece)
    (hfillers : ∀ filler ∈ fillers, Inert filler) : Bare (Text.weave pieces fillers) := by
  induction pieces generalizing fillers with
  | nil => rfl
  | cons piece pieces ih =>
    obtain ⟨hpiece, hrest⟩ := List.forall_mem_cons.mp hpieces
    cases fillers with
    | nil => exact hpiece
    | cons filler fillers =>
      obtain ⟨hfiller, hothers⟩ := List.forall_mem_cons.mp hfillers
      have hbehind : Bare (filler ++ Text.weave pieces fillers) :=
        hfiller.bare.append (ih hrest hothers) fun hlast => absurd hlast hfiller.ends
      refine hpiece.append hbehind fun _ b hb => ?_
      obtain ⟨c, hc, hname⟩ := hfiller.starts
      rw [Text.bytes_append, List.head?_append, hc, Option.some_or] at hb
      rwa [← Option.some.inj hb]

/-! ### Pieces of a text -/

/-- No placeholder of the bytes is left out of the list. -/
def Covers (pos : Nat) (bs : List UInt8) (ps : List Placeholder) : Prop :=
  ∀ p ∈ colons bs, pos + p ∈ ps.map Placeholder.start

theorem covers_of_placeholders? {text : String} {ps : List Placeholder}
    (h : placeholders? text = .ok ps) : Covers 0 (Text.bytes text) ps := by
  obtain ⟨-, rfl⟩ := placeholdersFrom_eq_ok_iff.mp h
  intro p hp
  rw [List.map_map]
  exact List.mem_map_of_mem hp

theorem Cut.le_start {pos : Nat} {bs : List UInt8} {ps : List Placeholder} (h : Cut pos bs ps) :
    ∀ q ∈ ps, pos ≤ q.start := by
  induction h with
  | rest => exact fun _ hq => absurd hq List.not_mem_nil
  | placeholder _ _ _ _ ih =>
    refine List.forall_mem_cons.mpr ⟨Nat.le_add_right _ _, fun q hq => ?_⟩
    exact Nat.le_trans (by omega) (ih q hq)

namespace Covers

variable {pos : Nat} {piece name bs : List UInt8} {first : Placeholder} {ps : List Placeholder}

/-- No placeholder lies before the first. -/
theorem before (h : Covers pos (piece ++ 58 :: (name ++ bs)) (first :: ps))
    (hfirst : pos + piece.length ≤ first.start) (hps : ∀ q ∈ ps, first.start ≤ q.start) :
    ∀ p, p ∉ colons piece := by
  intro p hp
  have hlt : p < piece.length := (List.getElem?_eq_some_iff.mp (mem_colons.mp hp).2.1).1
  have hmem := h p (mem_colons_append_left _ hp)
  obtain ⟨q, hq, hstart⟩ := List.mem_map.mp hmem
  rcases List.mem_cons.mp hq with rfl | hq
  · omega
  · have := hps q hq
    omega

/-- Those behind the first are not left out either. -/
theorem behind (h : Covers pos (piece ++ 58 :: (name ++ bs)) (first :: ps))
    (hpiece : Mode.after .outside piece = .outside) (hname : ∀ b ∈ name, isNameByte b = true)
    (hfirst : first.start = pos + piece.length) :
    Covers (pos + piece.length + 1 + name.length) bs ps := by
  have hsplit : piece ++ 58 :: (name ++ bs) = (piece ++ 58 :: name) ++ bs := by simp
  have hclosed : Mode.after .outside (piece ++ 58 :: name) = .outside := by
    have hplaceholder := (Mode.after_placeholder hname []).1
    rw [List.append_nil] at hplaceholder
    rw [Mode.after_append, hpiece, hplaceholder]
    rfl
  have hlen : (piece ++ 58 :: name).length = piece.length + 1 + name.length := by
    rw [List.length_append, List.length_cons]
    omega
  intro p hp
  have hmem := h _ (hsplit ▸ (mem_colons_append_right hclosed).mpr hp)
  rw [hlen, List.map_cons, List.mem_cons] at hmem
  rcases hmem with hmem | hmem
  · omega
  · rwa [← Nat.add_assoc, ← Nat.add_assoc, ← Nat.add_assoc] at hmem

end Covers

end TableSql.Sql
