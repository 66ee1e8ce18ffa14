import Mathlib.Data.List.TakeWhile
import TableSql.Text.Blank

/-!
# Trimmed text and words

A text is white space, a trimmed text and white space again, and it is so in one way only. This is
how everything about `Text.trim` is proved here: a text is taken apart that way, and what is put
together that way has the trimmed text in its middle.

## Main definitions

* `Text.Blank`, `Text.Solid` — characters that are all white space, or none of them
* `Text.Trimmed` — characters with no white space at either end
* `Text.trimChars` — the characters of a text that is trimmed
* `Text.words` — the words of a text, with white space between them

## Main results

* `Text.exists_trimChars`, `Text.trimChars_append` — the one way to take a text apart
* `Text.wordsOf_append_word` — the last word of a text
-/

namespace TableSql.Text

/-- Nothing but white space. -/
def Blank (cs : List Char) : Prop :=
  ∀ c ∈ cs, isBlankChar c = true

instance (cs : List Char) : Decidable (Blank cs) :=
  decidable_of_iff (cs.all isBlankChar = true) List.all_eq_true

/-- No white space anywhere. -/
def Solid (cs : List Char) : Prop :=
  ∀ c ∈ cs, isBlankChar c = false

instance (cs : List Char) : Decidable (Solid cs) :=
  decidable_of_iff (cs.any isBlankChar = false) (by simp [Solid])

/-- No white space at either end. -/
structure Trimmed (cs : List Char) : Prop where
  first : ∀ c, cs.head? = some c → isBlankChar c = false
  last : ∀ c, cs.getLast? = some c → isBlankChar c = false

variable {as bs cs : List Char}

theorem blank_append_iff : Blank (as ++ bs) ↔ Blank as ∧ Blank bs :=
  List.forall_mem_append

theorem isBlank_iff {s : String} : isBlank s = true ↔ Blank s.toList := by
  simp [isBlank, Blank]

theorem Solid.trimmed (h : Solid cs) : Trimmed cs where
  first c hc := h c (List.mem_of_mem_head? hc)
  last c hc := h c (List.mem_of_mem_getLast? hc)

/-- ASCII letters are no white space, in either case. -/
theorem isBlankChar_toLower (c : Char) : isBlankChar c.toLower = isBlankChar c := by
  unfold Char.toLower
  split
  next h =>
    have hc : 65 ≤ c.toNat ∧ c.toNat ≤ 90 := by
      simpa [UInt32.le_iff_toNat_le] using h
    have hsum : (c.val + ('a'.val - 'A'.val)).toNat = c.toNat + 32 := by
      rw [UInt32.toNat_add, Char.toNat_val]
      simp
      omega
    have hlower : ∀ hvalid, (Char.mk (c.val + ('a'.val - 'A'.val)) hvalid).toNat = c.toNat + 32 :=
      fun _ => hsum
    simp only [isBlankChar, hlower]
    rw [Bool.eq_iff_iff]
    simp
    omega
  next => rfl

/-! ### At one end -/

theorem dropBlank_append (h : Blank as) (cs : List Char) : dropBlank (as ++ cs) = dropBlank cs :=
  List.dropWhile_append_of_pos h

theorem dropBlank_eq_self (h : ∀ c, cs.head? = some c → isBlankChar c = false) :
    dropBlank cs = cs := by
  cases cs with
  | nil => rfl
  | cons c cs => simp [dropBlank, h c rfl]

/-- White space is all that is dropped. -/
theorem exists_dropBlank (cs : List Char) : ∃ as, Blank as ∧ cs = as ++ dropBlank cs :=
  ⟨cs.takeWhile isBlankChar, fun _ h => List.mem_takeWhile_imp h,
    (takeWhile_append_dropBlank cs).symm⟩

theorem dropBlank_eq_nil_iff : dropBlank cs = [] ↔ Blank cs :=
  List.dropWhile_eq_nil_iff

theorem blank_reverse : Blank cs.reverse ↔ Blank cs := by
  simp [Blank]

theorem dropBlankEnd_append (cs : List Char) (h : Blank bs) :
    dropBlankEnd (cs ++ bs) = dropBlankEnd cs := by
  rw [dropBlankEnd, List.reverse_append, dropBlank_append (blank_reverse.mpr h), dropBlankEnd]

theorem dropBlankEnd_eq_self (h : ∀ c, cs.getLast? = some c → isBlankChar c = false) :
    dropBlankEnd cs = cs := by
  rw [dropBlankEnd, dropBlank_eq_self (by simpa using h), List.reverse_reverse]

theorem exists_dropBlankEnd (cs : List Char) : ∃ bs, Blank bs ∧ cs = dropBlankEnd cs ++ bs := by
  obtain ⟨as, has, hcs⟩ := exists_dropBlank cs.reverse
  refine ⟨as.reverse, blank_reverse.mpr has, ?_⟩
  rw [dropBlankEnd, ← List.reverse_append, ← hcs, List.reverse_reverse]

theorem dropBlankEnd_last {c : Char} (h : (dropBlankEnd cs).getLast? = some c) :
    isBlankChar c = false := by
  rw [dropBlankEnd, List.getLast?_reverse] at h
  obtain ⟨rest, hrest⟩ := List.head?_eq_some_iff.mp h
  exact dropBlank_head hrest

/-! ### At both ends -/

/-- The characters without the white space around them. -/
def trimChars (cs : List Char) : List Char :=
  dropBlankEnd (dropBlank cs)

theorem trim_eq (s : String) : trim s = String.ofList (trimChars s.toList) := rfl

/-- **What is put together from a trimmed text and white space around it trims to that text.** -/
theorem trimChars_append (has : Blank as) (hcs : Trimmed cs) (hbs : Blank bs) :
    trimChars (as ++ cs ++ bs) = cs := by
  rw [trimChars, List.append_assoc, dropBlank_append has]
  cases cs with
  | nil =>
    rw [List.nil_append, dropBlank_eq_nil_iff.mpr hbs]
    rfl
  | cons c cs =>
    have hfirst : ∀ d, (c :: cs ++ bs).head? = some d → isBlankChar d = false := hcs.first
    rw [dropBlank_eq_self hfirst, dropBlankEnd_append _ hbs, dropBlankEnd_eq_self hcs.last]

theorem trimmed_trimChars (cs : List Char) : Trimmed (trimChars cs) where
  first c h := by
    obtain ⟨bs, -, hdrop⟩ := exists_dropBlankEnd (dropBlank cs)
    obtain ⟨rest, hrest⟩ := List.head?_eq_some_iff.mp h
    rw [trimChars] at hrest
    rw [hrest] at hdrop
    exact dropBlank_head hdrop
  last _ h := dropBlankEnd_last h

/-- **Every text is a trimmed text with white space around it.** -/
theorem exists_trimChars (cs : List Char) :
    ∃ as bs, Blank as ∧ Blank bs ∧ cs = as ++ trimChars cs ++ bs := by
  obtain ⟨as, has, hfront⟩ := exists_dropBlank cs
  obtain ⟨bs, hbs, hback⟩ := exists_dropBlankEnd (dropBlank cs)
  exact ⟨as, bs, has, hbs, by rw [trimChars, List.append_assoc, ← hback, ← hfront]⟩

/-- White space around a text is not seen. -/
theorem trimChars_append_append (has : Blank as) (hbs : Blank bs) (cs : List Char) :
    trimChars (as ++ cs ++ bs) = trimChars cs := by
  obtain ⟨front, back, hfront, hback, hcs⟩ := exists_trimChars cs
  have hsplit : as ++ cs ++ bs = (as ++ front) ++ trimChars cs ++ (back ++ bs) := by
    calc as ++ cs ++ bs = as ++ (front ++ trimChars cs ++ back) ++ bs := by rw [← hcs]
      _ = (as ++ front) ++ trimChars cs ++ (back ++ bs) := by simp
  rw [hsplit, trimChars_append (blank_append_iff.mpr ⟨has, hfront⟩) (trimmed_trimChars cs)
    (blank_append_iff.mpr ⟨hback, hbs⟩)]

theorem trimChars_ne_nil (h : ¬ Blank cs) : trimChars cs ≠ [] := by
  intro hnil
  obtain ⟨as, bs, has, hbs, hcs⟩ := exists_trimChars cs
  rw [hnil, List.append_nil] at hcs
  exact h (hcs ▸ blank_append_iff.mpr ⟨has, hbs⟩)

/-! ### Words -/

/-- The parts between white space that are not empty. -/
def wordsOf (cs : List Char) : List (List Char) :=
  (cs.splitOnP isBlankChar).filter (!·.isEmpty)

/-- The words of a text. -/
def words (s : String) : List String :=
  (wordsOf s.toList).map String.ofList

theorem wordsOf_append_cons {b : Char} (hb : isBlankChar b = true) (as cs : List Char) :
    wordsOf (as ++ b :: cs) = wordsOf as ++ wordsOf cs := by
  rw [wordsOf, List.splitOnP_append_cons _ _ hb, List.filter_append, wordsOf, wordsOf]

theorem wordsOf_solid (h : Solid cs) (hne : cs ≠ []) : wordsOf cs = [cs] := by
  rw [wordsOf, List.splitOnP_eq_singleton h]
  simp [hne]

/-- **The word behind some white space is a word of its own.** -/
theorem wordsOf_append_word {gap word : List Char} (hgap : Blank gap) (hne : gap ≠ [])
    (hword : Solid word) (hword' : word ≠ []) :
    wordsOf (cs ++ gap ++ word) = wordsOf cs ++ [word] := by
  induction gap generalizing cs with
  | nil => exact absurd rfl hne
  | cons b gap ih =>
    obtain ⟨hb, hgap⟩ := List.forall_mem_cons.mp hgap
    rw [List.append_assoc, List.cons_append, wordsOf_append_cons hb]
    cases gap with
    | nil => rw [List.nil_append, wordsOf_solid hword hword']
    | cons c gap =>
      have h : wordsOf ([] ++ c :: gap ++ word) = wordsOf [] ++ [word] :=
        ih hgap (List.cons_ne_nil c gap)
      rw [List.nil_append] at h
      rw [h]
      rfl

theorem wordsOf_ne_nil (h : ¬ Blank cs) : wordsOf cs ≠ [] := by
  induction cs with
  | nil => exact absurd nofun h
  | cons c cs ih =>
    by_cases hc : isBlankChar c = true
    · have hcs : ¬ Blank cs := fun hcs => h (List.forall_mem_cons.mpr ⟨hc, hcs⟩)
      have hsplit := wordsOf_append_cons hc [] cs
      rw [List.nil_append] at hsplit
      rw [hsplit]
      exact List.append_ne_nil_of_right_ne_nil _ (ih hcs)
    · have hsplit := List.splitOnP_cons_eq_if_modifyHead (p := isBlankChar) c cs
      obtain ⟨part, parts, hparts⟩ :=
        List.exists_cons_of_ne_nil (List.splitOnP_ne_nil isBlankChar cs)
      rw [if_neg hc, hparts] at hsplit
      rw [wordsOf, hsplit]
      simp

end TableSql.Text
