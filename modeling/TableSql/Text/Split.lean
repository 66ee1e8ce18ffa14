/-!
# Texts in parts

A text is cut at every occurrence of a character, and nothing is dropped: parts may be empty, and
there is one more of them than there are occurrences.

## Main definitions

* `Text.splitAt` — the parts of a text between the occurrences of a character

## Main results

* `Text.splitAt_ne_nil` — there is always a part
* `Text.intercalate_splitAt` — the parts hold the whole text
-/

namespace TableSql.Text

/-- The parts of a text between the occurrences of a character. -/
def splitAt (mark : Char) : List Char → List (List Char)
  | [] => [[]]
  | c :: cs =>
    if c = mark then [] :: splitAt mark cs
    else match splitAt mark cs with
      | [] => [[c]]
      | part :: rest => (c :: part) :: rest

/-- A text has at least one part. -/
theorem splitAt_ne_nil (mark : Char) (cs : List Char) : splitAt mark cs ≠ [] := by
  cases cs with
  | nil => simp [splitAt]
  | cons c cs =>
    unfold splitAt
    split
    · simp
    · split <;> simp

/-- The parts joined by the character are the text again. -/
theorem intercalate_splitAt (mark : Char) (cs : List Char) :
    [mark].intercalate (splitAt mark cs) = cs := by
  induction cs with
  | nil => rfl
  | cons c cs ih =>
    unfold splitAt
    by_cases h : c = mark
    · subst h
      simp only [if_true]
      cases hs : splitAt c cs with
      | nil => exact absurd hs (splitAt_ne_nil c cs)
      | cons part rest =>
        rw [hs] at ih
        simp [List.intercalate, List.intersperse] at ih ⊢
        exact ih
    · simp only [h, if_false]
      cases hs : splitAt mark cs with
      | nil => exact absurd hs (splitAt_ne_nil mark cs)
      | cons part rest =>
        rw [hs] at ih
        cases rest <;> simp_all [List.intercalate, List.intersperse]

end TableSql.Text
