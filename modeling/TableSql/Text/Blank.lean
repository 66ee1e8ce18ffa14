/-!
# Blank text

White space as Unicode's `White_Space` property has it, and the texts cut at it.

## Main definitions

* `Text.isBlankChar` — the twenty-five characters that count as white space
* `Text.isBlank` — a text with nothing else in it
* `Text.trim`, `Text.trimEnd` — a text without the white space around it, or after it
-/

namespace TableSql.Text

/-- A character of Unicode's `White_Space` property. -/
def isBlankChar (c : Char) : Bool :=
  let n := c.toNat
  (9 ≤ n && n ≤ 13) || n == 0x20 || n == 0x85 || n == 0xa0 || n == 0x1680 ||
    (0x2000 ≤ n && n ≤ 0x200a) || n == 0x2028 || n == 0x2029 || n == 0x202f || n == 0x205f ||
    n == 0x3000

/-- A text is blank when it holds nothing but white space. -/
def isBlank (s : String) : Bool :=
  s.toList.all isBlankChar

/-- The characters after the leading white space. -/
def dropBlank (cs : List Char) : List Char :=
  cs.dropWhile isBlankChar

/-- The characters before the trailing white space. -/
def dropBlankEnd (cs : List Char) : List Char :=
  (dropBlank cs.reverse).reverse

/-- The text without the white space at its two ends. -/
def trim (s : String) : String :=
  String.ofList (dropBlankEnd (dropBlank s.toList))

/-- The text without the white space at its end. -/
def trimEnd (s : String) : String :=
  String.ofList (dropBlankEnd s.toList)

/-- Two texts that differ at most in the case of ASCII letters. -/
def equalIgnoringCase (s t : String) : Bool :=
  s.toList.map Char.toLower == t.toList.map Char.toLower

/-! ### What is blank -/

@[simp] theorem isBlank_empty : isBlank "" = true := by
  simp [isBlank]

/-- Nothing but white space is left out before `dropBlank`. -/
theorem takeWhile_append_dropBlank (cs : List Char) :
    cs.takeWhile isBlankChar ++ dropBlank cs = cs :=
  List.takeWhile_append_dropWhile

/-- What `dropBlank` leaves starts with no white space. -/
theorem dropBlank_head {cs : List Char} {c : Char} {rest : List Char}
    (h : dropBlank cs = c :: rest) : isBlankChar c = false := by
  induction cs with
  | nil => simp [dropBlank] at h
  | cons d ds ih =>
    by_cases hd : isBlankChar d = true
    · exact ih (by simpa [dropBlank, List.dropWhile_cons, hd] using h)
    · have : d = c := by
        simp [dropBlank, hd] at h
        exact h.1
      simpa [this] using hd

end TableSql.Text
