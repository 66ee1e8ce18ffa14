import TableSql.Ordering
import TableSql.Proofs.Text.Blank

/-!
# How order criteria are read

A criterion is a column, and behind it the name of a direction if one stands there as a word of its
own. White space counts for nothing but to keep the two apart. So a criterion has one normal form,
the column and the direction with a space between them, and reading the normal form gives the same
criterion again.

Whatever is asked of `OrderCriterion.parse` is asked of the two forms that a text may have:
`OrderCriterion.Directed`, with a direction behind the column, or `OrderCriterion.Bare`, where all
of the text is the column.

## Main definitions

* `OrderCriterion.Directed`, `OrderCriterion.Bare` — the two forms
* `OrderCriterion.EndsIn` — the last of several words has a name
* `OrderCriterion.Normalises` — what is read off a text

## Main results

* `OrderCriterion.directed_or_bare` — every text has one of the two forms
* `OrderCriterion.Directed.parse_eq`, `OrderCriterion.Bare.parse_eq` — what is read in each form
* `OrderCriterion.criteria_normalise`
-/

namespace TableSql

open Text

/-! ### Names of directions -/

/-- **A word is that of a direction when it is the direction's name in any case.** -/
theorem Direction.ofWord?_eq_some_iff {word : String} {d : Direction} :
    Direction.ofWord? word = some d ↔ equalIgnoringCase word d.name = true := by
  have hnames : "asc".toList.map Char.toLower = "ASC".toList.map Char.toLower ∧
      "desc".toList.map Char.toLower = "DESC".toList.map Char.toLower ∧
      "ASC".toList.map Char.toLower ≠ "DESC".toList.map Char.toLower := by decide
  obtain ⟨hasc, hdesc, hne⟩ := hnames
  simp only [ofWord?, equalIgnoringCase, beq_iff_eq, hasc, hdesc]
  cases d with
  | ascending =>
    by_cases h : word.toList.map Char.toLower = "ASC".toList.map Char.toLower
    · simp [h, name]
    · simp only [h, if_false, name, iff_false]
      split <;> simp
  | descending =>
    by_cases h : word.toList.map Char.toLower = "ASC".toList.map Char.toLower
    · simp [h, name]
    · simp only [h, if_false, name]
      split <;> simp_all

/-- The name of a direction is a word. -/
theorem solid_of_ofWord? {word : List Char} {d : Direction}
    (h : Direction.ofWord? (String.ofList word) = some d) : Solid word ∧ word ≠ [] := by
  rw [Direction.ofWord?_eq_some_iff, equalIgnoringCase, beq_iff_eq, String.toList_ofList] at h
  have hname : Solid (d.name.toList.map Char.toLower) ∧ d.name.toList ≠ [] := by
    cases d <;> exact ⟨by decide, by decide⟩
  refine ⟨fun c hc => ?_, fun hnil => hname.2 ?_⟩
  · rw [← isBlankChar_toLower]
    exact hname.1 _ (h ▸ List.mem_map_of_mem hc)
  · rw [hnil] at h
    exact List.map_eq_nil_iff.mp h.symm

namespace OrderCriterion

variable {text : String} {cs : List Char}

/-! ### The last word -/

theorem splitLastWord?_solid (h : Solid cs) : splitLastWord? cs = none := by
  have hdrop : cs.reverse.dropWhile (!isBlankChar ·) = [] := by
    simpa [List.dropWhile_eq_nil_iff, Solid] using h
  rw [splitLastWord?, hdrop]

theorem splitLastWord?_append_cons {before word : List Char} {b : Char}
    (hb : isBlankChar b = true) (hword : Solid word) :
    splitLastWord? (before ++ b :: word) = some (before, word) := by
  have hpass : ∀ c ∈ word.reverse, (!isBlankChar c) = true := by
    simpa [Solid] using hword
  have hreverse : (before ++ b :: word).reverse = word.reverse ++ b :: before.reverse := by simp
  rw [splitLastWord?, hreverse, List.dropWhile_append_of_pos hpass,
    List.takeWhile_append_of_pos hpass]
  simp [hb]

/-- A text is one word, or has a last word behind white space. -/
theorem solid_or_exists_last (cs : List Char) :
    Solid cs ∨ ∃ before b word, isBlankChar b = true ∧ Solid word ∧ cs = before ++ b :: word := by
  induction cs with
  | nil => exact .inl nofun
  | cons c cs ih =>
    rcases ih with hcs | ⟨before, b, word, hb, hword, rfl⟩
    · by_cases hc : isBlankChar c = true
      · exact .inr ⟨[], c, cs, hc, hcs, rfl⟩
      · exact .inl (List.forall_mem_cons.mpr ⟨by simpa using hc, hcs⟩)
    · exact .inr ⟨c :: before, b, word, hb, hword, rfl⟩

/-! ### The two forms -/

theorem toList_trim (text : String) : (trim text).toList = trimChars text.toList := by
  rw [trim_eq, String.toList_ofList]

theorem parse_congr {other : String} (h : trimChars text.toList = trimChars other.toList) :
    parse text = parse other := by
  have htrim : trim text = trim other := by rw [trim_eq, trim_eq, h]
  rw [parse, parse, htrim]

/-- A column, white space and the name of a direction stand in the text. -/
structure Directed (text : String) (column gap word : List Char) (d : Direction) : Prop where
  chars_eq : trimChars text.toList = column ++ gap ++ word
  column_last : ∀ c, column.getLast? = some c → isBlankChar c = false
  gap_blank : Blank gap
  gap_ne : gap ≠ []
  word_eq : Direction.ofWord? (String.ofList word) = some d

/-- No word of the text but the first is last and the name of a direction. -/
def Bare (text : String) : Prop :=
  ∀ front gap word, trimChars text.toList = front ++ gap ++ word → Blank gap → gap ≠ [] →
    Solid word → Direction.ofWord? (String.ofList word) = none

section Directed

variable {column gap word : List Char} {d : Direction}

/-- Trimmed text does not start with the gap. -/
theorem Directed.column_ne (h : Directed text column gap word d) : column ≠ [] := by
  rintro rfl
  obtain ⟨b, rest, rfl⟩ := List.exists_cons_of_ne_nil h.gap_ne
  have hfirst := (trimmed_trimChars text.toList).first b (by rw [h.chars_eq]; rfl)
  rw [h.gap_blank b List.mem_cons_self] at hfirst
  cases hfirst

theorem Directed.column_trimmed (h : Directed text column gap word d) : Trimmed column where
  first c hc := (trimmed_trimChars text.toList).first c (by simp [h.chars_eq, hc])
  last := h.column_last

/-- **A direction behind the column.** -/
theorem Directed.parse_eq (h : Directed text column gap word d) :
    parse text = ⟨String.ofList column, d⟩ := by
  obtain ⟨hword, -⟩ := solid_of_ofWord? h.word_eq
  -- the last character of the gap is the one that the text is split at
  obtain ⟨gap, b, rfl⟩ := (List.eq_nil_or_concat gap).resolve_left h.gap_ne
  obtain ⟨hgap, hb⟩ := blank_append_iff.mp (List.concat_eq_append ▸ h.gap_blank)
  have hsplit : column ++ gap.concat b ++ word = (column ++ gap) ++ b :: word := by simp
  rw [parse, toList_trim, h.chars_eq, hsplit,
    splitLastWord?_append_cons (hb b (List.mem_singleton_self b)) hword]
  simp only [h.word_eq, trimEnd, String.toList_ofList]
  rw [dropBlankEnd_append _ hgap, dropBlankEnd_eq_self h.column_last]

/-- White space in front of the gap is part of it. -/
theorem exists_directed {front : List Char} (h : trimChars text.toList = front ++ gap ++ word)
    (hgap : Blank gap) (hne : gap ≠ []) (hword : Direction.ofWord? (String.ofList word) = some d) :
    ∃ column more, Directed text column more word d := by
  obtain ⟨more, hmore, hfront⟩ := exists_dropBlankEnd front
  refine ⟨dropBlankEnd front, more ++ gap, ?_⟩
  exact
    { chars_eq := by rw [h, ← List.append_assoc, ← hfront]
      column_last := fun _ hc => dropBlankEnd_last hc
      gap_blank := blank_append_iff.mpr ⟨hmore, hgap⟩
      gap_ne := List.append_ne_nil_of_right_ne_nil more hne
      word_eq := hword }

/-- What is put together from a column, a gap and a direction. -/
theorem directed_append {as bs : List Char} (has : Blank as) (hbs : Blank bs)
    (hcolumn : Trimmed column) (hne : column ≠ []) (hgap : Blank gap) (hgap' : gap ≠ [])
    (hword : Direction.ofWord? (String.ofList word) = some d) :
    Directed (String.ofList (as ++ (column ++ gap ++ word) ++ bs)) column gap word d where
  chars_eq := by
    obtain ⟨hsolid, hword'⟩ := solid_of_ofWord? hword
    rw [String.toList_ofList]
    refine trimChars_append has ⟨fun c hc => hcolumn.first c ?_, fun c hc => ?_⟩ hbs
    · simpa [List.head?_append, List.head?_eq_none_iff, hne] using hc
    · exact hsolid.trimmed.last c (by simpa [List.getLast?_append, hword'] using hc)
  column_last := hcolumn.last
  gap_blank := hgap
  gap_ne := hgap'
  word_eq := hword

end Directed

/-- **No direction behind the column.** -/
theorem Bare.parse_eq (h : Bare text) : parse text = ⟨trim text, .ascending⟩ := by
  rw [parse, toList_trim]
  rcases solid_or_exists_last (trimChars text.toList) with
    hsolid | ⟨before, b, word, hb, hword, hlast⟩
  · rw [splitLastWord?_solid hsolid]
  · have hnone := h before [b] word (by simpa using hlast) (by simpa [Blank] using hb)
      (List.cons_ne_nil b []) hword
    rw [hlast, splitLastWord?_append_cons hb hword]
    simp only [hnone]

/-- **A text has one of the two forms.** -/
theorem directed_or_bare (text : String) :
    (∃ column gap word d, Directed text column gap word d) ∨ Bare text := by
  by_cases h : Bare text
  · exact .inr h
  · simp only [Bare, not_forall] at h
    obtain ⟨front, gap, word, hchars, hgap, hne, -, hword⟩ := h
    obtain ⟨d, hd⟩ := Option.ne_none_iff_exists'.mp hword
    obtain ⟨column, more, h⟩ := exists_directed hchars hgap hne hd
    exact .inl ⟨column, more, word, d, h⟩

/-! ### The last of several words -/

/-- There is more than one word, and the last one is `name` in any case of its letters. -/
def EndsIn (text name : String) : Prop :=
  2 ≤ (words text).length ∧ ∃ last, (words text).getLast? = some last ∧
    equalIgnoringCase last name = true

theorem words_trim (text : String) : words (trim text) = (wordsOf (trimChars text.toList)).map
    String.ofList := by
  rw [words, toList_trim]

theorem Directed.endsIn_iff {column gap word : List Char} {d : Direction}
    (h : Directed text column gap word d) (name : String) :
    EndsIn (trim text) name ↔ equalIgnoringCase (String.ofList word) name = true := by
  obtain ⟨hword, hword'⟩ := solid_of_ofWord? h.word_eq
  have hcolumn : ¬ Blank column := by
    obtain ⟨c, rest, rfl⟩ := List.exists_cons_of_ne_nil h.column_ne
    intro hblank
    have hfirst := h.column_trimmed.first c rfl
    rw [hblank c List.mem_cons_self] at hfirst
    cases hfirst
  have hlength := List.length_pos_iff.mpr (wordsOf_ne_nil hcolumn)
  rw [EndsIn, words_trim, h.chars_eq, wordsOf_append_word h.gap_blank h.gap_ne hword hword']
  simp
  omega

/-- A direction's name at the end of a bare text is its only word. -/
theorem Bare.not_endsIn (h : Bare text) (d : Direction) : ¬ EndsIn (trim text) d.name := by
  rintro ⟨hmany, last, hlast, hname⟩
  rw [words_trim] at hmany hlast
  have hdirection := Direction.ofWord?_eq_some_iff.mpr hname
  rcases solid_or_exists_last (trimChars text.toList) with
    hsolid | ⟨before, b, word, hb, hword, hchars⟩
  · by_cases hnil : trimChars text.toList = []
    · rw [hnil] at hmany
      simp [wordsOf] at hmany
    · rw [wordsOf_solid hsolid hnil] at hmany
      simp at hmany
  · have hne : word ≠ [] := by
      rintro rfl
      have hend := (trimmed_trimChars text.toList).last b (by simp [hchars])
      rw [hb] at hend
      cases hend
    have hgap : Blank [b] := by simpa [Blank] using hb
    have hsplit : trimChars text.toList = before ++ [b] ++ word := by simpa using hchars
    rw [hsplit, wordsOf_append_word hgap (List.cons_ne_nil b []) hword hne] at hlast
    simp only [List.map_append, List.map_cons, List.map_nil, List.getLast?_concat,
      Option.some.injEq] at hlast
    have hnone := h before [b] word hsplit hgap (List.cons_ne_nil b []) hword
    rw [hlast, hdirection] at hnone
    cases hnone

/-! ### What is read -/

/-- A criterion with a trimmed column is read back from its normal form. -/
theorem parse_toSql {c : OrderCriterion} (htrimmed : Trimmed c.column.toList)
    (hne : c.column.toList ≠ []) : parse c.toSql = c := by
  have hname : Direction.ofWord? (String.ofList c.direction.name.toList) = some c.direction := by
    rw [String.ofList_toList, Direction.ofWord?_eq_some_iff]
    exact beq_self_eq_true _
  have htext : c.toSql =
      String.ofList ([] ++ (c.column.toList ++ [' '] ++ c.direction.name.toList) ++ []) := by
    rw [toSql, ← String.toList_inj]
    simp
  have hnone : Blank [] := nofun
  have hspace : Blank [' '] := by decide
  have hform :=
    directed_append hnone hnone htrimmed hne hspace (List.cons_ne_nil ' ' []) hname
  rw [htext, hform.parse_eq, String.ofList_toList]

theorem column_parse (h : isBlank text = false) :
    (parse text).column.toList ≠ [] ∧ Trimmed (parse text).column.toList := by
  rcases directed_or_bare text with ⟨column, gap, word, d, hform⟩ | hform
  · rw [hform.parse_eq, String.toList_ofList]
    exact ⟨hform.column_ne, hform.column_trimmed⟩
  · rw [hform.parse_eq, toList_trim]
    exact ⟨trimChars_ne_nil (by simpa [← isBlank_iff] using h), trimmed_trimChars _⟩

theorem parse_around {before behind : String} (hbefore : isBlank before = true)
    (hbehind : isBlank behind = true) : parse (before ++ text ++ behind) = parse text := by
  refine parse_congr ?_
  rw [String.toList_append, String.toList_append,
    trimChars_append_append (isBlank_iff.mp hbefore) (isBlank_iff.mp hbehind)]

/-- A direction behind white space gives the direction, however much white space there is. -/
theorem parse_append_direction {front word behind more : String} {d : Direction}
    (hword : equalIgnoringCase word d.name = true)
    (hfront : ∀ c, front.toList.getLast? = some c → isBlankChar c = true)
    (hbehind : isBlank behind = true) (hmore : isBlank more = true) :
    parse (front ++ more ++ word ++ behind) = parse (front ++ word ++ behind) := by
  rw [isBlank_iff] at hbehind hmore
  have hd : Direction.ofWord? (String.ofList word.toList) = some d := by
    rw [String.ofList_toList]
    exact Direction.ofWord?_eq_some_iff.mpr hword
  obtain ⟨as, gap, has, hgap, hsplit⟩ := exists_trimChars front.toList
  by_cases hblank : Blank front.toList
  · -- all that stands before the word is white space around it
    refine parse_congr ?_
    have hshort := trimChars_append_append hblank hbehind word.toList
    have hlong := trimChars_append_append (blank_append_iff.mpr ⟨hblank, hmore⟩) hbehind word.toList
    simp only [String.toList_append]
    rw [hshort, hlong]
  · have hcolumn := trimChars_ne_nil hblank
    have htrimmed := trimmed_trimChars front.toList
    generalize trimChars front.toList = column at hsplit hcolumn htrimmed
    have hgap' : gap ≠ [] := by
      rintro rfl
      obtain ⟨rest, c, rfl⟩ := (List.eq_nil_or_concat column).resolve_left hcolumn
      have hsolid := htrimmed.last c (by simp)
      rw [hfront c (by simp [hsplit])] at hsolid
      cases hsolid
    have hshort := directed_append has hbehind htrimmed hcolumn hgap hgap' hd
    have hlong := directed_append has hbehind htrimmed hcolumn
      (blank_append_iff.mpr ⟨hgap, hmore⟩) (List.append_ne_nil_of_left_ne_nil hgap' _) hd
    have hshort' : front ++ word ++ behind =
        String.ofList (as ++ (column ++ gap ++ word.toList) ++ behind.toList) := by
      simp [← String.toList_inj, hsplit]
    have hlong' : front ++ more ++ word ++ behind =
        String.ofList (as ++ (column ++ (gap ++ more.toList) ++ word.toList) ++ behind.toList) := by
      simp [← String.toList_inj, hsplit]
    rw [hshort', hlong', hshort.parse_eq, hlong.parse_eq]

/-- What is read off the text of a criterion. -/
structure Normalises (text : String) : Prop where
  column_ne : (parse text).column ≠ ""
  column_trimmed : Trimmed (parse text).column.toList
  /-- The normal form says the same. -/
  parse_toSql : parse (parse text).toSql = parse text
  /-- Only the last of several words makes the order a descending one. -/
  descending_iff : (parse text).direction = .descending ↔ EndsIn (trim text) "desc"
  /-- A direction and the white space before it are not part of the column. -/
  column_of_direction : ∀ d : Direction, EndsIn (trim text) d.name → ∃ gap word,
    Blank gap ∧ gap ≠ [] ∧ equalIgnoringCase (String.ofList word) d.name = true ∧
      (trim text).toList = (parse text).column.toList ++ gap ++ word
  /-- All else is. -/
  column_of_none : (∀ d : Direction, ¬ EndsIn (trim text) d.name) →
    (parse text).column = trim text
  /-- White space around the text says nothing. -/
  around : ∀ before behind, isBlank before = true → isBlank behind = true →
    parse (before ++ text ++ behind) = parse text
  /-- More white space before a direction at the end says nothing. -/
  before_direction : ∀ (front word behind more : String) (d : Direction),
    text = front ++ word ++ behind → equalIgnoringCase word d.name = true →
    (∀ c, front.toList.getLast? = some c → isBlankChar c = true) →
    isBlank behind = true → isBlank more = true →
    parse (front ++ more ++ word ++ behind) = parse text

theorem Directed.descending_iff {column gap word : List Char} {d : Direction}
    (h : Directed text column gap word d) :
    (parse text).direction = .descending ↔ EndsIn (trim text) "desc" := by
  have hdesc : equalIgnoringCase (String.ofList word) "desc" = true ↔
      equalIgnoringCase (String.ofList word) Direction.descending.name = true := Iff.rfl
  rw [h.parse_eq, h.endsIn_iff, hdesc, ← Direction.ofWord?_eq_some_iff, h.word_eq,
    Option.some.injEq]

theorem Bare.descending_iff (h : Bare text) :
    (parse text).direction = .descending ↔ EndsIn (trim text) "desc" := by
  rw [h.parse_eq]
  exact iff_of_false nofun (h.not_endsIn .descending)

/-- **Order criteria normalise.** A text that is not blank is read as a trimmed column and a
direction, which the last of several words names and nothing else. Reading what is written for it
gives the same again, and so does reading the text with more white space at its ends or before that
word. -/
theorem criteria_normalise {text : String} (h : isBlank text = false) : Normalises text := by
  obtain ⟨hne, htrimmed⟩ := column_parse h
  refine
    { column_ne := fun hempty => hne (by rw [hempty]; rfl)
      column_trimmed := htrimmed
      parse_toSql := parse_toSql htrimmed hne
      descending_iff := ?_
      column_of_direction := ?_
      column_of_none := ?_
      around := fun before behind => parse_around
      before_direction := ?_ }
  · rcases directed_or_bare text with ⟨column, gap, word, d, hform⟩ | hform
    · exact hform.descending_iff
    · exact hform.descending_iff
  · rcases directed_or_bare text with ⟨column, gap, word, d, hform⟩ | hform
    · intro e he
      refine ⟨gap, word, hform.gap_blank, hform.gap_ne, (hform.endsIn_iff e.name).mp he, ?_⟩
      rw [toList_trim, hform.chars_eq, hform.parse_eq, String.toList_ofList]
    · exact fun d hd => absurd hd (hform.not_endsIn d)
  · rcases directed_or_bare text with ⟨column, gap, word, d, hform⟩ | hform
    · intro hnone
      have hname := Direction.ofWord?_eq_some_iff.mp hform.word_eq
      exact absurd ((hform.endsIn_iff d.name).mpr hname) (hnone d)
    · intro _
      rw [hform.parse_eq]
  · rintro front word behind more d rfl hword hfront hbehind hmore
    exact parse_append_direction hword hfront hbehind hmore

/-- A column with a space inside, behind a no-break space, and a direction in mixed case. -/
theorem criteria_normalise_of_spaces :
    isBlank "\u00a0 age + 1 \u2003\tdEsC\n" = false ∧ Normalises "\u00a0 age + 1 \u2003\tdEsC\n" ∧
      parse "\u00a0 age + 1 \u2003\tdEsC\n" = ⟨"age + 1", .descending⟩ := by
  have hblank : isBlank "\u00a0 age + 1 \u2003\tdEsC\n" = false := by decide
  exact ⟨hblank, criteria_normalise hblank, by decide⟩

/-- A direction that stands alone is a column, and only one direction is taken off. -/
example : parse " desc " = ⟨"desc", .ascending⟩ ∧ parse "a desc asc" = ⟨"a desc", .ascending⟩ := by
  decide

end OrderCriterion

end TableSql
