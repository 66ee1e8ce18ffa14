import Mathlib.Logic.Function.Iterate
import TableSql.Proofs.Sql.Positions
import TableSql.Proofs.Text.Slices

/-!
# The scans as loops over byte offsets

The scans of `TableSql.Sql.Scan` go down the list of bytes. Here they are loops that move an offset
about in a text, one byte at a time or two, and take a slice of the text for each name. The offset
may come to stand in the middle of a character or behind the end of the text, because a backslash
takes along whatever byte is behind it. Slices are taken next to colons and bytes of names only, and
these are characters of their own.

What carries a run is `Loop.Leads`: from wherever the loop is, what was found so far and what the
scan finds in the bytes ahead make up one outcome. A step keeps it, and no slice fails where it
holds.

## Main definitions

* `Sql.Loop` — where a loop is
* `Sql.Loop.findStep`, `Sql.Loop.countStep` — a step of the loop for placeholders, and for markers
* `Sql.Loop.left` — a bound on the steps that are left
* `Sql.Loop.Leads`, `Sql.Loop.Progresses` — the loop comes to an outcome, and each step is one
  towards it
* `Sql.Loop.Ends` — the loop ends with an outcome, and no slice fails

## Main results

* `Sql.Loop.advances_skip` — a step in a quoted token
* `Sql.Loop.progresses_findStep`, `Sql.Loop.progresses_countStep` — any step
* `Sql.Loop.ends_of_progresses` — a run
* `Sql.Loop.ends_findStep`, `Sql.Loop.ends_countStep` — the loops end with what the scans find
-/

namespace TableSql.Sql

/-- Where a scanning loop is, with what it has found so far. -/
inductive Loop (α : Type) where
  | outside (pos : Nat) (found : α)
  /-- In the quoted token that starts at `start`. -/
  | inside (q : Quote) (start pos : Nat) (found : α)
  /-- In the name of the placeholder that starts at `start`. -/
  | naming (start pos : Nat) (found : α)
  | ended (outcome : Except Unterminated α)
  /-- A slice was asked for where the text may not be cut. -/
  | broken

/-- The offset behind the quoted token that covers the bytes from `pos` on. -/
def Quote.end? (q : Quote) (bs : List UInt8) (pos : Nat) : Option Nat :=
  (q.tailLength? (bs.drop pos)).map (pos + ·)

namespace Loop

variable {α : Type}

/-! ### Steps -/

/-- A step in a quoted token. -/
def skip (bs : List UInt8) (q : Quote) (start pos : Nat) (found : α) : Loop α :=
  match bs[pos]? with
  | none => .ended (.error ⟨q, start⟩)
  | some b =>
    if q.hasEscapes && b == 92 then .inside q start (pos + 2) found
    else if b == q.byte then
      if bs[pos + 1]? == some q.byte then .inside q start (pos + 2) found
      else .outside (pos + 1) found
    else .inside q start (pos + 1) found

/-- A step of a loop that does with `other` what it does outside quotes, and with `inName` what it
does in a name. -/
def step (bs : List UInt8) (other : (pos : Nat) → UInt8 → α → Loop α)
    (inName : (start pos : Nat) → α → Loop α) : Loop α → Loop α
  | .outside pos found =>
    match bs[pos]? with
    | none => .ended (.ok found)
    | some b =>
      match Quote.ofByte? b with
      | some q => .inside q pos (pos + 1) found
      | none => other pos b found
  | .inside q start pos found => skip bs q start pos found
  | .naming start pos found => inName start pos found
  | .ended outcome => .ended outcome
  | .broken => .broken

/-- At a byte outside quotes, a name begins behind a colon. -/
def findOther (text : String) (pos : Nat) (b : UInt8) (found : List Placeholder) :
    Loop (List Placeholder) :=
  if b == 58 && (Text.bytes text)[pos + 1]?.any isNameByte then .naming pos (pos + 1) found
  else .outside (pos + 1) found

/-- Behind the last byte of a name, the name is sliced off. -/
def findInName (text : String) (start pos : Nat) (found : List Placeholder) :
    Loop (List Placeholder) :=
  if (Text.bytes text)[pos]?.any isNameByte then .naming start (pos + 1) found
  else
    match Text.slice? text (start + 1) pos with
    | some name => .outside pos (found ++ [⟨name, start, pos⟩])
    | none => .broken

/-- A step of the loop that finds placeholders. -/
def findStep (text : String) : Loop (List Placeholder) → Loop (List Placeholder) :=
  step (Text.bytes text) (findOther text) (findInName text)

/-- A step of the loop that counts markers, which is never in a name. -/
def countStep (text : String) : Loop Nat → Loop Nat :=
  step (Text.bytes text) (fun pos b n => .outside (pos + 1) (if b == 63 then n + 1 else n)) .naming

/-- A bound on the steps to the end, in a text of some length. -/
def left (length : Nat) : Loop α → Nat
  | .outside pos _ => 2 * (length - pos) + 2
  | .inside _ _ pos _ => 2 * (length - pos) + 3
  | .naming _ pos _ => 2 * (length - pos) + 3
  | .ended _ => 0
  | .broken => 0

/-- The loop comes to the outcome, if outside quotes it comes to what `scan` says and in a name to
what `InName` says. -/
def Leads (bs : List UInt8) (scan : Nat → α → Except Unterminated α)
    (InName : Nat → Nat → α → Prop) (o : Except Unterminated α) : Loop α → Prop
  | .outside pos found => scan pos found = o
  | .inside q start pos found =>
    (match q.end? bs pos with
      | some stop => scan stop found
      | none => .error ⟨q, start⟩) = o
  | .naming start pos found => InName start pos found
  | .ended outcome => outcome = o
  | .broken => False

/-- From one place to the next the outcome is kept, and there is less left to do. -/
structure Advances (bs : List UInt8) (scan : Nat → α → Except Unterminated α)
    (InName : Nat → Nat → α → Prop) (o : Except Unterminated α) (s s' : Loop α) : Prop where
  leads : Leads bs scan InName o s'
  left_lt : left bs.length s' < left bs.length s

/-- Wherever the loop comes to the outcome, it is at the end or advances. -/
def Progresses (bs : List UInt8) (scan : Nat → α → Except Unterminated α)
    (InName : Nat → Nat → α → Prop) (o : Except Unterminated α) (next : Loop α → Loop α) : Prop :=
  ∀ s, Leads bs scan InName o s → s = .ended o ∨ Advances bs scan InName o s (next s)

/-! ### Quoted tokens -/

section Quoted

variable {q : Quote} {bs : List UInt8} {pos : Nat} {b : UInt8}

theorem drop_eq_cons (h : bs[pos]? = some b) : bs.drop pos = b :: bs.drop (pos + 1) := by
  obtain ⟨hlt, rfl⟩ := List.getElem?_eq_some_iff.mp h
  exact List.drop_eq_getElem_cons hlt

theorem end?_of_none (h : bs[pos]? = none) : q.end? bs pos = none := by
  rw [Quote.end?, List.drop_eq_nil_of_le (List.getElem?_eq_none_iff.mp h)]
  rfl

theorem end?_add {n : Nat}
    (h : q.tailLength? (bs.drop pos) = (q.tailLength? (bs.drop (pos + n))).map (· + n)) :
    q.end? bs pos = q.end? bs (pos + n) := by
  have hadd : (pos + ·) ∘ (· + n) = (pos + n + ·) := by
    funext k
    show pos + (k + n) = pos + n + k
    omega
  rw [Quote.end?, Quote.end?, h, Option.map_map, hadd]

/-- The byte behind a backslash is passed over, if there is one. -/
theorem end?_of_escape (h : bs[pos]? = some b) (hb : (q.hasEscapes && b == 92) = true) :
    q.end? bs pos = q.end? bs (pos + 2) := by
  have hdrop : bs.drop (pos + 2) = (bs.drop (pos + 1)).drop 1 := by rw [List.drop_drop]
  refine end?_add ?_
  rw [drop_eq_cons h, hdrop]
  cases bs.drop (pos + 1) <;> simp [Quote.tailLength?, hb]

/-- So is the second of two quotes. -/
theorem end?_of_doubled (h : bs[pos]? = some b) (hesc : ¬(q.hasEscapes && b == 92) = true)
    (hb : (b == q.byte) = true) (hnext : bs[pos + 1]? = some q.byte) :
    q.end? bs pos = q.end? bs (pos + 2) := by
  refine end?_add ?_
  rw [drop_eq_cons h, drop_eq_cons hnext, Quote.tailLength?, if_neg hesc, if_pos hb,
    if_pos (beq_self_eq_true _)]

theorem end?_of_close (h : bs[pos]? = some b) (hesc : ¬(q.hasEscapes && b == 92) = true)
    (hb : (b == q.byte) = true) (hnext : bs[pos + 1]? ≠ some q.byte) :
    q.end? bs pos = some (pos + 1) := by
  rw [← List.head?_drop] at hnext
  rw [Quote.end?, drop_eq_cons h]
  cases hrest : bs.drop (pos + 1) with
  | nil => simp [Quote.tailLength?, hesc, hb]
  | cons c after =>
    rw [hrest, List.head?_cons, ne_eq, Option.some.injEq] at hnext
    simp [Quote.tailLength?, hesc, hb, hnext]

theorem end?_of_other (h : bs[pos]? = some b) (hesc : ¬(q.hasEscapes && b == 92) = true)
    (hb : ¬(b == q.byte) = true) : q.end? bs pos = q.end? bs (pos + 1) := by
  refine end?_add ?_
  rw [drop_eq_cons h, Quote.tailLength?.eq_def]
  simp [hesc, hb]

variable {scan : Nat → α → Except Unterminated α} {InName : Nat → Nat → α → Prop}
  {o : Except Unterminated α}

/-- **A step in a quoted token advances.** -/
theorem advances_skip {start : Nat} {found : α}
    (h : Leads bs scan InName o (.inside q start pos found)) :
    Advances bs scan InName o (.inside q start pos found) (skip bs q start pos found) := by
  rw [Leads] at h
  cases hpos : bs[pos]? with
  | none =>
    rw [end?_of_none hpos] at h
    simp only [skip, hpos]
    exact ⟨h, Nat.succ_pos _⟩
  | some b =>
    have hlt : pos < bs.length := (List.getElem?_eq_some_iff.mp hpos).1
    simp only [skip, hpos]
    split
    next hesc =>
      rw [end?_of_escape hpos hesc] at h
      exact ⟨h, by simp only [left]; omega⟩
    next hesc =>
      split
      next hb =>
        split
        next hnext =>
          rw [end?_of_doubled hpos hesc hb (beq_iff_eq.mp hnext)] at h
          exact ⟨h, by simp only [left]; omega⟩
        next hnext =>
          rw [end?_of_close hpos hesc hb (mt beq_iff_eq.mpr hnext)] at h
          exact ⟨h, by simp only [left]; omega⟩
      next hb =>
        rw [end?_of_other hpos hesc hb] at h
        exact ⟨h, by simp only [left]; omega⟩

/-- At the end of the text the scan is over, and at a quote it goes on behind the token. -/
structure ReadsQuotes (bs : List UInt8) (scan : Nat → α → Except Unterminated α) : Prop where
  of_none : ∀ pos found, bs[pos]? = none → scan pos found = .ok found
  of_quote : ∀ pos found b q, bs[pos]? = some b → Quote.ofByte? b = some q →
    scan pos found = match q.end? bs (pos + 1) with
      | some stop => scan stop found
      | none => .error ⟨q, pos⟩

/-- **Steps make progress**, if they do so outside quotes and in names. -/
theorem progresses_step (hscan : ReadsQuotes bs scan) {other : Nat → UInt8 → α → Loop α}
    {inName : Nat → Nat → α → Loop α}
    (hother : ∀ pos b found, bs[pos]? = some b → Quote.ofByte? b = none → scan pos found = o →
      Advances bs scan InName o (.outside pos found) (other pos b found))
    (hname : ∀ start pos found, InName start pos found →
      Advances bs scan InName o (.naming start pos found) (inName start pos found)) :
    Progresses bs scan InName o (step bs other inName) := by
  intro s h
  cases s with
  | broken => exact absurd h id
  | ended outcome => exact .inl (congrArg ended h)
  | inside q start pos found => exact .inr (advances_skip h)
  | naming start pos found => exact .inr (hname start pos found h)
  | outside pos found =>
    refine .inr ?_
    have h : scan pos found = o := h
    cases hpos : bs[pos]? with
    | none =>
      rw [hscan.of_none pos found hpos] at h
      simp only [step, hpos]
      exact ⟨h, Nat.succ_pos _⟩
    | some b =>
      have hlt : pos < bs.length := (List.getElem?_eq_some_iff.mp hpos).1
      simp only [step, hpos]
      cases hb : Quote.ofByte? b with
      | some q =>
        rw [hscan.of_quote pos found b q hpos hb] at h
        exact ⟨h, by simp only [left]; omega⟩
      | none => exact hother pos b found hpos hb h

end Quoted

/-! ### Runs -/

/-- A loop ends with an outcome, and takes no slice on the way that the text does not have. -/
structure Ends (next : Loop α → Loop α) (start : Loop α) (steps : Nat)
    (o : Except Unterminated α) : Prop where
  iterate_eq : next^[steps] start = .ended o
  iterate_ne : ∀ k, next^[k] start ≠ .broken

/-- **A loop that makes progress ends with the outcome.** -/
theorem ends_of_progresses {bs : List UInt8} {scan : Nat → α → Except Unterminated α}
    {InName : Nat → Nat → α → Prop} {o : Except Unterminated α} {next : Loop α → Loop α}
    (hnext : Progresses bs scan InName o next) (hended : next (.ended o) = .ended o)
    {start : Loop α} (hstart : Leads bs scan InName o start) {steps : Nat}
    (hsteps : left bs.length start ≤ steps) : Ends next start steps o := by
  constructor
  · induction steps generalizing start with
    | zero =>
      rcases hnext start hstart with rfl | hadvances
      · rfl
      · exact absurd hadvances.left_lt (by omega)
    | succ n ih =>
      rw [Function.iterate_succ_apply]
      rcases hnext start hstart with rfl | hadvances
      · rw [hended]
        exact ih hstart (Nat.zero_le n)
      · exact ih hadvances.leads (by have := hadvances.left_lt; omega)
  · have hrun : ∀ k, Leads bs scan InName o (next^[k] start) := by
      refine Function.Iterate.rec _ hstart fun s hs => ?_
      rcases hnext s hs with rfl | hadvances
      · rwa [hended]
      · exact hadvances.leads
    exact fun k hk => (congrArg (Leads bs scan InName o) hk).mp (hrun k)

/-! ### The loop for placeholders -/

/-- What the loop comes to outside quotes. -/
def find (text : String) (pos : Nat) (found : List Placeholder) :
    Except Unterminated (List Placeholder) :=
  (placeholdersFrom 0 pos ((Text.bytes text).drop pos)).map (found ++ ·)

/-- In a name, the bytes behind the colon are those of a name, and the loop comes to what it would
come to behind the whole placeholder. -/
def FindsIn (text : String) (o : Except Unterminated (List Placeholder)) (start pos : Nat)
    (found : List Placeholder) : Prop :=
  ∃ read, (Text.bytes text).drop start = 58 :: (read ++ (Text.bytes text).drop pos) ∧
    pos = start + 1 + read.length ∧ (∀ b ∈ read, isNameByte b = true) ∧
    find text pos (found ++ [placeholderAt start ((Text.bytes text).drop start) 0]) = o

variable {text : String}

theorem readsQuotes_find (text : String) : ReadsQuotes (Text.bytes text) (find text) where
  of_none pos found h := by
    rw [find, List.drop_eq_nil_of_le (List.getElem?_eq_none_iff.mp h), placeholdersFrom]
    exact congrArg Except.ok (List.append_nil found)
  of_quote pos found b q h hb := by
    rw [find, drop_eq_cons h, placeholdersFrom, Quote.end?]
    simp only [hb]
    cases q.tailLength? ((Text.bytes text).drop (pos + 1)) with
    | none => rfl
    | some n =>
      simp only [Option.map_some]
      rw [find, placeholdersFrom_skip, List.drop_drop]

theorem atPlaceholder_drop {bs : List UInt8} {pos : Nat} {b : UInt8} (h : bs[pos]? = some b) :
    Mode.atPlaceholder (bs.drop pos) = (b == 58 && bs[pos + 1]?.any isNameByte) := by
  rw [Mode.atPlaceholder, List.getElem?_drop, List.getElem?_drop, Nat.add_zero, h]
  rfl

/-- Outside quotes the loop goes on byte by byte, and past a name at once. -/
theorem find_of_other {pos : Nat} {b : UInt8} (h : (Text.bytes text)[pos]? = some b)
    (hb : Quote.ofByte? b = none) (found : List Placeholder) :
    find text pos found = find text (pos + 1) (found ++
      if b == 58 && (Text.bytes text)[pos + 1]?.any isNameByte then
        [placeholderAt pos ((Text.bytes text).drop pos) 0]
      else []) := by
  rw [← atPlaceholder_drop h, find, find, drop_eq_cons h, placeholdersFrom_cons hb]
  cases placeholdersFrom 0 (pos + 1) ((Text.bytes text).drop (pos + 1)) with
  | error u => rfl
  | ok ps => simp [List.append_assoc]

/-- A byte of a name is no token. -/
theorem find_of_isNameByte {pos : Nat} {b : UInt8} (h : (Text.bytes text)[pos]? = some b)
    (hb : isNameByte b = true) (found : List Placeholder) :
    find text pos found = find text (pos + 1) found := by
  have hcolon : ¬(b == 58) = true := by
    rw [beq_iff_eq]
    rintro rfl
    exact absurd hb (by decide)
  rw [find_of_other h (ofByte?_of_isNameByte hb), if_neg (by simp [hcolon]), List.append_nil]

/-- Where a name ends, the slice from the colon on is the name. -/
theorem slice?_name {start : Nat} {read : List UInt8}
    (hstart : (Text.bytes text).drop start =
      58 :: (read ++ (Text.bytes text).drop (start + 1 + read.length)))
    (hread : ∀ b ∈ read, isNameByte b = true) :
    Text.slice? text (start + 1) (start + 1 + read.length) = some (Text.ofAscii read) := by
  have hlength : ((Text.bytes text).take start).length = start := by
    rw [List.length_take_of_le]
    by_contra hlt
    rw [List.drop_eq_nil_of_le (Nat.le_of_not_le hlt)] at hstart
    cases hstart
  have hbytes := List.take_append_drop start (Text.bytes text)
  rw [hstart] at hbytes
  have hslice := Text.slice?_ascii hbytes.symm (by decide) fun b hb => lt_of_isNameByte (hread b hb)
  rwa [hlength] at hslice

theorem placeholderAt_name {start : Nat} {read rest : List UInt8}
    (hread : ∀ b ∈ read, isNameByte b = true) (hrest : rest.head?.any isNameByte = false) :
    placeholderAt start (58 :: (read ++ rest)) 0 =
      ⟨Text.ofAscii read, start, start + 1 + read.length⟩ := by
  have hnil : rest.takeWhile isNameByte = [] := by
    cases rest with
    | nil => rfl
    | cons b rest => exact List.takeWhile_cons_of_neg (by simpa using hrest)
  have hname : (read ++ rest).takeWhile isNameByte = read := by
    rw [List.takeWhile_append_of_pos hread, hnil, List.append_nil]
  simp only [placeholderAt, Nat.zero_add, List.drop_succ_cons, List.drop_zero, hname, Nat.add_zero]

theorem advances_findOther {o : Except Unterminated (List Placeholder)} {pos : Nat} {b : UInt8}
    {found : List Placeholder} (hpos : (Text.bytes text)[pos]? = some b)
    (hb : Quote.ofByte? b = none) (h : find text pos found = o) :
    Advances (Text.bytes text) (find text) (FindsIn text o) o (.outside pos found)
      (findOther text pos b found) := by
  have hlt : pos < (Text.bytes text).length := (List.getElem?_eq_some_iff.mp hpos).1
  rw [find_of_other hpos hb] at h
  rw [findOther]
  split
  next hcolon =>
    rw [if_pos hcolon] at h
    have hb58 : b = 58 := beq_iff_eq.mp (Bool.and_eq_true_iff.mp hcolon).1
    have hstart : (Text.bytes text).drop pos = 58 :: ([] ++ (Text.bytes text).drop (pos + 1)) := by
      rw [drop_eq_cons hpos, hb58]
      rfl
    exact ⟨⟨[], hstart, rfl, nofun, h⟩, by simp only [left]; omega⟩
  next hcolon =>
    rw [if_neg hcolon, List.append_nil] at h
    exact ⟨h, by simp only [left]; omega⟩

theorem advances_findInName {o : Except Unterminated (List Placeholder)} {start pos : Nat}
    {found : List Placeholder} (h : FindsIn text o start pos found) :
    Advances (Text.bytes text) (find text) (FindsIn text o) o (.naming start pos found)
      (findInName text start pos found) := by
  obtain ⟨read, hstart, rfl, hread, h⟩ := h
  rw [findInName]
  split
  next hname =>
    -- one more byte of the name
    obtain ⟨b, hpos, hb⟩ := (Option.any_eq_true _ _).mp hname
    have hlt : start + 1 + read.length < (Text.bytes text).length :=
      (List.getElem?_eq_some_iff.mp hpos).1
    refine ⟨⟨read ++ [b], ?_, ?_, ?_, ?_⟩, by simp only [left]; omega⟩
    · rw [hstart, List.append_assoc, drop_eq_cons hpos]
      rfl
    · rw [List.length_append]
      rfl
    · exact List.forall_mem_append.mpr ⟨hread, List.forall_mem_singleton.mpr hb⟩
    · rwa [← find_of_isNameByte hpos hb]
  next hname =>
    -- what was read is the longest name behind the colon
    rw [← List.head?_drop] at hname
    rw [hstart, placeholderAt_name hread (Bool.not_eq_true _ ▸ hname)] at h
    rw [slice?_name hstart hread]
    exact ⟨h, Nat.lt_succ_self _⟩

theorem progresses_findStep (text : String) (o : Except Unterminated (List Placeholder)) :
    Progresses (Text.bytes text) (find text) (FindsIn text o) o (findStep text) :=
  progresses_step (readsQuotes_find text) (fun _ _ _ => advances_findOther)
    fun _ _ _ => advances_findInName

/-- **The loop for placeholders ends with the placeholders of the text.** -/
theorem ends_findStep (text : String) :
    Ends (findStep text) (.outside 0 []) (2 * Text.byteLength text + 2) (placeholders? text) := by
  have hstart : find text 0 [] = placeholders? text := by
    rw [find, List.drop_zero, placeholders?]
    cases placeholdersFrom 0 0 (Text.bytes text) <;> rfl
  refine ends_of_progresses (progresses_findStep text _) rfl ?_ (Nat.le_refl _)
  exact hstart

/-! ### The loop for markers -/

/-- What the loop comes to outside quotes. -/
def count (text : String) (pos n : Nat) : Except Unterminated Nat :=
  (countMarkersFrom 0 pos ((Text.bytes text).drop pos)).map (n + ·)

theorem readsQuotes_count (text : String) : ReadsQuotes (Text.bytes text) (count text) where
  of_none pos n h := by
    rw [count, List.drop_eq_nil_of_le (List.getElem?_eq_none_iff.mp h), countMarkersFrom]
    rfl
  of_quote pos n b q h hb := by
    rw [count, drop_eq_cons h, countMarkersFrom, Quote.end?]
    simp only [hb]
    cases q.tailLength? ((Text.bytes text).drop (pos + 1)) with
    | none => rfl
    | some k =>
      simp only [Option.map_some]
      rw [count, countMarkersFrom_skip, List.drop_drop]

theorem count_of_other {pos : Nat} {b : UInt8} (h : (Text.bytes text)[pos]? = some b)
    (hb : Quote.ofByte? b = none) (n : Nat) :
    count text pos n = count text (pos + 1) (if b == 63 then n + 1 else n) := by
  rw [count, count, drop_eq_cons h, countMarkersFrom]
  simp only [hb]
  cases countMarkersFrom 0 (pos + 1) ((Text.bytes text).drop (pos + 1)) with
  | error u => rfl
  | ok m =>
    refine congrArg Except.ok ?_
    show n + (if b == 63 then m + 1 else m) = (if b == 63 then n + 1 else n) + m
    split <;> omega

theorem progresses_countStep (text : String) (o : Except Unterminated Nat) :
    Progresses (Text.bytes text) (count text) (fun _ _ _ => False) o (countStep text) := by
  -- no name is ever begun
  refine progresses_step (readsQuotes_count text) (fun pos b n hpos hb h => ?_)
    fun _ _ _ => False.elim
  have hlt : pos < (Text.bytes text).length := (List.getElem?_eq_some_iff.mp hpos).1
  rw [count_of_other hpos hb] at h
  exact ⟨h, by simp only [left]; omega⟩

/-- **The loop for markers ends with their number.** -/
theorem ends_countStep (text : String) :
    Ends (countStep text) (.outside 0 0) (2 * Text.byteLength text + 2) (countMarkers? text) := by
  have hstart : count text 0 0 = countMarkers? text := by
    rw [count, List.drop_zero, countMarkers?]
    cases countMarkersFrom 0 0 (Text.bytes text) with
    | error u => rfl
    | ok n => exact congrArg Except.ok (Nat.zero_add n)
  refine ends_of_progresses (progresses_countStep text _) rfl ?_ (Nat.le_refl _)
  exact hstart

end Loop

end TableSql.Sql
