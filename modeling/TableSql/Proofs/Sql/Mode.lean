import TableSql.Sql.Scan

/-!
# Reading SQL text without lookahead

The scans of `TableSql.Sql.Scan` look one byte ahead: a doubled quote stays inside its token, and a
whole token is skipped at once. Here is a reader that does neither. It takes one byte at a time and
remembers only whether it is outside quotes, inside a token, or behind a backslash. A doubled quote
closes the token and opens it again, which comes to the same thing: no byte is read in between.

What makes the reader worth having is that it composes. Reading `as ++ bs` is reading `as` and then
`bs` from where that ended, and so a text that ends outside quotes can stand before any other
without changing how the other is read. The scans are shown to agree with it, and everything that
is said about joined text goes through `Mode.after_append` and `Mode.markers_append`.

## Main definitions

* `Sql.Mode`, `Sql.Mode.next` — where the reader is, and one byte read
* `Sql.Mode.after`, `Sql.Mode.markers` — many bytes read, and the `?` read outside quotes
* `Sql.Closed`, `Sql.markers` — a text that ends outside quotes, and its markers
* `Sql.UnclosedAt` — a quote that is opened and never closed

## Main results

* `Sql.Quote.tailLength?_eq_some`, `Sql.Quote.tailLength?_eq_none` — a quoted token is what the
  reader takes to get outside again
* `Sql.scan_induction` — induction on a text as the scans go through it
* `Sql.countMarkers?_eq_ok_iff` — the markers of a text are counted exactly if it is closed
* `Sql.unclosedAt_of_countMarkers?` — and where it is not, a quote is reported that is never closed
-/

namespace TableSql.Sql

/-- Where a reader of SQL text is. -/
inductive Mode where
  | outside
  | inside (q : Quote)
  /-- Behind a backslash of a quoted token. -/
  | escaped (q : Quote)
deriving DecidableEq, Repr

namespace Mode

/-- The reader after one more byte. -/
def next : Mode → UInt8 → Mode
  | .outside, b =>
    match Quote.ofByte? b with
    | some q => .inside q
    | none => .outside
  | .inside q, b =>
    if q.hasEscapes && b == 92 then .escaped q
    else if b == q.byte then .outside
    else .inside q
  | .escaped q, _ => .inside q

/-- The reader after more bytes. -/
def after (m : Mode) (bs : List UInt8) : Mode :=
  bs.foldl next m

/-- The number of `?` that the reader meets outside quotes. -/
def markers : Mode → List UInt8 → Nat
  | _, [] => 0
  | m, b :: rest => (if m = .outside ∧ b = 63 then 1 else 0) + markers (m.next b) rest

@[simp] theorem after_nil (m : Mode) : m.after [] = m := rfl

@[simp] theorem after_cons (m : Mode) (b : UInt8) (bs : List UInt8) :
    m.after (b :: bs) = (m.next b).after bs := rfl

@[simp] theorem markers_nil (m : Mode) : m.markers [] = 0 := rfl

theorem markers_cons (m : Mode) (b : UInt8) (bs : List UInt8) :
    m.markers (b :: bs) = (if m = .outside ∧ b = 63 then 1 else 0) + (m.next b).markers bs := rfl

/-- **Reading composes.** -/
theorem after_append (m : Mode) (as bs : List UInt8) :
    m.after (as ++ bs) = (m.after as).after bs :=
  List.foldl_append

theorem markers_append (m : Mode) (as bs : List UInt8) :
    m.markers (as ++ bs) = m.markers as + (m.after as).markers bs := by
  induction as generalizing m with
  | nil => simp
  | cons a as ih =>
    rw [List.cons_append, markers_cons, markers_cons, ih, after_cons]
    omega

/-! ### One byte -/

theorem next_outside_of_quote {b : UInt8} {q : Quote} (h : Quote.ofByte? b = some q) :
    next .outside b = .inside q := by
  simp [next, h]

theorem next_outside_of_ne {b : UInt8} (h : Quote.ofByte? b = none) :
    next .outside b = .outside := by
  simp [next, h]

theorem next_inside_escape {b : UInt8} {q : Quote} (h : (q.hasEscapes && b == 92) = true) :
    next (.inside q) b = .escaped q := by
  rw [next, if_pos h]

theorem next_inside_close {b : UInt8} {q : Quote} (h : ¬(q.hasEscapes && b == 92) = true)
    (hb : (b == q.byte) = true) : next (.inside q) b = .outside := by
  rw [next, if_neg h, if_pos hb]

theorem next_inside_of_ne {b : UInt8} {q : Quote} (h : ¬(q.hasEscapes && b == 92) = true)
    (hb : ¬(b == q.byte) = true) : next (.inside q) b = .inside q := by
  rw [next, if_neg h, if_neg hb]

theorem markers_cons_of_ne_outside {m : Mode} (h : m ≠ .outside) (b : UInt8) (bs : List UInt8) :
    m.markers (b :: bs) = (m.next b).markers bs := by
  rw [markers_cons, if_neg fun hm => h hm.1, Nat.zero_add]

theorem markers_outside_quote {b : UInt8} {q : Quote} (h : Quote.ofByte? b = some q)
    (bs : List UInt8) : Mode.markers .outside (b :: bs) = (inside q).markers bs := by
  have hb : b ≠ 63 := by
    rintro rfl
    rw [show Quote.ofByte? 63 = none from rfl] at h
    cases h
  rw [markers_cons, if_neg fun hm => hb hm.2, Nat.zero_add, next_outside_of_quote h]

theorem markers_outside_of_ne {b : UInt8} (h : Quote.ofByte? b = none) (bs : List UInt8) :
    Mode.markers .outside (b :: bs) =
      (if b = 63 then 1 else 0) + Mode.markers .outside bs := by
  rw [markers_cons, next_outside_of_ne h]
  simp

end Mode

/-! ### Quoted tokens

The doubled quote is the one place where the scan and the reader differ: the scan stays inside,
and the reader goes outside for no byte at all. -/

/-- A quoted token takes the reader outside, past no marker. -/
theorem Quote.tailLength?_eq_some {q : Quote} {bs : List UInt8} {n : Nat}
    (h : q.tailLength? bs = some n) :
    (Mode.inside q).after (bs.take n) = .outside ∧ (Mode.inside q).markers (bs.take n) = 0 := by
  fun_induction Quote.tailLength? q bs generalizing n with
  | case1 => cases h
  | case2 => cases h
  | case3 b hesc c rest ih =>
    obtain ⟨m, hm, rfl⟩ := Option.map_eq_some_iff.mp h
    obtain ⟨hout, hmark⟩ := ih hm
    have hnext : Mode.next (.inside q) b = .escaped q := Mode.next_inside_escape hesc
    constructor
    · rw [List.take_succ_cons, List.take_succ_cons, Mode.after_cons, hnext, Mode.after_cons]
      exact hout
    · rw [List.take_succ_cons, List.take_succ_cons, Mode.markers_cons_of_ne_outside (by simp),
        hnext, Mode.markers_cons_of_ne_outside (by simp)]
      exact hmark
  | case4 b hesc hb =>
    cases h
    have hnext : Mode.next (.inside q) b = .outside := Mode.next_inside_close hesc hb
    refine ⟨hnext, ?_⟩
    rw [List.take_succ_cons, Mode.markers_cons_of_ne_outside (by simp), hnext]
    rfl
  | case5 b hesc hb c rest hc ih =>
    obtain ⟨m, hm, rfl⟩ := Option.map_eq_some_iff.mp h
    obtain ⟨hout, hmark⟩ := ih hm
    have hnext : Mode.next (.inside q) b = .outside := Mode.next_inside_close hesc hb
    have hquote : Quote.ofByte? c = some q := by
      rw [show c = q.byte from by simpa using hc, Quote.ofByte?_byte]
    constructor
    · rw [List.take_succ_cons, List.take_succ_cons, Mode.after_cons, hnext, Mode.after_cons,
        Mode.next_outside_of_quote hquote]
      exact hout
    · rw [List.take_succ_cons, List.take_succ_cons, Mode.markers_cons_of_ne_outside (by simp),
        hnext, Mode.markers_outside_quote hquote]
      exact hmark
  | case6 b hesc hb c rest hc =>
    cases h
    have hnext : Mode.next (.inside q) b = .outside := Mode.next_inside_close hesc hb
    refine ⟨hnext, ?_⟩
    rw [List.take_succ_cons, Mode.markers_cons_of_ne_outside (by simp), hnext]
    rfl
  | case7 b rest hesc hb ih =>
    obtain ⟨m, hm, rfl⟩ := Option.map_eq_some_iff.mp h
    obtain ⟨hout, hmark⟩ := ih hm
    have hnext : Mode.next (.inside q) b = .inside q := Mode.next_inside_of_ne hesc hb
    constructor
    · rw [List.take_succ_cons, Mode.after_cons, hnext]
      exact hout
    · rw [List.take_succ_cons, Mode.markers_cons_of_ne_outside (by simp), hnext]
      exact hmark

/-- A token without an end keeps the reader from ever getting outside. -/
theorem Quote.tailLength?_eq_none {q : Quote} {bs : List UInt8} (h : q.tailLength? bs = none) :
    (Mode.inside q).after bs ≠ .outside := by
  fun_induction Quote.tailLength? q bs with
  | case1 => simp
  | case2 b hesc =>
    rw [Mode.after_cons, Mode.next_inside_escape hesc]
    simp
  | case3 b hesc c rest ih =>
    rw [Mode.after_cons, Mode.next_inside_escape hesc, Mode.after_cons]
    exact ih (Option.map_eq_none_iff.mp h)
  | case4 => cases h
  | case5 b hesc hb c rest hc ih =>
    have hquote : Quote.ofByte? c = some q := by
      rw [show c = q.byte from by simpa using hc, Quote.ofByte?_byte]
    rw [Mode.after_cons, Mode.next_inside_close hesc hb, Mode.after_cons,
      Mode.next_outside_of_quote hquote]
    exact ih (Option.map_eq_none_iff.mp h)
  | case6 => cases h
  | case7 b rest hesc hb ih =>
    rw [Mode.after_cons, Mode.next_inside_of_ne hesc hb]
    exact ih (Option.map_eq_none_iff.mp h)

/-! ### The scans

Both scans carry the number of bytes that the last token still covers. Skipping them is the same as
starting behind them, which is where the reader is outside again. -/

/-- Induction on the bytes as a scan goes through them: byte by byte outside quotes, and past a
whole quoted token at once. -/
theorem scan_induction {motive : List UInt8 → Prop} (nil : motive [])
    (unclosed : ∀ q b bs, Quote.ofByte? b = some q → q.tailLength? bs = none → motive (b :: bs))
    (quoted : ∀ q b bs n, Quote.ofByte? b = some q → q.tailLength? bs = some n →
      motive (bs.drop n) → motive (b :: bs))
    (other : ∀ b bs, Quote.ofByte? b = none → motive bs → motive (b :: bs))
    (bs : List UInt8) : motive bs := by
  induction hlen : bs.length using Nat.strongRecOn generalizing bs with
  | _ len ih =>
  cases bs with
  | nil => exact nil
  | cons b bs =>
    rw [List.length_cons] at hlen
    cases hb : Quote.ofByte? b with
    | none => exact other b bs hb (ih _ (by omega) bs rfl)
    | some q =>
      cases hq : q.tailLength? bs with
      | none => exact unclosed q b bs hb hq
      | some n =>
        have hdrop : (bs.drop n).length < len := by
          rw [List.length_drop]
          omega
        exact quoted q b bs n hb hq (ih _ hdrop _ rfl)

theorem countMarkersFrom_skip (skip pos : Nat) (bs : List UInt8) :
    countMarkersFrom skip pos bs = countMarkersFrom 0 (pos + skip) (bs.drop skip) := by
  induction skip generalizing pos bs with
  | zero => simp
  | succ skip ih =>
    cases bs with
    | nil => simp [countMarkersFrom]
    | cons b rest =>
      rw [countMarkersFrom, ih, List.drop_succ_cons, Nat.add_right_comm, Nat.add_assoc]

theorem placeholdersFrom_skip (skip pos : Nat) (bs : List UInt8) :
    placeholdersFrom skip pos bs = placeholdersFrom 0 (pos + skip) (bs.drop skip) := by
  induction skip generalizing pos bs with
  | zero => simp
  | succ skip ih =>
    cases bs with
    | nil => simp [placeholdersFrom]
    | cons b rest =>
      rw [placeholdersFrom, ih, List.drop_succ_cons, Nat.add_right_comm, Nat.add_assoc]

/-- A quoted token and what follows it, as the reader sees them. -/
theorem Mode.after_quote {q : Quote} {b : UInt8} {bs : List UInt8} {n : Nat}
    (hb : Quote.ofByte? b = some q) (h : q.tailLength? bs = some n) :
    Mode.after .outside (b :: bs) = Mode.after .outside (bs.drop n) ∧
      Mode.markers .outside (b :: bs) = Mode.markers .outside (bs.drop n) := by
  obtain ⟨hout, hmark⟩ := Quote.tailLength?_eq_some h
  have hsplit : bs.take n ++ bs.drop n = bs := List.take_append_drop n bs
  constructor
  · rw [after_cons, next_outside_of_quote hb]
    conv => lhs; rw [← hsplit]
    rw [after_append, hout]
  · rw [markers_outside_quote hb]
    conv => lhs; rw [← hsplit]
    rw [markers_append, hout, hmark, Nat.zero_add]

/-- A quote without an end keeps the reader from getting outside again. -/
theorem Mode.after_unclosed {q : Quote} {b : UInt8} {bs : List UInt8}
    (hb : Quote.ofByte? b = some q) (h : q.tailLength? bs = none) :
    Mode.after .outside (b :: bs) ≠ .outside := by
  rw [after_cons, next_outside_of_quote hb]
  exact Quote.tailLength?_eq_none h

theorem countMarkersFrom_eq_ok_iff {pos n : Nat} {bs : List UInt8} :
    countMarkersFrom 0 pos bs = .ok n ↔
      Mode.after .outside bs = .outside ∧ Mode.markers .outside bs = n := by
  induction bs using scan_induction generalizing pos n with
  | nil => simp [countMarkersFrom]
  | unclosed q b bs hb hq =>
    rw [countMarkersFrom]
    simp only [hb, hq]
    exact ⟨nofun, fun h => absurd h.1 (Mode.after_unclosed hb hq)⟩
  | quoted q b bs k hb hq ih =>
    obtain ⟨hafter, hmark⟩ := Mode.after_quote hb hq
    rw [hafter, hmark, countMarkersFrom]
    simp only [hb, hq]
    rw [countMarkersFrom_skip]
    exact ih
  | other b bs hb ih =>
    rw [Mode.after_cons, Mode.next_outside_of_ne hb, Mode.markers_outside_of_ne hb,
      countMarkersFrom]
    simp only [hb]
    cases hscan : countMarkersFrom 0 (pos + 1) bs with
    | ok m =>
      obtain ⟨hout, hmark⟩ := ih.mp hscan
      rw [hmark]
      by_cases h63 : b = 63 <;> simp [hout, h63, Nat.add_comm]
    | error u =>
      refine ⟨fun h => (by cases h), fun h => ?_⟩
      rw [ih.mpr ⟨h.1, rfl⟩] at hscan
      cases hscan

/-- A quote is reported where the reader opens it, and it has no end. -/
theorem exists_append_of_countMarkersFrom {pos : Nat} {bs : List UInt8} {u : Unterminated}
    (h : countMarkersFrom 0 pos bs = .error u) : ∃ before b rest, bs = before ++ b :: rest ∧
      u.offset = pos + before.length ∧ Mode.after .outside before = .outside ∧
      Quote.ofByte? b = some u.quote ∧ u.quote.tailLength? rest = none := by
  induction bs using scan_induction generalizing pos with
  | nil => cases h
  | unclosed q b bs hb hq =>
    rw [countMarkersFrom] at h
    simp only [hb, hq] at h
    cases h
    exact ⟨[], b, bs, rfl, rfl, rfl, hb, hq⟩
  | quoted q b bs k hb hq ih =>
    rw [countMarkersFrom] at h
    simp only [hb, hq] at h
    rw [countMarkersFrom_skip] at h
    obtain ⟨before, c, rest, hrest, hoffset, hout, hc, hnone⟩ := ih h
    have hclosed := (Quote.tailLength?_eq_some hq).1
    have hlength : (bs.take k).length = k := List.length_take_of_le (Quote.tailLength?_le hq)
    refine ⟨b :: bs.take k ++ before, c, rest, ?_, ?_, ?_, hc, hnone⟩
    · rw [List.append_assoc, ← hrest, List.cons_append, List.take_append_drop]
    · rw [hoffset, List.length_append, List.length_cons, hlength]
      omega
    · rw [Mode.after_append, Mode.after_cons, Mode.next_outside_of_quote hb, hclosed, hout]
  | other b bs hb ih =>
    rw [countMarkersFrom] at h
    simp only [hb] at h
    cases hscan : countMarkersFrom 0 (pos + 1) bs with
    | ok n =>
      rw [hscan] at h
      cases h
    | error u' =>
      rw [hscan] at h
      cases h
      obtain ⟨before, c, rest, rfl, hoffset, hout, hc, hnone⟩ := ih hscan
      refine ⟨b :: before, c, rest, rfl, ?_, ?_, hc, hnone⟩
      · rw [hoffset, List.length_cons]
        omega
      · rw [Mode.after_cons, Mode.next_outside_of_ne hb, hout]

/-! ### Closed text -/

/-- A text that ends outside quotes. -/
def Closed (text : String) : Prop :=
  Mode.after .outside (Text.bytes text) = .outside

/-- The number of `?` of a text that stand outside quotes. -/
def markers (text : String) : Nat :=
  Mode.markers .outside (Text.bytes text)

/-- **The markers of a text are counted exactly if it is closed.** -/
theorem countMarkers?_eq_ok_iff {text : String} {n : Nat} :
    countMarkers? text = .ok n ↔ Closed text ∧ markers text = n :=
  countMarkersFrom_eq_ok_iff

/-- At this place outside quotes, with so many bytes before it, a quote is opened that is never
closed. -/
def UnclosedAt (text : String) (offset : Nat) : Prop :=
  ∃ before b rest q, Text.bytes text = before ++ b :: rest ∧ before.length = offset ∧
    Mode.after .outside before = .outside ∧ Quote.ofByte? b = some q ∧ q.tailLength? rest = none

theorem unclosedAt_of_countMarkers? {text : String} {u : Unterminated}
    (h : countMarkers? text = .error u) : UnclosedAt text u.offset := by
  obtain ⟨before, b, rest, heq, hoffset, hout, hb, hnone⟩ := exists_append_of_countMarkersFrom h
  exact ⟨before, b, rest, u.quote, heq, by omega, hout, hb, hnone⟩

theorem Closed.append {s t : String} (hs : Closed s) (ht : Closed t) : Closed (s ++ t) := by
  rw [Closed, Text.bytes_append, Mode.after_append, hs, ht]

/-- No closed text hides or adds a marker of what follows it. -/
theorem markers_append {s : String} (hs : Closed s) (t : String) :
    markers (s ++ t) = markers s + markers t := by
  rw [markers, Text.bytes_append, Mode.markers_append, hs]
  rfl

end TableSql.Sql
