import TableSql.Proofs.Outcome
import TableSql.Proofs.Template

/-!
# What the scans find, and where

A scan runs ahead: it looks at the byte behind a quote, takes a backslash together with the byte
it guards and jumps over the name of a placeholder. The reader of `TableSql.Proofs.Sql.Mode` does
none of that. Here the two are compared position by position. A marker or a placeholder is found
exactly where the reader gets to its first byte outside quotes.

Two facts carry the comparison. Inside a quoted token the reader gets outside only in front of the
second half of a doubled quote, so it finds nothing there that a scan does not. And a name holds no
colon, so jumping over it is reading it.

## Main definitions

* `Sql.Mode.positions` — where the reader is outside quotes and the bytes ahead look as asked
* `Sql.Mode.atMarker`, `Sql.Mode.atPlaceholder` — the two looks
* `Sql.placeholderAt` — the placeholder whose colon is at a position

## Main results

* `Sql.Mode.positions_inside` — a quoted token holds nothing that is looked for
* `Sql.placeholdersFrom_eq_ok_iff` — the placeholders of a text are found exactly if it is closed
* `Sql.scans_follow_reader` — both scans, position by position
-/

namespace TableSql.Sql

namespace Mode

/-! ### Positions -/

/-- The positions that the reader gets to outside quotes and from which the bytes look as asked. -/
def positions (look : List UInt8 → Bool) (m : Mode) (bs : List UInt8) : List Nat :=
  (List.range bs.length).filter fun p => m.after (bs.take p) = .outside && look (bs.drop p)

variable {look : List UInt8 → Bool}

@[simp] theorem positions_nil (look : List UInt8 → Bool) (m : Mode) : m.positions look [] = [] :=
  rfl

theorem positions_cons (look : List UInt8 → Bool) (m : Mode) (b : UInt8) (bs : List UInt8) :
    m.positions look (b :: bs) =
      (if m = .outside && look (b :: bs) then [0] else []) ++
        ((m.next b).positions look bs).map (· + 1) := by
  rw [positions, List.length_cons, List.range_succ_eq_map, List.filter_cons, List.filter_map,
    List.take_zero, List.drop_zero, after_nil]
  split <;> rfl

theorem positions_cons_of_ne_outside {m : Mode} (h : m ≠ .outside) (b : UInt8) (bs : List UInt8) :
    m.positions look (b :: bs) = ((m.next b).positions look bs).map (· + 1) := by
  simp [positions_cons, h]

theorem positions_cons_of_look_eq_false {b : UInt8} {bs : List UInt8} (m : Mode)
    (h : look (b :: bs) = false) :
    m.positions look (b :: bs) = ((m.next b).positions look bs).map (· + 1) := by
  simp [positions_cons, h]

theorem pairwise_positions (look : List UInt8 → Bool) (m : Mode) (bs : List UInt8) :
    (m.positions look bs).Pairwise (· < ·) :=
  List.pairwise_lt_range.filter _

/-- **A quoted token holds nothing that is looked for**, unless a quote is. -/
theorem positions_inside {q : Quote} {bs : List UInt8} {n : Nat}
    (hlook : ∀ b bs, Quote.ofByte? b = some q → look (b :: bs) = false)
    (h : q.tailLength? bs = some n) :
    (inside q).positions look bs = (positions look .outside (bs.drop n)).map (· + n) := by
  fun_induction Quote.tailLength? q bs generalizing n with
  | case1 => cases h
  | case2 => cases h
  | case3 b hesc c rest ih =>
    obtain ⟨m, hm, rfl⟩ := Option.map_eq_some_iff.mp h
    rw [positions_cons_of_ne_outside (by simp), next_inside_escape hesc,
      positions_cons_of_ne_outside (by simp), next, ih hm]
    simp [Function.comp_def, Nat.add_assoc]
  | case4 b hesc hb =>
    cases h
    rw [positions_cons_of_ne_outside (by simp), next_inside_close hesc hb]
    rfl
  | case5 b hesc hb c rest hc ih =>
    -- outside for a moment, in front of the second of two quotes
    obtain ⟨m, hm, rfl⟩ := Option.map_eq_some_iff.mp h
    obtain rfl : c = q.byte := by simpa using hc
    rw [positions_cons_of_ne_outside (by simp), next_inside_close hesc hb,
      positions_cons_of_look_eq_false _ (hlook _ rest q.ofByte?_byte),
      next_outside_of_quote q.ofByte?_byte, ih hm]
    simp [Function.comp_def, Nat.add_assoc]
  | case6 b hesc hb c rest hc =>
    cases h
    rw [positions_cons_of_ne_outside (by simp), next_inside_close hesc hb]
    rfl
  | case7 b rest hesc hb ih =>
    obtain ⟨m, hm, rfl⟩ := Option.map_eq_some_iff.mp h
    rw [positions_cons_of_ne_outside (by simp), next_inside_of_ne hesc hb, ih hm]
    simp [Function.comp_def, Nat.add_assoc]

/-! ### Markers -/

/-- The bytes start with a marker. -/
def atMarker (bs : List UInt8) : Bool :=
  bs[0]? == some 63

/-- The markers that the reader meets are those at the positions where it meets one. -/
theorem markers_eq_length_positions (m : Mode) (bs : List UInt8) :
    m.markers bs = (m.positions atMarker bs).length := by
  induction bs generalizing m with
  | nil => rfl
  | cons b bs ih =>
    rw [markers_cons, ih, positions_cons, List.length_append, List.length_map]
    congr 1
    by_cases hm : m = .outside <;> by_cases hb : b = 63 <;> simp [hm, hb, atMarker]

theorem positions_atMarker (m : Mode) (bs : List UInt8) :
    m.positions atMarker bs =
      (List.range bs.length).filter fun p => m.after (bs.take p) = .outside ∧ bs[p]? = some 63 := by
  refine List.filter_congr fun p _ => ?_
  rw [Bool.eq_iff_iff]
  simp [atMarker]

/-! ### Placeholders -/

/-- The bytes start with a placeholder: a colon and a byte of a name. -/
def atPlaceholder (bs : List UInt8) : Bool :=
  bs[0]? == some 58 && bs[1]?.any isNameByte

theorem mem_positions_atPlaceholder {m : Mode} {bs : List UInt8} {p : Nat} :
    p ∈ m.positions atPlaceholder bs ↔ m.after (bs.take p) = .outside ∧ bs[p]? = some 58 ∧
      ∃ b, bs[p + 1]? = some b ∧ isNameByte b = true := by
  have hlt : bs[p]? = some 58 → p < bs.length := fun h => (List.getElem?_eq_some_iff.mp h).1
  simp only [positions, atPlaceholder, List.mem_filter, List.mem_range, List.getElem?_drop,
    Nat.add_zero, Bool.and_eq_true, decide_eq_true_eq, beq_iff_eq, Option.any_eq_true,
    and_iff_right_iff_imp]
  exact fun h => hlt h.2.1

theorem atPlaceholder_cons (b : UInt8) (bs : List UInt8) :
    atPlaceholder (b :: bs) = (b == 58 && !(bs.takeWhile isNameByte).isEmpty) := by
  cases bs with
  | nil => simp [atPlaceholder]
  | cons c bs => cases hc : isNameByte c <;> simp [atPlaceholder, hc]

theorem atPlaceholder_of_quote {b : UInt8} {q : Quote} (h : Quote.ofByte? b = some q)
    (bs : List UInt8) : atPlaceholder (b :: bs) = false := by
  have hb : b ≠ 58 := by
    rintro rfl
    rw [show Quote.ofByte? 58 = none from rfl] at h
    cases h
  simp [atPlaceholder, hb]

end Mode

/-- The placeholder whose colon is `p` bytes behind the first of the bytes, which is at `pos`. -/
def placeholderAt (pos : Nat) (bs : List UInt8) (p : Nat) : Placeholder :=
  let name := (bs.drop (p + 1)).takeWhile isNameByte
  ⟨Text.ofAscii name, pos + p, pos + p + 1 + name.length⟩

theorem placeholderAt_add (pos : Nat) (bs : List UInt8) (p n : Nat) :
    placeholderAt pos bs (p + n) = placeholderAt (pos + n) (bs.drop n) p := by
  have hdrop : bs.drop (p + n + 1) = (bs.drop n).drop (p + 1) := by
    rw [List.drop_drop]
    congr 1
    omega
  rw [placeholderAt, placeholderAt, hdrop]
  simp [Nat.add_comm, Nat.add_left_comm]

theorem bytes_name_placeholderAt (pos : Nat) (bs : List UInt8) (p : Nat) :
    Text.bytes (placeholderAt pos bs p).name = (bs.drop (p + 1)).takeWhile isNameByte := by
  refine Text.bytes_ofAscii fun b hb => lt_of_isNameByte ?_
  exact List.all_eq_true.mp List.all_takeWhile b hb

/-- Jumping over the bytes of a name comes to the same as reading them. -/
theorem placeholdersFrom_name {name : List UInt8} (h : ∀ b ∈ name, isNameByte b = true) (pos : Nat)
    (bs : List UInt8) :
    placeholdersFrom name.length pos (name ++ bs) = placeholdersFrom 0 pos (name ++ bs) := by
  induction name generalizing pos with
  | nil => rfl
  | cons b name ih =>
    obtain ⟨hb, hname⟩ := List.forall_mem_cons.mp h
    have hcolon : (b == 58) = false := by
      rw [beq_eq_false_iff_ne]
      rintro rfl
      exact absurd hb (by decide)
    rw [List.cons_append, List.length_cons, placeholdersFrom, placeholdersFrom, ih hname]
    simp [ofByte?_of_isNameByte hb, hcolon]

/-- Outside quotes the scan goes on byte by byte, with a placeholder wherever one starts. -/
theorem placeholdersFrom_cons {b : UInt8} (h : Quote.ofByte? b = none) (pos : Nat)
    (bs : List UInt8) :
    placeholdersFrom 0 pos (b :: bs) = (placeholdersFrom 0 (pos + 1) bs).map fun ps =>
      (if Mode.atPlaceholder (b :: bs) then [placeholderAt pos (b :: bs) 0] else []) ++ ps := by
  have hname : ∀ c ∈ bs.takeWhile isNameByte, isNameByte c = true :=
    List.all_eq_true.mp List.all_takeWhile
  have hjump := placeholdersFrom_name hname (pos + 1) (bs.dropWhile isNameByte)
  rw [List.takeWhile_append_dropWhile] at hjump
  rw [placeholdersFrom, Mode.atPlaceholder_cons]
  simp only [h, hjump, placeholderAt, List.drop_succ_cons, List.drop_zero, Nat.add_zero]
  cases placeholdersFrom 0 (pos + 1) bs <;> split <;> rfl

/-- **The placeholders of a text are found exactly if it is closed**, each where the reader meets
it. -/
theorem placeholdersFrom_eq_ok_iff {pos : Nat} {bs : List UInt8} {ps : List Placeholder} :
    placeholdersFrom 0 pos bs = .ok ps ↔ Mode.after .outside bs = .outside ∧
      (Mode.positions Mode.atPlaceholder .outside bs).map (placeholderAt pos bs) = ps := by
  induction bs using scan_induction generalizing pos ps with
  | nil => simp [placeholdersFrom]
  | unclosed q b bs hb hq =>
    rw [placeholdersFrom]
    simp only [hb, hq]
    constructor
    · rintro ⟨⟩
    · exact fun h => absurd h.1 (Mode.after_unclosed hb hq)
  | quoted q b bs n hb hq ih =>
    have hshift : (placeholderAt pos (b :: bs) ∘ (· + 1)) ∘ (· + n) =
        placeholderAt (pos + 1 + n) (bs.drop n) := by
      funext p
      rw [Function.comp_apply, Function.comp_apply, placeholderAt_add, placeholderAt_add]
      rfl
    rw [placeholdersFrom]
    simp only [hb, hq]
    rw [placeholdersFrom_skip, ih, (Mode.after_quote hb hq).1,
      Mode.positions_cons_of_look_eq_false _ (Mode.atPlaceholder_of_quote hb bs),
      Mode.next_outside_of_quote hb,
      Mode.positions_inside (fun _ bs hc => Mode.atPlaceholder_of_quote hc bs) hq, List.map_map,
      List.map_map, hshift]
  | other b bs hb ih =>
    have hshift : placeholderAt pos (b :: bs) ∘ (· + 1) = placeholderAt (pos + 1) bs := by
      funext p
      exact placeholderAt_add pos (b :: bs) p 1
    rw [placeholdersFrom_cons hb, Outcome.map_eq_ok_iff, Mode.after_cons,
      Mode.next_outside_of_ne hb, Mode.positions_cons, Mode.next_outside_of_ne hb, List.map_append,
      List.map_map, hshift]
    simp only [ih, and_assoc, exists_and_left, exists_eq_left', decide_true, Bool.true_and]
    split <;> simp_all

/-! ### Both scans -/

theorem exists_template_iff {context text : String} :
    (∃ t, Template.ofText context text = .ok t) ↔ Closed text := by
  constructor
  · rintro ⟨t, ht⟩
    exact closed_of_placeholders? (Template.placeholders_of_ofText ht)
  · intro h
    have hscan : placeholders? text = .ok _ := placeholdersFrom_eq_ok_iff.mpr ⟨h, rfl⟩
    exact ⟨⟨text, _, hscan⟩, Template.ofText_eq_ok_iff.mpr rfl⟩

theorem exists_countMarkers?_iff {text : String} :
    (∃ n, countMarkers? text = .ok n) ↔ Closed text := by
  constructor
  · rintro ⟨n, hn⟩
    exact (countMarkers?_eq_ok_iff.mp hn).1
  · intro h
    exact ⟨_, countMarkers?_eq_ok_iff.mpr ⟨h, rfl⟩⟩

/-- **Both scans follow the reader.** They succeed on the texts that the reader leaves outside
quotes, and on no others. The placeholders are then found in order, at the colons that the reader
gets to outside quotes with a byte of a name behind them, and each has the longest name that stands
there. The markers are the `?` that the reader gets to outside quotes. -/
theorem scans_follow_reader (context text : String) :
    ((∃ t, Template.ofText context text = .ok t) ↔
      Mode.after .outside (Text.bytes text) = .outside) ∧
    (∀ t, Template.ofText context text = .ok t →
      (t.placeholders.map Placeholder.start).Pairwise (· < ·) ∧
      (∀ p, p ∈ t.placeholders.map Placeholder.start ↔
        Mode.after .outside ((Text.bytes text).take p) = .outside ∧
        (Text.bytes text)[p]? = some 58 ∧
        ∃ b, (Text.bytes text)[p + 1]? = some b ∧ isNameByte b = true) ∧
      ∀ m ∈ t.placeholders,
        Text.bytes m.name = ((Text.bytes text).drop (m.start + 1)).takeWhile isNameByte ∧
        m.stop = m.start + 1 + (Text.bytes m.name).length) ∧
    ((∃ n, countMarkers? text = .ok n) ↔ Mode.after .outside (Text.bytes text) = .outside) ∧
    ∀ n, countMarkers? text = .ok n →
      n = ((List.range (Text.bytes text).length).filter fun p =>
        Mode.after .outside ((Text.bytes text).take p) = .outside ∧
        (Text.bytes text)[p]? = some 63).length := by
  refine ⟨exists_template_iff, fun t ht => ?_, exists_countMarkers?_iff, fun n hn => ?_⟩
  · have hscan : placeholdersFrom 0 0 (Text.bytes text) = .ok t.placeholders :=
      Template.placeholders_of_ofText ht
    obtain ⟨-, hps⟩ := placeholdersFrom_eq_ok_iff.mp hscan
    have hstart : Placeholder.start ∘ placeholderAt 0 (Text.bytes text) = id := by
      funext p
      exact Nat.zero_add p
    rw [← hps, List.map_map, hstart, List.map_id]
    refine ⟨Mode.pairwise_positions _ _ _, fun p => Mode.mem_positions_atPlaceholder, ?_⟩
    intro m hm
    obtain ⟨p, -, rfl⟩ := List.mem_map.mp hm
    have hname := bytes_name_placeholderAt 0 (Text.bytes text) p
    rw [hname]
    simp [placeholderAt]
  · obtain ⟨-, rfl⟩ := countMarkers?_eq_ok_iff.mp hn
    rw [markers, Mode.markers_eq_length_positions, Mode.positions_atMarker]

/-- Strings that hold a doubled quote, a guarded quote and colons, with a placeholder right behind
them, and an identifier that ends in a backslash. -/
theorem scans_follow_reader_of_quotes :
    ∃ text, text = "'a'':b'\"\\\":c\":y?`\\`:z" ∧
      (∀ p, p ∈ [13, 19] ↔ Mode.after .outside ((Text.bytes text).take p) = .outside ∧
        (Text.bytes text)[p]? = some 58 ∧
        ∃ b, (Text.bytes text)[p + 1]? = some b ∧ isNameByte b = true) ∧
      1 = ((List.range (Text.bytes text).length).filter fun p =>
        Mode.after .outside ((Text.bytes text).take p) = .outside ∧
        (Text.bytes text)[p]? = some 63).length := by
  refine ⟨_, rfl, ?_⟩
  have hscan : placeholders? "'a'':b'\"\\\":c\":y?`\\`:z" =
      .ok [⟨"y", 13, 15⟩, ⟨"z", 19, 21⟩] := by decide +kernel
  have hcount : countMarkers? "'a'':b'\"\\\":c\":y?`\\`:z" = .ok 1 := by decide +kernel
  obtain ⟨-, placeholders, -, markers⟩ :=
    scans_follow_reader "TableSelect.where" "'a'':b'\"\\\":c\":y?`\\`:z"
  have hfound := placeholders ⟨_, _, hscan⟩ (Template.ofText_eq_ok_iff.mpr rfl)
  exact ⟨hfound.2.1, markers 1 hcount⟩

end TableSql.Sql
