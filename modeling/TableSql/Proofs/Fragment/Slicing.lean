import TableSql.Proofs.Fragment.Fill
import TableSql.Proofs.Sql.Loops

/-!
# Rendering slices between characters

A rendering takes the pieces of a text between its placeholders. It goes from the end of one
placeholder to the start of the next, and both are next to ASCII bytes, so no slice fails, whatever
is bound and wherever the rendering stops.

## Main definitions

* `Sql.Placeholder.Spans` — a colon and a name in a text
* `Template.render?` — a rendering whose slices may fail

## Main results

* `Sql.spans_of_placeholders?` — the placeholders of a text are such spans, one behind another
* `Template.render?_eq` — no slice of a rendering fails
* `Sql.scans_slice_between_characters` — nor does one of a scan
-/

namespace TableSql

/-! ### Spans -/

/-- The placeholder is a colon and a name of letters, digits and underscores, in a text that may be
cut before and behind it. -/
structure Sql.Placeholder.Spans (text : String) (p : Placeholder) : Prop where
  start_lt_stop : p.start < p.stop
  stop_le : p.stop ≤ Text.byteLength text
  isBoundary_start : Text.IsBoundary text p.start
  isBoundary_stop : Text.IsBoundary text p.stop
  slice?_eq : Text.slice? text p.start p.stop = some (":" ++ p.name)
  name_ne : p.name ≠ ""
  isName : ∀ c ∈ p.name.toList, c.isAlphanum = true ∨ c = '_'

namespace Sql

theorem isAlphanum_of_isNameByte {b : UInt8} (h : isNameByte b = true) :
    (Char.ofNat b.toNat).isAlphanum = true ∨ Char.ofNat b.toNat = '_' := by
  have hall : ∀ n : Fin 128, isNameByte (UInt8.ofNat n) = true →
      (Char.ofNat n).isAlphanum = true ∨ Char.ofNat n = '_' := by decide +kernel
  have hb := hall ⟨b.toNat, lt_of_isNameByte h⟩
  rw [UInt8.ofNat_toNat] at hb
  exact hb h

theorem spans_of_ahead {text : String} {start : Nat} {name : List UInt8} {ns es : List Char}
    (hahead : Text.Ahead text start (ns ++ es)) (hns : Text.encode ns = 58 :: name)
    (hne : name ≠ []) (hname : ∀ b ∈ name, isNameByte b = true) :
    Placeholder.Spans text ⟨Text.ofAscii name, start, start + 1 + name.length⟩ := by
  have hstop : start + 1 + name.length = start + (Text.encode ns).length := by
    rw [hns, List.length_cons]
    omega
  have hbehind := hahead.behind
  have hslice := hahead.slice?_eq
  rw [← hstop] at hbehind hslice
  constructor
  · exact Nat.lt_of_lt_of_le (Nat.lt_succ_self _) (Nat.le_add_right _ _)
  · rw [hbehind.byteLength_eq]
    exact Nat.le_add_right _ _
  · exact hahead.isBoundary
  · exact hbehind.isBoundary
  · rw [← Template.ofList_placeholder hns hname]
    exact hslice
  · intro hempty
    have hbytes := Text.bytes_ofAscii fun b hb => lt_of_isNameByte (hname b hb)
    have hempty : Text.ofAscii name = "" := hempty
    rw [hempty] at hbytes
    exact hne hbytes.symm
  · intro c hc
    have hc : c ∈ (Text.ofAscii name).toList := hc
    rw [Text.ofAscii, String.toList_ofList] at hc
    obtain ⟨b, hb, rfl⟩ := List.mem_map.mp hc
    exact isAlphanum_of_isNameByte (hname b hb)

theorem spans_of_cut {text : String} {pos : Nat} {bs : List UInt8} {ps : List Placeholder}
    (hcut : Cut pos bs ps) {cs : List Char} (hahead : Text.Ahead text pos cs)
    (hbs : Text.encode cs = bs) :
    (∀ p ∈ ps, pos ≤ p.start ∧ p.Spans text) ∧ ps.Pairwise fun p q => p.stop ≤ q.start := by
  induction hcut generalizing cs with
  | rest _ => exact ⟨nofun, .nil⟩
  | @placeholder pos piece name bs ps _ hne hname _ ih =>
    obtain ⟨ds, ns, es, rfl, rfl, hns, rfl, -, hbehind⟩ :=
      exists_ahead_of_placeholder hahead hbs hname
    obtain ⟨hspans, hpairwise⟩ := ih hbehind rfl
    refine ⟨List.forall_mem_cons.mpr ⟨⟨Nat.le_add_right _ _, ?_⟩, fun p hp => ⟨?_, ?_⟩⟩,
      List.pairwise_cons.mpr ⟨fun p hp => (hspans p hp).1, hpairwise⟩⟩
    · exact spans_of_ahead hahead.behind hns hne hname
    · have := (hspans p hp).1
      omega
    · exact (hspans p hp).2

/-- **The placeholders of a text are spans of it, one behind another.** -/
theorem spans_of_placeholders? {text : String} {ps : List Placeholder}
    (h : placeholders? text = .ok ps) :
    (∀ p ∈ ps, p.Spans text) ∧ ps.Pairwise fun p q => p.stop ≤ q.start := by
  obtain ⟨hspans, hpairwise⟩ := spans_of_cut (cut_of_placeholders? h) (Text.ahead_zero text) rfl
  exact ⟨fun p hp => (hspans p hp).2, hpairwise⟩

end Sql

/-! ### Renderings -/

namespace Template

/-- The text from byte `cursor` on with these placeholders replaced, if it has the slices that are
taken. -/
def renderFrom? (context : String) (b : Bindings) (text : String) :
    (cursor : Nat) → List Sql.Placeholder → Option (Except Error Fragment)
  | cursor, [] =>
    (Text.slice? text cursor (Text.byteLength text)).map fun rest => .ok (.ofText rest)
  | cursor, p :: rest =>
    (Text.slice? text cursor p.start).bind fun before =>
      match b.render context p.name with
      | .error e => some (.error e)
      | .ok value =>
        (renderFrom? context b text p.stop rest).map fun others =>
          others.map fun f => .ofText before ++ value ++ f

/-- The template with its placeholders replaced, if its text has the slices that are taken. -/
def render? (context : String) (b : Bindings) (t : Template) : Option (Except Error Fragment) :=
  renderFrom? context b t.text 0 t.placeholders

theorem renderFrom?_of_cut {context : String} {b : Bindings} {text : String} {pos : Nat}
    {bs : List UInt8} {ps : List Sql.Placeholder} (hcut : Sql.Cut pos bs ps) {cs : List Char}
    (hahead : Text.Ahead text pos cs) (hbs : Text.encode cs = bs) :
    renderFrom? context b text pos ps = some (renderFrom context b text pos ps) := by
  induction hcut generalizing cs with
  | rest _ => rw [renderFrom?, renderFrom, hahead.slice?_end, hahead.sliceFrom_eq, Option.map_some]
  | @placeholder pos piece name bs ps _ _ hname _ ih =>
    obtain ⟨ds, ns, es, rfl, rfl, -, rfl, hslice, hbehind⟩ :=
      Sql.exists_ahead_of_placeholder hahead hbs hname
    rw [renderFrom?, renderFrom, ih hbehind rfl, hahead.slice?_eq, hslice, Option.bind_some]
    cases b.render context (Text.ofAscii name) with
    | error e => rfl
    | ok value =>
      cases renderFrom context b text _ ps <;> rfl

/-- **No slice of a rendering fails.** -/
theorem render?_eq (context : String) (b : Bindings) (t : Template) :
    t.render? context b = some (t.render context b) :=
  renderFrom?_of_cut (Sql.cut_of_placeholders? t.scanned) (Text.ahead_zero t.text) rfl

end Template

/-! ### Scans and renderings -/

/-- **Scans and renderings end, and slice no character.** The offset that a scan moves about may
get into a character all the same, and behind the end of the text. -/
theorem Sql.scans_slice_between_characters :
    (∀ text : String,
      Loop.Ends (Loop.findStep text) (.outside 0 []) (2 * Text.byteLength text + 2)
        (placeholders? text) ∧
      Loop.Ends (Loop.countStep text) (.outside 0 0) (2 * Text.byteLength text + 2)
        (countMarkers? text) ∧
      ∀ ps, placeholders? text = .ok ps →
        (∀ p ∈ ps, p.Spans text) ∧ ps.Pairwise fun p q => p.stop ≤ q.start) ∧
    (∀ (context : String) (b : Bindings) (t : Template),
      t.render? context b = some (t.render context b)) ∧
    (∃ text k q start pos, (Loop.findStep text)^[k] (.outside 0 []) = .inside q start pos [] ∧
      pos < Text.byteLength text ∧ ¬ Text.IsBoundary text pos) ∧
    ∃ text k q start pos, (Loop.findStep text)^[k] (.outside 0 []) = .inside q start pos [] ∧
      Text.byteLength text < pos := by
  refine ⟨fun text => ⟨Loop.ends_findStep text, Loop.ends_countStep text, fun ps =>
    spans_of_placeholders?⟩, Template.render?_eq, ?_, ?_⟩
  · exact ⟨"'\\é'", 2, .single, 0, 3, rfl, by decide +kernel, by decide +kernel⟩
  · exact ⟨"'\\", 2, .single, 0, 3, rfl, by decide +kernel⟩

/-- A placeholder between characters of two bytes, and one such character behind a backslash. -/
theorem Sql.scans_slice_between_characters_of_escape :
    ∃ text ps, text = "é=:a_1é'\\é'" ∧ placeholders? text = .ok ps ∧
      (Loop.findStep text)^[2 * Text.byteLength text + 2] (.outside 0 []) = .ended (.ok ps) ∧
      ps = [⟨"a_1", 3, 7⟩] ∧ Text.slice? text 3 7 = some ":a_1" ∧ ¬ Text.IsBoundary text 12 := by
  have hscan : placeholders? "é=:a_1é'\\é'" = .ok [⟨"a_1", 3, 7⟩] := by decide +kernel
  obtain ⟨hends, -, hspans⟩ := scans_slice_between_characters.1 "é=:a_1é'\\é'"
  refine ⟨_, _, rfl, hscan, ?_, rfl, ?_, by decide +kernel⟩
  · rw [← hscan]
    exact hends.iterate_eq
  · exact ((hspans _ hscan).1 _ (List.mem_singleton_self _)).slice?_eq

end TableSql
