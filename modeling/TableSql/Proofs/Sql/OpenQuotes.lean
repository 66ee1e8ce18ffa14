import TableSql.Proofs.Sql.Positions
import TableSql.Statement.Raw

/-!
# Quotes left open

An expression is scanned for its placeholders and raw SQL for its markers. The one scan jumps over
the name of a placeholder, the other takes every byte outside quotes by itself, and neither looks at
what the other looks for. Still both stop at the same quote of a text, if they stop at all: a name
holds no quote, so the bytes that are jumped over are bytes that stop nothing.

## Main definitions

* `Sql.OpenAt` — a quote is opened at an offset and never closed
* `Sql.Quote.noun` — what expressions call a text between quotes of a kind

## Main results

* `Sql.placeholders?_eq_error_iff` — both scans stop at the same quote
* `Sql.openAt_of_countMarkers?` — where they stop, a quote is left open
* `Sql.scans_report_same_quote` — what is reported of it
-/

namespace TableSql.Sql

/-! ### The quote that stops a scan -/

theorem Quote.eq_byte_of_ofByte? {b : UInt8} {q : Quote} (h : Quote.ofByte? b = some q) :
    b = q.byte := by
  rw [Quote.ofByte?] at h
  split at h
  next hb =>
    cases h
    exact hb
  next =>
    split at h
    next hb =>
      cases h
      exact hb
    next =>
      split at h
      next hb =>
        cases h
        exact hb
      next => cases h

/-- **Both scans stop at the same quote.** -/
theorem placeholdersFrom_eq_error_iff {pos : Nat} {bs : List UInt8} {u : Unterminated} :
    placeholdersFrom 0 pos bs = .error u ↔ countMarkersFrom 0 pos bs = .error u := by
  induction bs using scan_induction generalizing pos with
  | nil => exact iff_of_false nofun nofun
  | unclosed q b bs hb hq =>
    rw [placeholdersFrom, countMarkersFrom]
    simp only [hb, hq, Except.error.injEq]
  | quoted q b bs n hb hq ih =>
    simp only [placeholdersFrom, countMarkersFrom, hb, hq]
    rw [placeholdersFrom_skip, countMarkersFrom_skip]
    exact ih
  | other b bs hb ih =>
    -- what is found at this byte, if anything, is no quote
    rw [placeholdersFrom_cons hb, Outcome.map_eq_error_iff, ih, countMarkersFrom]
    simp only [hb]
    cases countMarkersFrom 0 (pos + 1) bs <;> simp

theorem placeholders?_eq_error_iff {text : String} {u : Unterminated} :
    placeholders? text = .error u ↔ countMarkers? text = .error u :=
  placeholdersFrom_eq_error_iff

/-! ### What stands before it and behind it -/

/-- With so many bytes before it a quote is opened, in what follows it finds no end, and the bytes
before it are a text that both scans get through. -/
structure OpenAt (text : String) (q : Quote) (offset : Nat) : Prop where
  quote : (Text.bytes text)[offset]? = some q.byte
  no_end : q.tailLength? ((Text.bytes text).drop (offset + 1)) = none
  before : ∃ before, Text.bytes before = (Text.bytes text).take offset ∧ Scans before ∧
    ∃ n, countMarkers? before = .ok n

/-- **Where the scans stop, a quote is left open.** -/
theorem openAt_of_countMarkers? {text : String} {u : Unterminated}
    (h : countMarkers? text = .error u) : OpenAt text u.quote u.offset := by
  obtain ⟨before, b, rest, hbytes, hoffset, hclosed, hb, hnone⟩ :=
    exists_append_of_countMarkersFrom h
  obtain rfl := Quote.eq_byte_of_ofByte? hb
  have hlength : u.offset = before.length := by rw [hoffset, Nat.zero_add]
  -- a quote is an ASCII byte, so the text may be cut in front of it
  have hascii : u.quote.byte.toNat < 128 := by cases u.quote <;> decide
  obtain ⟨cs, _, -, hcs, -⟩ := Text.encode_eq_append_cons hbytes hascii
  have hcs : Text.bytes (String.ofList cs) = before := by rw [Text.bytes_ofList, hcs]
  have hbefore : Closed (String.ofList cs) := by rw [Closed, hcs, hclosed]
  refine ⟨?_, ?_, String.ofList cs, ?_, ⟨_, placeholdersFrom_eq_ok_iff.mpr ⟨hbefore, rfl⟩⟩, _,
    countMarkers?_eq_ok_iff.mpr ⟨hbefore, rfl⟩⟩
  · rw [hbytes, hlength, List.getElem?_append_right (Nat.le_refl _), Nat.sub_self,
      List.getElem?_cons_zero]
  · rw [hbytes, hlength, List.drop_append, List.drop_eq_nil_of_le (Nat.le_succ _), List.nil_append,
      Nat.add_sub_cancel_left, List.drop_succ_cons, List.drop_zero, hnone]
  · rw [hcs, hbytes, hlength, List.take_left]

/-! ### Reports -/

/-- What is said to be left open by a quote of this kind, where the text is an expression. -/
def Quote.noun : Quote → String
  | .backtick => "identifier"
  | _ => "string"

theorem Quote.noun_eq_iff {q : Quote} : q.noun = "string" ↔ q ≠ .backtick := by
  cases q <;> decide

/-- What an error says of a quote that is left open. Positions count from one. -/
def openReport (context noun : String) (offset : Nat) : String :=
  context ++ ": " ++
    ("Unterminated quoted " ++ noun ++ " starting at position " ++ decimal (offset + 1))

/-- Expressions tell the kinds of quotes apart. -/
theorem message_ofUnterminated (context : String) (u : Unterminated) :
    (Error.invalidArgument context (.ofUnterminated u)).message =
      openReport context u.quote.noun u.offset := by
  obtain ⟨_ | _ | _, offset⟩ := u <;> rfl

/-- Raw SQL does not. -/
theorem message_unterminatedString (context : String) (offset : Nat) :
    (Error.invalidArgument context (.unterminatedString offset)).message =
      openReport context "string" offset :=
  rfl

theorem markers_eq_error_iff {text : String} {e : Error} :
    (SqlStatement.ofText text).markers = .error e ↔ ∃ u, countMarkers? text = .error u ∧
      e = .invalidArgument SqlStatement.context (.unterminatedString u.offset) := by
  rw [SqlStatement.markers, SqlStatement.ofText]
  cases countMarkers? text <;> simp [eq_comm]

/-- **Both scans report the same quote.** The scan of an expression fails exactly if the scan of raw
SQL does. They then report one position: a quote is there, it finds no end, and what stands before
it is a text that both scans get through. What they say is the same but for the word for what is
left open, and the same altogether unless the quote is a backtick. -/
theorem scans_report_same_quote (context text : String) :
    ((∃ e, Template.ofText context text = .error e) ↔
      ∃ e, (SqlStatement.ofText text).markers = .error e) ∧
    ∀ e e', Template.ofText context text = .error e →
      (SqlStatement.ofText text).markers = .error e' →
      ∃ q offset, OpenAt text q offset ∧
        e = .invalidArgument context (.ofUnterminated ⟨q, offset⟩) ∧
        e' = .invalidArgument SqlStatement.context (.unterminatedString offset) ∧
        e.message = openReport context q.noun offset ∧
        e'.message = openReport SqlStatement.context "string" offset ∧
        (q.noun = "string" ↔ q ≠ .backtick) := by
  simp only [Template.ofText_eq_error_iff, markers_eq_error_iff, placeholders?_eq_error_iff]
  constructor
  · constructor
    · rintro ⟨_, u, hu, -⟩
      exact ⟨_, u, hu, rfl⟩
    · rintro ⟨_, u, hu, -⟩
      exact ⟨_, u, hu, rfl⟩
  · rintro e e' ⟨u, hu, rfl⟩ ⟨u', hu', rfl⟩
    obtain rfl : u = u' := Except.error.inj (hu.symm.trans hu')
    exact ⟨u.quote, u.offset, openAt_of_countMarkers? hu, rfl, rfl, message_ofUnterminated _ _,
      message_unterminatedString _ _, Quote.noun_eq_iff⟩

/-- A quote behind a backslash, a placeholder, a marker and an empty string in front of a backtick
that stays open. -/
theorem scans_report_same_quote_of_backtick :
    ∃ e e', Template.ofText "TableSelect.where" "'é\\''=:a?+''`b:c" = .error e ∧
      (SqlStatement.ofText "'é\\''=:a?+''`b:c").markers = .error e' ∧
      OpenAt "'é\\''=:a?+''`b:c" .backtick 13 ∧
      e.message = "TableSelect.where: Unterminated quoted identifier starting at position 14" ∧
      e'.message = "SqlStatement.execute: Unterminated quoted string starting at position 14" := by
  have hcount : countMarkers? "'é\\''=:a?+''`b:c" = .error ⟨.backtick, 13⟩ := by decide +kernel
  have hexpression : Template.ofText "TableSelect.where" "'é\\''=:a?+''`b:c" = .error _ :=
    Template.ofText_eq_error_iff.mpr ⟨_, placeholders?_eq_error_iff.mpr hcount, rfl⟩
  have hraw : (SqlStatement.ofText "'é\\''=:a?+''`b:c").markers = .error _ :=
    markers_eq_error_iff.mpr ⟨_, hcount, rfl⟩
  obtain ⟨q, offset, hopen, he, he', hmessage, hmessage', hnoun⟩ :=
    (scans_report_same_quote _ _).2 _ _ hexpression hraw
  obtain rfl : 13 = offset := by
    cases he'
    rfl
  obtain rfl : q = .backtick := by
    cases q <;> cases he
    rfl
  refine ⟨_, _, hexpression, hraw, hopen, hmessage.trans ?_, hmessage'.trans ?_⟩
  · decide +kernel
  · decide +kernel

end TableSql.Sql
