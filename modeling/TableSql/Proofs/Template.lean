import TableSql.Proofs.Sql.Cut
import TableSql.Template

/-!
# Templates of texts

A text determines its template, so scanning a stored template's text once more gives the template
that is stored. All that can go wrong with a text is a quote that is left open.

## Main definitions

* `Sql.Scans` — texts that leave no quote open
* `Sql.names` — the names of the placeholders in a text

## Main results

* `Sql.Scans.exists_template` — a text that scans is that of a template
* `Template.ofText_eq_ok_iff` — the template of a text is the one with that text
* `Template.ofText_eq_error_iff` — the error of a text whose scan stops at a quote
* `Template.ofText_text` — a stored template's text scans to it again
-/

namespace TableSql

/-- The text leaves no quote open. -/
def Sql.Scans (text : String) : Prop :=
  ∃ ps, Sql.placeholders? text = .ok ps

/-- The names of the placeholders in a text, repeats included; none if it does not scan. -/
def Sql.names (text : String) : List String :=
  match Sql.placeholders? text with
  | .ok ps => ps.map Sql.Placeholder.name
  | .error _ => []

namespace Template

theorem scans_text (t : Template) : Sql.Scans t.text :=
  ⟨t.placeholders, t.scanned⟩

theorem names_text (t : Template) : Sql.names t.text = t.names := by
  rw [Sql.names, t.scanned]
  rfl

theorem ofText_eq_ok_iff {context text : String} {t : Template} :
    ofText context text = .ok t ↔ t.text = text := by
  rw [ofText]
  cases hscan : scan text with
  | ok u =>
    have hu : u.text = text := text_of_scan hscan
    constructor
    · intro h
      rw [← Except.ok.inj h, hu]
    · intro h
      rw [ext_text (h.trans hu.symm)]
  | error e =>
    constructor
    · intro h
      cases h
    · rintro rfl
      rw [scan_text] at hscan
      cases hscan

theorem scan_eq_error_iff {text : String} {u : Sql.Unterminated} :
    scan text = .error u ↔ Sql.placeholders? text = .error u := by
  rw [scan]
  split
  next ps hps => simp [hps]
  next v hv => simp [hv]

theorem ofText_eq_error_iff {context text : String} {e : Error} :
    ofText context text = .error e ↔
      ∃ u, Sql.placeholders? text = .error u ∧
        e = .invalidArgument context (.ofUnterminated u) := by
  rw [ofText]
  cases hscan : scan text with
  | ok t =>
    have ht : Sql.placeholders? text = .ok t.placeholders := by
      rw [← text_of_scan hscan]
      exact t.scanned
    simp [ht]
  | error u =>
    rw [scan_eq_error_iff] at hscan
    simp [hscan, eq_comm]

/-- The stored text of a template can be scanned again, and gives it back. -/
theorem ofText_text (context : String) (t : Template) : ofText context t.text = .ok t :=
  ofText_eq_ok_iff.mpr rfl

/-- The placeholders of a text's template are those of the text. -/
theorem placeholders_of_ofText {context text : String} {t : Template}
    (h : ofText context text = .ok t) : Sql.placeholders? text = .ok t.placeholders := by
  rw [← ofText_eq_ok_iff.mp h]
  exact t.scanned

end Template

/-- A text that scans is that of a template. -/
theorem Sql.Scans.exists_template {text : String} (h : Sql.Scans text) :
    ∃ t : Template, t.text = text := by
  obtain ⟨ps, hps⟩ := h
  exact ⟨⟨text, ps, hps⟩, rfl⟩

end TableSql
