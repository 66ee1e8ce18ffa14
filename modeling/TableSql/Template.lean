import TableSql.Error

/-!
# Templates

Expression text with the places of its named placeholders. A template comes with the scan that
found them, so its text never holds a quote that is left open.

## Implementation notes

The proof of the scan is a field, not a hypothesis of the lemmas about templates. It makes the
placeholders a function of the text, so two templates of one text are equal wherever they came from
(`Template.ext_text`). Column values keep an expression as bare text and scan it whenever it is
used; `Template.scan_text` is the reason why such a scan does not fail where the first one did not.

## Main definitions

* `Template` — the text and its placeholders
* `Template.scan`, `Template.ofText` — the template of a text
* `Template.names` — the names of the placeholders, repeats included
-/

namespace TableSql

/-- Expression text and the placeholders in it, from left to right. -/
structure Template where
  text : String
  placeholders : List Sql.Placeholder
  scanned : Sql.placeholders? text = .ok placeholders
deriving DecidableEq

namespace Template

/-- The template of a text, or the quote that is left open. -/
def scan (text : String) : Except Sql.Unterminated Template :=
  match h : Sql.placeholders? text with
  | .ok placeholders => .ok ⟨text, placeholders, h⟩
  | .error u => .error u

/-- The template of an expression that a call was given. -/
def ofText (context text : String) : Except Error Template :=
  match scan text with
  | .ok t => .ok t
  | .error u => .error (.invalidArgument context (.ofUnterminated u))

/-- The names of the placeholders in order of appearance. -/
def names (t : Template) : List String :=
  t.placeholders.map Sql.Placeholder.name

/-- A text determines its template. -/
theorem ext_text {t u : Template} (h : t.text = u.text) : t = u := by
  obtain ⟨text, ps, ht⟩ := t
  obtain ⟨text', qs, hu⟩ := u
  cases h
  cases ht.symm.trans hu
  rfl

/-- The template of a text is made of that text. -/
theorem text_of_scan {text : String} {t : Template} (h : scan text = .ok t) : t.text = text := by
  unfold scan at h
  split at h <;> cases h
  rfl

/-- The text of a template is scanned to that template again. -/
@[simp] theorem scan_text (t : Template) : scan t.text = .ok t := by
  unfold scan
  split
  next ps h => exact congrArg _ (ext_text rfl)
  next u h => cases h.symm.trans t.scanned

end Template

end TableSql
