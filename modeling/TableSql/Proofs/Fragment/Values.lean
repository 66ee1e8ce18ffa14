import TableSql.Fragment
import TableSql.Proofs.Outcome
import TableSql.Proofs.Template

/-!
# Column values

A column value is stored as it was given, and an expression among them is scanned each time its
placeholders or its text are wanted. A scan depends on the text alone, so it either fails each time
or gives the same placeholders each time.

## Main definitions

* `Value.sql?` — the text of an expression
* `Value.Scans`, `Value.names` — whether a column value can be scanned, and for which names

## Main results

* `Value.scanNames_eq_ok_iff`, `Value.scanNames_eq_error_iff` — the scan for the names
* `Value.render_of_literal`, `Value.render_template`, `Value.render_eq_ok` — what is written
-/

namespace TableSql.Value

/-- The text of an expression. -/
def sql? : Value → Option String
  | .expression sql => some sql
  | _ => none

/-- The column value is a literal, or an expression that leaves no quote open. -/
def Scans (v : Value) : Prop :=
  ∀ sql, v.sql? = some sql → Sql.Scans sql

/-- The names of the placeholders in a column value, repeats included. -/
def names (v : Value) : List String :=
  v.sql?.toList.flatMap Sql.names

variable {v : Value} {context : String} {b : Bindings}

/-- A column value is a literal, or the expression of its text. -/
theorem sql?_eq_some_iff {sql : String} : v.sql? = some sql ↔ v = .expression sql := by
  cases v <;> simp [sql?]

theorem sql?_eq_none_iff : v.sql? = none ↔ v.isExpression = false := by
  cases v <;> simp [sql?, isExpression]

theorem names_expression (sql : String) : (expression sql).names = Sql.names sql := by
  simp [names, sql?]

theorem scanNames_of_literal (h : v.sql? = none) : v.scanNames context = .ok [] := by
  cases v with
  | expression sql => cases h
  | _ => rfl

/-- A scan succeeds or fails with the text, and finds the same names each time. -/
theorem scanNames_eq_ok_iff {names : List String} :
    v.scanNames context = .ok names ↔ v.Scans ∧ names = v.names := by
  cases hsql : v.sql? with
  | none =>
    have hnames : v.names = [] := by rw [Value.names, hsql]; rfl
    have hscans : v.Scans := fun sql h => by rw [hsql] at h; cases h
    rw [scanNames_of_literal hsql, hnames, Except.ok.injEq, eq_comm]
    exact (and_iff_right hscans).symm
  | some sql =>
    cases sql?_eq_some_iff.mp hsql
    rw [names_expression, scanNames]
    constructor
    · intro h
      split at h
      next t ht =>
        cases h
        cases Template.ofText_eq_ok_iff.mp ht
        refine ⟨fun text htext => ?_, t.names_text.symm⟩
        cases htext
        exact t.scans_text
      next => cases h
    · rintro ⟨hscans, rfl⟩
      obtain ⟨t, rfl⟩ := (hscans sql rfl).exists_template
      rw [t.ofText_text, t.names_text]

/-- A scan fails where a quote is left open, and names it. -/
theorem scanNames_eq_error_iff {e : Error} :
    v.scanNames context = .error e ↔ ∃ sql u, v = .expression sql ∧
      Sql.placeholders? sql = .error u ∧ e = .invalidArgument context (.ofUnterminated u) := by
  cases v with
  | expression text =>
    have hscan : (expression text).scanNames context = .error e ↔
        Template.ofText context text = .error e := by
      rw [scanNames]
      cases Template.ofText context text <;> simp
    rw [hscan, Template.ofText_eq_error_iff]
    constructor
    · rintro ⟨u, hu⟩
      exact ⟨text, u, rfl, hu⟩
    · rintro ⟨sql, u, hsql, hu⟩
      cases hsql
      exact ⟨u, hu⟩
  | _ => exact iff_of_false nofun fun ⟨_, _, hsql, _⟩ => nomatch hsql

theorem render_of_literal (h : v.sql? = none) : v.render context b = .ok (.marker v) := by
  cases v with
  | expression sql => cases h
  | _ => rfl

theorem render_template (context : String) (b : Bindings) (t : Template) :
    (expression t.text).render context b =
      (t.render context b >>= fun f => .ok f.parenthesize) := by
  rw [render, t.ofText_text]
  rfl

/-- What is written for an expression is that of its template, in parentheses. -/
theorem render_eq_ok {sql : String} {f : Fragment}
    (h : (expression sql).render context b = .ok f) :
    ∃ (t : Template) (g : Fragment), t.text = sql ∧ t.render context b = .ok g ∧
      f = g.parenthesize := by
  obtain ⟨t, ht, h⟩ := Outcome.bind_eq_ok_iff.mp h
  obtain ⟨g, hg, h⟩ := Outcome.bind_eq_ok_iff.mp h
  cases h
  exact ⟨t, g, Template.ofText_eq_ok_iff.mp ht, hg, rfl⟩

end TableSql.Value
