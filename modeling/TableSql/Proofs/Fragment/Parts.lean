import TableSql.Proofs.Fragment.Fill
import TableSql.Statement.Clause

/-!
# Parts of statements

Before anything is rendered, a statement is a list of parts: texts that are taken as they are,
conditions, and column values. What is written for a part can be read off the part and the bound
values. A literal becomes a marker and brings its value along. An expression is written out, and
brings along no values but those of its placeholders.

## Main definitions

* `Part` — a part of a statement
* `Part.Writes`, `Part.Composes` — what is written for a part, and for parts in a row
* `Part.ofCondition`, `Part.separated` — parts with a keyword in front, or with commas between them

## Main results

* `Part.Composes.isExpression` — no expression is among the values of what is written
* `Part.writes_of_render`, `Part.composes_of_condition` — a rendering writes what it should
* `Part.Composes.join` — written parts with commas between them
-/

namespace TableSql

/-- A part of a statement, before anything is written for it. -/
inductive Part where
  /-- Text that is taken as it is. -/
  | text (sql : String)
  | condition (t : Template)
  /-- What is assigned to a column, or stands in a cell. -/
  | value (v : Value)

namespace Part

/-- The condition of a part that is one. -/
def condition? : Part → Option Template
  | .condition t => some t
  | _ => none

/-- The column value of a part that is one. -/
def value? : Part → Option Value
  | .value v => some v
  | _ => none

@[simp] theorem value?_text (sql : String) : (text sql).value? = none := rfl

@[simp] theorem value?_value (v : Value) : (value v).value? = some v := rfl

@[simp] theorem condition?_text (sql : String) : (text sql).condition? = none := rfl

@[simp] theorem condition?_value (v : Value) : (value v).condition? = none := rfl

/-- A condition behind its keyword. -/
def ofCondition (keyword : String) : Option Template → List Part
  | none => []
  | some t => [.text keyword, .condition t]

/-- Lists of parts with commas between them. -/
def separated (parts : List (List Part)) : List Part :=
  List.intercalate [.text ", "] parts

/-- **What is written for a part.** The placeholders of a condition, and of an expression in a
column, are filled in with what is bound. -/
inductive Writes (b : Bindings) : Part → Fragment → Prop where
  | text (sql : String) : Writes b (.text sql) (.ofText sql)
  | condition (t : Template) : Writes b (.condition t) (t.fill b.written)
  /-- A marker and its value. -/
  | literal {v : Value} : v.isExpression = false → Writes b (.value v) (.marker v)
  /-- An expression in parentheses. -/
  | expression (t : Template) :
    Writes b (.value (.expression t.text)) (t.fill b.written).parenthesize

/-- What is written for parts in a row. -/
inductive Composes (b : Bindings) : List Part → Fragment → Prop where
  | nil : Composes b [] .empty
  | cons {p : Part} {ps : List Part} {f g : Fragment} :
    p.Writes b f → Composes b ps g → Composes b (p :: ps) (f ++ g)

variable {b : Bindings} {context : String}

/-! ### Values -/

theorem isExpression_of_fill {t : Template} {v : Value} (h : v ∈ (t.fill b.written).params) :
    v.isExpression = false := by
  rw [Template.params_fill] at h
  obtain ⟨name, -, hv⟩ := List.mem_flatMap.mp h
  exact Bindings.isExpression_of_written hv

theorem Writes.isExpression {p : Part} {f : Fragment} (h : p.Writes b f) {v : Value}
    (hv : v ∈ f.params) : v.isExpression = false := by
  cases h with
  | text sql => cases hv
  | condition t => exact isExpression_of_fill hv
  | literal hliteral =>
    rw [List.mem_singleton.mp hv]
    exact hliteral
  | expression t =>
    rw [Fragment.params_parenthesize] at hv
    exact isExpression_of_fill hv

/-- **No expression is among the values of what is written.** -/
theorem Composes.isExpression {ps : List Part} {f : Fragment} (h : Composes b ps f) :
    ∀ v ∈ f.params, v.isExpression = false := by
  induction h with
  | nil => exact fun _ hv => nomatch hv
  | cons hp _ ih =>
    rw [Fragment.params_append, List.forall_mem_append]
    exact ⟨fun _ => hp.isExpression, ih⟩

/-! ### Parts in a row -/

theorem Composes.single {p : Part} {f : Fragment} (h : p.Writes b f) : Composes b [p] f := by
  have hone := Composes.cons h .nil
  rwa [Fragment.append_empty] at hone

theorem Composes.append {ps qs : List Part} {f g : Fragment} (hf : Composes b ps f)
    (hg : Composes b qs g) : Composes b (ps ++ qs) (f ++ g) := by
  induction hf with
  | nil =>
    rw [Fragment.empty_append]
    exact hg
  | cons hp _ ih =>
    rw [Fragment.append_assoc]
    exact .cons hp ih

/-- Text that brings no values is a part by itself. -/
theorem composes_text {f : Fragment} (h : f.params = []) : Composes b [.text f.sql] f := by
  have hf : f = .ofText f.sql := Fragment.ext rfl h
  have hone := Composes.single (Writes.text (b := b) f.sql)
  rwa [← hf] at hone

theorem Composes.parenthesize {ps : List Part} {f : Fragment} (h : Composes b ps f) :
    Composes b ([.text "("] ++ ps ++ [.text ")"]) f.parenthesize :=
  ((Composes.single (.text "(")).append h).append (.single (.text ")"))

/-- Written parts with commas between them. -/
theorem Composes.join {α : Type} {parts : α → List Part} {xs : List α} {fs : List Fragment}
    (h : List.Forall₂ (fun x f => Composes b (parts x) f) xs fs) :
    Composes b (separated (xs.map parts)) (Fragment.join ", " fs) := by
  induction h with
  | nil => exact .nil
  | @cons x f xs fs hf hrest ih =>
    cases hrest with
    | nil => rwa [List.map_singleton, separated, List.intercalate_singleton]
    | @cons y g ys gs _ _ =>
      rw [List.map_cons, List.map_cons, separated, List.intercalate_cons_cons,
        Fragment.join_cons_cons]
      exact (hf.append (.single (.text ", "))).append ih

/-- What is selected from parts with commas between them. -/
theorem filterMap_separated {α β : Type} {parts : α → List Part} {select : Part → Option β}
    {selected : α → List β} (hcomma : select (.text ", ") = none)
    (h : ∀ x, (parts x).filterMap select = selected x) (xs : List α) :
    (separated (xs.map parts)).filterMap select = xs.flatMap selected := by
  induction xs with
  | nil => rfl
  | cons x rest ih =>
    rw [List.flatMap_cons, ← h, ← ih]
    cases rest with
    | nil =>
      rw [List.map_singleton, separated, List.intercalate_singleton]
      exact (List.append_nil _).symm
    | cons y rest =>
      rw [List.map_cons, List.map_cons, separated, List.intercalate_cons_cons,
        List.filterMap_append, List.filterMap_append, List.filterMap_cons_none hcomma,
        List.filterMap_nil, List.append_nil]
      rfl

/-! ### Renderings -/

/-- A rendered column value is written as it should. -/
theorem writes_of_render {v : Value} {f : Fragment} (h : v.render context b = .ok f) :
    (Part.value v).Writes b f := by
  cases hsql : v.sql? with
  | none =>
    rw [Value.render_of_literal hsql] at h
    cases h
    exact .literal (Value.sql?_eq_none_iff.mp hsql)
  | some sql =>
    cases Value.sql?_eq_some_iff.mp hsql
    obtain ⟨t, g, rfl, hg, rfl⟩ := Value.render_eq_ok h
    rw [Template.fill_of_render hg]
    exact .expression t

theorem composes_of_condition {keyword : String} {t : Option Template} {f : Fragment}
    (h : Clause.condition keyword context b t = .ok f) :
    Composes b (ofCondition keyword t) f := by
  cases t with
  | none =>
    cases h
    exact .nil
  | some t =>
    rw [Clause.condition] at h
    split at h
    next g hg =>
      cases h
      rw [Template.fill_of_render hg]
      exact .cons (.text keyword) (.single (.condition t))
    next => cases h

@[simp] theorem filterMap_condition?_ofCondition (keyword : String) (t : Option Template) :
    (ofCondition keyword t).filterMap condition? = t.toList := by
  cases t <;> rfl

@[simp] theorem filterMap_value?_ofCondition (keyword : String) (t : Option Template) :
    (ofCondition keyword t).filterMap value? = [] := by
  cases t <;> rfl

end Part

end TableSql
