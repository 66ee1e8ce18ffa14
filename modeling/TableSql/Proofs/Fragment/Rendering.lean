import TableSql.Proofs.Fragment.Values
import TableSql.Statement.Clause

/-!
# When a rendering fails

Compiling a statement renders its expressions one after another, and what can fail in that is the
rendering of a single placeholder. So a compilation succeeds if the placeholders of all its
expressions can be rendered, and otherwise its error is that of one of them. `Renders` says this of
a computation and a list of names, and is kept by putting computations together.

## Main definitions

* `Bindings.Renders` — a computation that fails only with the rendering of one of some names
* `Bindings.Ready` — a value that can stand for its placeholder

## Main results

* `Bindings.render_of_ready`, `Bindings.render_of_not_ready` — a bound name is rendered if its
  value is ready, and otherwise its value is refused
* `Template.renders_render`, `Value.renders_render`, `Clause.renders_condition`
* `Bindings.Renders.exists_eq_ok_iff`, `Bindings.Renders.error` — computations over bound names
* `Template.error?_render`, `Value.error?_render` — the error of a rendering is that of the first
  name that can not be rendered
* `Template.render_congr`, `Value.render_congr`, `Clause.condition_congr` — a rendering looks at the
  bound values and at nothing else of the bindings
-/

namespace TableSql

namespace Bindings

/-! ### A single placeholder -/

/-- The value can stand for its placeholder: an expression has to be closed and to hold no
placeholder of its own. -/
def Ready (b : Bindings) (name : String) : Prop :=
  ∀ sql, b.get? name = some (.expression sql) → Sql.placeholders? sql = .ok []

variable {b : Bindings} {context name : String}

theorem render_of_ready (context : String) (hbound : b.get? name ≠ none) (h : b.Ready name) :
    ∃ f, b.render context name = .ok f := by
  rw [render]
  cases hget : b.get? name with
  | none => exact absurd hget hbound
  | some v =>
    cases v with
    | expression sql =>
      have hscan := h sql hget
      cases htemplate : Template.ofText context sql with
      | ok inner =>
        have hinner := Template.placeholders_of_ofText htemplate
        rw [hscan] at hinner
        have hnone : inner.placeholders = [] := (Except.ok.inj hinner).symm
        refine ⟨(Fragment.ofText sql).parenthesize, ?_⟩
        simp only [htemplate, hnone, if_true]
      | error e =>
        obtain ⟨u, hu, -⟩ := Template.ofText_eq_error_iff.mp htemplate
        rw [hscan] at hu
        cases hu
    | _ => exact ⟨_, rfl⟩

theorem render_of_not_ready (context : String) (h : ¬ b.Ready name) :
    ∃ fault, b.render context name = .error (.invalidArgument context fault) := by
  simp only [Ready, not_forall] at h
  obtain ⟨sql, hget, hscan⟩ := h
  rw [render, hget]
  cases htemplate : Template.ofText context sql with
  | ok inner =>
    have hinner := Template.placeholders_of_ofText htemplate
    have hsome : inner.placeholders ≠ [] := fun hnil => hscan (hnil ▸ hinner)
    exact ⟨.nestedPlaceholder name, by simp only [htemplate, if_neg hsome]⟩
  | error e =>
    obtain ⟨u, -, rfl⟩ := Template.ofText_eq_error_iff.mp htemplate
    exact ⟨.ofUnterminated u, by simp only [htemplate]⟩

/-! ### Computations -/

/-- **A computation that renders names.** If it succeeds, each of them can be rendered, and its
error is that of one of them. -/
structure Renders (b : Bindings) (context : String) (names : List String) {α : Type}
    (x : Except Error α) : Prop where
  of_ok : ∀ a, x = .ok a → ∀ name ∈ names, ∃ f, b.render context name = .ok f
  of_error : ∀ e, x = .error e → ∃ name ∈ names, b.render context name = .error e

namespace Renders

variable {α β : Type} {names more : List String} {x : Except Error α}

theorem ok (a : α) : b.Renders context [] (.ok a : Except Error α) :=
  ⟨fun _ _ _ h => absurd h List.not_mem_nil, fun _ h => nomatch h⟩

theorem single (b : Bindings) (context name : String) :
    b.Renders context [name] (b.render context name) := by
  constructor
  · intro f hf other hother
    rw [List.mem_singleton.mp hother]
    exact ⟨f, hf⟩
  · intro e he
    exact ⟨name, List.mem_singleton_self name, he⟩

theorem bind {f : α → Except Error β} (hx : b.Renders context names x)
    (hf : ∀ a, b.Renders context more (f a)) : b.Renders context (names ++ more) (x >>= f) := by
  constructor
  · intro c hc
    obtain ⟨a, ha, hc⟩ := Outcome.bind_eq_ok_iff.mp hc
    exact List.forall_mem_append.mpr ⟨hx.of_ok a ha, (hf a).of_ok c hc⟩
  · intro e he
    rcases Outcome.bind_eq_error_iff.mp he with he | ⟨a, -, he⟩
    · obtain ⟨name, hname, herr⟩ := hx.of_error e he
      exact ⟨name, List.mem_append_left _ hname, herr⟩
    · obtain ⟨name, hname, herr⟩ := (hf a).of_error e he
      exact ⟨name, List.mem_append_right _ hname, herr⟩

/-- A computation whose rest can not fail. -/
theorem bind_ok (hx : b.Renders context names x) (f : α → β) :
    b.Renders context names (x >>= fun a => .ok (f a)) := by
  have hall := hx.bind fun a => ok (f a)
  rwa [List.append_nil] at hall

theorem mapM {f : α → Except Error β} {namesOf : α → List String} {xs : List α}
    (h : ∀ x ∈ xs, b.Renders context (namesOf x) (f x)) :
    b.Renders context (xs.flatMap namesOf) (xs.mapM f) := by
  induction xs with
  | nil => exact ok []
  | cons x xs ih =>
    obtain ⟨hx, hrest⟩ := List.forall_mem_cons.mp h
    rw [List.mapM_cons, List.flatMap_cons]
    exact hx.bind fun y => (ih hrest).bind_ok fun ys => y :: ys

/-- Over bound names, a computation succeeds if all their values are ready. -/
theorem exists_eq_ok_iff (hx : b.Renders context names x)
    (hbound : ∀ name ∈ names, b.get? name ≠ none) :
    (∃ a, x = .ok a) ↔ ∀ name ∈ names, b.Ready name := by
  constructor
  · rintro ⟨a, ha⟩ name hname
    obtain ⟨f, hf⟩ := hx.of_ok a ha name hname
    refine Classical.byContradiction fun hready => ?_
    obtain ⟨fault, hfault⟩ := render_of_not_ready context hready
    rw [hf] at hfault
    cases hfault
  · intro hready
    cases hx' : x with
    | ok a => exact ⟨a, rfl⟩
    | error e =>
      obtain ⟨name, hname, he⟩ := hx.of_error e hx'
      obtain ⟨f, hf⟩ := render_of_ready context (hbound name hname) (hready name hname)
      rw [hf] at he
      cases he

/-- Over bound names, the error is that of a value that is not ready. -/
theorem error (hx : b.Renders context names x) (hbound : ∀ name ∈ names, b.get? name ≠ none)
    {e : Error} (h : x = .error e) : ∃ fault, e = .invalidArgument context fault := by
  obtain ⟨name, hname, he⟩ := hx.of_error e h
  by_cases hready : b.Ready name
  · obtain ⟨f, hf⟩ := render_of_ready context (hbound name hname) hready
    rw [hf] at he
    cases he
  · obtain ⟨fault, hfault⟩ := render_of_not_ready context hready
    rw [hfault] at he
    exact ⟨fault, (Except.error.inj he).symm⟩

end Renders

end Bindings

/-! ### Expressions and clauses -/

theorem Template.renders_renderFrom (context : String) (b : Bindings) (text : String) (cursor : Nat)
    (ps : List Sql.Placeholder) :
    b.Renders context (ps.map Sql.Placeholder.name) (renderFrom context b text cursor ps) := by
  induction ps generalizing cursor with
  | nil => exact .ok _
  | cons p rest ih =>
    exact (Bindings.Renders.single b context p.name).bind fun _ => (ih p.stop).bind_ok _

theorem Template.renders_render (context : String) (b : Bindings) (t : Template) :
    b.Renders context t.names (t.render context b) :=
  renders_renderFrom context b t.text 0 t.placeholders

/-- A column value that scans renders its names. -/
theorem Value.renders_render (context : String) (b : Bindings) {v : Value} (h : v.Scans) :
    b.Renders context v.names (v.render context b) := by
  cases hsql : v.sql? with
  | none =>
    rw [render_of_literal hsql, names, hsql]
    exact .ok _
  | some sql =>
    cases sql?_eq_some_iff.mp hsql
    obtain ⟨t, rfl⟩ := (h sql rfl).exists_template
    rw [render_template, names_expression, t.names_text]
    exact (t.renders_render context b).bind_ok _

theorem Clause.renders_condition (keyword context : String) (b : Bindings) (t : Option Template) :
    b.Renders context (t.toList.flatMap Template.names) (condition keyword context b t) := by
  cases t with
  | none => exact .ok _
  | some t =>
    have h : condition keyword context b (some t) =
        (t.render context b >>= fun f => .ok (.ofText keyword ++ f)) := by
      rw [condition]
      cases t.render context b <;> rfl
    rw [h, Option.toList_some, List.flatMap_singleton]
    exact (t.renders_render context b).bind_ok _

/-! ### The error of a rendering -/

/-- What the rendering of a single placeholder fails with. -/
def Bindings.error? (b : Bindings) (context name : String) : Option Error :=
  Outcome.error? (b.render context name)

/-- Without any values, a placeholder is reported. -/
theorem Bindings.error?_empty (context name : String) :
    empty.error? context name = some (.unboundPlaceholders context [name]) := rfl

theorem Template.error?_renderFrom (context : String) (b : Bindings) (text : String) (cursor : Nat)
    (ps : List Sql.Placeholder) :
    Outcome.error? (renderFrom context b text cursor ps) =
      (ps.map Sql.Placeholder.name).findSome? (b.error? context) := by
  induction ps generalizing cursor with
  | nil => rfl
  | cons p rest ih =>
    have hrest : ∀ value, Outcome.error? (renderFrom context b text p.stop rest >>= fun others =>
        .ok (.ofText (Text.slice text cursor p.start) ++ value ++ others)) =
          (rest.map Sql.Placeholder.name).findSome? (b.error? context) :=
      fun value => (Outcome.error?_bind_ok _ _).trans (ih p.stop)
    rw [List.map_cons, List.findSome?_cons]
    refine (Outcome.error?_bind fun value _ => hrest value).trans ?_
    rw [Bindings.error?]
    cases b.render context p.name <;> rfl

/-- A template fails with the first of its names that can not be rendered. -/
theorem Template.error?_render (context : String) (b : Bindings) (t : Template) :
    Outcome.error? (t.render context b) = t.names.findSome? (b.error? context) :=
  error?_renderFrom context b t.text 0 t.placeholders

/-- A column value that scans fails with the first of its names that can not be rendered. -/
theorem Value.error?_render (context : String) (b : Bindings) {v : Value} (h : v.Scans) :
    Outcome.error? (v.render context b) = v.names.findSome? (b.error? context) := by
  cases hsql : v.sql? with
  | none =>
    rw [render_of_literal hsql, names, hsql]
    rfl
  | some sql =>
    cases sql?_eq_some_iff.mp hsql
    obtain ⟨t, rfl⟩ := (h sql rfl).exists_template
    rw [render_template, names_expression, t.names_text, Outcome.error?_bind_ok, t.error?_render]

/-! ### Bindings with the same values -/

section Congr

variable {b b' : Bindings} (h : ∀ name, b.get? name = b'.get? name) (context : String)

include h

theorem Bindings.render_congr (name : String) : b.render context name = b'.render context name := by
  rw [render, render, h name]

theorem Template.renderFrom_congr (text : String) (cursor : Nat) (ps : List Sql.Placeholder) :
    renderFrom context b text cursor ps = renderFrom context b' text cursor ps := by
  induction ps generalizing cursor with
  | nil => rfl
  | cons p rest ih => rw [renderFrom, renderFrom, Bindings.render_congr h, ih]

theorem Template.render_congr (t : Template) : t.render context b = t.render context b' :=
  renderFrom_congr h context t.text 0 t.placeholders

theorem Value.render_congr (v : Value) : v.render context b = v.render context b' := by
  cases hsql : v.sql? with
  | none => rw [render_of_literal hsql, render_of_literal hsql]
  | some sql =>
    cases sql?_eq_some_iff.mp hsql
    rw [render, render]
    cases Template.ofText context sql with
    | ok t => simp only [Outcome.ok_bind, t.render_congr h context]
    | error e => rfl

theorem Clause.condition_congr (keyword : String) (t : Option Template) :
    condition keyword context b t = condition keyword context b' t := by
  cases t with
  | none => rfl
  | some t => rw [condition, condition, t.render_congr h context]

end Congr

end TableSql
