import TableSql.Proofs.Bindings
import TableSql.Proofs.Builder.Origin
import TableSql.Proofs.Fragment.Fill
import TableSql.Statement.Clause

/-!
# The values of rendered text

Rendering writes a marker for each literal and takes over the text of each expression. So the
values of a rendered expression are the literals bound to its placeholders, once for each
occurrence, and those of a column are its literal or the values of its expression.

## Main definitions

* `Bindings.supplied`, `Value.supplied` — the values of a rendering, with their origins
* `Bindings.Backed` — the bound values are those that were given

## Main results

* `Template.params_render`, `Value.params_render`, `Clause.params_condition`
* `Bindings.Backed.bind`, `Bindings.Backed.register`, `Bindings.Backed.retain`
-/

namespace TableSql

/-! ### Literals bound to placeholders -/

namespace Bindings

/-- The literal that is bound to a name, with its origin. -/
def supplied? (b : Bindings) (name : String) : Option (Origin × Value) :=
  match b.get? name with
  | some v => if v.isExpression then none else some (.bound name, v)
  | none => none

/-- The literals that are bound to names, in the order of the names. -/
def supplied (b : Bindings) (names : List String) : List (Origin × Value) :=
  names.filterMap b.supplied?

/-- What is written for a name brings the literal that is bound to it. -/
theorem params_written (b : Bindings) (name : String) :
    (b.written name).params = (b.supplied? name).toList.map Prod.snd := by
  rw [written, supplied?]
  cases b.get? name with
  | none => rfl
  | some v => cases v <;> rfl

/-- The bound values are those that were given. -/
def Backed (b : Bindings) (given : Origin → Option Value) : Prop :=
  ∀ name v, b.get? name = some v → given (.bound name) = some v

variable {b b' : Bindings} {given : Origin → Option Value} {earlier : List (Origin × Value)}

theorem backed_empty (given : Origin → Option Value) : empty.Backed given :=
  fun _ _ h => nomatch h

theorem Backed.register (h : b.Backed given) (names : List String) :
    (b.register names).Backed given := by
  intro name v hget
  rw [get?_register] at hget
  exact h name v hget

theorem Backed.retain (h : b.Backed given) (names : List String) :
    (b.retain names).Backed given := by
  intro name v hget
  rw [get?_retain] at hget
  split at hget
  next => exact h name v hget
  next => cases hget

/-- A value that is bound was given just now. -/
theorem Backed.bind (h : b.Backed fun o => o.last earlier) {name : String} {value : Value}
    (hbind : b.bind? name value = some b') :
    b'.Backed fun o => o.last (earlier ++ [(.bound name, value)]) := by
  intro other v hget
  show (Origin.bound other).last _ = some v
  rw [Origin.last_append, Origin.last_singleton]
  by_cases hother : other = name
  · subst hother
    rw [get?_bind_self hbind] at hget
    rw [if_pos rfl]
    exact hget
  · rw [get?_bind_of_ne hbind hother] at hget
    rw [if_neg fun heq => hother (Origin.bound.inj heq).symm]
    exact h other v hget

/-- A value for a column is for no name. -/
theorem Backed.set (h : b.Backed fun o => o.last earlier) (column : String) (value : Value) :
    b.Backed fun o => o.last (earlier ++ [(.column column, value)]) := by
  intro name v hget
  show (Origin.bound name).last _ = some v
  rw [Origin.last_append, Origin.last_singleton, if_neg nofun]
  exact h name v hget

theorem Backed.given_of_supplied (h : b.Backed given) {names : List String}
    {p : Origin × Value} (hp : p ∈ b.supplied names) : given p.1 = some p.2 := by
  obtain ⟨name, -, hname⟩ := List.mem_filterMap.mp hp
  rw [supplied?] at hname
  split at hname
  next v hget =>
    split at hname
    next => cases hname
    next =>
      cases hname
      exact h name v hget
  next => cases hname

end Bindings

/-! ### Renderings -/

theorem Template.params_render {context : String} {b : Bindings} {t : Template} {f : Fragment}
    (h : t.render context b = .ok f) : f.params = (b.supplied t.names).map Prod.snd := by
  rw [fill_of_render h, params_fill, Bindings.supplied, List.filterMap_eq_flatMap_toList,
    List.map_flatMap]
  simp only [Bindings.params_written]

namespace Value

/-- The values of a rendered column value, whose own origin is given. -/
def supplied (o : Origin) (b : Bindings) (v : Value) : List (Origin × Value) :=
  if v.isExpression then b.supplied v.names else [(o, v)]

theorem params_render {context : String} {b : Bindings} {v : Value} {f : Fragment}
    (h : v.render context b = .ok f) (o : Origin) : f.params = (v.supplied o b).map Prod.snd := by
  cases hsql : v.sql? with
  | none =>
    rw [render_of_literal hsql] at h
    cases h
    rw [supplied, sql?_eq_none_iff.mp hsql]
    rfl
  | some sql =>
    cases sql?_eq_some_iff.mp hsql
    obtain ⟨t, g, rfl, hg, rfl⟩ := render_eq_ok h
    have hsupplied : (expression t.text).supplied o b = b.supplied t.names := by
      rw [supplied, names_expression, t.names_text]
      rfl
    rw [Fragment.params_parenthesize, hsupplied]
    exact Template.params_render hg

end Value

namespace Clause

theorem params_condition {keyword context : String} {b : Bindings} {t : Option Template}
    {f : Fragment} (h : condition keyword context b t = .ok f) :
    f.params = (b.supplied (t.toList.flatMap Template.names)).map Prod.snd := by
  cases t with
  | none =>
    cases h
    rfl
  | some t =>
    rw [condition] at h
    split at h
    next g hg =>
      cases h
      rw [Fragment.params_append, Template.params_render hg]
      simp
    next => cases h

theorem params_list (keyword : String) (entries : List String) :
    (list keyword entries).params = [] := by
  cases entries <;> rfl

theorem params_count (keyword : String) (n : Option UInt64) : (count keyword n).params = [] := by
  cases n <;> rfl

end Clause

end TableSql
