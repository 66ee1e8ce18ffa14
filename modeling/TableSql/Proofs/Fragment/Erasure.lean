import TableSql.Document
import TableSql.Proofs.Outcome
import TableSql.Statement.Clause

/-!
# Erasing literals

Erasing puts a null in the place of each literal and leaves expressions as they are. Two values are
the same after erasing if both are literals, or both are the same expression. So erasing leaves
what a statement may depend on besides the values it sends, and everything that is rendered from
erased values is what is rendered from the values, erased.

## Main definitions

* `Value.erase` — a literal's place without the literal
* `Bindings.erase`, `Document.erase` — values without their literals
* `Fragment.erase`, `CompiledStatement.erase` — text without the literals among its values

## Main results

* `Value.erase_eq_erase_iff` — what erasing does not tell apart
* `Bindings.bind_erase`, `Bindings.missing_erase` — changes and views of erased bindings
* `Template.render_erase`, `Value.render_erase`, `Clause.condition_erase` — renderings
-/

namespace TableSql

/-! ### Values -/

/-- A null in the place of a literal. -/
def Value.erase : Value → Value
  | .expression sql => .expression sql
  | _ => .null

theorem Value.erase_of_literal {v : Value} (h : v.isExpression = false) : v.erase = .null := by
  cases v with
  | expression sql => cases h
  | _ => rfl

/-- **Only literals look the same when erased.** -/
theorem Value.erase_eq_erase_iff {v w : Value} :
    v.erase = w.erase ↔ v = w ∨ v.isExpression = false ∧ w.isExpression = false := by
  constructor
  · intro h
    cases v with
    | expression sql =>
      cases w with
      | expression other => exact .inl h
      | _ => cases h
    | _ =>
      cases w with
      | expression other => cases h
      | _ => exact .inr ⟨rfl, rfl⟩
  · rintro (rfl | ⟨hv, hw⟩)
    · rfl
    · rw [erase_of_literal hv, erase_of_literal hw]

theorem Value.erase_ofJson (j : Json) : (Value.ofJson j).erase = .null := by
  cases j with
  | integer n =>
    rw [ofJson]
    split <;> rfl
  | _ => rfl

/-! ### Fragments -/

namespace Fragment

/-- The text, with nulls for literals. -/
def erase (f : Fragment) : Fragment :=
  ⟨f.sql, f.params.map Value.erase⟩

theorem erase_append (f g : Fragment) : (f ++ g).erase = f.erase ++ g.erase :=
  Fragment.ext rfl (List.map_append ..)

theorem erase_ofText (text : String) : (ofText text).erase = ofText text := rfl

theorem erase_parenthesize (f : Fragment) : f.parenthesize.erase = f.erase.parenthesize := by
  rw [parenthesize, erase_append, erase_append]
  rfl

theorem erase_join (separator : String) (fs : List Fragment) :
    (join separator fs).erase = join separator (fs.map erase) := by
  induction fs with
  | nil => rfl
  | cons f rest ih =>
    cases rest with
    | nil => rfl
    | cons g rest =>
      rw [join_cons_cons, erase_append, erase_append, ih]
      rfl

end Fragment

/-- The statement, with nulls for literals. -/
def CompiledStatement.erase (c : CompiledStatement) : CompiledStatement :=
  { c with params := c.params.map Value.erase }

/-! ### Members -/

theorem Members.get?_map {α β : Type} (f : α → β) (key : String) (members : List (String × α)) :
    get? key (members.map fun m => (m.1, f m.2)) = (get? key members).map f := by
  induction members with
  | nil => rfl
  | cons m rest ih =>
    rw [List.map_cons, get?, get?, ih]
    split <;> rfl

theorem Members.insert_map {α β : Type} (f : α → β) (key : String) (value : α)
    (members : List (String × α)) :
    insert key (f value) (members.map fun m => (m.1, f m.2)) =
      (insert key value members).map fun m => (m.1, f m.2) := by
  induction members with
  | nil => rfl
  | cons m rest ih =>
    rw [List.map_cons, insert, insert, ih]
    split
    · rfl
    · split <;> rfl

theorem Members.ofList_map {α β : Type} (f : α → β) (pairs : List (String × α)) :
    ofList (pairs.map fun m => (m.1, f m.2)) = (ofList pairs).map fun m => (m.1, f m.2) := by
  have hfold : ∀ members : List (String × α),
      (pairs.map fun m => (m.1, f m.2)).foldl (fun members pair => insert pair.1 pair.2 members)
        (members.map fun m => (m.1, f m.2)) =
      (pairs.foldl (fun members pair => insert pair.1 pair.2 members) members).map
        fun m => (m.1, f m.2) := by
    induction pairs with
    | nil => exact fun _ => rfl
    | cons p rest ih =>
      intro members
      simp only [List.map_cons, List.foldl_cons, insert_map]
      exact ih (insert p.1 p.2 members)
  exact hfold []

/-! ### Bindings -/

namespace Bindings

/-- The same names, with nulls for literals. -/
def erase (b : Bindings) : Bindings :=
  { b with values := b.values.map fun m => (m.1, m.2.erase) }

theorem get?_erase (b : Bindings) (name : String) :
    b.erase.get? name = (b.get? name).map Value.erase :=
  Members.get?_map Value.erase name b.values

theorem missing_erase (b : Bindings) : b.erase.missing = b.missing := by
  simp only [missing, get?_erase, Option.isNone_map]
  rfl

theorem add_erase (b : Bindings) (name : String) : b.erase.add name = (b.add name).erase := by
  rw [add, add]
  show (if b.referenced.contains name then _ else _) = _
  split <;> rfl

theorem register_erase (b : Bindings) (names : List String) :
    b.erase.register names = (b.register names).erase := by
  induction names generalizing b with
  | nil => rfl
  | cons name rest ih =>
    show (b.erase.add name).register rest = ((b.add name).register rest).erase
    rw [add_erase, ih]

theorem retain_erase (b : Bindings) (used : List String) :
    b.erase.retain used = (b.retain used).erase := by
  simp only [retain, erase, List.filter_map, Function.comp_def]

theorem bind_erase (b : Bindings) (context name : String) (value : Value) :
    b.erase.bind context name value.erase = (b.bind context name value).map erase := by
  have hreferenced : b.erase.referenced = b.referenced := rfl
  rw [bind, bind, bind?, bind?, hreferenced]
  by_cases hname : b.referenced.contains name
  · rw [if_pos hname, if_pos hname]
    refine congrArg (fun values => Except.ok (Bindings.mk b.referenced values)) ?_
    exact Members.insert_map Value.erase name value b.values
  · rw [if_neg hname, if_neg hname]
    rfl

theorem ensureComplete_erase (b : Bindings) (context : String) :
    b.erase.ensureComplete context = b.ensureComplete context := by
  rw [ensureComplete, missing_erase, ensureComplete]

/-! ### Renderings -/

theorem render_erase (b : Bindings) (context name : String) :
    b.erase.render context name = (b.render context name).map Fragment.erase := by
  rw [render, render, get?_erase]
  cases b.get? name with
  | none => rfl
  | some v =>
    cases v with
    | expression sql =>
      simp only [Option.map_some, Value.erase]
      cases Template.ofText context sql with
      | error e => rfl
      | ok inner =>
        dsimp only
        split <;> rfl
    | _ => rfl

end Bindings

namespace Template

theorem renderFrom_erase (context : String) (b : Bindings) (text : String) (cursor : Nat)
    (ps : List Sql.Placeholder) :
    renderFrom context b.erase text cursor ps =
      (renderFrom context b text cursor ps).map Fragment.erase := by
  induction ps generalizing cursor with
  | nil => rfl
  | cons p rest ih =>
    refine Outcome.map_bind_of_eq (b.render_erase context p.name) fun value => ?_
    refine Outcome.map_bind_of_eq (ih p.stop) fun others => ?_
    refine congrArg Except.ok ?_
    rw [Fragment.erase_append, Fragment.erase_append, Fragment.erase_ofText]

theorem render_erase (t : Template) (context : String) (b : Bindings) :
    t.render context b.erase = (t.render context b).map Fragment.erase :=
  renderFrom_erase context b t.text 0 t.placeholders

end Template

namespace Value

theorem scanNames_erase (context : String) (v : Value) :
    v.erase.scanNames context = v.scanNames context := by
  cases v <;> rfl

theorem render_erase (context : String) (b : Bindings) (v : Value) :
    v.erase.render context b.erase = (v.render context b).map Fragment.erase := by
  cases v with
  | expression sql =>
    refine Outcome.map_bind_of_forall fun t => ?_
    refine Outcome.map_bind_of_eq (t.render_erase context b) fun f => ?_
    exact congrArg Except.ok f.erase_parenthesize.symm
  | _ => rfl

end Value

/-! ### Clauses -/

namespace Clause

theorem condition_erase (keyword context : String) (b : Bindings) (t : Option Template) :
    condition keyword context b.erase t = (condition keyword context b t).map Fragment.erase := by
  cases t with
  | none => rfl
  | some t =>
    rw [condition, condition, t.render_erase]
    cases t.render context b with
    | ok f => exact congrArg Except.ok (Fragment.erase_append (.ofText keyword) f).symm
    | error e => rfl

theorem erase_list (keyword : String) (entries : List String) :
    (list keyword entries).erase = list keyword entries := by
  cases entries <;> rfl

theorem erase_count (keyword : String) (n : Option UInt64) :
    (count keyword n).erase = count keyword n := by
  cases n <;> rfl

end Clause

/-! ### Documents -/

namespace Document

/-- The document with nulls for literals. What is not an object has no members, whatever it is. -/
def erase : Document → Document
  | .json (.object members) => .json (.object (members.map fun m => (m.1, .null)))
  | .json _ => .json .null
  | .pairs members => .pairs (members.map fun m => (m.1, m.2.erase))

theorem members_erase (document : Document) (context : String) :
    document.erase.members context =
      (document.members context).map (List.map fun m => (m.1, m.2.erase)) := by
  cases document with
  | pairs pairs =>
    exact congrArg Except.ok (Members.ofList_map Value.erase pairs)
  | json j =>
    cases j with
    | object members =>
      refine congrArg Except.ok ?_
      simp only [List.map_map, Function.comp_def, Value.erase_ofJson]
      rfl
    | _ => rfl

end Document

end TableSql
