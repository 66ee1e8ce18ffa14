import TableSql.Error
import TableSql.Members
import TableSql.Value.Basic

/-!
# Bindings

The placeholders that a statement's expressions refer to, in the order of their first reference,
and the values bound to them. The names and the values are kept apart: it is up to the changes that
only a referenced name has a value.

## Order and completeness

The names are a list, since errors tell missing ones in the order of their first reference. The
values are members in key order, so that the order in which they were bound does not show. A name
that is bound to null has a value like any other.

## Main definitions

* `Bindings` — the names and the values
* `Bindings.register` — adds the names of an expression
* `Bindings.bind` — gives a name a value
* `Bindings.retain` — forgets all but some names
* `Bindings.get?`, `Bindings.missing`, `Bindings.bound` — views

## Main results

* `Bindings.mem_referenced_register`, `Bindings.referenced_retain`, `Bindings.referenced_bind` — the
  names after a change
* `Bindings.get?_bind_self`, `Bindings.get?_bind_of_ne` — what a name reads as after a binding
-/

namespace TableSql

/-- The referenced names of a statement, in order of first reference, and the values by name. -/
structure Bindings where
  referenced : List String
  values : List (String × Value)

namespace Bindings

/-- No names. -/
def empty : Bindings := ⟨[], []⟩

/-! ### Views -/

/-- The value of a name. -/
def get? (b : Bindings) (name : String) : Option Value :=
  Members.get? name b.values

/-- The referenced names without a value. -/
def missing (b : Bindings) : List String :=
  b.referenced.filter fun name => (b.get? name).isNone

/-- The referenced names with a value. -/
def bound (b : Bindings) : List (String × Value) :=
  b.referenced.filterMap fun name => (b.get? name).map fun v => (name, v)

/-! ### Changes -/

/-- Adds a name behind the others, unless it is there. -/
def add (b : Bindings) (name : String) : Bindings :=
  if b.referenced.contains name then b else { b with referenced := b.referenced ++ [name] }

/-- Adds names, from left to right. -/
def register (b : Bindings) (names : List String) : Bindings :=
  names.foldl add b

/-- Gives a name a value in place of its last one; none where the name is not referenced. -/
def bind? (b : Bindings) (name : String) (value : Value) : Option Bindings :=
  if b.referenced.contains name then
    some { b with values := Members.insert name value b.values }
  else none

/-- Gives a name a value in place of its last one. -/
def bind (b : Bindings) (context name : String) (value : Value) : Except Error Bindings :=
  match b.bind? name value with
  | some b' => .ok b'
  | none => .error (.unknownPlaceholder context name)

/-- Forgets the names that are not used, and their values. -/
def retain (b : Bindings) (used : List String) : Bindings where
  referenced := b.referenced.filter used.contains
  values := b.values.filter fun m => used.contains m.1

/-- Fails where a name has no value. -/
def ensureComplete (b : Bindings) (context : String) : Except Error Unit :=
  if b.missing = [] then .ok () else .error (.unboundPlaceholders context b.missing)

/-! ### Read after write -/

@[simp] theorem referenced_empty : empty.referenced = [] := rfl

@[simp] theorem get?_empty (name : String) : empty.get? name = none := rfl

/-- A name that is there already changes nothing. -/
theorem add_of_mem {b : Bindings} {name : String} (h : name ∈ b.referenced) : b.add name = b := by
  simp [add, h]

theorem referenced_add_of_not_mem {b : Bindings} {name : String} (h : name ∉ b.referenced) :
    (b.add name).referenced = b.referenced ++ [name] := by
  simp [add, h]

@[simp] theorem mem_referenced_add {b : Bindings} {name other : String} :
    other ∈ (b.add name).referenced ↔ other ∈ b.referenced ∨ other = name := by
  by_cases h : name ∈ b.referenced
  · rw [add_of_mem h]
    exact ⟨.inl, fun hor => hor.elim id fun heq => heq ▸ h⟩
  · simp [referenced_add_of_not_mem h]

/-- Registering adds the names and no others. -/
theorem mem_referenced_register {b : Bindings} {names : List String} {other : String} :
    other ∈ (b.register names).referenced ↔ other ∈ b.referenced ∨ other ∈ names := by
  unfold register
  induction names generalizing b with
  | nil => simp
  | cons name rest ih => simp [ih, or_assoc]

/-- What is retained keeps its order. -/
theorem referenced_retain (b : Bindings) (used : List String) :
    (b.retain used).referenced = b.referenced.filter used.contains := rfl

theorem bind?_isSome_iff {b : Bindings} {name : String} {value : Value} :
    (b.bind? name value).isSome ↔ name ∈ b.referenced := by
  unfold bind?
  split <;> simp_all

theorem referenced_bind {b b' : Bindings} {name : String} {value : Value}
    (h : b.bind? name value = some b') : b'.referenced = b.referenced := by
  unfold bind? at h
  split at h <;> cases h
  rfl

theorem get?_bind_self {b b' : Bindings} {name : String} {value : Value}
    (h : b.bind? name value = some b') : b'.get? name = some value := by
  unfold bind? at h
  split at h <;> cases h
  exact Members.get?_insert_self name value b.values

theorem get?_bind_of_ne {b b' : Bindings} {name other : String} {value : Value}
    (h : b.bind? name value = some b') (hne : other ≠ name) : b'.get? other = b.get? other := by
  unfold bind? at h
  split at h <;> cases h
  exact Members.get?_insert_of_ne hne value b.values

end Bindings

end TableSql
