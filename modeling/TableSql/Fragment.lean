import TableSql.Bindings
import TableSql.Template

/-!
# Fragments

A fragment is a piece of SQL text with the values for the `?` markers in it. Statements are built
by joining fragments: literal values become markers, and expressions are written out in
parentheses.

## Text and values together

Text and values are never built apart. There are two ways to begin a fragment: text without values,
and one marker with its value; joining keeps the order of both. So the values belong to the markers
in order by the laws of `++`, and no statement has to keep count of its markers.

Text that a caller typed may hold markers too. Those come without a value; nothing here looks for
them.

## Expressions

An expression gets parentheses, so that what stands around it does not reach into it. As the value
of a column it may refer to placeholders. Bound to a placeholder it may hold none: what is put in
for a placeholder is never searched for placeholders again.

## Main definitions

* `Fragment` — text and values, joined by `++`
* `Fragment.join` — fragments with a separator between them
* `Template.render` — a template with its placeholders replaced
* `Value.scanNames`, `Value.render` — a column value's placeholders, and what is written for it

## Main results

* `Fragment.sql_append`, `Fragment.params_append` — joining joins texts and values
* `Fragment.sql_join`, `Fragment.params_join` — the texts and values of fragments in a row
* `Fragment.append_assoc`, `Fragment.empty_append`, `Fragment.append_empty` — fragments are a
  monoid
-/

namespace TableSql

/-- SQL text and the values of its markers, in order. -/
@[ext]
structure Fragment where
  sql : String
  params : List Value

namespace Fragment

/-- Nothing. -/
def empty : Fragment := ⟨"", []⟩

/-- Text without values. -/
def ofText (sql : String) : Fragment := ⟨sql, []⟩

/-- A marker and its value. -/
def marker (v : Value) : Fragment := ⟨"?", [v]⟩

/-- One fragment after another. -/
def append (a b : Fragment) : Fragment := ⟨a.sql ++ b.sql, a.params ++ b.params⟩

instance : Append Fragment := ⟨append⟩

instance : Inhabited Fragment := ⟨empty⟩

/-- Fragments with a separator between them. -/
def join (separator : String) : List Fragment → Fragment
  | [] => empty
  | [f] => f
  | f :: g :: rest => f ++ ofText separator ++ join separator (g :: rest)

/-- A fragment in parentheses. -/
def parenthesize (f : Fragment) : Fragment :=
  ofText "(" ++ f ++ ofText ")"

@[simp] theorem sql_append (a b : Fragment) : (a ++ b).sql = a.sql ++ b.sql := rfl

@[simp] theorem params_append (a b : Fragment) : (a ++ b).params = a.params ++ b.params := rfl

@[simp] theorem sql_ofText (s : String) : (ofText s).sql = s := rfl

@[simp] theorem params_ofText (s : String) : (ofText s).params = [] := rfl

@[simp] theorem sql_empty : empty.sql = "" := rfl

@[simp] theorem params_empty : empty.params = [] := rfl

@[simp] theorem sql_marker (v : Value) : (marker v).sql = "?" := rfl

@[simp] theorem params_marker (v : Value) : (marker v).params = [v] := rfl

@[simp] theorem sql_parenthesize (f : Fragment) : f.parenthesize.sql = "(" ++ f.sql ++ ")" := rfl

@[simp] theorem params_parenthesize (f : Fragment) : f.parenthesize.params = f.params := by
  simp [parenthesize]

@[simp] theorem empty_append (f : Fragment) : empty ++ f = f :=
  Fragment.ext (by simp) (by simp)

@[simp] theorem append_empty (f : Fragment) : f ++ empty = f :=
  Fragment.ext (by simp) (by simp)

theorem append_assoc (f g h : Fragment) : f ++ g ++ h = f ++ (g ++ h) :=
  Fragment.ext (by simp [String.append_assoc]) (by simp)

theorem join_cons_cons (separator : String) (f g : Fragment) (rest : List Fragment) :
    join separator (f :: g :: rest) = f ++ ofText separator ++ join separator (g :: rest) := rfl

theorem sql_join (separator : String) (fs : List Fragment) :
    (join separator fs).sql = separator.intercalate (fs.map Fragment.sql) := by
  induction fs with
  | nil => rfl
  | cons f rest ih =>
    cases rest with
    | nil => rw [List.map_singleton, String.intercalate_singleton, join]
    | cons g rest =>
      rw [join_cons_cons, sql_append, sql_append, sql_ofText, ih]
      simp only [List.map_cons, String.intercalate_cons_cons]

theorem params_join (separator : String) (fs : List Fragment) :
    (join separator fs).params = fs.flatMap Fragment.params := by
  induction fs with
  | nil => rfl
  | cons f rest ih =>
    cases rest with
    | nil => simp [join]
    | cons g rest =>
      rw [join_cons_cons, params_append, params_append, params_ofText, List.append_nil, ih]
      rfl

end Fragment

/-! ### Placeholders -/

/-- What stands for a placeholder: a marker for a literal value, and the text of an expression,
which may hold no placeholder of its own. -/
def Bindings.render (b : Bindings) (context name : String) : Except Error Fragment :=
  match b.get? name with
  | none => .error (.unboundPlaceholders context [name])
  | some (.expression sql) =>
    match Template.ofText context sql with
    | .error e => .error e
    | .ok inner =>
      if inner.placeholders = [] then .ok (Fragment.ofText sql).parenthesize
      else .error (.invalidArgument context (.nestedPlaceholder name))
  | some v => .ok (.marker v)

namespace Template

/-- The text from byte `cursor` on with these placeholders replaced. -/
def renderFrom (context : String) (b : Bindings) (text : String) :
    (cursor : Nat) → List Sql.Placeholder → Except Error Fragment
  | cursor, [] => .ok (.ofText (Text.sliceFrom text cursor))
  | cursor, p :: rest => do
    let value ← b.render context p.name
    let others ← renderFrom context b text p.stop rest
    return .ofText (Text.slice text cursor p.start) ++ value ++ others

/-- The template with its placeholders replaced and everything else as it was. -/
def render (context : String) (b : Bindings) (t : Template) : Except Error Fragment :=
  renderFrom context b t.text 0 t.placeholders

end Template

/-! ### Column values -/

namespace Value

/-- The names of the placeholders in a column value. The text of an expression is scanned. -/
def scanNames (context : String) : Value → Except Error (List String)
  | .expression sql =>
    match Template.ofText context sql with
    | .ok t => .ok t.names
    | .error e => .error e
  | _ => .ok []

/-- A marker, or an expression in parentheses. The text of an expression is scanned again. -/
def render (context : String) (b : Bindings) : Value → Except Error Fragment
  | .expression sql => do
    let t ← Template.ofText context sql
    return (← t.render context b).parenthesize
  | v => .ok (.marker v)

end Value

end TableSql
