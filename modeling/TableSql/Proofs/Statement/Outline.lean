import TableSql.Compiled
import TableSql.Proofs.Bindings
import TableSql.Proofs.Fragment.Rendering

/-!
# Outlines of statements

How a statement reads if all that is known are the calls that it has taken: a head, and behind it
the clauses in a fixed order, each with the argument that was given last for it and left out where
none was given. A placeholder stands for the value that was bound to it last.

An outline is a second account of the text that the statements write, so it does not use what they
write with: keywords, directions, locks and separators are spelled out here, and text and values are
put together by hand. It shares with the statements how an expression's placeholders are replaced
and how names are quoted, and both have their own specifications.

## Main definitions

* `Clause.Kind`, `Clause.Argument` — the clauses, and what is given for one
* `Clause.Argument.render` — a clause as it is written
* `Clause.lastOf`, `Bindings.ofPairs` — the last argument of a clause, and the last value of a name
* `Outline`, `Outline.compile` — the head of a statement, the order of its clauses and its rendering

## Main results

* `Clause.lastOf_append` — later arguments come first
* `Outline.exists_append_of_compile` — a clause that was given is found in the text
-/

namespace TableSql

namespace Clause

/-- The clauses behind the head of a statement. -/
inductive Kind where
  | filter
  | groupBy
  | having
  | orderBy
  | limit
  | offset
  | lock
deriving DecidableEq

/-- The clause that an operation is about. -/
def Kind.ofOperation? : Operation → Option Kind
  | .filter => some .filter
  | .groupBy => some .groupBy
  | .having => some .having
  | .orderBy => some .orderBy
  | .limit => some .limit
  | .offset => some .offset
  | .lockShared | .lockExclusive => some .lock
  | .values | .set | .bind | .execute => none

/-- The clauses that are given once have an operation each. -/
theorem Kind.exists_operation {kind : Kind} (h : kind ∈ [filter, groupBy, having, orderBy]) :
    ∃ op ∈ [Operation.filter, .groupBy, .having, .orderBy],
      ∀ op', ofOperation? op' = some kind → op' = op := by
  have hunique : ∀ op op', ofOperation? op = some kind → ofOperation? op' = some kind →
      kind ≠ lock → op' = op := by
    intro op op' hop hop'
    cases kind <;> cases op <;> cases hop <;> cases op' <;> cases hop' <;> simp
  simp only [List.mem_cons, List.not_mem_nil, or_false] at h
  rcases h with rfl | rfl | rfl | rfl
  · exact ⟨.filter, by decide, fun op' h => hunique _ _ rfl h nofun⟩
  · exact ⟨.groupBy, by decide, fun op' h => hunique _ _ rfl h nofun⟩
  · exact ⟨.having, by decide, fun op' h => hunique _ _ rfl h nofun⟩
  · exact ⟨.orderBy, by decide, fun op' h => hunique _ _ rfl h nofun⟩

/-- What is given for a clause. -/
inductive Argument where
  | filter (condition : String)
  | groupBy (columns : List String)
  | having (condition : String)
  | orderBy (criteria : List OrderCriterion)
  | limit (count : UInt64)
  | offset (count : UInt64)
  | lock (mode : LockMode)

namespace Argument

/-- The clause that it is given for. -/
def kind : Argument → Kind
  | .filter _ => .filter
  | .groupBy _ => .groupBy
  | .having _ => .having
  | .orderBy _ => .orderBy
  | .limit _ => .limit
  | .offset _ => .offset
  | .lock _ => .lock

/-- A keyword and a condition with its placeholders replaced. -/
def renderCondition (keyword condition context : String) (b : Bindings) :
    Except Error Fragment := do
  let t ← Template.ofText context condition
  let f ← t.render context b
  return ⟨keyword ++ f.sql, f.params⟩

/-- A criterion, always with its direction. -/
def criterionText : OrderCriterion → String
  | ⟨column, .ascending⟩ => column ++ " ASC"
  | ⟨column, .descending⟩ => column ++ " DESC"

/-- A lock. -/
def lockText : LockMode → String
  | .shared .default => " FOR SHARE"
  | .shared .noWait => " FOR SHARE NOWAIT"
  | .shared .skipLocked => " FOR SHARE SKIP LOCKED"
  | .exclusive .default => " FOR UPDATE"
  | .exclusive .noWait => " FOR UPDATE NOWAIT"
  | .exclusive .skipLocked => " FOR UPDATE SKIP LOCKED"

/-- The clause, with a space in front. -/
def render (context : String) (b : Bindings) : Argument → Except Error Fragment
  | .filter condition => renderCondition " WHERE " condition context b
  | .groupBy columns => .ok ⟨" GROUP BY " ++ String.intercalate ", " columns, []⟩
  | .having condition => renderCondition " HAVING " condition context b
  | .orderBy criteria =>
    .ok ⟨" ORDER BY " ++ String.intercalate ", " (criteria.map criterionText), []⟩
  | .limit n => .ok ⟨" LIMIT " ++ decimal n.toNat, []⟩
  | .offset n => .ok ⟨" OFFSET " ++ decimal n.toNat, []⟩
  | .lock mode => .ok ⟨lockText mode, []⟩

theorem toSql_eq_criterionText (c : OrderCriterion) : c.toSql = criterionText c := by
  obtain ⟨column, direction⟩ := c
  cases direction <;> exact String.append_assoc

theorem toSql_eq_lockText (mode : LockMode) : mode.toSql = lockText mode := by
  cases mode with
  | shared contention => cases contention <;> rfl
  | exclusive contention => cases contention <;> rfl

end Argument

/-- The argument that was given last for a clause. -/
def lastOf (kind : Kind) (args : List Argument) : Option Argument :=
  args.reverse.find? (·.kind = kind)

/-- A clause, which is empty where none was given. -/
def written (context : String) (b : Bindings) (args : List Argument) (kind : Kind) :
    Except Error Fragment :=
  match lastOf kind args with
  | none => .ok .empty
  | some a => a.render context b

/-- Later arguments come first. -/
theorem lastOf_append (kind : Kind) (args more : List Argument) :
    lastOf kind (args ++ more) = (lastOf kind more).or (lastOf kind args) := by
  rw [lastOf, List.reverse_append, List.find?_append]
  rfl

theorem lastOf_eq_none_iff {kind : Kind} {args : List Argument} :
    lastOf kind args = none ↔ ∀ a ∈ args, a.kind ≠ kind := by
  simp [lastOf]

theorem mem_of_lastOf {kind : Kind} {args : List Argument} {a : Argument}
    (h : lastOf kind args = some a) : a ∈ args ∧ a.kind = kind := by
  have hkind := List.find?_some h
  exact ⟨List.mem_reverse.mp (List.mem_of_find?_eq_some h), of_decide_eq_true hkind⟩

theorem written_of_none {context : String} {b : Bindings} {args : List Argument} {kind : Kind}
    (h : lastOf kind args = none) : written context b args kind = .ok .empty := by
  rw [written, h]

theorem written_of_some {context : String} {b : Bindings} {args : List Argument} {kind : Kind}
    {a : Argument} (h : lastOf kind args = some a) :
    written context b args kind = a.render context b := by
  rw [written, h]

end Clause

/-! ### Bound values -/

/-- The bindings after values were bound one after another. What is read for a name is the first of
its values, so the last one comes first. -/
def Bindings.ofPairs (pairs : List (String × Value)) : Bindings where
  referenced := (pairs.map Prod.fst).eraseDups
  values := pairs.reverse

theorem Bindings.get?_ofPairs_concat (pairs : List (String × Value)) (p : String × Value)
    (name : String) :
    (ofPairs (pairs ++ [p])).get? name =
      if name = p.1 then some p.2 else (ofPairs pairs).get? name := by
  rw [get?, ofPairs, List.reverse_concat, Members.get?]
  rfl

/-- The values that are read for the names are those that were bound last. -/
def Bindings.Reads (b : Bindings) (pairs : List (String × Value)) : Prop :=
  ∀ name, b.get? name = (ofPairs pairs).get? name

namespace Bindings.Reads

variable {b b' : Bindings} {pairs : List (String × Value)}

theorem register (h : b.Reads pairs) (names : List String) : (b.register names).Reads pairs := by
  intro name
  rw [get?_register]
  exact h name

theorem bind (h : b.Reads pairs) {name : String} {value : Value}
    (hbind : b.bind? name value = some b') : b'.Reads (pairs ++ [(name, value)]) := by
  intro other
  rw [get?_ofPairs_concat]
  by_cases hother : other = name
  · rw [if_pos hother, hother]
    exact get?_bind_self hbind
  · rw [if_neg hother, get?_bind_of_ne hbind hother]
    exact h other

end Bindings.Reads

/-! ### Stored clauses -/

namespace Clause

variable {context : String} {b b' : Bindings} {args : List Argument}

theorem written_condition {kind : Kind} {keyword : String} {mk : String → Argument}
    (hmk : ∀ text b, (mk text).render context b = Argument.renderCondition keyword text context b)
    (hb : ∀ name, b.get? name = b'.get? name) {t : Option Template}
    (h : lastOf kind args = t.map fun t => mk t.text) :
    written context b' args kind = condition keyword context b t := by
  cases t with
  | none => exact written_of_none h
  | some t =>
    rw [written_of_some h, hmk, Argument.renderCondition, t.ofText_text, Outcome.ok_bind, condition,
      t.render_congr hb context]
    cases t.render context b' <;> rfl

theorem written_filter (hb : ∀ name, b.get? name = b'.get? name) {t : Option Template}
    (h : lastOf .filter args = t.map fun t => .filter t.text) :
    written context b' args .filter = condition " WHERE " context b t :=
  written_condition (fun _ _ => rfl) hb h

theorem written_having (hb : ∀ name, b.get? name = b'.get? name) {t : Option Template}
    (h : lastOf .having args = t.map fun t => .having t.text) :
    written context b' args .having = condition " HAVING " context b t :=
  written_condition (fun _ _ => rfl) hb h

theorem written_groupBy {columns : List String}
    (h : lastOf .groupBy args = if columns = [] then none else some (.groupBy columns)) :
    written context b' args .groupBy = .ok (list " GROUP BY " columns) := by
  cases columns with
  | nil => exact written_of_none h
  | cons column rest =>
    rw [if_neg (List.cons_ne_nil column rest)] at h
    exact written_of_some h

theorem written_orderBy {criteria : List OrderCriterion}
    (h : lastOf .orderBy args = if criteria = [] then none else some (.orderBy criteria)) :
    written context b' args .orderBy = .ok (ordering criteria) := by
  cases criteria with
  | nil => exact written_of_none h
  | cons criterion rest =>
    rw [if_neg (List.cons_ne_nil criterion rest)] at h
    have htexts : OrderCriterion.toSql = Argument.criterionText :=
      funext Argument.toSql_eq_criterionText
    rw [written_of_some h, ordering, htexts]
    rfl

theorem written_limit {n : Option UInt64} (h : lastOf .limit args = n.map .limit) :
    written context b' args .limit = .ok (limit n) := by
  cases n with
  | none => exact written_of_none h
  | some n => exact written_of_some h

theorem written_offset {n : Option UInt64} (h : lastOf .offset args = n.map .offset) :
    written context b' args .offset = .ok (count " OFFSET " n) := by
  cases n with
  | none => exact written_of_none h
  | some n => exact written_of_some h

theorem lastOf_filterMap_concat {Call : Type} (argument? : Call → Option Argument)
    (cs : List Call) (c : Call) (kind : Kind) :
    lastOf kind ((cs ++ [c]).filterMap argument?) =
      (lastOf kind (argument? c).toList).or (lastOf kind (cs.filterMap argument?)) := by
  rw [List.filterMap_append, lastOf_append]
  cases h : argument? c with
  | none => rw [List.filterMap_cons_none h]; rfl
  | some a => rw [List.filterMap_cons_some h]; rfl

end Clause

/-! ### Outlines -/

/-- One fragment after another: their texts in a row, and their values in a row. -/
def Fragment.concat : List Fragment → Fragment
  | [] => ⟨"", []⟩
  | f :: rest => ⟨f.sql ++ (concat rest).sql, f.params ++ (concat rest).params⟩

theorem Fragment.concat_nil : concat [] = empty := rfl

theorem Fragment.concat_cons (f : Fragment) (rest : List Fragment) :
    concat (f :: rest) = f ++ concat rest := rfl

theorem Fragment.exists_append_of_mem {f : Fragment} {fs : List Fragment} (h : f ∈ fs) :
    ∃ before behind, (concat fs).sql = before ++ f.sql ++ behind := by
  induction fs with
  | nil => cases h
  | cons g rest ih =>
    rcases List.mem_cons.mp h with rfl | h
    · exact ⟨"", (concat rest).sql, by rw [String.empty_append]; rfl⟩
    · obtain ⟨before, behind, heq⟩ := ih h
      refine ⟨g.sql ++ before, behind, ?_⟩
      rw [concat_cons, sql_append, heq]
      simp only [String.append_assoc]

/-- The head of a statement and the order of its clauses. -/
structure Outline where
  kind : StatementKind
  /-- The context that errors name. -/
  context : String
  head : Bindings → Except Error Fragment
  clauses : List Clause.Kind

/-- The statement with these bound values and these arguments of its clauses. -/
def Outline.compile (o : Outline) (b : Bindings) (args : List Clause.Argument) :
    Except Error CompiledStatement := do
  let head ← o.head b
  let clauses ← o.clauses.mapM (Clause.written o.context b args)
  let behind := Fragment.concat clauses
  return ⟨o.kind, head.sql ++ behind.sql, head.params ++ behind.params⟩

/-- The same in terms of fragments. -/
theorem Outline.compile_eq (o : Outline) (b : Bindings) (args : List Clause.Argument) :
    o.compile b args = do
      let head ← o.head b
      let clauses ← o.clauses.mapM (Clause.written o.context b args)
      return .ofFragment o.kind (head ++ Fragment.concat clauses) := rfl

/-- **A clause that was given is found in the text.** -/
theorem Outline.exists_append_of_compile {o : Outline} {b : Bindings} {args : List Clause.Argument}
    {c : CompiledStatement} (h : o.compile b args = .ok c) {kind : Clause.Kind}
    (hkind : kind ∈ o.clauses) {a : Clause.Argument} (ha : Clause.lastOf kind args = some a) :
    ∃ f before behind, a.render o.context b = .ok f ∧ c.sql = before ++ f.sql ++ behind := by
  obtain ⟨head, -, h⟩ := Outcome.bind_eq_ok_iff.mp h
  obtain ⟨clauses, hclauses, h⟩ := Outcome.bind_eq_ok_iff.mp h
  cases h
  obtain ⟨f, hf, hwritten⟩ := Outcome.exists_mem_of_mapM hclauses hkind
  obtain ⟨before, behind, heq⟩ := Fragment.exists_append_of_mem hf
  refine ⟨f, head.sql ++ before, behind, Clause.written_of_some ha ▸ hwritten, ?_⟩
  show head.sql ++ (Fragment.concat clauses).sql = _
  rw [heq]
  simp only [String.append_assoc]

end TableSql
