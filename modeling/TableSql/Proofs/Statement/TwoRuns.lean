import TableSql.Proofs.Builder.TwoRuns
import TableSql.Proofs.Statement.Erasure
import TableSql.Proofs.Statement.Origin

/-!
# Literals stay out of SQL text

The literals that are bound, set or inserted are sent beside the text of a statement and never in
it. Stated for two runs: whoever sees everything of a run but the values that are sent can not tell
which literals it was given.

## Main results

* `Builder.literals_stay_out_of_sql` — runs of each kind of statement that are the same but for
  their literals agree in all but the values they send
-/

namespace TableSql

/-! ### Origins do not depend on literals -/

theorem Value.isExpression_erase (v : Value) : v.erase.isExpression = v.isExpression := by
  cases v <;> rfl

/-- A value with its origin, without the literal. -/
def Origin.eraseValue (p : Origin × Value) : Origin × Value :=
  (p.1, p.2.erase)

theorem Origin.map_fst_eraseValue (entries : List (Origin × Value)) :
    (entries.map eraseValue).map Prod.fst = entries.map Prod.fst := by
  rw [List.map_map]
  rfl

theorem Bindings.supplied_erase (b : Bindings) (names : List String) :
    b.erase.supplied names = (b.supplied names).map Origin.eraseValue := by
  rw [supplied, supplied, List.map_filterMap]
  refine List.filterMap_congr fun name _ => ?_
  rw [supplied?, supplied?, get?_erase]
  cases b.get? name with
  | none => rfl
  | some v =>
    simp only [Option.map_some, Value.isExpression_erase]
    split <;> rfl

theorem Value.names_erase (v : Value) : v.erase.names = v.names := by
  cases v <;> rfl

theorem Value.supplied_erase (o : Origin) (b : Bindings) (v : Value) :
    v.erase.supplied o b.erase = (v.supplied o b).map Origin.eraseValue := by
  rw [supplied, supplied, isExpression_erase, names_erase]
  split
  · exact b.supplied_erase v.names
  · rfl

theorem SelectStatement.supplied_erase (s : SelectStatement) :
    s.erase.supplied = s.supplied.map Origin.eraseValue := by
  rw [supplied, supplied, List.map_append, ← Bindings.supplied_erase, ← Bindings.supplied_erase]
  rfl

theorem DeleteStatement.supplied_erase (s : DeleteStatement) :
    s.erase.supplied = s.supplied.map Origin.eraseValue :=
  s.bindings.supplied_erase _

theorem UpdateStatement.supplied_erase (s : UpdateStatement) :
    s.erase.supplied = s.supplied.map Origin.eraseValue := by
  have hassignments : s.erase.assignments = s.assignments.map Assignment.erase := rfl
  have hbindings : s.erase.bindings = s.bindings.erase := rfl
  rw [supplied, supplied, List.map_append, List.map_flatMap, hassignments, hbindings,
    List.flatMap_map]
  simp only [← Value.supplied_erase, ← Bindings.supplied_erase]
  rfl

namespace InsertStatement

theorem rowEntries_erase (row place : Nat) (values : List Value) :
    rowEntries row place (values.map Value.erase) =
      (rowEntries row place values).map Origin.eraseValue := by
  induction values generalizing place with
  | nil => rfl
  | cons v rest ih =>
    rw [List.map_cons, rowEntries, ih]
    rfl

theorem tableEntries_erase (row : Nat) (rows : List (List Value)) :
    tableEntries row (rows.map (List.map Value.erase)) =
      (tableEntries row rows).map Origin.eraseValue := by
  induction rows generalizing row with
  | nil => rfl
  | cons values rest ih =>
    rw [List.map_cons, tableEntries, tableEntries, List.map_append, rowEntries_erase, ih]

theorem supplied_erase (s : InsertStatement) :
    s.erase.supplied = s.supplied.map Origin.eraseValue := by
  rw [supplied, supplied, erase, tableEntries_erase, List.filter_map]
  congr 1
  refine List.filter_congr fun p _ => ?_
  rw [Function.comp_apply, Origin.eraseValue, Value.isExpression_erase]

end InsertStatement

/-! ### Runs -/

namespace Builder

/-- **Literals stay out of SQL text.** Two runs that are the same once the literals are erased that
they bind, set and insert have the same transcript and the same text. Where the values they send
differ, they were given different literals for the name, column or cell that the values are
from. -/
theorem literals_stay_out_of_sql :
    (∀ (x : SelectStatement.Start) (xs ys : List (Step SelectStatement.Call)),
      xs.map (Step.erase SelectStatement.Call.erase) =
        ys.map (Step.erase SelectStatement.Call.erase) → Agree SelectStatement x x xs ys) ∧
    (∀ (x y : InsertStatement.Start) (xs ys : List (Step InsertStatement.Call)),
      x.erase = y.erase → xs.map (Step.erase InsertStatement.Call.erase) =
        ys.map (Step.erase InsertStatement.Call.erase) → Agree InsertStatement x y xs ys) ∧
    (∀ (table : TableRef) (xs ys : List (Step UpdateStatement.Call)),
      xs.map (Step.erase UpdateStatement.Call.erase) =
        ys.map (Step.erase UpdateStatement.Call.erase) → Agree UpdateStatement table table xs ys) ∧
    (∀ (table : TableRef) (xs ys : List (Step DeleteStatement.Call)),
      xs.map (Step.erase DeleteStatement.Call.erase) =
        ys.map (Step.erase DeleteStatement.Call.erase) →
          Agree DeleteStatement table table xs ys) := by
  refine ⟨?_, ?_, ?_, ?_⟩
  · intro x xs ys hsteps
    refine agree_of_erase_eq (fun s => ?_) rfl hsteps
    exact (congrArg _ s.supplied_erase).trans (Origin.map_fst_eraseValue _)
  · intro x y xs ys hstart hsteps
    refine agree_of_erase_eq (fun s => ?_) hstart hsteps
    exact (congrArg _ s.supplied_erase).trans (Origin.map_fst_eraseValue _)
  · intro table xs ys hsteps
    refine agree_of_erase_eq (fun s => ?_) rfl hsteps
    exact (congrArg _ s.supplied_erase).trans (Origin.map_fst_eraseValue _)
  · intro table xs ys hsteps
    refine agree_of_erase_eq (fun s => ?_) rfl hsteps
    exact (congrArg _ s.supplied_erase).trans (Origin.map_fst_eraseValue _)

/-- Runs of each kind that are given different literals: for a name, a cell, a column and a name. -/
theorem literals_stay_out_of_sql_of_flag :
    Agree SelectStatement (.all ⟨"", "t"⟩) (.all ⟨"", "t"⟩)
      [.call (.filter (.text ":x")), .call (.bind "x" (.bool true))]
      [.call (.filter (.text ":x")), .call (.bind "x" (.text "'"))] ∧
    Agree InsertStatement (.document ⟨"", "t"⟩ (.pairs [("a", .null)]))
      (.document ⟨"", "t"⟩ (.pairs [("a", .text "'")])) [] [] ∧
    Agree UpdateStatement ⟨"", "t"⟩ ⟨"", "t"⟩
      [.call (.set "a" (.bool true))] [.call (.set "a" (.text "'"))] ∧
    Agree DeleteStatement ⟨"", "t"⟩ ⟨"", "t"⟩
      [.call (.filter (.text ":x")), .call (.bind "x" (.bool true))]
      [.call (.filter (.text ":x")), .call (.bind "x" (.text "'"))] := by
  obtain ⟨select, insert, update, delete⟩ := literals_stay_out_of_sql
  exact ⟨select _ _ _ rfl, insert _ _ _ _ rfl rfl, update _ _ _ rfl, delete _ _ _ rfl⟩

end Builder

end TableSql
