import TableSql.Proofs.Builder.Binding

/-!
# Binding select, update and delete statements

The three statements that refer to placeholders bind values in the same way, so the same is true of
them: the last value of a name stands, in whatever order the names are bound and whatever was bound
or executed before.

## Main results

* `Builder.last_bindings_stand`
-/

namespace TableSql

instance : Builder.Bindable SelectStatement SelectStatement.Start SelectStatement.Call where
  bind := .bind
  bindings := SelectStatement.bindings
  bound s b := { s with bindings := b, stage := .bind }
  bindings_bound _ _ := rfl
  bound_bound _ _ _ := rfl
  operations_bound _ _ := rfl
  operation_bind _ _ := rfl
  made_bind s context name value := by
    show (SelectStatement.perform s context (.bind name value)).map _ = _
    rw [SelectStatement.perform]
    cases s.bindings.bind context name value <;> rfl

instance : Builder.Bindable UpdateStatement TableRef UpdateStatement.Call where
  bind := .bind
  bindings := UpdateStatement.bindings
  bound s b := { s with bindings := b, stage := .bind }
  bindings_bound _ _ := rfl
  bound_bound _ _ _ := rfl
  operations_bound _ _ := rfl
  operation_bind _ _ := rfl
  made_bind s context name value := by
    show (UpdateStatement.perform s context (.bind name value)).map _ = _
    rw [UpdateStatement.perform]
    cases s.bindings.bind context name value <;> rfl

instance : Builder.Bindable DeleteStatement TableRef DeleteStatement.Call where
  bind := .bind
  bindings := DeleteStatement.bindings
  bound s b := { s with bindings := b, stage := .bind }
  bindings_bound _ _ := rfl
  bound_bound _ _ _ := rfl
  operations_bound _ _ := rfl
  operation_bind _ _ := rfl
  made_bind s context name value := by
    show (DeleteStatement.perform s context (.bind name value)).map _ = _
    rw [DeleteStatement.perform]
    cases s.bindings.bind context name value <;> rfl

namespace Builder

/-- **The last value of each name stands**, for every statement that takes bindings: it does not
matter in which order the names are bound, how often, or which values are replaced. -/
theorem last_bindings_stand :
    (∀ s : SelectStatement, .bind ∈ s.operations → LastWins s) ∧
    (∀ s : UpdateStatement, .bind ∈ s.operations → LastWins s) ∧
    ∀ s : DeleteStatement, .bind ∈ s.operations → LastWins s := by
  refine ⟨?_, ?_, ?_⟩
  · intro s hallowed
    exact lastWins_of_mem hallowed
  · intro s hallowed
    exact lastWins_of_mem hallowed
  · intro s hallowed
    exact lastWins_of_mem hallowed

/-- A value is replaced, the names come in another order, and one of them is not referenced. -/
theorem last_bindings_stand_of_swapped_names :
    let pairs := [("x", .bool true), ("y", .null), ("x", .text "b")]
    let swapped := [("x", .text "b"), ("z", .bool true), ("y", .null)]
    let select : SelectStatement := after (.all ⟨"", "t"⟩) [.call (.filter (.text ":x + :y"))]
    let update : UpdateStatement :=
      after (.ofTable ⟨"", "t"⟩) [.call (.set "a" (.expression ":x + :y"))]
    let delete : DeleteStatement :=
      after (.ofTable ⟨"", "t"⟩) [.call (.filter (.text ":x + :y"))]
    after select (binds SelectStatement pairs) = after select (binds SelectStatement swapped) ∧
      (after select (binds SelectStatement pairs)).bindings.get? "x" = some (.text "b") ∧
      accepted update (binds UpdateStatement pairs) = binds UpdateStatement pairs ∧
      after update (binds UpdateStatement pairs) = after update (binds UpdateStatement swapped) ∧
      after delete (binds DeleteStatement pairs) = after delete (binds DeleteStatement swapped) ∧
      delete.apply (.bind "z" .null) = .error (.unknownPlaceholder "TableDelete.bind" "z") := by
  intro pairs swapped select update delete
  have hlast : ∀ name ∈ ["x", "y"], ∀ value,
      Members.LastGiven pairs name value ↔ Members.LastGiven swapped name value := by
    intro name hname value
    rw [Members.lastGiven_iff, Members.lastGiven_iff]
    rcases List.mem_pair.mp hname with rfl | rfl <;> rfl
  obtain ⟨hselect, hupdate, hdelete⟩ := last_bindings_stand
  have hselect := hselect select (by decide)
  have hupdate := hupdate update (by decide)
  have hdelete := hdelete delete (by decide)
  refine ⟨hselect.same pairs swapped hlast, ?_, (hupdate.accepted_iff pairs).mpr (by decide),
    hupdate.same pairs swapped hlast, hdelete.same pairs swapped hlast, ?_⟩
  · exact hselect.last pairs "x" (by decide) _ (Members.lastGiven_iff.mpr rfl)
  · exact hdelete.refused [] "z" (by decide) .null

end Builder

end TableSql
