import TableSql.Proofs.Outcome
import TableSql.Statement.Raw

/-!
# When raw SQL is compiled

Raw SQL is sent as it is, so the compilation is nothing but a check of its text and its values.

## Main results

* `SqlStatement.compile_eq_ok_iff` — the check
* `SqlStatement.compile_of_expression` — an expression among the values is refused
-/

namespace TableSql.SqlStatement

/-- Raw SQL is compiled if it has a value, which is no expression, for each of its markers. -/
theorem compile_eq_ok_iff {s : SqlStatement} {c : CompiledStatement} :
    s.compile = .ok c ↔ Text.isBlank s.text = false ∧
      Sql.countMarkers? s.text = .ok s.params.length ∧
      (∀ v ∈ s.params, v.isExpression = false) ∧ c = ⟨.sql, s.text, s.params⟩ := by
  constructor
  · intro h
    rw [compile] at h
    split at h
    next => cases h
    next hblank =>
      obtain ⟨n, hn, h⟩ := Outcome.bind_eq_ok_iff.mp h
      split at h
      next => cases h
      next hlength =>
        split at h
        next => cases h
        next hany =>
          cases h
          rw [markers] at hn
          split at hn
          next hcount =>
            cases hn
            rw [Bool.not_eq_true, List.any_eq_false] at hany
            refine ⟨Bool.eq_false_iff.mpr hblank, ?_, fun v hv => ?_, rfl⟩
            · rw [hcount, Decidable.not_not.mp hlength]
            · exact Bool.eq_false_iff.mpr (hany v hv)
          next => cases hn
  · rintro ⟨hblank, hcount, hparams, rfl⟩
    have hany : s.params.any Value.isExpression = false :=
      List.any_eq_false.mpr fun v hv => Bool.eq_false_iff.mp (hparams v hv)
    have hmarkers : s.markers = .ok s.params.length := by rw [markers, hcount]
    rw [compile, hblank, hmarkers, Outcome.ok_bind, hany]
    simp

theorem error_of_compile {s : SqlStatement} {e : Error} (h : s.compile = .error e) :
    ∃ fault, e = .invalidArgument context fault := by
  rw [compile] at h
  split at h
  next =>
    cases h
    exact ⟨.blankSql, rfl⟩
  next =>
    rcases Outcome.bind_eq_error_iff.mp h with h | ⟨n, -, h⟩
    · rw [markers] at h
      split at h
      next => cases h
      next u _ =>
        cases h
        exact ⟨.unterminatedString u.offset, rfl⟩
    · split at h
      next =>
        cases h
        exact ⟨_, rfl⟩
      next =>
        split at h
        next =>
          cases h
          exact ⟨.expressionParameter, rfl⟩
        next => cases h

/-- Raw SQL with an expression among its values is refused. -/
theorem compile_of_expression {s : SqlStatement} {v : Value} (hv : v ∈ s.params)
    (hexpression : v.isExpression = true) :
    ∃ fault, s.compile = .error (.invalidArgument context fault) := by
  cases hcompile : s.compile with
  | ok c =>
    have hnone := (compile_eq_ok_iff.mp hcompile).2.2.1 v hv
    cases hexpression.symm.trans hnone
  | error e =>
    obtain ⟨fault, rfl⟩ := error_of_compile hcompile
    exact ⟨fault, rfl⟩

end TableSql.SqlStatement
