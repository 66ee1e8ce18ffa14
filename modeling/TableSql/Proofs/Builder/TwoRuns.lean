import TableSql.Proofs.Builder.Erasure
import TableSql.Proofs.Builder.Origin

/-!
# Two runs that differ in their literals

Two runs that are the same once their literals are erased can not be told apart by anything but the
values they send. Nothing that a caller is told or sees depends on a literal, and in particular no
text does. The values are told apart only where they come from an origin that was given two
different literals.

## Main definitions

* `Builder.Agree` — two runs that are told apart by the values they send, and by nothing else

## Main results

* `Builder.agree_of_erase_eq` — runs that are the same but for their literals agree
-/

namespace TableSql.Builder

/-- **The runs differ in nothing but the values they send**, and in these only where the literals
that were given differ. -/
structure Agree (S : Type) {Start Call : Type} [Builder S Start Call] [Traced S Start Call]
    (x y : Start) (xs ys : List (Step Call)) : Prop where
  /-- New statements are refused alike, or look alike. -/
  start : (Builder.start x : Except Error S).map observe =
    (Builder.start y : Except Error S).map observe
  /-- Steps are accepted or refused alike, and the statements look alike after each of them. -/
  steps : ∀ s t : S, Builder.start x = .ok s → Builder.start y = .ok t →
    transcript s xs = transcript t ys
  /-- In the end both statements compile, or both fail with the same error. -/
  compiles : ∀ s t : S, Builder.start x = .ok s → Builder.start y = .ok t →
    (∃ e, compile (after s xs) = .error e ∧ compile (after t ys) = .error e) ∨
    ∃ c d, compile (after s xs) = .ok c ∧ compile (after t ys) = .ok d
  /-- The texts are the same, with as many values from the same origins. Each run sends the values
  that it was given for these, and two values differ only if both are literals that were given for
  their common origin. -/
  sent : ∀ s t : S, Builder.start x = .ok s → Builder.start y = .ok t →
    ∀ c d, compile (after s xs) = .ok c → compile (after t ys) = .ok d →
      c.sql = d.sql ∧ c.params.length = d.params.length ∧
      origins (after s xs) = origins (after t ys) ∧
      c.params.map some = (origins (after s xs)).map (given S x xs) ∧
      d.params.map some = (origins (after t ys)).map (given S y ys) ∧
      ∀ (i : Nat) v w, c.params[i]? = some v → d.params[i]? = some w → v ≠ w →
        v.isExpression = false ∧ w.isExpression = false ∧
        ∃ o, (origins (after s xs))[i]? = some o ∧
          given S x xs o = some v ∧ given S y ys o = some w

/-- The value at a position is the one that was given for the origin at that position. -/
theorem given_of_getElem? {params : List Value} {places : List Origin}
    {given : Origin → Option Value} (h : params.map some = places.map given) {i : Nat} {v : Value}
    (hv : params[i]? = some v) : ∃ o, places[i]? = some o ∧ given o = some v := by
  have hi : (places.map given)[i]? = some (some v) := by rw [← h, List.getElem?_map, hv]; rfl
  rw [List.getElem?_map] at hi
  exact Option.map_eq_some_iff.mp hi

/-- Where the values of two statements differ that are the same but for their literals, they are
literals that were given for the same origin. -/
theorem given_of_erase_eq {c d : CompiledStatement} (h : c.erase = d.erase) {places : List Origin}
    {given given' : Origin → Option Value} (hc : c.params.map some = places.map given)
    (hd : d.params.map some = places.map given') {i : Nat} {v w : Value}
    (hv : c.params[i]? = some v) (hw : d.params[i]? = some w) (hne : v ≠ w) :
    v.isExpression = false ∧ w.isExpression = false ∧
      ∃ o, places[i]? = some o ∧ given o = some v ∧ given' o = some w := by
  have hparams : c.params.map Value.erase = d.params.map Value.erase :=
    congrArg CompiledStatement.params h
  have herase : v.erase = w.erase := by
    have hi := congrArg (·[i]?) hparams
    simpa [hv, hw] using hi
  obtain ⟨hv', hw'⟩ := (Value.erase_eq_erase_iff.mp herase).resolve_left hne
  obtain ⟨o, ho, hov⟩ := given_of_getElem? hc hv
  obtain ⟨o', ho', how⟩ := given_of_getElem? hd hw
  rw [ho] at ho'
  cases ho'
  exact ⟨hv', hw', o, ho, hov, how⟩

variable {S Start Call : Type} [Builder S Start Call] [Traced S Start Call]
  [Erasable S Start Call]

/-- **Runs that are the same but for their literals agree.** -/
theorem agree_of_erase_eq (horigins : ∀ s : S, origins (Erasable.erase s) = origins s)
    {x y : Start} {xs ys : List (Step Call)}
    (hstart : Erasable.eraseStart S x = Erasable.eraseStart S y)
    (hsteps : xs.map (eraseStep S) = ys.map (eraseStep S)) : Agree S x y xs ys := by
  have hnew : (start x : Except Error S).map Erasable.erase = (start y).map Erasable.erase := by
    rw [← Erasable.start_erase, hstart, Erasable.start_erase]
  have hstarted : ∀ s t : S, start x = .ok s → start y = .ok t →
      Erasable.erase s = Erasable.erase t := by
    intro s t hs ht
    rw [hs, ht] at hnew
    exact Except.ok.inj hnew
  refine ⟨?_, ?_, ?_, ?_⟩
  · rcases Outcome.cases_of_map_eq_map hnew with ⟨e, hx, hy⟩ | ⟨s, t, hx, hy, hst⟩
    · rw [hx, hy]
    · rw [hx, hy]
      exact congrArg Except.ok (observe_eq hst)
  · intro s t hs ht
    exact transcript_eq (hstarted s t hs ht) hsteps
  · intro s t hs ht
    have hcompile := compile_eq (after_eq (hstarted s t hs ht) hsteps)
    rcases Outcome.cases_of_map_eq_map hcompile with herror | ⟨c, d, hc, hd, -⟩
    · exact .inl herror
    · exact .inr ⟨c, d, hc, hd⟩
  · intro s t hs ht c d hc hd
    have hafter := after_eq (hstarted s t hs ht) hsteps
    have hcompile := compile_eq hafter
    rw [hc, hd] at hcompile
    have hcd : c.erase = d.erase := Except.ok.inj hcompile
    have hsql : c.erase.sql = d.erase.sql := congrArg CompiledStatement.sql hcd
    have hlength : c.erase.params.length = d.erase.params.length := by rw [hcd]
    have hsame : origins (after s xs) = origins (after t ys) := by
      rw [← horigins (after s xs), hafter, horigins]
    have hgiven := params_eq_given hs xs hc
    have hgiven' := params_eq_given ht ys hd
    refine ⟨hsql, by simpa [CompiledStatement.erase] using hlength, hsame, hgiven, hgiven', ?_⟩
    intro i v w hv hw hne
    exact given_of_erase_eq hcd hgiven (hsame ▸ hgiven') hv hw hne

end TableSql.Builder
