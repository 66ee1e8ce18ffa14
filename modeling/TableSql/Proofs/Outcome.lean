import Mathlib.Data.List.Forall2

/-!
# Outcomes

Calls and compilations either fail with an error or give a value, and are put together with `>>=`
and `mapM`. The lemmas here take such an outcome apart again: what a success says of its parts,
where a failure came from, and how a function on the values passes through.

## Main results

* `Outcome.bind_eq_ok_iff`, `Outcome.bind_eq_error_iff` — the two ways a sequence may end
* `Outcome.mapM_eq_ok_iff`, `Outcome.mapM_eq_ok_iff_forall`, `Outcome.flatMap_of_mapM` — a list of
  computations that succeeds
* `Outcome.map_bind_of_eq`, `Outcome.mapM_map_of_eq` — a function on the values moves inward
* `Outcome.error?_bind`, `Outcome.error?_mapM`, `Outcome.exists_of_mapM_eq_error`,
  `Outcome.mapM_eq_error_iff` — the error is that of the first part that fails
* `Outcome.Related.bind`, `Outcome.Related.map_eq` — two outcomes that go the same way
-/

namespace TableSql.Outcome

variable {ε α β γ δ : Type}

@[simp] theorem map_ok (f : α → β) (a : α) : (Except.ok a : Except ε α).map f = .ok (f a) := rfl

@[simp] theorem map_error (f : α → β) (e : ε) :
    (Except.error e : Except ε α).map f = .error e := rfl

@[simp] theorem ok_bind (a : α) (f : α → Except ε β) : (Except.ok a >>= f) = f a := rfl

@[simp] theorem error_bind (e : ε) (f : α → Except ε β) : (Except.error e >>= f) = .error e := rfl

theorem map_eq_ok_iff {x : Except ε α} {f : α → β} {b : β} :
    x.map f = .ok b ↔ ∃ a, x = .ok a ∧ f a = b := by
  cases x <;> simp

theorem exists_eq_ok_iff {x : Except ε α} : (∃ a, x = .ok a) ↔ ∀ e, x ≠ .error e := by
  cases x <;> simp

theorem map_eq_error_iff {x : Except ε α} {f : α → β} {e : ε} :
    x.map f = .error e ↔ x = .error e := by
  cases x <;> simp

/-- Outcomes that are the same up to functions fail alike or succeed together. -/
theorem cases_of_map_eq_map {x : Except ε α} {y : Except ε β} {u : α → γ} {v : β → γ}
    (h : x.map u = y.map v) :
    (∃ e, x = .error e ∧ y = .error e) ∨ ∃ a b, x = .ok a ∧ y = .ok b ∧ u a = v b := by
  cases x with
  | ok a =>
    cases y with
    | ok b => exact .inr ⟨a, b, rfl, rfl, Except.ok.inj h⟩
    | error e => cases h
  | error e =>
    cases y with
    | ok b => cases h
    | error e' => exact .inl ⟨e, rfl, congrArg Except.error (Except.error.inj h).symm⟩

/-! ### One after another -/

theorem bind_eq_ok_iff {x : Except ε α} {f : α → Except ε β} {b : β} :
    (x >>= f) = .ok b ↔ ∃ a, x = .ok a ∧ f a = .ok b := by
  cases x <;> simp

theorem bind_eq_error_iff {x : Except ε α} {f : α → Except ε β} {e : ε} :
    (x >>= f) = .error e ↔ x = .error e ∨ ∃ a, x = .ok a ∧ f a = .error e := by
  cases x <;> simp

/-- What two sequences do alike up to a function, they do alike up to it together. -/
theorem map_bind_of_eq {x : Except ε α} {y : Except ε γ} {f : α → Except ε β} {g : γ → Except ε δ}
    {u : α → γ} {v : β → δ} (hxy : y = x.map u) (hfg : ∀ a, g (u a) = (f a).map v) :
    (y >>= g) = (x >>= f).map v := by
  subst hxy
  cases x with
  | ok a => exact hfg a
  | error e => rfl

theorem map_bind_of_forall {x : Except ε α} {f : α → Except ε β} {g : α → Except ε δ} {v : β → δ}
    (h : ∀ a, g a = (f a).map v) : (x >>= g) = (x >>= f).map v := by
  cases x with
  | ok a => exact h a
  | error e => rfl

/-! ### Lists -/

theorem mapM_eq_ok_iff {f : α → Except ε β} {xs : List α} {ys : List β} :
    xs.mapM f = .ok ys ↔ List.Forall₂ (fun x y => f x = .ok y) xs ys := by
  induction xs generalizing ys with
  | nil =>
    rw [List.mapM_nil, List.forall₂_nil_left_iff]
    exact ⟨fun h => (Except.ok.inj h).symm, fun h => by rw [h]; rfl⟩
  | cons x xs ih =>
    rw [List.mapM_cons, bind_eq_ok_iff, List.forall₂_cons_left_iff]
    constructor
    · rintro ⟨y, hy, h⟩
      obtain ⟨zs, hzs, h⟩ := bind_eq_ok_iff.mp h
      exact ⟨y, zs, hy, ih.mp hzs, (Except.ok.inj h).symm⟩
    · rintro ⟨y, zs, hy, hzs, rfl⟩
      exact ⟨y, hy, bind_eq_ok_iff.mpr ⟨zs, ih.mpr hzs, rfl⟩⟩

/-- Where a computation succeeds for some inputs and gives what a function says, so does a list of
such computations. -/
theorem mapM_eq_ok_iff_forall {f : α → Except ε β} {good : α → Prop} {g : α → β}
    (h : ∀ x y, f x = .ok y ↔ good x ∧ y = g x) {xs : List α} {ys : List β} :
    xs.mapM f = .ok ys ↔ (∀ x ∈ xs, good x) ∧ ys = xs.map g := by
  rw [mapM_eq_ok_iff, eq_comm, ← List.forall₂_eq_eq_eq, List.forall₂_map_left_iff]
  simp only [h, List.forall₂_and_left, eq_comm]

theorem mapM_map_of_eq {f : α → Except ε β} {g : γ → Except ε δ} {u : α → γ} {v : β → δ}
    {xs : List α} (h : ∀ x ∈ xs, g (u x) = (f x).map v) :
    (xs.map u).mapM g = (xs.mapM f).map (List.map v) := by
  induction xs with
  | nil => rfl
  | cons x xs ih =>
    obtain ⟨hx, hxs⟩ := List.forall_mem_cons.mp h
    rw [List.map_cons, List.mapM_cons, List.mapM_cons]
    refine map_bind_of_eq hx fun y => ?_
    exact map_bind_of_eq (ih hxs) fun ys => rfl

/-- Each computation of a list that succeeds has its value in the result. -/
theorem exists_mem_of_mapM {f : α → Except ε β} {xs : List α} {ys : List β}
    (h : xs.mapM f = .ok ys) {x : α} (hx : x ∈ xs) : ∃ y ∈ ys, f x = .ok y := by
  have hall := mapM_eq_ok_iff.mp h
  clear h
  induction hall with
  | nil => cases hx
  | @cons x' y xs ys hxy _ ih =>
    rcases List.mem_cons.mp hx with rfl | hx
    · exact ⟨y, List.mem_cons_self, hxy⟩
    · obtain ⟨z, hz, hfz⟩ := ih hx
      exact ⟨z, List.mem_cons_of_mem y hz, hfz⟩

/-- What the values are made of is what their computations' inputs are made of. -/
theorem flatMap_of_mapM {f : α → Except ε β} {xs : List α} {ys : List β} {g : β → List γ}
    {k : α → List γ} (hxs : xs.mapM f = .ok ys) (h : ∀ x y, f x = .ok y → g y = k x) :
    ys.flatMap g = xs.flatMap k := by
  have hall := mapM_eq_ok_iff.mp hxs
  clear hxs
  induction hall with
  | nil => rfl
  | cons hxy _ ih => rw [List.flatMap_cons, List.flatMap_cons, h _ _ hxy, ih]

/-! ### The first failure -/

/-- The error of a computation that fails. -/
def error? : Except ε α → Option ε
  | .ok _ => none
  | .error e => some e

@[simp] theorem error?_ok (a : α) : error? (.ok a : Except ε α) = none := rfl

@[simp] theorem error?_error (e : ε) : error? (.error e : Except ε α) = some e := rfl

theorem error?_eq_some_iff {x : Except ε α} {e : ε} : error? x = some e ↔ x = .error e := by
  cases x <;> simp

/-- A sequence fails with its first part, or else with its second. -/
theorem error?_bind {x : Except ε α} {f : α → Except ε β} {later : Option ε}
    (h : ∀ a, x = .ok a → error? (f a) = later) : error? (x >>= f) = (error? x).or later := by
  cases x with
  | ok a => exact h a rfl
  | error e => rfl

/-- A sequence whose second part does not fail. -/
theorem error?_bind_ok (x : Except ε α) (f : α → β) :
    error? (x >>= fun a => .ok (f a)) = error? x := by
  cases x <;> rfl

/-- A list of computations fails with the first failure of its parts, when each of them fails with
the first of some failures. -/
theorem error?_mapM {f : α → Except ε β} {xs : List α} {parts : α → List γ} {g : γ → Option ε}
    (h : ∀ x ∈ xs, error? (f x) = (parts x).findSome? g) :
    error? (xs.mapM f) = (xs.flatMap parts).findSome? g := by
  induction xs with
  | nil => rfl
  | cons x xs ih =>
    obtain ⟨hx, hxs⟩ := List.forall_mem_cons.mp h
    have hrest : ∀ y, error? (xs.mapM f >>= fun ys => .ok (y :: ys)) = error? (xs.mapM f) :=
      fun y => error?_bind_ok _ _
    rw [List.mapM_cons, List.flatMap_cons, List.findSome?_append, ← hx, ← ih hxs]
    exact error?_bind fun y _ => hrest y

theorem error?_mapM_eq_findSome? (f : α → Except ε β) (xs : List α) :
    error? (xs.mapM f) = xs.findSome? fun x => error? (f x) := by
  have hself : ∀ x ∈ xs, error? (f x) = [x].findSome? fun x => error? (f x) := by simp
  rw [error?_mapM hself, List.flatMap_singleton']

/-- A list of computations fails with one of them. -/
theorem exists_of_mapM_eq_error {f : α → Except ε β} {xs : List α} {e : ε}
    (h : xs.mapM f = .error e) : ∃ x ∈ xs, f x = .error e := by
  rw [← error?_eq_some_iff, error?_mapM_eq_findSome?] at h
  obtain ⟨x, hx, hfx⟩ := List.exists_of_findSome?_eq_some h
  exact ⟨x, hx, error?_eq_some_iff.mp hfx⟩

/-- Where all failures are the same, it does not matter which of a list is the first. -/
theorem mapM_eq_error_iff {f : α → Except ε β} {bad : α → Prop} {failure : ε}
    (h : ∀ x e, f x = .error e ↔ bad x ∧ e = failure) {xs : List α} {e : ε} :
    xs.mapM f = .error e ↔ (∃ x ∈ xs, bad x) ∧ e = failure := by
  have hfails : ∀ e, xs.mapM f = .error e → (∃ x ∈ xs, bad x) ∧ e = failure := by
    intro e he
    obtain ⟨x, hx, hfx⟩ := exists_of_mapM_eq_error he
    obtain ⟨hbad, hfailure⟩ := (h x e).mp hfx
    exact ⟨⟨x, hx, hbad⟩, hfailure⟩
  refine ⟨hfails e, ?_⟩
  rintro ⟨⟨x, hx, hbad⟩, rfl⟩
  cases hxs : xs.mapM f with
  | ok ys =>
    obtain ⟨y, -, hy⟩ := exists_mem_of_mapM hxs hx
    cases hy.symm.trans ((h x e).mpr ⟨hbad, rfl⟩)
  | error e' => rw [(hfails e' hxs).2]

/-! ### Two outcomes that go the same way -/

/-- The outcomes fail with the same error, or succeed with related values. -/
inductive Related (R : α → β → Prop) : Except ε α → Except ε β → Prop where
  | ok {a : α} {b : β} : R a b → Related R (.ok a) (.ok b)
  | error (e : ε) : Related R (.error e) (.error e)

theorem Related.cases {R : α → β → Prop} {x : Except ε α} {y : Except ε β} (h : Related R x y) :
    (∃ e, x = .error e ∧ y = .error e) ∨ ∃ a b, x = .ok a ∧ y = .ok b ∧ R a b := by
  cases h with
  | ok hab => exact .inr ⟨_, _, rfl, rfl, hab⟩
  | error e => exact .inl ⟨e, rfl, rfl⟩

/-- What is computed from one outcome in two ways goes the same way if its second parts do. -/
theorem Related.bind {R : α → β → Prop} (x : Except ε γ) {f : γ → Except ε α} {g : γ → Except ε β}
    (h : ∀ c, x = .ok c → Related R (f c) (g c)) : Related R (x >>= f) (x >>= g) := by
  cases x with
  | ok c => exact h c rfl
  | error e => exact .error e

/-- What the relation does not tell apart is the same of both. -/
theorem Related.map_eq {R : α → β → Prop} {x : Except ε α} {y : Except ε β} (h : Related R x y)
    {u : α → γ} {v : β → γ} (huv : ∀ a b, R a b → u a = v b) : x.map u = y.map v := by
  cases h with
  | ok hab => exact congrArg Except.ok (huv _ _ hab)
  | error e => rfl

end TableSql.Outcome
