import TableSql.Proofs.Bindings
import TableSql.Proofs.Builder.Guarded

/-!
# Binding one value after another

Calls that bind values may name a placeholder more than once, and in any order. Each of them
replaces the value that its name had, so a statement is left with the last one. Nothing else is kept
of the calls: which values were replaced and in which order the names came is not seen from the
statement afterwards.

## Main definitions

* `Builder.Bindable` — a kind of statement that binds values by calls
* `Builder.binds` — calls that bind values, one after another
* `Builder.LastWins` — what such calls come to

## Main results

* `Builder.exists_apply_bind_iff`, `Builder.step_bind` — a single call that binds
* `Builder.accepted_binds`, `Builder.after_binds` — any number of them
* `Builder.lastWins_of_mem` — the last values stand, and nothing else is kept
-/

namespace TableSql.Builder

/-- A kind of statement that binds values by calls. -/
class Bindable (S : Type) (Start Call : outParam Type) [Builder S Start Call] [Named Call]
    [Guarded S Start Call] where
  /-- The call that binds a value to a name. -/
  bind : String → Value → Call
  /-- The names and the values of the statement. -/
  bindings : S → Bindings
  /-- The statement with other values, after a call that binds. -/
  bound : S → Bindings → S
  bindings_bound : ∀ s b, bindings (bound s b) = b
  bound_bound : ∀ s b b', bound (bound s b) b' = bound s b'
  operations_bound : ∀ s b, operations (bound s b) = [.bind, .execute]
  operation_bind : ∀ name value, Named.operation (bind name value) = .bind
  made_bind : ∀ s context name value, Guarded.made s context (bind name value) =
    ((bindings s).bind context name value).map (bound s)

variable {S Start Call : Type} [Builder S Start Call] [Named Call] [Guarded S Start Call]
  [Bindable S Start Call]

/-- The names and the values of a statement. -/
abbrev bindings (s : S) : Bindings :=
  Bindable.bindings s

variable (S) in
/-- Calls that bind values to names, one after another. -/
def binds (pairs : List (String × Value)) : List (Step Call) :=
  pairs.map fun p => .call (Bindable.bind S p.1 p.2)

/-! ### A single call -/

section Single

variable {s : S} {name : String}

/-- A call that binds does what its name and value say. -/
theorem apply_bind (hallowed : .bind ∈ operations s) (name : String) (value : Value) :
    apply s (Bindable.bind S name value) =
      ((bindings s).bind (callContext S .bind) name value).map (Bindable.bound s) := by
  have hop := Bindable.operation_bind (S := S) name value
  rw [apply_of_mem (hop ▸ hallowed), hop, Bindable.made_bind]

/-- It is accepted for the names that a value can be bound to. -/
theorem exists_apply_bind_iff (hallowed : .bind ∈ operations s) (name : String) (value : Value) :
    (∃ s', apply s (Bindable.bind S name value) = .ok s') ↔
      ∃ b, (bindings s).bind? name value = some b := by
  rw [apply_bind hallowed, Bindings.bind]
  cases (bindings s).bind? name value <;> simp

/-- A referenced name is bound. -/
theorem apply_bind_of_mem (hallowed : .bind ∈ operations s) (h : name ∈ (bindings s).referenced)
    (value : Value) : apply s (Bindable.bind S name value) =
      .ok (Bindable.bound s ((bindings s).bindAll [(name, value)])) := by
  rw [apply_bind hallowed, Bindings.bind, Bindings.bind?_of_mem h]
  rfl

/-- Any other name is reported. -/
theorem apply_bind_of_not_mem (hallowed : .bind ∈ operations s)
    (h : name ∉ (bindings s).referenced) (value : Value) :
    apply s (Bindable.bind S name value) =
      .error (.unknownPlaceholder (callContext S .bind) name) := by
  rw [apply_bind hallowed, Bindings.bind, Bindings.bind?_of_not_mem h]
  rfl

/-- **A single call that binds**: it is accepted for a referenced name only, and changes nothing
else. -/
theorem step_bind (hallowed : .bind ∈ operations s) (name : String) (value : Value) :
    (name ∈ (bindings s).referenced ∧
      outcome s (.call (Bindable.bind S name value)) = .ok () ∧
      step s (.call (Bindable.bind S name value)) =
        Bindable.bound s ((bindings s).bindAll [(name, value)])) ∨
    (name ∉ (bindings s).referenced ∧
      outcome s (.call (Bindable.bind S name value)) =
        .error (.unknownPlaceholder (callContext S .bind) name) ∧
      step s (.call (Bindable.bind S name value)) = s) := by
  by_cases h : name ∈ (bindings s).referenced
  · have happly := apply_bind_of_mem hallowed h value
    exact .inl ⟨h, by rw [outcome, happly]; rfl, step_call_of_ok happly⟩
  · have happly := apply_bind_of_not_mem hallowed h value
    exact .inr ⟨h, by rw [outcome, happly]; rfl, step_call_of_error happly⟩

end Single

/-! ### Any number of calls -/

/-- A statement whose values were bound by a call binds on. -/
theorem bind_mem_operations_bound (s : S) (b : Bindings) :
    .bind ∈ operations (Bindable.bound s b) := by
  rw [Bindable.operations_bound]
  exact List.mem_cons_self

/-- The calls for referenced names are accepted. -/
theorem accepted_binds {s : S} (hallowed : .bind ∈ operations s) (pairs : List (String × Value)) :
    accepted s (binds S pairs) = binds S ((bindings s).known pairs) := by
  induction pairs generalizing s with
  | nil => rfl
  | cons p rest ih =>
    show accepted s (.call (Bindable.bind S p.1 p.2) :: binds S rest) = _
    rcases step_bind hallowed p.1 p.2 with ⟨hmem, hout, hstep⟩ | ⟨hmem, hout, -⟩
    · have hreferenced : (bindings (Bindable.bound s
          ((bindings s).bindAll [p]))).referenced = (bindings s).referenced := by
        rw [bindings, Bindable.bindings_bound]
        rfl
      rw [accepted_cons_of_ok hout, hstep, ih (bind_mem_operations_bound s _),
        Bindings.known_congr hreferenced, Bindings.known_cons_of_mem hmem]
      rfl
    · rw [accepted_cons_of_error hout, ih hallowed, Bindings.known_cons_of_not_mem hmem]

theorem after_binds_of_bound (s : S) {b : Bindings} {pairs : List (String × Value)}
    (h : ∀ p ∈ pairs, p.1 ∈ b.referenced) :
    after (Bindable.bound s b) (binds S pairs) = Bindable.bound s (b.bindAll pairs) := by
  induction pairs generalizing b with
  | nil => rfl
  | cons p rest ih =>
    obtain ⟨hp, hrest⟩ := List.forall_mem_cons.mp h
    have hbindings := Bindable.bindings_bound s b
    have happly := apply_bind_of_mem (bind_mem_operations_bound s b) (hbindings ▸ hp) p.2
    rw [bindings, hbindings, Bindable.bound_bound] at happly
    show after (step (Bindable.bound s b) (.call (Bindable.bind S p.1 p.2))) (binds S rest) = _
    rw [step_call_of_ok happly]
    exact ih hrest

/-- **Any number of calls that bind**: those for referenced names have their effect, and where there
is none of these, nothing happens. -/
theorem after_binds {s : S} (hallowed : .bind ∈ operations s) (pairs : List (String × Value)) :
    after s (binds S pairs) =
      if (bindings s).known pairs = [] then s
      else Bindable.bound s ((bindings s).bindAll ((bindings s).known pairs)) := by
  have hknown : ∀ p ∈ (bindings s).known pairs, p.1 ∈ (bindings s).referenced :=
    fun p hp => (Bindings.mem_known_iff.mp hp).2
  rw [← after_accepted, accepted_binds hallowed]
  cases hpairs : (bindings s).known pairs with
  | nil => rfl
  | cons p rest =>
    rw [hpairs] at hknown
    obtain ⟨hp, hrest⟩ := List.forall_mem_cons.mp hknown
    have happly := apply_bind_of_mem hallowed hp p.2
    show after (step s (.call (Bindable.bind S p.1 p.2))) (binds S rest) = _
    rw [step_call_of_ok happly, if_neg (List.cons_ne_nil p rest)]
    exact after_binds_of_bound s hrest

/-- Such calls leave the names alone. -/
theorem referenced_after_binds {s : S} (hallowed : .bind ∈ operations s)
    (pairs : List (String × Value)) :
    (bindings (after s (binds S pairs))).referenced = (bindings s).referenced := by
  rw [after_binds hallowed]
  split
  next => rfl
  next =>
    rw [bindings, Bindable.bindings_bound]
    rfl

theorem get?_after_binds {s : S} (hallowed : .bind ∈ operations s)
    (pairs : List (String × Value)) (name : String) :
    (bindings (after s (binds S pairs))).get? name =
      ((bindings s).bindAll ((bindings s).known pairs)).get? name := by
  rw [after_binds hallowed]
  split
  next hnil =>
    rw [hnil]
    rfl
  next => rw [bindings, Bindable.bindings_bound]

/-- A statement that takes bindings goes on to take them. -/
theorem bind_mem_operations_after {s : S} (hallowed : .bind ∈ operations s)
    (pairs : List (String × Value)) : .bind ∈ operations (after s (binds S pairs)) := by
  rw [after_binds hallowed]
  split
  next => exact hallowed
  next => exact bind_mem_operations_bound s _

/-! ### What the calls come to -/

/-- **Of the values that are bound to a name the last one stands**, and nothing else is kept of the
calls that bind. -/
structure LastWins (s : S) : Prop where
  /-- Calls are all accepted if they all name referenced placeholders. -/
  accepted_iff : ∀ pairs, Builder.accepted s (binds S pairs) = binds S pairs ↔
    ∀ p ∈ pairs, p.1 ∈ (bindings s).referenced
  /-- A referenced name has the value that was bound to it last. -/
  last : ∀ pairs, ∀ name ∈ (bindings s).referenced, ∀ value,
    Members.LastGiven pairs name value →
    (bindings (after s (binds S pairs))).get? name = some value
  /-- Any other name keeps what it had. -/
  kept : ∀ pairs name, (name ∉ (bindings s).referenced ∨ name ∉ pairs.map Prod.fst) →
    (bindings (after s (binds S pairs))).get? name = (bindings s).get? name
  /-- The names themselves stay as they are. -/
  referenced : ∀ pairs, (bindings (after s (binds S pairs))).referenced = (bindings s).referenced
  /-- Once a value was bound, the statement can be bound again or executed. -/
  operations : ∀ pairs, (∃ p ∈ pairs, p.1 ∈ (bindings s).referenced) →
    Builder.operations (after s (binds S pairs)) = [.bind, .execute]
  /-- Calls that give the referenced names the same last values lead to the same statement. So it
  is compiled to the same text and values, has the same names bound and missing, and allows the same
  calls. -/
  same : ∀ pairs pairs', (∀ name ∈ (bindings s).referenced, ∀ value,
      Members.LastGiven pairs name value ↔ Members.LastGiven pairs' name value) →
    after s (binds S pairs) = after s (binds S pairs')
  /-- A name that is not referenced is reported wherever it comes. -/
  refused : ∀ pairs, ∀ name ∉ (bindings s).referenced, ∀ value,
    apply (after s (binds S pairs)) (Bindable.bind S name value) =
      .error (.unknownPlaceholder (callContext S .bind) name)
  /-- The calls behind it go on as if it had not been made. -/
  unchanged : ∀ pairs more, ∀ name ∉ (bindings s).referenced, ∀ value,
    after s (binds S (pairs ++ (name, value) :: more)) = after s (binds S (pairs ++ more))

/-- **The last values stand, and nothing else is kept.** -/
theorem lastWins_of_mem {s : S} (hallowed : .bind ∈ operations s) : LastWins s where
  accepted_iff pairs := by
    have hinjective : binds S ((bindings s).known pairs) = binds S pairs ↔
        (bindings s).known pairs = pairs := by
      refine ⟨fun h => ?_, fun h => by rw [h]⟩
      -- nothing says that other pairs make other calls, but the two lists are as long
      have hlength := congrArg List.length h
      rw [binds, binds, List.length_map, List.length_map] at hlength
      exact List.filter_sublist.eq_of_length hlength
    rw [accepted_binds hallowed, hinjective, Bindings.known_eq_self_iff]
  last pairs name hname value hlast := by
    rw [get?_after_binds hallowed]
    exact Bindings.get?_bindAll_of_lastGiven (Bindings.lastGiven_known_iff.mpr ⟨hname, hlast⟩)
  kept pairs name h := by
    rw [get?_after_binds hallowed]
    refine Bindings.get?_bindAll_of_not_mem fun hmem => ?_
    obtain ⟨p, hp, rfl⟩ := List.mem_map.mp hmem
    obtain ⟨hpairs, hreferenced⟩ := Bindings.mem_known_iff.mp hp
    exact h.elim (absurd hreferenced) (absurd (List.mem_map_of_mem hpairs))
  referenced := referenced_after_binds hallowed
  operations pairs := by
    rintro ⟨p, hp, hreferenced⟩
    have hknown : (bindings s).known pairs ≠ [] :=
      List.ne_nil_of_mem (Bindings.mem_known_iff.mpr ⟨hp, hreferenced⟩)
    rw [after_binds hallowed, if_neg hknown, Bindable.operations_bound]
  same pairs pairs' h := by
    rw [after_binds hallowed, after_binds hallowed, Bindings.bindAll_congr h]
    simp only [Bindings.known_eq_nil_congr h]
  refused pairs name hname value := by
    refine apply_bind_of_not_mem (bind_mem_operations_after hallowed pairs) ?_ value
    rwa [referenced_after_binds hallowed]
  unchanged pairs more name hname value := by
    have hknown : (bindings s).known (pairs ++ (name, value) :: more) =
        (bindings s).known (pairs ++ more) := by
      rw [Bindings.known_append, Bindings.known_append, Bindings.known_cons_of_not_mem hname]
    rw [after_binds hallowed, after_binds hallowed, hknown]

end TableSql.Builder
