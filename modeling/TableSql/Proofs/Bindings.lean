import TableSql.Bindings
import TableSql.Proofs.Members

/-!
# Names and values of placeholders

What the views of the bindings say after a change. Registered names come behind the others in the
order of their first appearance. Names and values are stored apart, and what keeps them together is
an invariant: only a referenced name has a value. Registering and binding keep it because they
forget nothing, and retaining keeps it because it forgets values along with their names.

## Main definitions

* `Bindings.Scoped` — only referenced names have values
* `Bindings.bindAll` — values bound one after another
* `Bindings.Alike` — the same names in some order, with the same values

## Main results

* `Bindings.referenced_register` — the names after some more were registered
* `Bindings.get?_register`, `Bindings.get?_retain` — values after a change of names
* `Bindings.Scoped.register`, `Bindings.Scoped.bind`, `Bindings.Scoped.retain` — the invariant after
  each change
* `Bindings.get?_bindAll_of_lastGiven`, `Bindings.get?_bindAll_of_not_mem` — the last value of a
  name stands
* `Bindings.bindAll_congr` — only the last values matter
* `Bindings.Alike.register`, `Bindings.Alike.retain`, `Bindings.Alike.bind` — what is alike is alike
  after each change
-/

namespace TableSql.Bindings

variable {b b' : Bindings} {name : String} {names : List String}

/-! ### Names -/

theorem nodup_add (h : b.referenced.Nodup) : (b.add name).referenced.Nodup := by
  by_cases hmem : name ∈ b.referenced
  · rwa [add_of_mem hmem]
  · rw [referenced_add_of_not_mem hmem, List.nodup_append]
    refine ⟨h, List.nodup_cons.mpr ⟨List.not_mem_nil, List.nodup_nil⟩, ?_⟩
    intro a ha c hc heq
    rw [List.mem_singleton.mp hc] at heq
    exact hmem (heq ▸ ha)

theorem nodup_register (h : b.referenced.Nodup) : (b.register names).referenced.Nodup := by
  induction names generalizing b with
  | nil => exact h
  | cons name rest ih => exact ih (nodup_add h)

/-- New names come behind the others, each where it first appears. -/
theorem referenced_register (b : Bindings) (names : List String) :
    (b.register names).referenced = b.referenced ++ (names.removeAll b.referenced).eraseDups := by
  induction names generalizing b with
  | nil => simp [register]
  | cons name rest ih =>
    have hstep : b.register (name :: rest) = (b.add name).register rest := rfl
    rw [hstep, ih]
    by_cases hmem : name ∈ b.referenced
    · rw [add_of_mem hmem]
      simp [List.removeAll, hmem]
    · rw [referenced_add_of_not_mem hmem]
      simp [List.removeAll, hmem, List.eraseDups_cons, List.filter_filter, Bool.and_comm]
      rfl

theorem referenced_register_of_eraseDups {earlier : List String}
    (h : b.referenced = earlier.eraseDups) :
    (b.register names).referenced = (earlier ++ names).eraseDups := by
  rw [referenced_register, h, List.eraseDups_append]
  simp [List.removeAll]

theorem nodup_of_eraseDups (h : b.referenced = names.eraseDups) : b.referenced.Nodup := by
  have hempty : (empty.register names).referenced = ([] ++ names).eraseDups :=
    referenced_register_of_eraseDups rfl
  rw [List.nil_append] at hempty
  rw [h, ← hempty]
  exact nodup_register List.nodup_nil

theorem nodup_retain (h : b.referenced.Nodup) : (b.retain names).referenced.Nodup := by
  rw [referenced_retain]
  exact h.filter _

/-! ### Values -/

theorem get?_add (b : Bindings) (name other : String) : (b.add other).get? name = b.get? name := by
  rw [add]
  split <;> rfl

/-- A name that is registered has no value yet, and others keep theirs. -/
theorem get?_register (b : Bindings) (names : List String) (name : String) :
    (b.register names).get? name = b.get? name := by
  induction names generalizing b with
  | nil => rfl
  | cons other rest ih =>
    have hstep : b.register (other :: rest) = (b.add other).register rest := rfl
    rw [hstep, ih, get?_add]

/-- What is retained keeps its value, and what is forgotten has none. -/
theorem get?_retain (b : Bindings) (names : List String) (name : String) :
    (b.retain names).get? name = if name ∈ names then b.get? name else none := by
  rw [get?, retain, Members.get?_filter]
  simp only [List.contains_iff_mem]
  rfl

/-- **Only referenced names have values.** -/
def Scoped (b : Bindings) : Prop :=
  ∀ name value, b.get? name = some value → name ∈ b.referenced

theorem scoped_empty : empty.Scoped :=
  fun _ _ h => nomatch h

theorem Scoped.register (h : b.Scoped) (names : List String) : (b.register names).Scoped := by
  intro name value hget
  rw [get?_register] at hget
  exact mem_referenced_register.mpr (.inl (h name value hget))

theorem Scoped.bind (h : b.Scoped) {value : Value} (hbind : b.bind? name value = some b') :
    b'.Scoped := by
  intro other v hget
  rw [referenced_bind hbind]
  by_cases hother : other = name
  · have hsome : (b.bind? name value).isSome := by rw [hbind]; rfl
    rw [hother]
    exact bind?_isSome_iff.mp hsome
  · rw [get?_bind_of_ne hbind hother] at hget
    exact h other v hget

/-- A value that is not retained goes with its name. -/
theorem Scoped.retain (h : b.Scoped) (names : List String) : (b.retain names).Scoped := by
  intro name value hget
  rw [get?_retain] at hget
  split at hget
  next hname =>
    rw [referenced_retain, List.mem_filter]
    exact ⟨h name value hget, List.contains_iff_mem.mpr hname⟩
  next => cases hget

theorem ensureComplete_eq_ok_iff {context : String} {u : Unit} :
    b.ensureComplete context = .ok u ↔ b.missing = [] := by
  rw [ensureComplete]
  split
  next h => exact iff_of_true rfl h
  next h => exact iff_of_false nofun h

/-! ### Values bound one after another -/

/-- The pairs whose names are referenced. -/
def known (b : Bindings) (pairs : List (String × Value)) : List (String × Value) :=
  pairs.filter fun p => b.referenced.contains p.1

/-- Binds values to names, one after another. -/
def bindAll (b : Bindings) (pairs : List (String × Value)) : Bindings :=
  { b with values := Members.insertAll pairs b.values }

theorem bind?_of_mem (h : name ∈ b.referenced) (value : Value) :
    b.bind? name value = some (b.bindAll [(name, value)]) :=
  if_pos (List.contains_iff_mem.mpr h)

theorem bind?_of_not_mem (h : name ∉ b.referenced) (value : Value) : b.bind? name value = none :=
  if_neg (mt List.contains_iff_mem.mp h)

section Pairs

variable {pairs pairs' : List (String × Value)}

theorem mem_known_iff {p : String × Value} :
    p ∈ b.known pairs ↔ p ∈ pairs ∧ p.1 ∈ b.referenced := by
  rw [known, List.mem_filter, List.contains_iff_mem]

theorem known_cons_of_mem {p : String × Value} (h : p.1 ∈ b.referenced) :
    b.known (p :: pairs) = p :: b.known pairs :=
  List.filter_cons_of_pos (List.contains_iff_mem.mpr h)

theorem known_cons_of_not_mem {p : String × Value} (h : p.1 ∉ b.referenced) :
    b.known (p :: pairs) = b.known pairs :=
  List.filter_cons_of_neg (mt List.contains_iff_mem.mp h)

theorem known_append : b.known (pairs ++ pairs') = b.known pairs ++ b.known pairs' :=
  List.filter_append ..

theorem known_congr (h : b.referenced = b'.referenced) : b.known pairs = b'.known pairs := by
  rw [known, known, h]

theorem known_eq_self_iff : b.known pairs = pairs ↔ ∀ p ∈ pairs, p.1 ∈ b.referenced := by
  simp only [known, List.filter_eq_self, List.contains_iff_mem]

/-- A name that is bound reads as the value that was bound last. -/
theorem get?_bindAll_of_lastGiven {value : Value} (h : Members.LastGiven pairs name value) :
    (b.bindAll pairs).get? name = some value := by
  rw [get?, bindAll, Members.get?_insertAll, Members.lastGiven_iff.mp h, Option.some_or]

/-- Another name keeps its value. -/
theorem get?_bindAll_of_not_mem (h : name ∉ pairs.map Prod.fst) :
    (b.bindAll pairs).get? name = b.get? name := by
  have hnone : Members.get? name pairs.reverse = none := by
    rwa [Members.get?_eq_none_iff, List.map_reverse, List.mem_reverse]
  rw [get?, bindAll, Members.get?_insertAll, hnone, Option.none_or]
  rfl

theorem lastGiven_known_iff {value : Value} : Members.LastGiven (b.known pairs) name value ↔
    name ∈ b.referenced ∧ Members.LastGiven pairs name value := by
  rw [known, Members.lastGiven_filter b.referenced.contains, List.contains_iff_mem]

variable (h : ∀ name ∈ b.referenced, ∀ value,
  Members.LastGiven pairs name value ↔ Members.LastGiven pairs' name value)

include h

/-- **Only the last values matter.** -/
theorem bindAll_congr : b.bindAll (b.known pairs) = b.bindAll (b.known pairs') := by
  have hvalues : Members.insertAll (b.known pairs) b.values =
      Members.insertAll (b.known pairs') b.values := by
    refine Members.insertAll_congr (fun name value => ?_) b.values
    rw [lastGiven_known_iff, lastGiven_known_iff]
    exact and_congr_right fun hname => h name hname value
  rw [bindAll, bindAll, hvalues]

/-- The same names are bound, so none is bound by the one if none is by the other. -/
theorem known_eq_nil_congr : b.known pairs = [] ↔ b.known pairs' = [] := by
  have hnames : ∀ pairs, b.known pairs = [] ↔
      ∀ name ∈ b.referenced, ¬ ∃ value, Members.LastGiven pairs name value := by
    intro pairs
    simp only [Members.exists_lastGiven_iff, List.mem_map, known, List.filter_eq_nil_iff,
      List.contains_iff_mem]
    exact ⟨fun hall name hname ⟨p, hp, heq⟩ => hall p hp (heq ▸ hname),
      fun hall p hp hname => hall p.1 hname ⟨p, hp, rfl⟩⟩
  rw [hnames, hnames]
  exact forall₂_congr fun name hname => not_congr (exists_congr (h name hname))

end Pairs

/-! ### Names in another order -/

/-- **The names are the same, in some order, and have the same values.** -/
structure Alike (b b' : Bindings) : Prop where
  mem_referenced_iff : ∀ name, name ∈ b.referenced ↔ name ∈ b'.referenced
  get?_eq : ∀ name, b.get? name = b'.get? name

namespace Alike

theorem register (h : b.Alike b') (names : List String) :
    (b.register names).Alike (b'.register names) := by
  refine ⟨fun name => ?_, fun name => ?_⟩
  · rw [mem_referenced_register, mem_referenced_register, h.mem_referenced_iff]
  · rw [get?_register, get?_register, h.get?_eq]

theorem retain (h : b.Alike b') (names : List String) :
    (b.retain names).Alike (b'.retain names) := by
  refine ⟨fun name => ?_, fun name => ?_⟩
  · rw [referenced_retain, referenced_retain, List.mem_filter, List.mem_filter,
      h.mem_referenced_iff]
  · rw [get?_retain, get?_retain, h.get?_eq]

/-- The order of the names does not matter to a value that is bound to one of them. -/
theorem bind (h : b.Alike b') (name : String) (value : Value) :
    (b.bind? name value = none ∧ b'.bind? name value = none) ∨
      ∃ c c', b.bind? name value = some c ∧ b'.bind? name value = some c' ∧ c.Alike c' := by
  have hsome : (b.bind? name value).isSome = (b'.bind? name value).isSome := by
    rw [Bool.eq_iff_iff, bind?_isSome_iff, bind?_isSome_iff, h.mem_referenced_iff]
  cases hb : b.bind? name value with
  | none =>
    rw [hb] at hsome
    exact .inl ⟨rfl, Option.isNone_iff_eq_none.mp (Option.isSome_eq_false_iff.mp hsome.symm)⟩
  | some c =>
    rw [hb] at hsome
    obtain ⟨c', hb'⟩ := Option.isSome_iff_exists.mp hsome.symm
    refine .inr ⟨c, c', rfl, hb', fun other => ?_, fun other => ?_⟩
    · rw [referenced_bind hb, referenced_bind hb', h.mem_referenced_iff]
    · by_cases hother : other = name
      · rw [hother, get?_bind_self hb, get?_bind_self hb']
      · rw [get?_bind_of_ne hb hother, get?_bind_of_ne hb' hother, h.get?_eq]

/-- A name without a value is missing whatever the order. -/
theorem missing_eq_nil_iff (h : b.Alike b') : b.missing = [] ↔ b'.missing = [] := by
  simp only [missing, List.filter_eq_nil_iff, h.mem_referenced_iff, h.get?_eq]

end Alike

end TableSql.Bindings
