import TableSql.Proofs.Members
import TableSql.Result.Row

/-!
# Looking up the values of a row

A value of a row is found by its position, by the name of its column, or in the row's JSON object.
The names and the values of a row may differ in number and names may repeat, and then the three do
not find the same: a name that repeats is refused, while the object has its last value, and a name
without a value is known, but has no member. What they do find they agree on.

## Main definitions

* `Row.Carries`, `Row.Repeats` — the places of a name, and a name with several
* `Row.Found` — the value of a name that has a single place
* `Row.LookupsAgree` — what the lookups of a row find

## Main results

* `Row.mem_indexesOf_iff` — the places that are searched
* `Row.field_eq_ok_iff`, `Row.field_eq_error_iff` — a value by its name
* `Row.get?_members_iff` — a value in the object
* `Row.lookups_agree`
-/

namespace TableSql.Row

variable (r : Row) (name : String)

/-- The column at this place has the name. -/
def Carries (i : Nat) : Prop :=
  r.names[i]? = some name

/-- More than one column has the name. -/
def Repeats : Prop :=
  ∃ i j, i ≠ j ∧ r.Carries name i ∧ r.Carries name j

/-- One column has the name, and this is its value. -/
def Found (v : Value) : Prop :=
  ∃ i, r.Carries name i ∧ (∀ j, r.Carries name j → j = i) ∧ r.get? i = some v

variable {r name}

/-! ### By name -/

theorem mem_indexesOf_iff {i : Nat} : i ∈ r.indexesOf name ↔ r.Carries name i := by
  rw [indexesOf, List.mem_filter, List.mem_range, beq_iff_eq]
  refine and_iff_right_of_imp fun h => ?_
  exact (List.getElem?_eq_some_iff.mp h).1

theorem nodup_indexesOf : (r.indexesOf name).Nodup :=
  List.nodup_range.filter _

/-- **The places of a name**: none, a single one, or several. -/
theorem indexesOf_cases (r : Row) (name : String) :
    (r.indexesOf name = [] ∧ ∀ i, ¬ r.Carries name i) ∨
    (∃ i, r.indexesOf name = [i] ∧ r.Carries name i ∧ ∀ j, r.Carries name j → j = i) ∨
    (∃ i j rest, r.indexesOf name = i :: j :: rest ∧ r.Repeats name) := by
  have hmem : ∀ i, r.Carries name i ↔ i ∈ r.indexesOf name := fun i => mem_indexesOf_iff.symm
  have hnodup : (r.indexesOf name).Nodup := nodup_indexesOf
  rcases hplaces : r.indexesOf name with _ | ⟨i, _ | ⟨j, rest⟩⟩
  · refine .inl ⟨rfl, fun i hi => ?_⟩
    rw [hmem, hplaces] at hi
    cases hi
  · refine .inr (.inl ⟨i, rfl, ?_, fun j hj => ?_⟩)
    · rw [hmem, hplaces]
      exact List.mem_singleton_self i
    · rw [hmem, hplaces] at hj
      exact List.mem_singleton.mp hj
  · rw [hplaces] at hnodup
    have hne : i ≠ j := fun h => (List.nodup_cons.mp hnodup).1 (h ▸ List.mem_cons_self)
    refine .inr (.inr ⟨i, j, rest, rfl, i, j, hne, ?_, ?_⟩)
    · rw [hmem, hplaces]
      exact List.mem_cons_self
    · rw [hmem, hplaces]
      exact List.mem_cons_of_mem i List.mem_cons_self

/-- A name that repeats has no single place. -/
theorem not_repeats {i : Nat} (h : ∀ j, r.Carries name j → j = i) : ¬ r.Repeats name := by
  rintro ⟨j, k, hne, hj, hk⟩
  exact hne ((h j hj).trans (h k hk).symm)

theorem Found.not_repeats {v : Value} (h : r.Found name v) : ¬ r.Repeats name := by
  obtain ⟨i, -, hunique, -⟩ := h
  exact Row.not_repeats hunique

/-- **What is found by name**: the value of the single place, and otherwise an error that tells
whether there are several places or no value. -/
theorem field_cases (r : Row) (name : String) :
    (∃ v, r.field name = .ok v ∧ r.Found name v) ∨
    (r.field name = .error (.ambiguousColumn name) ∧ r.Repeats name) ∨
    (r.field name = .error (.columnNotFound name) ∧ ¬ r.Repeats name ∧
      ∀ i, r.Carries name i → r.get? i = none) := by
  rcases r.indexesOf_cases name with
    ⟨hplaces, hnone⟩ | ⟨i, hplaces, hi, hunique⟩ | ⟨i, j, rest, hplaces, hrepeats⟩
  · refine .inr (.inr ⟨by simp only [field, hplaces], ?_, fun i hi => absurd hi (hnone i)⟩)
    rintro ⟨i, -, -, hi, -⟩
    exact hnone i hi
  · cases hget : r.get? i with
    | some v => exact .inl ⟨v, by simp only [field, hplaces, hget], i, hi, hunique, hget⟩
    | none =>
      refine .inr (.inr ⟨by simp only [field, hplaces, hget], not_repeats hunique, fun j hj => ?_⟩)
      rw [hunique j hj, hget]
  · exact .inr (.inl ⟨by simp only [field, hplaces], hrepeats⟩)

theorem Found.eq {v w : Value} (hv : r.Found name v) (hw : r.Found name w) : v = w := by
  obtain ⟨i, hi, hunique, hget⟩ := hv
  obtain ⟨j, hj, -, hget'⟩ := hw
  rw [hunique j hj, hget] at hget'
  exact Option.some.inj hget'

theorem field_eq_ok_iff {v : Value} : r.field name = .ok v ↔ r.Found name v := by
  rcases r.field_cases name with ⟨w, hfield, hw⟩ | ⟨hfield, hrepeats⟩ | ⟨hfield, -, hnone⟩
  · rw [hfield, Except.ok.injEq]
    exact ⟨fun h => h ▸ hw, fun h => hw.eq h⟩
  · rw [hfield]
    exact iff_of_false nofun fun h => h.not_repeats hrepeats
  · rw [hfield]
    refine iff_of_false nofun ?_
    rintro ⟨i, hi, -, hget⟩
    cases hget.symm.trans (hnone i hi)

theorem field_eq_error_iff {e : Error} : r.field name = .error e ↔
    r.Repeats name ∧ e = .ambiguousColumn name ∨
      (¬ r.Repeats name ∧ (∀ v, ¬ r.Found name v)) ∧ e = .columnNotFound name := by
  rcases r.field_cases name with ⟨w, hfield, hw⟩ | ⟨hfield, hrepeats⟩ | ⟨hfield, hnot, hnone⟩
  · rw [hfield]
    refine iff_of_false nofun ?_
    rintro (⟨hrepeats, -⟩ | ⟨⟨-, hnone⟩, -⟩)
    · exact hw.not_repeats hrepeats
    · exact hnone w hw
  · rw [hfield, Except.error.injEq, eq_comm]
    simp [hrepeats]
  · have hfound : ∀ v, ¬ r.Found name v := by
      rintro v ⟨i, hi, -, hget⟩
      cases hget.symm.trans (hnone i hi)
    rw [hfield, Except.error.injEq, eq_comm]
    simp [hnot, hfound]

/-! ### In the JSON object -/

variable (r name) in
/-- This is the last value of the name: of its places that have a value, the last one has this. -/
def LastValue (v : Value) : Prop :=
  ∃ i < min r.names.length r.values.length, r.Carries name i ∧ r.get? i = some v ∧
    ∀ j < min r.names.length r.values.length, i < j → ¬ r.Carries name j

/-- The names and the values in pairs, as far as there are both. -/
def pairs (r : Row) : List (String × Json) :=
  (r.names.zip r.values).map fun m => (m.1, m.2.toJson)

/-- The members of the row's object. -/
def members (r : Row) : List (String × Json) :=
  Members.ofList r.pairs

theorem getElem?_pairs {i : Nat} {json : Json} : r.pairs[i]? = some (name, json) ↔
    r.Carries name i ∧ ∃ v, r.get? i = some v ∧ json = v.toJson := by
  rw [pairs, List.getElem?_map, Option.map_eq_some_iff]
  constructor
  · rintro ⟨⟨key, v⟩, hzip, heq⟩
    cases heq
    obtain ⟨hname, hvalue⟩ := List.getElem?_zip_eq_some.mp hzip
    exact ⟨hname, v, hvalue, rfl⟩
  · rintro ⟨hname, v, hvalue, rfl⟩
    exact ⟨(name, v), List.getElem?_zip_eq_some.mpr ⟨hname, hvalue⟩, rfl⟩

/-- A place has a pair if it has a name and a value. -/
theorem exists_getElem?_pairs_iff {i : Nat} : (∃ json, r.pairs[i]? = some (name, json)) ↔
    i < min r.names.length r.values.length ∧ r.Carries name i := by
  simp only [getElem?_pairs]
  constructor
  · rintro ⟨-, hname, v, hvalue, -⟩
    have hi := (List.getElem?_eq_some_iff.mp hname).1
    exact ⟨Nat.lt_min.mpr ⟨hi, (List.getElem?_eq_some_iff.mp hvalue).1⟩, hname⟩
  · rintro ⟨hlt, hname⟩
    exact ⟨_, hname, _, List.getElem?_eq_getElem (Nat.lt_min.mp hlt).2, rfl⟩

/-- **A member of the object has the last value of its name.** -/
theorem get?_members_iff {json : Json} : Members.get? name r.members = some json ↔
    ∃ v, r.LastValue name v ∧ json = v.toJson := by
  rw [members, Members.get?_ofList_eq_some_iff, Members.lastGiven_iff_getElem?]
  have hlater : ∀ j, (∀ other, r.pairs[j]? ≠ some (name, other)) ↔
      (j < min r.names.length r.values.length → ¬ r.Carries name j) := by
    intro j
    rw [← not_exists, exists_getElem?_pairs_iff, not_and]
  constructor
  · rintro ⟨i, hi, hlast⟩
    obtain ⟨hname, v, hvalue, rfl⟩ := getElem?_pairs.mp hi
    refine ⟨v, ⟨i, (exists_getElem?_pairs_iff.mp ⟨_, hi⟩).1, hname, hvalue, ?_⟩, rfl⟩
    exact fun j hj hij => (hlater j).mp (hlast j hij) hj
  · rintro ⟨v, ⟨i, -, hname, hvalue, hlast⟩, rfl⟩
    refine ⟨i, getElem?_pairs.mpr ⟨hname, v, hvalue, rfl⟩, fun j hij => ?_⟩
    exact (hlater j).mpr fun hj => hlast j hj hij

/-- A name has a member if it has a place with a value. -/
theorem mem_keys_members_iff : name ∈ r.members.map Prod.fst ↔
    ∃ i < min r.names.length r.values.length, r.Carries name i := by
  rw [members, Members.mem_keys_ofList, List.mem_map]
  constructor
  · rintro ⟨⟨key, json⟩, hm, rfl⟩
    obtain ⟨i, hi⟩ := List.getElem?_of_mem hm
    exact ⟨i, exists_getElem?_pairs_iff.mp ⟨json, hi⟩⟩
  · rintro ⟨i, hi⟩
    obtain ⟨json, hjson⟩ := exists_getElem?_pairs_iff.mpr hi
    exact ⟨_, List.mem_of_getElem? hjson, rfl⟩

/-! ### Both ways -/

/-- The value of a single place is the last value. -/
theorem Found.lastValue {v : Value} (h : r.Found name v) : r.LastValue name v := by
  obtain ⟨i, hi, hunique, hget⟩ := h
  refine ⟨i, Nat.lt_min.mpr ⟨?_, ?_⟩, hi, hget, fun j _ hij hj => ?_⟩
  · exact (List.getElem?_eq_some_iff.mp hi).1
  · exact (List.getElem?_eq_some_iff.mp hget).1
  · exact Nat.ne_of_gt hij (hunique j hj)

/-- **The lookups of a row agree.** Where a name finds a value, the object has that value for it,
and where a name finds nothing, the object has nothing for it. -/
structure LookupsAgree (r : Row) : Prop where
  /-- A name finds the value of its single place. -/
  field_eq_ok_iff : ∀ name v, r.field name = .ok v ↔ r.Found name v
  /-- A name with several places is refused, even where one of them has no value. -/
  field_eq_ambiguous_iff : ∀ name,
    r.field name = .error (.ambiguousColumn name) ↔ r.Repeats name
  /-- Otherwise nothing is found, and there are no other errors. -/
  field_eq_error_iff : ∀ name e, r.field name = .error e ↔
    r.Repeats name ∧ e = .ambiguousColumn name ∨
      (¬ r.Repeats name ∧ ∀ v, ¬ r.Found name v) ∧ e = .columnNotFound name
  toJson_eq : r.toJson = .object r.members
  /-- The object has the members of the names that have a value, each with the last one. -/
  mem_keys_iff : ∀ name, name ∈ r.members.map Prod.fst ↔
    ∃ i < min r.names.length r.values.length, r.Carries name i
  mem_members_iff : ∀ name json, (name, json) ∈ r.members ↔
    ∃ v, r.LastValue name v ∧ json = v.toJson
  /-- There is one member for a name. -/
  nodup_keys : (r.members.map Prod.fst).Nodup
  /-- What a name finds is found in the object. -/
  member_of_ok : ∀ name v, r.field name = .ok v → (name, v.toJson) ∈ r.members
  /-- What it does not find is not in the object. -/
  not_mem_of_error : ∀ name, r.field name = .error (.columnNotFound name) →
    name ∉ r.members.map Prod.fst

/-- **Name lookup, positional lookup and JSON rendering agree**, for every row. -/
theorem lookups_agree (r : Row) : LookupsAgree r := by
  have hordered : Members.Ordered r.members := Members.ordered_ofList r.pairs
  have hmem : ∀ name json, (name, json) ∈ r.members ↔
      ∃ v, r.LastValue name v ∧ json = v.toJson := by
    intro name json
    rw [← hordered.get?_eq_some_iff, get?_members_iff]
  refine ⟨fun _ _ => Row.field_eq_ok_iff, ?_, fun _ _ => Row.field_eq_error_iff, rfl,
    fun _ => mem_keys_members_iff, hmem, hordered.nodup, ?_, ?_⟩
  · intro name
    simp [Row.field_eq_error_iff]
  · intro name v hfield
    exact (hmem name v.toJson).mpr ⟨v, (Row.field_eq_ok_iff.mp hfield).lastValue, rfl⟩
  · intro name hfield hkey
    obtain ⟨i, hi, hname⟩ := mem_keys_members_iff.mp hkey
    rcases r.field_cases name with ⟨v, hok, -⟩ | ⟨hambiguous, -⟩ | ⟨-, -, hnone⟩
    · cases hfield.symm.trans hok
    · cases hfield.symm.trans hambiguous
    · have hvalue := List.getElem?_eq_getElem (Nat.lt_min.mp hi).2
      cases hvalue.symm.trans (hnone i hname)

/-- A name that repeats, a name with one value, and a name without any. -/
example :
    let r : Row := ⟨["a", "b", "a", "c"], [.null, .bool true, .bool false]⟩
    r.field "a" = .error (.ambiguousColumn "a") ∧ r.field "b" = .ok (.bool true) ∧
      r.field "c" = .error (.columnNotFound "c") ∧
      r.toJson = .object [("a", .bool false), ("b", .bool true)] :=
  ⟨rfl, rfl, rfl, rfl⟩

end TableSql.Row
