import TableSql.Catalog
import TableSql.Proofs.Argument
import TableSql.Proofs.Builder.Guarded

/-!
# Lists of columns given as values

Columns and criteria may be given as values whose type is only known when the call is made. They are
first taken for texts, all of them, and then the texts are checked. So there are three things that
may be wrong, in this order wherever they stand in the list: a value that is no text, a list
without entries, and a blank text.

Factories and calls do different things with the texts, but none of them looks at the values again.
What holds of the check therefore holds of all of them. The statements that can be sorted do the
same with their criteria, so sorting is one kind of call here, of which each statement has its own.

## Main definitions

* `ColumnList.Accepted`, `ColumnList.Rejected` — values that are texts, and what is wrong with
  others
* `TakesLists`, `CallTakesLists` — a factory or a call takes lists of values as it takes lists of
  texts
* `Builder.Ordered` — a kind of statement that is sorted by a call

## Main results

* `ColumnList.accepted_or_rejected` — there is something wrong with values, or they are texts
* `ColumnList.toTexts_values_eq_ok_iff`, `ColumnList.toTexts_values_eq_error_iff` — the check
* `takesLists_of_eq`, `callTakesLists_of_made` — whatever goes by the check takes lists as it should
* `takesLists_orderBy` — sorting does
* `value_lists_checked` — all factories and calls do
-/

namespace TableSql

namespace ColumnList

/-! ### The check -/

/-- The values are texts, there are some, and none is blank. -/
def Accepted (values : List Value) (found : List String) : Prop :=
  values = found.map .text ∧ found ≠ [] ∧ ∀ text ∈ found, Text.isBlank text = false

/-- What is wrong with values that are to be texts, and what is said of it. Positions are counted
from one in what is said. -/
inductive Rejected (criteria : Criteria) : List Value → ArgumentFault → String → Prop where
  /-- The first value that is no text, whatever the texts before it are. -/
  | notText {before : List String} {v : Value} {after : List Value} : v.asText? = none →
    Rejected criteria (before.map .text ++ v :: after) (.elementNotText before.length)
      ("Element #" ++ decimal (before.length + 1) ++ " is expected to be a string")
  | empty : Rejected criteria [] (.noElements criteria) (criteria.title ++ " can not be empty")
  /-- The first blank text, where all values are texts. -/
  | blank {before after : List String} {text : String} :
    (∀ t ∈ before, Text.isBlank t = false) → Text.isBlank text = true →
    Rejected criteria ((before ++ text :: after).map .text) (.blankElement before.length)
      ("Element #" ++ decimal (before.length + 1) ++ " is expected to be a non-empty string")

variable {context : String} {criteria : Criteria} {values : List Value}

/-- What is said is the message of the fault. -/
theorem Rejected.message {fault : ArgumentFault} {said : String}
    (h : Rejected criteria values fault said) : fault.message = said := by
  cases h <;> rfl

/-- All values are texts, or there is a first one that is not. -/
theorem texts_or_first_other (values : List Value) :
    (∃ found : List String, values = found.map .text) ∨
      ∃ (before : List String) (v : Value) (after : List Value),
        values = before.map .text ++ v :: after ∧ v.asText? = none := by
  induction values with
  | nil => exact .inl ⟨[], rfl⟩
  | cons v rest ih =>
    by_cases hv : v.asText? = none
    · exact .inr ⟨[], v, rest, rfl, hv⟩
    · obtain ⟨text, htext⟩ := Option.ne_none_iff_exists'.mp hv
      obtain rfl : v = .text text := by
        cases v <;> cases htext
        rfl
      rcases ih with ⟨found, rfl⟩ | ⟨before, w, after, rfl, hw⟩
      · exact .inl ⟨text :: found, rfl⟩
      · exact .inr ⟨text :: before, w, after, rfl, hw⟩

/-- **There is something wrong with values, or they are texts that are accepted.** -/
theorem accepted_or_rejected (criteria : Criteria) (values : List Value) :
    (∃ found, Accepted values found) ∨ ∃ fault said, Rejected criteria values fault said := by
  rcases texts_or_first_other values with ⟨found, rfl⟩ | ⟨before, v, after, rfl, hv⟩
  · cases hblank : found.find? Text.isBlank with
    | some text =>
      obtain ⟨htext, before, after, rfl, hbefore⟩ := List.find?_eq_some_iff_append.mp hblank
      have hbefore : ∀ t ∈ before, Text.isBlank t = false := by simpa using hbefore
      exact .inr ⟨_, _, .blank hbefore htext⟩
    | none =>
      cases found with
      | nil => exact .inr ⟨_, _, .empty⟩
      | cons text rest =>
        have hnone : ∀ t ∈ text :: rest, Text.isBlank t = false := by
          simpa using List.find?_eq_none.mp hblank
        exact .inl ⟨text :: rest, rfl, List.cons_ne_nil _ _, hnone⟩
  · exact .inr ⟨_, _, .notText hv⟩

theorem textsFrom_map_text (context : String) (index : Nat) (found : List String) :
    textsFrom context index (found.map .text) = .ok found := by
  induction found generalizing index with
  | nil => rfl
  | cons text rest ih => rw [List.map_cons, textsFrom, ih]

theorem textsFrom_of_other (context : String) (index : Nat) (before : List String) {v : Value}
    (hv : v.asText? = none) (after : List Value) :
    textsFrom context index (before.map .text ++ v :: after) =
      .error (.invalidArgument context (.elementNotText (index + before.length))) := by
  induction before generalizing index with
  | nil =>
    cases v with
    | text s => cases hv
    | _ => rfl
  | cons text rest ih =>
    rw [List.map_cons, List.cons_append, textsFrom, ih, List.length_cons, Nat.add_right_comm,
      Nat.add_assoc]

/-- Values that are texts are checked as these texts are. -/
theorem toTexts_map_text (context : String) (criteria : Criteria) (found : List String) :
    (ColumnList.values (found.map .text)).toTexts context criteria =
      (ColumnList.texts found).toTexts context criteria := by
  rw [toTexts, toTexts, entries, entries, textsFrom_map_text]

theorem toTexts_of_accepted {found : List String} (h : Accepted values found) :
    (ColumnList.values values).toTexts context criteria = .ok found := by
  obtain ⟨rfl, hne, hblank⟩ := h
  rw [toTexts_map_text]
  exact toTexts_texts_eq_ok_iff.mpr ⟨hne, hblank, rfl⟩

theorem toTexts_of_rejected {fault : ArgumentFault} {said : String}
    (h : Rejected criteria values fault said) :
    (ColumnList.values values).toTexts context criteria =
      .error (.invalidArgument context fault) := by
  cases h with
  | notText hv =>
    rw [toTexts, entries, textsFrom_of_other context 0 _ hv, Nat.zero_add]
  | empty => rfl
  | blank hbefore htext =>
    rw [toTexts_map_text]
    exact toTexts_texts_eq_error hbefore htext

theorem toTexts_values_eq_ok_iff {found : List String} :
    (ColumnList.values values).toTexts context criteria = .ok found ↔ Accepted values found := by
  refine ⟨fun h => ?_, toTexts_of_accepted⟩
  rcases accepted_or_rejected criteria values with ⟨other, hother⟩ | ⟨fault, said, hfault⟩
  · rw [toTexts_of_accepted hother] at h
    rwa [← Except.ok.inj h]
  · rw [toTexts_of_rejected hfault] at h
    cases h

theorem toTexts_values_eq_error_iff {e : Error} :
    (ColumnList.values values).toTexts context criteria = .error e ↔
      ∃ fault said, Rejected criteria values fault said ∧ e = .invalidArgument context fault := by
  constructor
  · intro h
    rcases accepted_or_rejected criteria values with ⟨found, hfound⟩ | ⟨fault, said, hfault⟩
    · rw [toTexts_of_accepted hfound] at h
      cases h
    · rw [toTexts_of_rejected hfault] at h
      exact ⟨fault, said, hfault, (Except.error.inj h).symm⟩
  · rintro ⟨fault, said, hfault, rfl⟩
    exact toTexts_of_rejected hfault

end ColumnList

/-! ### Factories and calls -/

/-- A factory or a call takes lists of values as it takes lists of texts. Of each text it keeps what
`read` makes of it. -/
structure TakesLists {S α : Type} (context : String) (criteria : Criteria)
    (take : ColumnList → Except Error S) (stored : S → List α) (read : String → α) : Prop where
  /-- It succeeds if there are values, and if all of them are texts that are not blank. -/
  exists_ok_iff : ∀ values, (∃ s, take (.values values) = .ok s) ↔
    values ≠ [] ∧ ∀ v ∈ values, ∃ text, v = .text text ∧ Text.isBlank text = false
  /-- It then keeps the texts in their order, and does what it does with the texts themselves. -/
  stored_eq : ∀ values s, take (.values values) = .ok s → ∃ found, values = found.map .text ∧
    stored s = found.map read ∧ take (.texts found) = .ok s
  /-- Otherwise it reports what is wrong with the values. -/
  error_iff : ∀ values e, take (.values values) = .error e ↔ ∃ fault said,
    ColumnList.Rejected criteria values fault said ∧ e = .invalidArgument context fault ∧
      e.message = context ++ ": " ++ said

/-- A call on a statement takes lists so, and leaves the statement as it was where it reports
something. -/
structure CallTakesLists {S Start Call α : Type} [Builder S Start Call] (context : String)
    (criteria : Criteria) (s : S) (call : ColumnList → Call) (stored : S → List α)
    (read : String → α) : Prop
    extends TakesLists context criteria (fun columns => Builder.apply s (call columns)) stored
      read where
  step_eq : ∀ values e, Builder.apply s (call (.values values)) = .error e →
    Builder.step s (.call (call (.values values))) = s

/-- **Whatever goes by the check takes lists as it should.** -/
theorem takesLists_of_eq {S α : Type} {context : String} {criteria : Criteria}
    {take : ColumnList → Except Error S} {stored : S → List α} {read : String → α}
    {f : List String → S}
    (htake : ∀ columns, take columns = (columns.toTexts context criteria).map f)
    (hput : ∀ found, stored (f found) = found.map read) :
    TakesLists context criteria take stored read where
  exists_ok_iff values := by
    simp only [htake, Outcome.map_eq_ok_iff, ColumnList.toTexts_values_eq_ok_iff]
    constructor
    · rintro ⟨_, found, ⟨rfl, hne, hblank⟩, -⟩
      refine ⟨fun hnil => hne (List.map_eq_nil_iff.mp hnil), fun v hv => ?_⟩
      obtain ⟨text, htext, rfl⟩ := List.mem_map.mp hv
      exact ⟨text, rfl, hblank text htext⟩
    · rintro ⟨hne, hall⟩
      rcases ColumnList.accepted_or_rejected criteria values with
        ⟨found, hfound⟩ | ⟨fault, said, hrejected⟩
      · exact ⟨f found, found, hfound, rfl⟩
      · -- each fault is at odds with one of the two conditions
        cases hrejected with
        | notText hv =>
          obtain ⟨text, rfl, -⟩ := hall _ (List.mem_append_right _ List.mem_cons_self)
          cases hv
        | empty => exact absurd rfl hne
        | @blank before after text hbefore htext =>
          obtain ⟨other, hother, hnot⟩ := hall (.text text) (by simp)
          cases hother
          cases htext.symm.trans hnot
  stored_eq values s h := by
    rw [htake, Outcome.map_eq_ok_iff] at h
    obtain ⟨found, hfound, rfl⟩ := h
    obtain ⟨rfl, hne, hblank⟩ := ColumnList.toTexts_values_eq_ok_iff.mp hfound
    refine ⟨found, rfl, hput found, ?_⟩
    rw [htake, ← ColumnList.toTexts_map_text, hfound]
    rfl
  error_iff values e := by
    rw [htake, Outcome.map_eq_error_iff, ColumnList.toTexts_values_eq_error_iff]
    constructor
    · rintro ⟨fault, said, hfault, rfl⟩
      exact ⟨fault, said, hfault, rfl, congrArg (context ++ ": " ++ ·) hfault.message⟩
    · rintro ⟨fault, said, hfault, he, -⟩
      exact ⟨fault, said, hfault, he⟩

open Builder (Guarded Named callContext operations)

section Calls

variable {S Start Call α : Type} [Builder S Start Call] [Named Call] [Guarded S Start Call]

/-- **A call that is on offer takes lists as it should** if what it does goes by the check. -/
theorem callTakesLists_of_made {op : Operation} {criteria : Criteria} {s : S}
    {call : ColumnList → Call} {stored : S → List α} {read : String → α} {f : List String → S}
    (hallowed : op ∈ operations s) (hop : ∀ columns, Named.operation (call columns) = op)
    (hmade : ∀ context columns, Guarded.made s context (call columns) =
      (columns.toTexts context criteria).map f)
    (hput : ∀ found, stored (f found) = found.map read) :
    CallTakesLists (callContext S op) criteria s call stored read where
  toTakesLists := by
    refine takesLists_of_eq (fun columns => ?_) hput
    rw [Builder.apply_of_mem (hop columns ▸ hallowed), hop, hmade]
  step_eq _ _ h := Builder.step_call_of_error h

/-- A kind of statement that is sorted by a call. -/
class Builder.Ordered (S : Type) (Start Call : outParam Type) [Builder S Start Call] [Named Call]
    [Guarded S Start Call] where
  /-- The call that sorts. -/
  orderBy : ColumnList → Call
  /-- The criteria of the statement. -/
  ordering : S → List OrderCriterion
  /-- The statement with other criteria, after a call that sorts. -/
  sorted : S → List OrderCriterion → S
  ordering_sorted : ∀ s criteria, ordering (sorted s criteria) = criteria
  operation_orderBy : ∀ columns, Named.operation (orderBy columns) = .orderBy
  made_orderBy : ∀ s context columns, Guarded.made s context (orderBy columns) =
    (orderCriteria context columns).map (sorted s)

/-- **Criteria are taken as lists should be**, and are read from the checked texts one by one. -/
theorem takesLists_orderBy [Builder.Ordered S Start Call] {s : S} (h : .orderBy ∈ operations s) :
    CallTakesLists (callContext S .orderBy) .ordering s (Builder.Ordered.orderBy S)
      Builder.Ordered.ordering OrderCriterion.parse := by
  refine callTakesLists_of_made
    (f := fun found => Builder.Ordered.sorted s (found.map OrderCriterion.parse)) h
    Builder.Ordered.operation_orderBy (fun context columns => ?_)
    fun found => Builder.Ordered.ordering_sorted s _
  rw [Builder.Ordered.made_orderBy, orderCriteria]
  cases columns.toTexts context .ordering <;> rfl

end Calls

instance : Builder.Ordered SelectStatement SelectStatement.Start SelectStatement.Call where
  orderBy := .orderBy
  ordering := SelectStatement.ordering
  sorted s criteria := { s with ordering := criteria, stage := .orderBy }
  ordering_sorted _ _ := rfl
  operation_orderBy _ := rfl
  made_orderBy s context columns := by
    show (SelectStatement.perform s context (.orderBy columns)).map _ = _
    rw [SelectStatement.perform]
    cases orderCriteria context columns <;> rfl

instance : Builder.Ordered UpdateStatement TableRef UpdateStatement.Call where
  orderBy := .orderBy
  ordering := UpdateStatement.ordering
  sorted s criteria := { s with ordering := criteria, stage := .orderBy }
  ordering_sorted _ _ := rfl
  operation_orderBy _ := rfl
  made_orderBy s context columns := by
    show (UpdateStatement.perform s context (.orderBy columns)).map _ = _
    rw [UpdateStatement.perform]
    cases orderCriteria context columns <;> rfl

instance : Builder.Ordered DeleteStatement TableRef DeleteStatement.Call where
  orderBy := .orderBy
  ordering := DeleteStatement.ordering
  sorted s criteria := { s with ordering := criteria, stage := .orderBy }
  ordering_sorted _ _ := rfl
  operation_orderBy _ := rfl
  made_orderBy s context columns := by
    show (DeleteStatement.perform s context (.orderBy columns)).map _ = _
    rw [DeleteStatement.perform]
    cases orderCriteria context columns <;> rfl

theorem SelectStatement.takesLists_groupBy {s : SelectStatement} (h : .groupBy ∈ s.operations) :
    CallTakesLists "TableSelect.group_by" .grouping s .groupBy SelectStatement.grouping id := by
  refine callTakesLists_of_made (S := SelectStatement)
    (f := fun grouping => { s with grouping, stage := .groupBy }) h (fun _ => rfl)
    (fun context columns => ?_) fun found => (List.map_id found).symm
  show (perform s context (.groupBy columns)).map _ = _
  rw [perform]
  cases columns.toTexts context .grouping <;> rfl

theorem Table.takesLists_select (t : Table) :
    TakesLists "Table.select" .projection t.select SelectStatement.projection id := by
  refine takesLists_of_eq (f := fun projection => { table := t.ref, projection })
    (fun columns => ?_) fun found => (List.map_id found).symm
  rw [select, SelectStatement.ofColumns]
  cases columns.toTexts "Table.select" .projection <;> rfl

theorem Table.takesLists_insertColumns (t : Table) :
    TakesLists "Table.insert" .columns t.insertColumns InsertStatement.columns id := by
  refine takesLists_of_eq (f := fun columns => { table := t.ref, columns })
    (fun columns => ?_) fun found => (List.map_id found).symm
  rw [insertColumns, InsertStatement.ofColumns]
  cases columns.toTexts "Table.insert" .columns <;> rfl

/-- **Lists of values are accepted exactly if all of them are texts and none is blank**, whatever
takes them. They are then taken as these texts are; otherwise the first value that is no text is
reported, or else that there are none, or else the first blank text, and the statement is left as it
was. -/
theorem value_lists_checked :
    (∀ t : Table, TakesLists "Table.select" .projection t.select SelectStatement.projection id) ∧
    (∀ t : Table, TakesLists "Table.insert" .columns t.insertColumns InsertStatement.columns id) ∧
    (∀ s : SelectStatement, .groupBy ∈ s.operations →
      CallTakesLists "TableSelect.group_by" .grouping s .groupBy SelectStatement.grouping id) ∧
    (∀ s : SelectStatement, .orderBy ∈ s.operations →
      CallTakesLists "TableSelect.order_by" .ordering s .orderBy SelectStatement.ordering
        OrderCriterion.parse) ∧
    (∀ s : UpdateStatement, .orderBy ∈ s.operations →
      CallTakesLists "TableUpdate.order_by" .ordering s .orderBy UpdateStatement.ordering
        OrderCriterion.parse) ∧
    ∀ s : DeleteStatement, .orderBy ∈ s.operations →
      CallTakesLists "TableDelete.order_by" .ordering s .orderBy DeleteStatement.ordering
        OrderCriterion.parse :=
  ⟨Table.takesLists_select, Table.takesLists_insertColumns,
    fun _ => SelectStatement.takesLists_groupBy, fun s => takesLists_orderBy (s := s),
    fun s => takesLists_orderBy (s := s), fun s => takesLists_orderBy (s := s)⟩

/-- A number behind a blank text, a blank text behind another text, and two criteria. -/
theorem value_lists_checked_of_blank_texts :
    ∃ s s' : SelectStatement, .groupBy ∈ s.operations ∧ .orderBy ∈ s.operations ∧
      (∃ e, s.apply (.groupBy (.values [.text " ", .bigint 5, .null])) = .error e ∧
        e.message = "TableSelect.group_by: Element #2 is expected to be a string") ∧
      (∃ e, s.apply (.orderBy (.values [.text "a", .text "\u2003"])) = .error e ∧
        e.message = "TableSelect.order_by: Element #2 is expected to be a non-empty string") ∧
      s.apply (.orderBy (.values [.text "a  desc", .text "b"])) = .ok s' ∧
      s'.ordering = [⟨"a", .descending⟩, ⟨"b", .ascending⟩] := by
  let s : SelectStatement := .all ⟨"test", "people"⟩
  have hgroup : .groupBy ∈ s.operations := by decide
  have horder : .orderBy ∈ s.operations := by decide
  obtain ⟨-, -, groupBy, orderBy, -⟩ := value_lists_checked
  have hother : ColumnList.Rejected .grouping [.text " ", .bigint 5, .null] _ _ :=
    @ColumnList.Rejected.notText _ [" "] (.bigint 5) [.null] rfl
  have hblank : ColumnList.Rejected .ordering [.text "a", .text "\u2003"] _ _ :=
    @ColumnList.Rejected.blank _ ["a"] [] "\u2003" (by decide) (by decide)
  obtain ⟨s', hs'⟩ := ((orderBy s horder).exists_ok_iff [.text "a  desc", .text "b"]).mpr
    ⟨by simp, by simp; decide⟩
  obtain ⟨found, hfound, hordering, -⟩ := (orderBy s horder).stored_eq _ s' hs'
  obtain rfl : ["a  desc", "b"] = found :=
    List.map_injective_iff.mpr (fun _ _ => Value.text.inj) hfound
  refine ⟨s, s', hgroup, horder,
    ⟨_, ((groupBy s hgroup).error_iff _ _).mpr ⟨_, _, hother, rfl, rfl⟩, rfl⟩,
    ⟨_, ((orderBy s horder).error_iff _ _).mpr ⟨_, _, hblank, rfl, rfl⟩, rfl⟩, hs', ?_⟩
  rw [hordering]
  decide +kernel

end TableSql
