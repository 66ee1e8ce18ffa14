import TableSql.Argument

/-!
# What an argument says

A call checks its argument and then takes from it what it needs. What it takes can be read off the
argument without any check, as long as the check succeeds.

## Main definitions

* `Condition.given`, `ColumnList.given`, `LockArgument.given` — what an argument says, if it is
  accepted

## Main results

* `Condition.given_of_toText`, `ColumnList.given_of_toTexts`, `given_of_orderCriteria`,
  `LockArgument.given_of_toContention` — an accepted argument is taken for what it says
* `ColumnList.toTexts_texts_eq_ok_iff`, `ColumnList.toTexts_texts_eq_error` — when a list of texts
  is accepted, and what is reported otherwise
-/

namespace TableSql

/-- The text of a column value that holds one. -/
def Value.textOrSql? : Value → Option String
  | .text s => some s
  | .expression s => some s
  | _ => none

/-- The text of a condition. -/
def Condition.given : Condition → String
  | .text s => s
  | .value v => v.textOrSql?.getD ""

/-- The texts of a list. -/
def ColumnList.given : ColumnList → List String
  | .texts entries => entries
  | .values entries => entries.filterMap Value.asText?
  | .value entry => entry.asText?.toList

/-- The mode of a lock. -/
def LockArgument.given : LockArgument → LockContention
  | .unspecified => .default
  | .mode m => m
  | .text s => (LockContention.parse? s).getD .default
  | .value v => (v.asText?.bind LockContention.parse?).getD .default

theorem Condition.given_of_checked {context given text : String}
    (h : checked context given = .ok text) : given = text := by
  rw [checked] at h
  split at h
  next => cases h
  next => exact Except.ok.inj h

theorem Condition.given_of_toText {condition : Condition} {context text : String}
    (h : condition.toText context = .ok text) : condition.given = text := by
  cases condition with
  | text s => exact given_of_checked h
  | value v =>
    cases v with
    | text s => exact given_of_checked h
    | expression s => exact given_of_checked h
    | _ => cases h

namespace ColumnList

theorem filterMap_of_textsFrom {context : String} {index : Nat} {values : List Value}
    {texts : List String} (h : textsFrom context index values = .ok texts) :
    values.filterMap Value.asText? = texts := by
  induction values generalizing index texts with
  | nil => exact Except.ok.inj h
  | cons v rest ih =>
    cases v with
    | text s =>
      rw [textsFrom] at h
      cases hrest : textsFrom context (index + 1) rest with
      | ok others =>
        rw [hrest] at h
        show s :: rest.filterMap Value.asText? = texts
        rw [ih hrest]
        exact Except.ok.inj h
      | error e =>
        rw [hrest] at h
        cases h
    | _ => cases h

theorem given_of_entries {columns : ColumnList} {context : String} {texts : List String}
    (h : columns.entries context = .ok texts) : columns.given = texts := by
  cases columns with
  | texts entries => exact Except.ok.inj h
  | values entries => exact filterMap_of_textsFrom h
  | value v =>
    cases v with
    | text s => exact Except.ok.inj h
    | _ => cases h

/-- An accepted list is not empty. -/
theorem given_of_toTexts {columns : ColumnList} {context : String} {criteria : Criteria}
    {texts : List String} (h : columns.toTexts context criteria = .ok texts) :
    columns.given = texts ∧ texts ≠ [] := by
  rw [toTexts] at h
  cases hentries : columns.entries context with
  | error e =>
    rw [hentries] at h
    cases h
  | ok found =>
    rw [hentries] at h
    cases found with
    | nil => cases h
    | cons entry rest =>
      simp only at h
      split at h
      next => cases h
      next =>
        cases h
        exact ⟨given_of_entries hentries, List.cons_ne_nil entry rest⟩

variable {context : String} {criteria : Criteria} {names : List String}

/-- A list of texts is accepted as it is, if there are some and none is blank. -/
theorem toTexts_texts_eq_ok_iff {found : List String} :
    (texts names).toTexts context criteria = .ok found ↔
      names ≠ [] ∧ (∀ name ∈ names, Text.isBlank name = false) ∧ found = names := by
  rw [toTexts, entries]
  cases names with
  | nil => exact iff_of_false nofun fun h => h.1 rfl
  | cons name rest =>
    simp only
    split
    next i hblank =>
      obtain ⟨hlt, hi, -⟩ := List.findIdx?_eq_some_iff_getElem.mp hblank
      refine iff_of_false nofun fun h => ?_
      cases hi.symm.trans (h.2.1 _ (List.getElem_mem hlt))
    next hnone =>
      rw [Except.ok.injEq, eq_comm]
      rw [List.findIdx?_eq_none_iff] at hnone
      exact ⟨fun h => ⟨List.cons_ne_nil _ _, hnone, h⟩, fun h => h.2.2⟩

/-- The first blank text of a list is reported. -/
theorem toTexts_texts_eq_error {earlier later : List String} {name : String}
    (hearlier : ∀ n ∈ earlier, Text.isBlank n = false) (hname : Text.isBlank name = true) :
    (texts (earlier ++ name :: later)).toTexts context criteria =
      .error (.invalidArgument context (.blankElement earlier.length)) := by
  have hfirst : (earlier ++ name :: later).findIdx? Text.isBlank = some earlier.length := by
    rw [List.findIdx?_append, List.findIdx?_eq_none_iff.mpr hearlier, List.findIdx?_cons, hname]
    simp
  rw [toTexts, entries]
  cases hnames : earlier ++ name :: later with
  | nil => cases (List.append_eq_nil_iff.mp hnames).2
  | cons first rest =>
    rw [hnames] at hfirst
    simp only [hfirst]

end ColumnList

theorem given_of_orderCriteria {columns : ColumnList} {context : String}
    {criteria : List OrderCriterion} (h : orderCriteria context columns = .ok criteria) :
    columns.given.map OrderCriterion.parse = criteria ∧ criteria ≠ [] := by
  rw [orderCriteria] at h
  split at h
  next texts htexts =>
    cases h
    obtain ⟨hgiven, hne⟩ := ColumnList.given_of_toTexts htexts
    exact ⟨congrArg _ hgiven, fun hnil => hne (List.map_eq_nil_iff.mp hnil)⟩
  next => cases h

namespace LockArgument

theorem parse?_of_ofText {context text : String} {m : LockContention}
    (h : ofText context text = .ok m) : LockContention.parse? text = some m := by
  rw [ofText] at h
  split at h
  next hparse =>
    cases h
    exact hparse
  next => cases h

theorem given_of_toContention {mode : LockArgument} {context : String} {m : LockContention}
    (h : mode.toContention context = .ok m) : mode.given = m := by
  cases mode with
  | unspecified => exact Except.ok.inj h
  | mode m => exact Except.ok.inj h
  | text s =>
    have h : ofText context s = .ok m := h
    rw [given, parse?_of_ofText h, Option.getD_some]
  | value v =>
    cases v with
    | text s =>
      have h : ofText context s = .ok m := h
      rw [given, Value.asText?, Option.bind_some, parse?_of_ofText h, Option.getD_some]
    | _ => cases h

end LockArgument

end TableSql
