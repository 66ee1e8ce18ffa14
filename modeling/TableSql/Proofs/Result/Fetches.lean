import TableSql.Result.Reply

/-!
# Fetching rows

Rows are taken from a result by several calls, one at a time or all at once, in any order. Whatever
the calls, the rows that were taken and the rows that are left are the rows that the server sent, in
its order. This is seen of a single call and then holds of any number of them.

## Main definitions

* `RowResult.Fetch`, `RowResult.Fetched` — a call on a result, and what is told of it
* `RowResult.fetch` — a call with what is told of it and the result that remains
* `RowResult.told`, `RowResult.taken`, `RowResult.after` — what many calls tell, take and leave
* `RowResult.FetchedInOrder` — what calls come to on the result of a server

## Main results

* `RowResult.taken_fetch`, `RowResult.taken_append_rows` — rows are neither lost nor repeated
* `RowResult.rows_eq_nil_of_drains`, `RowResult.taken_of_rows_eq_nil` — a drained result stays so
* `RowResult.decodeRows_eq_ok_iff`, `RowResult.decodeRows_eq_error_iff` — all rows are decoded, or
  there is an error
* `RowResult.rows_fetched_in_order`
-/

namespace TableSql.RowResult

/-! ### Calls -/

/-- A call that takes rows from a result or asks for some. -/
inductive Fetch where
  | one
  | next
  | all
  | hasData

/-- What is told of a call. -/
inductive Fetched where
  | row (r : Option Row)
  | rows (rs : List Row)
  | flag (b : Bool)

namespace Fetched

/-- The rows that were taken. -/
def taken : Fetched → List Row
  | .row r => r.toList
  | .rows rs => rs
  | .flag _ => []

/-- The caller has seen the end: there was no next row, or all rows were taken. -/
def Drains : Fetched → Prop
  | .row r => r = none
  | .rows _ => True
  | .flag _ => False

end Fetched

/-- A call, with what is told of it and the result that remains. -/
def fetch (r : RowResult) : Fetch → Fetched × RowResult
  | .one => (.row r.fetchOne.1, r.fetchOne.2)
  | .next => (.row r.next.1, r.next.2)
  | .all => (.rows r.fetchAll.1, r.fetchAll.2)
  | .hasData => (.flag r.hasData, r)

/-- What is told of some calls, in order. -/
def told (r : RowResult) : List Fetch → List Fetched
  | [] => []
  | f :: rest => (r.fetch f).1 :: told (r.fetch f).2 rest

/-- The rows that some calls take, in order. -/
def taken (r : RowResult) (fetches : List Fetch) : List Row :=
  (r.told fetches).flatMap Fetched.taken

/-- The result after some calls. -/
def after (r : RowResult) (fetches : List Fetch) : RowResult :=
  fetches.foldl (fun r f => (r.fetch f).2) r

/-! ### A single call -/

/-- **A call neither loses nor repeats a row**, and takes rows from the front. -/
theorem taken_fetch (r : RowResult) (f : Fetch) :
    (r.fetch f).1.taken ++ (r.fetch f).2.rows = r.rows := by
  cases f with
  | one => exact r.fetchOne_rows
  | next => exact r.fetchOne_rows
  | all => exact List.append_nil r.rows
  | hasData => rfl

theorem columns_fetch (r : RowResult) (f : Fetch) : (r.fetch f).2.columns = r.columns := by
  cases f with
  | one => exact r.fetchOne_columns
  | next => exact r.fetchOne_columns
  | all => rfl
  | hasData => rfl

theorem fetchOne_eq_none_iff {r : RowResult} : r.fetchOne.1 = none ↔ r.rows = [] := by
  rw [fetchOne]
  cases r.rows <;> simp

theorem hasData_iff {r : RowResult} : r.hasData = true ↔ r.rows ≠ [] := by
  rw [hasData, Bool.not_eq_true', List.isEmpty_eq_false_iff]

/-- A caller that has seen the end is right. -/
theorem rows_fetch_of_drains {r : RowResult} {f : Fetch} (h : (r.fetch f).1.Drains) :
    (r.fetch f).2.rows = [] := by
  have hnone : r.fetchOne.1 = none → r.fetchOne.2.rows = [] := by
    intro hnone
    have hrows := r.fetchOne_rows
    rwa [hnone, fetchOne_eq_none_iff.mp hnone] at hrows
  cases f with
  | one => exact hnone h
  | next => exact hnone h
  | all => rfl
  | hasData => cases h

/-! ### Many calls -/

/-- **Calls neither lose nor repeat a row**, and do not change the order of the rows. -/
theorem taken_append_rows (r : RowResult) (fetches : List Fetch) :
    r.taken fetches ++ (r.after fetches).rows = r.rows := by
  induction fetches generalizing r with
  | nil => rfl
  | cons f rest ih =>
    calc r.taken (f :: rest) ++ (r.after (f :: rest)).rows
        = (r.fetch f).1.taken ++ ((r.fetch f).2.taken rest ++ ((r.fetch f).2.after rest).rows) :=
          List.append_assoc ..
      _ = (r.fetch f).1.taken ++ (r.fetch f).2.rows := by rw [ih]
      _ = r.rows := r.taken_fetch f

theorem columns_after (r : RowResult) (fetches : List Fetch) :
    (r.after fetches).columns = r.columns := by
  induction fetches generalizing r with
  | nil => rfl
  | cons f rest ih => exact (ih (r.fetch f).2).trans (r.columns_fetch f)

/-- Nothing is taken from a drained result, and it stays drained. -/
theorem taken_of_rows_eq_nil {r : RowResult} (h : r.rows = []) (fetches : List Fetch) :
    r.taken fetches = [] ∧ (r.after fetches).rows = [] := by
  have hrows := r.taken_append_rows fetches
  rw [h, List.append_eq_nil_iff] at hrows
  exact hrows

/-- A result is drained from the call on at which the caller has seen its end. -/
theorem rows_eq_nil_of_drains {r : RowResult} {fetches : List Fetch}
    (h : ∃ t ∈ r.told fetches, t.Drains) : (r.after fetches).rows = [] := by
  induction fetches generalizing r with
  | nil =>
    obtain ⟨t, ht, -⟩ := h
    cases ht
  | cons f rest ih =>
    obtain ⟨t, ht, hdrains⟩ := h
    rcases List.mem_cons.mp ht with rfl | ht
    · exact (taken_of_rows_eq_nil (rows_fetch_of_drains hdrains) rest).2
    · exact ih ⟨t, ht, hdrains⟩

/-! ### Decoded rows -/

section Decode

variable {α : Type} {decode : Json → Option α}

/-- All rows are decoded, in order. -/
theorem decodeRows_eq_ok_iff {rows : List Row} {xs : List α} : decodeRows decode rows = .ok xs ↔
    rows.map (fun row => decode row.toJson) = xs.map some := by
  induction rows generalizing xs with
  | nil =>
    rw [decodeRows, List.map_nil, Except.ok.injEq, eq_comm (a := []), eq_comm (a := [])]
    exact List.map_eq_nil_iff.symm
  | cons row rest ih =>
    rw [decodeRows, List.map_cons]
    cases xs with
    | nil => split <;> simp
    | cons x xs =>
      rw [List.map_cons, List.cons.injEq, ← ih]
      split
      next y ys hy hys => rw [hy, hys, Except.ok.injEq, List.cons.injEq, Option.some.injEq,
          Except.ok.injEq]
      next hneither =>
        refine iff_of_false nofun ?_
        rintro ⟨hx, hxs⟩
        exact hneither x xs hx hxs

/-- A row that is not decoded is the only kind of failure. -/
theorem decodeRows_eq_error_iff {rows : List Row} {e : Error} :
    decodeRows decode rows = .error e ↔
      e = .serialization ∧ ∃ row ∈ rows, decode row.toJson = none := by
  induction rows generalizing e with
  | nil => simp [decodeRows]
  | cons row rest ih =>
    rw [decodeRows]
    split
    next x xs hx hxs =>
      refine iff_of_false nofun ?_
      rintro ⟨-, bad, hbad, hnone⟩
      rcases List.mem_cons.mp hbad with rfl | hbad
      · cases hx.symm.trans hnone
      · cases hxs.symm.trans (ih.mpr ⟨rfl, bad, hbad, hnone⟩)
    next hneither =>
      rw [Except.error.injEq, eq_comm]
      refine (and_iff_left ?_).symm
      cases hx : decode row.toJson with
      | none => exact ⟨row, List.mem_cons_self, hx⟩
      | some x =>
        cases hxs : decodeRows decode rest with
        | ok xs => exact (hneither x xs hx hxs).elim
        | error e' =>
          obtain ⟨-, bad, hbad, hnone⟩ := ih.mp hxs
          exact ⟨bad, List.mem_cons_of_mem row hbad, hnone⟩

end Decode

/-! ### The rows of a server -/

/-- **Rows are fetched in order** and once each, whatever the calls. -/
structure FetchedInOrder (r : RowResult) (fetches : List Fetch) : Prop where
  /-- The rows that were taken and those that are left are the rows there were. -/
  rows_eq : r.taken fetches ++ (r.after fetches).rows = r.rows
  hasData_iff : (r.after fetches).hasData = true ↔ (r.after fetches).rows ≠ []
  /-- Nothing comes behind the end. -/
  drained : (∃ t ∈ r.told fetches, t.Drains) → ∀ more, (r.after fetches).taken more = []
  columns_eq : (r.after fetches).columns = r.columns
  columnNames_eq : (r.after fetches).columnNames = r.columnNames
  columnCount_eq : (r.after fetches).columnCount = r.columnCount
  /-- Decoded rows are the rows that are left, all of them and in order. -/
  decoded_iff : ∀ {α : Type} (decode : Json → Option α) (xs : List α),
    ((r.after fetches).fetchAllAs decode).1 = .ok xs ↔
      (r.after fetches).fetchAll.1.map (fun row => decode row.toJson) = xs.map some
  /-- If one of them can not be decoded, none of them is returned. -/
  not_decoded_iff : ∀ {α : Type} (decode : Json → Option α) (e : Error),
    ((r.after fetches).fetchAllAs decode).1 = .error e ↔
      e = .serialization ∧ ∃ row ∈ (r.after fetches).fetchAll.1, decode row.toJson = none
  /-- They are taken in both cases. -/
  decoded_drained : ∀ {α : Type} (decode : Json → Option α) more,
    ((r.after fetches).fetchAllAs decode).2.taken more = [] ∧
      (((r.after fetches).fetchAllAs decode).2.after more).columns = r.columns

theorem fetchedInOrder (r : RowResult) (fetches : List Fetch) : FetchedInOrder r fetches := by
  have hcolumns := r.columns_after fetches
  refine ⟨r.taken_append_rows fetches, hasData_iff, ?_, hcolumns, ?_, ?_, ?_, ?_, ?_⟩
  · intro hend more
    exact (taken_of_rows_eq_nil (rows_eq_nil_of_drains hend) more).1
  · rw [columnNames, hcolumns, columnNames]
  · rw [columnCount, hcolumns, columnCount]
  · intro α decode xs
    exact decodeRows_eq_ok_iff
  · intro α decode e
    exact decodeRows_eq_error_iff
  · intro α decode more
    exact ⟨(taken_of_rows_eq_nil rfl more).1, (columns_after _ more).trans hcolumns⟩

/-- **A cursor neither loses, repeats nor reorders the rows of a server**, and gives each of them
the names of the columns. -/
theorem rows_fetched_in_order (columns : List Column) (values : List (List Value))
    (fetches : List Fetch) :
    (Reply.rows columns values).toRowResult.columns = columns ∧
      (Reply.rows columns values).toRowResult.rows =
        values.map (fun row => ⟨columns.map Column.name, row⟩) ∧
      FetchedInOrder (Reply.rows columns values).toRowResult fetches :=
  ⟨rfl, rfl, fetchedInOrder _ fetches⟩

end TableSql.RowResult
