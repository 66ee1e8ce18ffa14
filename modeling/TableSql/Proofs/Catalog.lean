import TableSql.Catalog
import TableSql.Proofs.Outcome
import TableSql.Proofs.Session
import TableSql.Proofs.Sql.Markers
import TableSql.ScriptedServer

/-!
# Queries about schemas and tables

A query is one select statement, and its answer is in the cells of the reply. Nothing is known of
the cells: there may be no rows, rows may be empty, and a value may be of any type. A reply may even
be one to a modification, which is taken for a reply without rows.

## Main definitions

* `Reply.cells`, `Reply.Counts` — what a query looks at
* `ReadsCount`, `ReadsExistence`, `Schema.ReadsTables`, `Schema.ReadsLookup` — what queries take
  replies for
* `Session.Asks` — a session asks for the reply to a statement, and reads it

## Main results

* `Value.asUInt64?_eq_some_iff` — counts come as integers of both types
* `RowResult.readsCount_firstCount`, `Schema.readsTables`, `Schema.readsLookup` — how replies are
  read
* `Session.asks` — a session puts one statement to the server
* `queries_read_replies` — both for all queries
-/

namespace TableSql

variable {σ α : Type}

/-! ### Replies -/

/-- The value is an integer that is not negative, of either type. -/
inductive Value.IsCount : Value → UInt64 → Prop where
  | unsigned (n : UInt64) : IsCount (.unsigned n) n
  | bigint {m : Int64} {n : UInt64} : m.toInt = n.toNat → IsCount (.bigint m) n

theorem Value.asUInt64?_eq_some_iff {v : Value} {n : UInt64} :
    v.asUInt64? = some n ↔ v.IsCount n := by
  have hword : ∀ m : Int64, 0 ≤ m.toInt → m.toInt = m.toUInt64.toNat := fun m hm =>
    BitVec.toInt_eq_toNat_of_lt (BitVec.toInt_pos_iff.mp hm)
  constructor
  · intro h
    cases v with
    | unsigned m =>
      obtain rfl := Option.some.inj h
      exact .unsigned m
    | bigint m =>
      rw [asUInt64?] at h
      split at h
      case isTrue hm =>
        obtain rfl := Option.some.inj h
        exact .bigint (hword m hm)
      case isFalse => cases h
    | _ => cases h
  · rintro (⟨n⟩ | @⟨m, n, hmn⟩)
    · rfl
    · have hm : 0 ≤ m.toInt := hmn ▸ Int.natCast_nonneg _
      rw [asUInt64?, if_pos hm, UInt64.toNat_inj.mp (Int.ofNat.inj ((hword m hm).symm.trans hmn))]

namespace Reply

/-- The rows of a reply without the names of the columns; none where it has counts. -/
def cells : Reply → List (List Value)
  | .rows _ values => values
  | .done _ _ => []

/-- The first row starts with a count. -/
def Counts (r : Reply) (n : UInt64) : Prop :=
  ∃ v row others, r.cells = (v :: row) :: others ∧ v.IsCount n

theorem map_values_rows (r : Reply) : r.toRowResult.rows.map Row.values = r.cells := by
  cases r with
  | done affected id => rfl
  | rows columns values =>
    show (values.map fun row => (⟨columns.map Column.name, row⟩ : Row)).map Row.values = values
    rw [List.map_map]
    exact List.map_id values

/-- There is no first row, or it is the row that is fetched. -/
theorem fetchOne_cases (r : Reply) :
    (r.toRowResult.fetchOne.1 = none ∧ r.cells = []) ∨
      ∃ row others, r.toRowResult.fetchOne.1 = some row ∧ r.cells = row.values :: others := by
  rw [← map_values_rows, RowResult.fetchOne]
  cases r.toRowResult.rows with
  | nil => exact .inl ⟨rfl, rfl⟩
  | cons row others => exact .inr ⟨row, others.map Row.values, rfl, rfl⟩

theorem bind_asUInt64?_eq_some_iff {r : Reply} {n : UInt64} :
    (r.toRowResult.fetchOne.1.bind (·.get? 0)).bind Value.asUInt64? = some n ↔ r.Counts n := by
  rcases r.fetchOne_cases with ⟨hnone, hcells⟩ | ⟨⟨names, values⟩, others, hsome, hcells⟩
  · simp [hnone, Counts, hcells]
  · rw [hsome, Counts, hcells]
    cases values with
    | nil => simp [Row.get?]
    | cons v row => simp [Row.get?, Value.asUInt64?_eq_some_iff]

end Reply

/-! ### Counts -/

/-- A reply is taken for the count that its first row starts with. -/
structure ReadsCount (r : Reply) (read : Except Error UInt64) : Prop where
  ok_iff : ∀ n, read = .ok n ↔ r.Counts n
  error_iff : ∀ e, read = .error e ↔ (∀ n, ¬ r.Counts n) ∧ e = .decode "COUNT(*)" .notCount

/-- Something exists if its count is not zero. -/
structure ReadsExistence (r : Reply) (read : Except Error Bool) : Prop where
  ok_true_iff : read = .ok true ↔ ∃ n, 0 < n ∧ r.Counts n
  ok_false_iff : read = .ok false ↔ r.Counts 0
  error_iff : ∀ e, read = .error e ↔ (∀ n, ¬ r.Counts n) ∧ e = .decode "COUNT(*)" .notCount

theorem RowResult.readsCount_firstCount (r : Reply) : ReadsCount r r.toRowResult.firstCount := by
  have hcount := fun n => Reply.bind_asUInt64?_eq_some_iff (r := r) (n := n)
  rw [firstCount]
  cases hfound : (r.toRowResult.fetchOne.1.bind (·.get? 0)).bind Value.asUInt64? with
  | none =>
    have hnone : ∀ n, ¬ r.Counts n := fun n hn => by
      rw [← hcount, hfound] at hn
      cases hn
    constructor
    · exact fun n => ⟨nofun, fun h => absurd h (hnone n)⟩
    · exact fun e => ⟨fun h => ⟨hnone, (Except.error.inj h).symm⟩, fun h => h.2 ▸ rfl⟩
  | some m =>
    rw [hfound] at hcount
    constructor
    · intro n
      rw [← hcount, Except.ok.injEq, Option.some.injEq]
    · exact fun e => ⟨nofun, fun h => absurd ((hcount m).mp rfl) (h.1 m)⟩

theorem RowResult.readsExistence_firstCount (r : Reply) :
    ReadsExistence r (r.toRowResult.firstCount.map (0 < ·)) := by
  obtain ⟨hok, herror⟩ := readsCount_firstCount r
  constructor
  · simp only [Outcome.map_eq_ok_iff, hok, decide_eq_true_eq, and_comm]
  · simp [Outcome.map_eq_ok_iff, hok]
  · simp only [Outcome.map_eq_error_iff, herror, implies_true]

/-! ### Handles -/

/-- The value is the type that the server gives to views. -/
theorem Schema.isViewType_iff {v : Option Value} :
    isViewType v = true ↔ v = some (.text "VIEW") := by
  rw [isViewType, beq_iff_eq]
  constructor
  · intro h
    obtain ⟨w, rfl, hw⟩ := Option.bind_eq_some_iff.mp h
    cases w <;> cases hw
    rfl
  · rintro rfl
    rfl

namespace Schema

/-- The row starts with the table's name, and tells whether the table is a view. -/
structure Describes (s : Schema) (row : List Value) (t : Table) : Prop where
  name : row[0]? = some (.text t.name)
  schemaName : t.schemaName = s.name
  isView_iff : t.isView = true ↔ row[1]? = some (.text "VIEW")

/-- A reply is taken for one table a row, in order, if all rows start with a name. -/
structure ReadsTables (s : Schema) (r : Reply) (read : Except Error (List Table)) : Prop where
  exists_ok_iff : (∃ tables, read = .ok tables) ↔
    ∀ row ∈ r.cells, ∃ name, row[0]? = some (.text name)
  ok_iff : ∀ tables, read = .ok tables ↔ List.Forall₂ s.Describes r.cells tables
  error_iff : ∀ e, read = .error e ↔
    (∃ row ∈ r.cells, ∀ name, row[0]? ≠ some (.text name)) ∧ e = .decode "TABLE_NAME" .notText

/-- A reply is taken for the table that was asked for if there is a row. -/
structure ReadsLookup (s : Schema) (name : String) (r : Reply) (read : Except Error Table) :
    Prop where
  ok_iff : ∀ t, read = .ok t ↔ ∃ row others, r.cells = row :: others ∧ t.ref = ⟨s.name, name⟩ ∧
    (t.isView = true ↔ row[0]? = some (.text "VIEW"))
  error_iff : ∀ e, read = .error e ↔ r.cells = [] ∧ e = .tableNotFound s.name name

variable (s : Schema)

/-- A row describes the table that is read from it, or does not start with a name. -/
theorem tableOfRow_cases (row : Row) :
    (∃ t, s.tableOfRow row = .ok t ∧ s.Describes row.values t) ∨
      (s.tableOfRow row = .error (.decode "TABLE_NAME" .notText) ∧
        ∀ name, row.values[0]? ≠ some (.text name)) := by
  rw [tableOfRow]
  cases hname : (row.get? 0).bind Value.asText? with
  | some name =>
    obtain ⟨v, hv, htext⟩ := Option.bind_eq_some_iff.mp hname
    cases v <;> cases htext
    exact .inl ⟨_, rfl, hv, rfl, isViewType_iff⟩
  | none =>
    refine .inr ⟨rfl, fun name hv => ?_⟩
    rw [Row.get?, hv] at hname
    cases hname

/-- A row describes one table. -/
theorem Describes.unique {s : Schema} {row : List Value} {t u : Table} (ht : s.Describes row t)
    (hu : s.Describes row u) : t = u := by
  have hname : t.name = u.name :=
    Value.text.inj (Option.some.inj (ht.name.symm.trans hu.name))
  have hschema : t.schemaName = u.schemaName := ht.schemaName.trans hu.schemaName.symm
  have hview : t.isView = u.isView :=
    Bool.eq_iff_iff.mpr (ht.isView_iff.trans hu.isView_iff.symm)
  obtain ⟨⟨_, _⟩, _⟩ := t
  obtain ⟨⟨_, _⟩, _⟩ := u
  cases hname
  cases hschema
  cases hview
  rfl

theorem tableOfRow_eq_ok_iff {s : Schema} {row : Row} {t : Table} :
    s.tableOfRow row = .ok t ↔ s.Describes row.values t := by
  rcases s.tableOfRow_cases row with ⟨u, hu, hdescribes⟩ | ⟨herror, hnone⟩
  · rw [hu, Except.ok.injEq]
    exact ⟨fun h => h ▸ hdescribes, fun h => hdescribes.unique h⟩
  · rw [herror]
    exact ⟨nofun, fun h => absurd h.name (hnone t.name)⟩

/-- The rows that are no table all give the same error. -/
theorem tableOfRow_eq_error_iff {s : Schema} {row : Row} {e : Error} :
    s.tableOfRow row = .error e ↔
      (∀ name, row.values[0]? ≠ some (.text name)) ∧ e = .decode "TABLE_NAME" .notText := by
  rcases s.tableOfRow_cases row with ⟨t, ht, hdescribes⟩ | ⟨herror, hnone⟩
  · rw [ht]
    exact ⟨nofun, fun h => absurd hdescribes.name (h.1 t.name)⟩
  · rw [herror, Except.error.injEq]
    exact ⟨fun h => ⟨hnone, h.symm⟩, fun h => h.2.symm⟩

theorem readsTables (r : Reply) : s.ReadsTables r (s.tables.read r) := by
  have hread : s.tables.read r = r.toRowResult.rows.mapM s.tableOfRow := rfl
  have herror : ∀ e, s.tables.read r = .error e ↔
      (∃ row ∈ r.cells, ∀ name, row[0]? ≠ some (.text name)) ∧
        e = .decode "TABLE_NAME" .notText := by
    intro e
    rw [hread, Outcome.mapM_eq_error_iff fun row e => tableOfRow_eq_error_iff, ← r.map_values_rows]
    simp only [List.mem_map, exists_exists_and_eq_and]
  refine ⟨?_, fun tables => ?_, herror⟩
  · rw [Outcome.exists_eq_ok_iff]
    constructor
    · intro h row hrow
      by_contra hnone
      exact h _ ((herror _).mpr ⟨⟨row, hrow, not_exists.mp hnone⟩, rfl⟩)
    · intro h e he
      obtain ⟨⟨row, hrow, hnone⟩, -⟩ := (herror e).mp he
      obtain ⟨name, hname⟩ := h row hrow
      exact hnone name hname
  · rw [hread, Outcome.mapM_eq_ok_iff, ← r.map_values_rows, List.forall₂_map_left_iff]
    simp only [tableOfRow_eq_ok_iff]

theorem readsLookup (name : String) (r : Reply) :
    s.ReadsLookup name r ((s.lookup name).read r) := by
  rcases r.fetchOne_cases with ⟨hnone, hcells⟩ | ⟨row, others, hsome, hcells⟩
  · have hread : (s.lookup name).read r = .error (.tableNotFound s.name name) := by
      simp only [lookup, Query.ofRows, hnone]
    rw [hread]
    constructor
    · simp [hcells]
    · simp [hcells, eq_comm]
  · have hread : (s.lookup name).read r = .ok ⟨⟨s.name, name⟩, isViewType (row.get? 0)⟩ := by
      simp only [lookup, Query.ofRows, hsome]
    rw [hread]
    constructor
    · intro t
      rw [Except.ok.injEq]
      constructor
      · rintro rfl
        exact ⟨row.values, others, hcells, rfl, isViewType_iff⟩
      · rintro ⟨values, _, h, href, hview⟩
        obtain ⟨rfl, -⟩ := List.cons.inj (hcells.symm.trans h)
        have hview : isViewType (row.get? 0) = t.isView :=
          Bool.eq_iff_iff.mpr (isViewType_iff.trans hview.symm)
        rw [← href, hview]
    · simp [hcells]

end Schema

/-! ### Sessions -/

/-- Asked for on a session, the query is one select statement with a value for each of its markers.
A failure of the server is handed on, and a reply is read. -/
structure Session.Asks (server : Server σ) (session : Session σ) (query : Query α) (sql : String)
    (params : List Value) (reads : Reply → Except Error α → Prop) : Prop where
  statements : (session.ask server query).2.statements =
    session.statements ++ [⟨.select, sql, params⟩]
  countMarkers? : Sql.countMarkers? sql = .ok params.length
  error : ∀ e, (server.execute ⟨.select, sql, params⟩ session.state).1 = .error e →
    (session.ask server query).1 = .error e
  ok : ∀ r, (server.execute ⟨.select, sql, params⟩ session.state).1 = .ok r →
    reads r (session.ask server query).1

theorem Session.asks (server : Server σ) (session : Session σ) {query : Query α} {sql : String}
    {params : List Value} {reads : Reply → Except Error α → Prop}
    (hquery : query.statement = ⟨.select, sql, params⟩)
    (hmarkers : Sql.countMarkers? sql = .ok params.length)
    (hread : ∀ r, reads r (query.read r)) :
    session.Asks server query sql params reads where
  statements := by rw [(session.puts_ask server query).statements, ← hquery]; rfl
  countMarkers? := hmarkers
  error e h := by
    rw [← hquery, ← run_answer] at h
    rw [ask]
    generalize session.run server query.statement = outcome at h
    obtain ⟨_, s'⟩ := outcome
    cases h
    rfl
  ok r h := by
    rw [← hquery, ← run_answer] at h
    rw [ask]
    generalize session.run server query.statement = outcome at h
    obtain ⟨_, s'⟩ := outcome
    cases h
    exact hread r

/-- **All queries are sent and read as they should.** The names that are asked for are parameters,
so that the text is the same for all of them; only the table whose rows are counted is named in the
text. -/
theorem queries_read_replies : ∃ lookup tables schemata table : String,
    ∀ {σ : Type} (server : Server σ) (session : Session σ) (s : Schema) (t : Table) (name : String),
      session.Asks server (s.lookup name) lookup [.text s.name, .text name] (s.ReadsLookup name) ∧
      session.Asks server s.tables tables [.text s.name] s.ReadsTables ∧
      session.Asks server s.existence schemata [.text s.name] ReadsExistence ∧
      session.Asks server t.existence table [.text t.schemaName, .text t.name] ReadsExistence ∧
      session.Asks server t.count ("SELECT COUNT(*) FROM " ++ t.qualifiedName) [] ReadsCount := by
  -- the texts are those for empty names
  refine ⟨(Schema.lookup ⟨""⟩ "").statement.sql, (Schema.tables ⟨""⟩).statement.sql,
    (Schema.existence ⟨""⟩).statement.sql, (Table.existence ⟨⟨"", ""⟩, false⟩).statement.sql,
    fun server session s t name => ⟨?_, ?_, ?_, ?_, ?_⟩⟩
  · have hlookup : Sql.countMarkers? (Schema.lookup ⟨""⟩ "").statement.sql = .ok 2 := by
      decide +kernel
    exact session.asks server rfl hlookup (s.readsLookup name)
  · have htables : Sql.countMarkers? (Schema.tables ⟨""⟩).statement.sql = .ok 1 := by
      decide +kernel
    exact session.asks server rfl htables s.readsTables
  · have hschemata : Sql.countMarkers? (Schema.existence ⟨""⟩).statement.sql = .ok 1 := by
      decide +kernel
    exact session.asks server rfl hschemata RowResult.readsExistence_firstCount
  · have htable :
        Sql.countMarkers? (Table.existence ⟨⟨"", ""⟩, false⟩).statement.sql = .ok 2 := by
      decide +kernel
    exact session.asks server rfl htable RowResult.readsExistence_firstCount
  · have hcount : Sql.countMarkers? "SELECT COUNT(*) FROM " = .ok 0 := by decide +kernel
    exact session.asks server rfl (Sql.countMarkers?_append hcount t.ref.countMarkers?_toSql)
      RowResult.readsCount_firstCount

/-- A server that counts three rows, one that counts less than none, one that does not answer, and
one that names a table in the first of two rows. -/
theorem queries_read_replies_of_scripts :
    let s : Schema := ⟨"s`"⟩
    let t : Table := s.table "t?"
    let answering (reply : Except Error Reply) : Session ScriptedServer := ⟨⟨true, [], [reply]⟩, []⟩
    let three := answering (.ok (.rows [] [[.bigint 3, .null], []]))
    let negative := answering (.ok (.rows [] [[.bigint (-1)]]))
    let silent := answering (.error .sessionClosed)
    let named := answering (.ok (.rows [] [[.text "t?", .text "VIEW"], []]))
    (three.ask ScriptedServer.server t.count).1 = .ok 3 ∧
      (three.ask ScriptedServer.server t.count).2.statements =
        [⟨.select, "SELECT COUNT(*) FROM `s```.`t?`", []⟩] ∧
      (three.ask ScriptedServer.server t.existence).1 = .ok true ∧
      (negative.ask ScriptedServer.server t.count).1 = .error (.decode "COUNT(*)" .notCount) ∧
      (silent.ask ScriptedServer.server s.existence).1 = .error .sessionClosed ∧
      (named.ask ScriptedServer.server s.tables).1 =
        .error (.decode "TABLE_NAME" .notText) ∧
      (named.ask ScriptedServer.server (s.lookup "t?")).1 = .ok t := by
  intro s t answering three negative silent named
  obtain ⟨_, _, _, _, hqueries⟩ := queries_read_replies
  obtain ⟨-, -, -, existence, count⟩ := hqueries ScriptedServer.server three s t t.name
  obtain ⟨-, -, -, -, negativeCount⟩ := hqueries ScriptedServer.server negative s t t.name
  obtain ⟨-, -, schemata, -⟩ := hqueries ScriptedServer.server silent s t t.name
  obtain ⟨lookup, tables, -⟩ := hqueries ScriptedServer.server named s t t.name
  have hthree : Reply.Counts (.rows [] [[.bigint 3, .null], []]) 3 :=
    ⟨_, _, _, rfl, .bigint (by decide)⟩
  have hnegative : ∀ n, ¬ Reply.Counts (.rows [] [[.bigint (-1)]]) n := by
    rintro n ⟨v, row, others, hcells, hcount⟩
    cases hcells
    cases hcount with
    | bigint h =>
      have hminus : (-1 : Int64).toInt = -1 := by decide
      omega
  refine ⟨((count.ok _ rfl).ok_iff 3).mpr hthree, ?_,
    (existence.ok _ rfl).ok_true_iff.mpr ⟨3, by decide, hthree⟩,
    ((negativeCount.ok _ rfl).error_iff _).mpr ⟨hnegative, rfl⟩, schemata.error _ rfl,
    ((tables.ok _ rfl).error_iff _).mpr ⟨⟨[], by simp [Reply.cells], by simp⟩, rfl⟩,
    ((lookup.ok _ rfl).ok_iff _).mpr ⟨_, _, rfl, rfl, ?_⟩⟩
  · have hsql : "SELECT COUNT(*) FROM " ++ t.qualifiedName =
        "SELECT COUNT(*) FROM `s```.`t?`" := by decide +kernel
    rw [count.statements, hsql]
    rfl
  · simp [t, Schema.table]

end TableSql
