import TableSql.Proofs.Argument
import TableSql.Proofs.Members
import TableSql.Proofs.Statement.Rows
import TableSql.Value.Printer

/-!
# Inserting a document

A document becomes a statement with one row: its names are the columns, and its values the cells.
The same row can be inserted by giving the columns first and then the values. The two ways differ in
one thing. Columns that are given as such may not be blank, and nobody looks at the names of a
document.

The members of a JSON object turn into values and back without loss, as whole numbers and others
are told apart by their range. In whatever order a document gives its members, they are inserted in
the byte order of their names.

## Main definitions

* `InsertStatement.ofMembers` — the statement of a document
* `InsertStatement.ofRow` — the same row, inserted by its columns
* `InsertStatement.Inserts` — a statement inserts the members of a JSON object

## Main results

* `InsertStatement.ofDocument_eq_ok_iff`, `InsertStatement.ofRow_eq_ok_iff` — when each way succeeds
* `InsertStatement.documents_agree_with_rows` — the two ways agree but for blank names
* `InsertStatement.exists_blank_name_inserted` — a blank name is inserted in one way only
* `Value.toJson_ofJson` — a JSON member is kept
* `InsertStatement.documents_kept` — documents are inserted in order and without loss
-/

namespace TableSql

namespace InsertStatement

variable {table : TableRef} {members : List (String × Value)} {s : InsertStatement}

/-! ### One row in two ways -/

/-- The statement of a document with these members. -/
def ofMembers (table : TableRef) (members : List (String × Value)) : InsertStatement where
  table := table
  columns := members.map Prod.fst
  rows := [members.map Prod.snd]
  stage := .document

/-- The columns are given first, and then the values. -/
def ofRow (table : TableRef) (members : List (String × Value)) : Except Error InsertStatement := do
  let s ← ofColumns table (.texts (members.map Prod.fst))
  s.apply (.values (members.map Prod.snd))

/-- A document is accepted if it has members. -/
theorem ofDocument_eq_ok_iff {document : Document} : ofDocument table document = .ok s ↔
    ∃ members, document.members "Table.insert" = .ok members ∧ members ≠ [] ∧
      s = ofMembers table members := by
  rw [ofDocument]
  cases document.members "Table.insert" with
  | error e =>
    constructor
    · intro h
      cases h
    · rintro ⟨_, h, -⟩
      cases h
  | ok members =>
    cases members with
    | nil =>
      constructor
      · intro h
        cases h
      · rintro ⟨_, h, hne, -⟩
        cases h
        exact absurd rfl hne
    | cons m rest =>
      constructor
      · intro h
        exact ⟨m :: rest, rfl, List.cons_ne_nil m rest, (Except.ok.inj h).symm⟩
      · rintro ⟨_, h, -, rfl⟩
        cases h
        rfl

theorem ofDocument_pairs_eq_ok_iff {given : List (String × Value)} :
    ofDocument table (.pairs given) = .ok s ↔
      Members.ofList given ≠ [] ∧ s = ofMembers table (Members.ofList given) := by
  rw [ofDocument_eq_ok_iff, Document.members]
  simp only [Except.ok.injEq, exists_eq_left']

theorem ofColumns_texts_eq_ok_iff {names : List String} :
    ofColumns table (.texts names) = .ok s ↔ names ≠ [] ∧
      (∀ name ∈ names, Text.isBlank name = false) ∧ s = { table, columns := names } := by
  have hmap : ofColumns table (.texts names) =
      ((ColumnList.texts names).toTexts "Table.insert" .columns).map
        fun columns => { table, columns } := by
    rw [ofColumns]
    cases (ColumnList.texts names).toTexts "Table.insert" .columns <;> rfl
  rw [hmap, Outcome.map_eq_ok_iff]
  simp only [ColumnList.toTexts_texts_eq_ok_iff]
  constructor
  · rintro ⟨columns, ⟨hne, hblank, rfl⟩, rfl⟩
    exact ⟨hne, hblank, rfl⟩
  · rintro ⟨hne, hblank, rfl⟩
    exact ⟨names, ⟨hne, hblank, rfl⟩, rfl⟩

/-- Columns and values are accepted if there are some, and no column is blank. The statement differs
from that of the document only in the calls that it allows. -/
theorem ofRow_eq_ok_iff : ofRow table members = .ok s ↔ members ≠ [] ∧
    (∀ m ∈ members, Text.isBlank m.1 = false) ∧
      s = { ofMembers table members with stage := .values } := by
  have hallowed : Operation.values ∈ Stage.allowed .insert := by decide
  rw [ofRow, Outcome.bind_eq_ok_iff]
  simp only [ofColumns_texts_eq_ok_iff, List.forall_mem_map, ne_eq, List.map_eq_nil_iff]
  constructor
  · rintro ⟨_, ⟨hne, hblank, rfl⟩, happly⟩
    obtain ⟨-, hgives⟩ := apply_eq_ok_iff.mp happly
    cases hgives with
    | values _ => exact ⟨hne, hblank, rfl⟩
  · rintro ⟨hne, hblank, rfl⟩
    have hrow : members.map Prod.snd ≠ [] := List.map_eq_nil_iff.not.mpr hne
    exact ⟨_, ⟨hne, hblank, rfl⟩, apply_eq_ok_iff.mpr ⟨hallowed, .values hrow⟩⟩

/-- An execution sends the same either way. -/
theorem prepareExecute_values (table : TableRef) (members : List (String × Value)) :
    prepareExecute { ofMembers table members with stage := .values } =
      (ofMembers table members).prepareExecute := by
  have hvalues : prepareExecute { ofMembers table members with stage := .values } =
      (ofMembers table members).compile :=
    Operation.guarded_of_mem (show Operation.execute ∈ Stage.allowed .values by decide)
  have hdocument : (ofMembers table members).prepareExecute = (ofMembers table members).compile :=
    Operation.guarded_of_mem (show Operation.execute ∈ Stage.allowed .document by decide)
  exact hvalues.trans hdocument.symm

/-- The first blank name is reported where it is given as a column. -/
theorem ofRow_eq_error {earlier later : List (String × Value)} {m : String × Value}
    (hearlier : ∀ n ∈ earlier, Text.isBlank n.1 = false) (hm : Text.isBlank m.1 = true) :
    ofRow table (earlier ++ m :: later) =
      .error (.invalidArgument "Table.insert" (.blankElement earlier.length)) := by
  have hnames : (ColumnList.texts ((earlier ++ m :: later).map Prod.fst)).toTexts "Table.insert"
      .columns = .error (.invalidArgument "Table.insert" (.blankElement earlier.length)) := by
    rw [List.map_append, List.map_cons, ← List.length_map Prod.fst]
    exact ColumnList.toTexts_texts_eq_error (List.forall_mem_map.mpr hearlier) hm
  rw [ofRow, ofColumns, hnames]
  rfl

/-- **The two ways to insert a row agree, but for blank names.** A map is inserted as a document if
it has members. It is inserted by its columns, which are its names in byte order, if moreover none
of these is blank, and is refused with the first that is. Where both ways succeed, they lead to the
same columns and the same SQL text and values, now and for an execution. -/
theorem documents_agree_with_rows (table : TableRef) (given : List (String × Value)) :
    let members := Members.ofList given
    (members.map fun m => Text.bytes m.1).Pairwise (· < ·) ∧
    ((∃ s, ofDocument table (.pairs given) = .ok s) ↔ members ≠ []) ∧
    ((∃ s, ofRow table members = .ok s) ↔
      members ≠ [] ∧ ∀ m ∈ members, Text.isBlank m.1 = false) ∧
    (∀ earlier m later, members = earlier ++ m :: later →
      (∀ n ∈ earlier, Text.isBlank n.1 = false) → Text.isBlank m.1 = true →
      ofRow table members =
        .error (.invalidArgument "Table.insert" (.blankElement earlier.length))) ∧
    ∀ s t, ofDocument table (.pairs given) = .ok s → ofRow table members = .ok t →
      s.columns = t.columns ∧ s.compile = t.compile ∧ s.prepareExecute = t.prepareExecute := by
  intro members
  refine ⟨Members.pairwise_bytes_ofList given, ?_, ?_, ?_, ?_⟩
  · simp only [ofDocument_pairs_eq_ok_iff, exists_and_left, exists_eq, and_true, members]
  · simp only [ofRow_eq_ok_iff, exists_and_left, exists_eq, and_true]
  · intro earlier m later heq hearlier hm
    rw [heq]
    exact ofRow_eq_error hearlier hm
  · intro s t hs ht
    obtain ⟨-, rfl⟩ := ofDocument_pairs_eq_ok_iff.mp hs
    obtain ⟨-, -, rfl⟩ := ofRow_eq_ok_iff.mp ht
    exact ⟨rfl, rfl, (prepareExecute_values table members).symm⟩

/-- Two names, given in the other order. -/
theorem documents_agree_with_rows_of_two_names :
    let given := [("b", Value.expression "NOW()"), ("a", .null)]
    ∃ s t, ofDocument ⟨"", "t"⟩ (.pairs given) = .ok s ∧
      ofRow ⟨"", "t"⟩ [("a", .null), ("b", .expression "NOW()")] = .ok t ∧
      s.columns = t.columns ∧ s.compile = t.compile ∧ s.prepareExecute = t.prepareExecute := by
  have hblank : ∀ m ∈ [("a", Value.null), ("b", .expression "NOW()")],
      Text.isBlank m.1 = false := by
    refine List.forall_mem_cons.mpr ⟨by decide, List.forall_mem_singleton.mpr (by decide)⟩
  obtain ⟨-, hdocument, hrow, -, hagree⟩ := documents_agree_with_rows ⟨"", "t"⟩
    [("b", .expression "NOW()"), ("a", .null)]
  obtain ⟨s, hs⟩ := hdocument.mpr (List.cons_ne_nil _ _)
  obtain ⟨t, ht⟩ := hrow.mpr ⟨List.cons_ne_nil _ _, hblank⟩
  exact ⟨s, t, hs, ht, hagree s t hs ht⟩

/-- **A blank name is inserted as part of a document**, and is refused as a column. -/
theorem exists_blank_name_inserted :
    ∃ (table : TableRef) (given : List (String × Value)) (s : InsertStatement),
      ofDocument table (.json (.ofMembers [("", .integer ⟨1, by decide⟩)])) = .ok s ∧
      ofDocument table (.pairs given) = .ok s ∧
      s.prepareExecute = .ok ⟨.insert, "INSERT INTO `test`.`table1` (``) VALUES (?)", [.bigint 1]⟩ ∧
      ofRow table (Members.ofList given) =
        .error (.invalidArgument "Table.insert" (.blankElement 0)) ∧
      ¬((∃ s, ofDocument table (.pairs given) = .ok s) ↔
        ∃ t, ofRow table (Members.ofList given) = .ok t) := by
  have hrow : ofRow ⟨"test", "table1"⟩ [("", .bigint 1)] =
      .error (.invalidArgument "Table.insert" (.blankElement 0)) := by
    have hnone : ∀ n ∈ ([] : List (String × Value)), Text.isBlank n.1 = false :=
      fun _ h => nomatch h
    exact ofRow_eq_error hnone Text.isBlank_empty
  refine ⟨⟨"test", "table1"⟩, [("", .bigint 1)], _, rfl, rfl, rfl, hrow, fun hagree => ?_⟩
  obtain ⟨t, ht⟩ := hagree.mp ⟨_, rfl⟩
  cases hrow.symm.trans ht

end InsertStatement

/-! ### JSON members -/

/-- A whole number is kept by the word that it is stored in. -/
theorem Json.Integer.eq_of_val {m n : Json.Integer} (h : m.val = n.val) : m = n := by
  cases m
  cases n
  cases h
  rfl

/-- **A JSON member is kept**, unless it is a number that JSON has not. -/
theorem Value.toJson_ofJson {j : Json} (h : ∀ x, j = .float x → x.isFinite = true) :
    (Value.ofJson j).toJson = j := by
  cases j with
  | integer n =>
    have hpow : Int.pow 2 63 = 2 ^ 63 ∧ Int.pow 2 64 = 2 ^ 64 := ⟨rfl, rfl⟩
    obtain ⟨hlow, hhigh⟩ := n.inRange
    rw [ofJson]
    split
    next hlt =>
      have hword : (Int64.ofInt n.val).toInt = n.val :=
        Int64.toInt_ofInt_of_le (by omega) (by omega)
      exact congrArg Json.integer (Json.Integer.eq_of_val hword)
    next hge =>
      have hword : ((UInt64.ofNat n.val.toNat).toNat : Int) = n.val := by
        have hsize : UInt64.size = 2 ^ 64 := rfl
        rw [UInt64.toNat_ofNat_of_lt' (by omega)]
        omega
      exact congrArg Json.integer (Json.Integer.eq_of_val hword)
  | float x => exact if_pos (h x rfl)
  | _ => rfl

theorem Value.isExpression_ofJson (j : Json) : (Value.ofJson j).isExpression = false := by
  cases j with
  | integer n =>
    rw [ofJson]
    split <;> rfl
  | _ => rfl

namespace InsertStatement

/-- **The statement inserts the members of a JSON object** in one row, in the byte order of their
names and without loss. -/
structure Inserts (members : List (String × Json)) (s : InsertStatement) : Prop where
  columns : s.columns = members.map Prod.fst
  /-- The order is strict, so that no name is there twice. -/
  ordered : (s.columns.map Text.bytes).Pairwise (· < ·)
  literals : ∀ row ∈ s.rows, ∀ v ∈ row, v.isExpression = false
  sent : ∃ c, s.compile = .ok c ∧ s.prepareExecute = .ok c ∧
    c.params.map Value.toJson = members.map Prod.snd

/-- A row of literals is sent as it is. -/
theorem prepareExecute_ofMembers (table : TableRef) {members : List (String × Value)}
    (h : ∀ m ∈ members, m.2.isExpression = false) :
    ∃ c, (ofMembers table members).prepareExecute = .ok c ∧ c.params = members.map Prod.snd := by
  have hallowed : .execute ∈ (ofMembers table members).operations := List.mem_singleton_self _
  have hexact := exact_of_execute_mem (List.cons_ne_nil _ _) hallowed
  have hliteral : ∀ v ∈ members.map Prod.snd, v.isExpression = false := List.forall_mem_map.mpr h
  have hlength : (members.map Prod.snd).length = (ofMembers table members).rowLength := by
    rw [rowLength, List.length_map]
    split
    next => rw [ofMembers, List.head?_cons, Option.map_some, Option.getD_some, List.length_map]
    next => rw [ofMembers, List.length_map]
  obtain ⟨c, hc⟩ := hexact.exists_ok_iff.mpr ⟨List.forall_mem_singleton.mpr hlength,
    List.forall_mem_singleton.mpr fun v hv => Value.closed_of_literal (hliteral v hv)⟩
  obtain ⟨-, -, hparams, -⟩ := hexact.sent c hc
  refine ⟨c, hc, hparams.trans ?_⟩
  rw [ofMembers, List.flatten_singleton, List.filter_eq_self]
  intro v hv
  rw [hliteral v hv]
  rfl

/-- The members of a JSON object are inserted. -/
theorem inserts_ofMembers (table : TableRef) {members : List (String × Json)}
    (hordered : (members.map fun m => Text.bytes m.1).Pairwise (· < ·))
    (hfinite : ∀ m ∈ members, ∀ x, m.2 = .float x → x.isFinite = true) :
    (ofMembers table (members.map fun m => (m.1, Value.ofJson m.2))).Inserts members := by
  have hliteral : ∀ m ∈ members.map fun m => (m.1, Value.ofJson m.2), m.2.isExpression = false :=
    List.forall_mem_map.mpr fun m _ => Value.isExpression_ofJson m.2
  have hcolumns : (members.map fun m => (m.1, Value.ofJson m.2)).map Prod.fst =
      members.map Prod.fst := by
    rw [List.map_map]
    rfl
  obtain ⟨c, hc, hparams⟩ := prepareExecute_ofMembers table hliteral
  have hcompile : compile _ = .ok c := Builder.compile_of_prepareExecute (S := InsertStatement) hc
  refine ⟨hcolumns, ?_, ?_, c, hcompile, hc, ?_⟩
  · rw [ofMembers, hcolumns, List.map_map]
    exact hordered
  · exact List.forall_mem_singleton.mpr (List.forall_mem_map.mpr hliteral)
  · rw [hparams, List.map_map, List.map_map]
    exact List.map_congr_left fun m hm => Value.toJson_ofJson (hfinite m hm)

/-- **Documents are inserted in order and without loss.** A JSON object that has members is
accepted, and a map is inserted in the same way in whatever order it is iterated over and then
sorted. -/
theorem documents_kept :
    (∀ (table : TableRef) (given : List (String × Json)), given ≠ [] →
      (∀ m ∈ Members.ofList given, ∀ x, m.2 = .float x → x.isFinite = true) →
      ∃ s, ofDocument table (.json (.ofMembers given)) = .ok s ∧
        s.Inserts (Members.ofList given) ∧
        ∀ name, name ∈ s.columns ↔ name ∈ given.map Prod.fst) ∧
    ∀ (table : TableRef) (given iterated : List (String × Value)),
      iterated.Perm (Members.ofList given) →
      Members.sortByKey iterated = Members.ofList given ∧
      ofDocument table (.pairs iterated) = ofDocument table (.pairs given) := by
  constructor
  · intro table given hne hfinite
    have hinserts := inserts_ofMembers table (Members.pairwise_bytes_ofList given) hfinite
    refine ⟨_, ofDocument_eq_ok_iff.mpr ⟨_, rfl, ?_, rfl⟩, hinserts, fun name => ?_⟩
    · exact List.map_eq_nil_iff.not.mpr (Members.ofList_eq_nil_iff.not.mpr hne)
    · rw [hinserts.columns]
      exact Members.mem_keys_ofList
  · intro table given iterated hperm
    have hordered := Members.ordered_ofList given
    have hsame : Members.ofList iterated = Members.ofList given :=
      Members.ofList_of_perm hordered hperm
    refine ⟨Members.sortByKey_of_perm hordered hperm, ?_⟩
    rw [ofDocument, ofDocument, Document.members, Document.members, hsame]

/-- The least and the greatest whole number, of which the last is given for a repeated name, and an
array. Two names are iterated over in either order. -/
theorem documents_kept_of_words :
    let least : Json := .integer ⟨-9223372036854775808, by decide⟩
    let greatest : Json := .integer ⟨18446744073709551615, by decide⟩
    let given := [("b", .null), ("c", .array [.float 0.5]), ("a", least), ("b", greatest)]
    (∃ s c, ofDocument ⟨"", "t"⟩ (.json (.ofMembers given)) = .ok s ∧ s.columns = ["a", "b", "c"] ∧
      s.prepareExecute = .ok c ∧
      c.params.map Value.toJson = [least, greatest, .array [.float 0.5]]) ∧
    ofDocument ⟨"", "t"⟩ (.pairs [("b", .null), ("a", .bool true)]) =
      ofDocument ⟨"", "t"⟩ (.pairs [("a", .bool true), ("b", .null)]) := by
  obtain ⟨hjson, hpairs⟩ := documents_kept
  intro least greatest given
  have hmembers : Members.ofList given =
      [("a", least), ("b", greatest), ("c", .array [.float 0.5])] := by
    have hcb : ¬ "c" < "b" ∧ "c" ≠ "b" := by decide
    have hba : "a" < "b" ∧ ¬ "b" < "a" ∧ "b" ≠ "a" ∧ ¬ "b" < "b" := by decide
    simp only [given, Members.ofList, List.foldl_cons, List.foldl_nil, Members.insert, hcb, hba,
      if_true, if_false]
  have hfinite : ∀ m ∈ Members.ofList given, ∀ x, m.2 = .float x → x.isFinite = true := by
    rw [hmembers]
    simp [least, greatest]
  constructor
  · obtain ⟨s, hs, hinserts, -⟩ := hjson ⟨"", "t"⟩ given (List.cons_ne_nil _ _) hfinite
    rw [hmembers] at hinserts
    obtain ⟨c, -, hc, hparams⟩ := hinserts.sent
    exact ⟨s, c, hs, hinserts.columns, hc, hparams⟩
  · exact (hpairs ⟨"", "t"⟩ [("a", .bool true), ("b", .null)] [("b", .null), ("a", .bool true)]
      (.swap _ _ [])).2

end InsertStatement

end TableSql
