import TableSql.Proofs.Argument
import TableSql.Proofs.Fragment.Balance
import TableSql.Proofs.Fragment.Rendering
import TableSql.Proofs.Statement.Parts
import TableSql.Proofs.Statement.Placeholders

/-!
# Blank expressions

A condition is checked when it is given, and a blank one is refused. An expression that is given as
a value is never checked: not when it is assigned, inserted or bound, and not when it is written
out. A blank text leaves no quote open and has no placeholder, so nothing else stands in its way
either, and what is sent has a pair of parentheses around it.

## Main definitions

* `Part.inlined`, `Part.names` — the texts that are written out for a part, and the names in it
* `Part.OnlyAsValue` — a text that is written out where it was given as a value, and only there
* `Condition.text?` — the text of a condition that has one

## Main results

* `Sql.placeholders?_of_isBlank` — a blank text is closed and has no placeholder
* `SelectStatement.conditions_not_blank`, `UpdateStatement.conditions_not_blank`,
  `DeleteStatement.conditions_not_blank` — the conditions of a reachable statement are not blank
* `blank_expression_passes_as_value` — where a blank text is refused and where it is written out
* `exists_blank_expression_sent` — a blank assignment, cell and bound value in what is sent
-/

namespace TableSql

/-! ### Blank text -/

theorem Sql.placeholdersFrom_eq_nil {bs : List UInt8}
    (h : ∀ b ∈ bs, Quote.ofByte? b = none ∧ b ≠ 58) (pos : Nat) :
    placeholdersFrom 0 pos bs = .ok [] := by
  induction bs generalizing pos with
  | nil => rfl
  | cons b bs ih =>
    obtain ⟨⟨hquote, hcolon⟩, hbs⟩ := List.forall_mem_cons.mp h
    have hcolon : (b == 58) = false := beq_eq_false_iff_ne.mpr hcolon
    rw [placeholdersFrom, hquote]
    simp only [hcolon, Bool.false_and, Bool.false_eq_true, if_false]
    exact ih hbs (pos + 1)

/-- White space in ASCII is none of the marks that a scan looks for. -/
theorem Text.not_mark_of_isBlankChar {b : UInt8} (hlt : b.toNat < 128)
    (h : isBlankChar (Char.ofNat b.toNat) = true) :
    Sql.Quote.ofByte? b = none ∧ b ≠ 58 := by
  have hall : ∀ n < 128, isBlankChar (Char.ofNat n) = true →
      Sql.Quote.ofByte? (UInt8.ofNat n) = none ∧ UInt8.ofNat n ≠ 58 := by decide
  have hb := hall b.toNat hlt h
  rwa [UInt8.ofNat_toNat] at hb

/-- **A blank text is closed and has no placeholder.** -/
theorem Sql.placeholders?_of_isBlank {text : String} (h : Text.isBlank text = true) :
    placeholders? text = .ok [] := by
  refine placeholdersFrom_eq_nil (fun b hb => ?_) 0
  obtain ⟨c, hc, hbc⟩ := List.mem_flatMap.mp hb
  have hblank : Text.isBlankChar c = true := List.all_eq_true.mp h c hc
  by_cases hlt : b.toNat < 128
  · obtain ⟨rfl, -⟩ := Text.eq_of_mem_utf8EncodeChar hbc hlt
    exact Text.not_mark_of_isBlankChar hlt hblank
  · -- all marks are ASCII
    refine ⟨?_, ?_⟩
    · rw [Quote.ofByte?, if_neg, if_neg, if_neg]
      all_goals rintro rfl; exact hlt (by decide)
    · rintro rfl
      exact hlt (by decide)

/-- A blank expression is written out as it is. -/
theorem Value.render_of_isBlank {text : String} (h : Text.isBlank text = true) (context : String)
    (b : Bindings) :
    (expression text).render context b = .ok (.ofText ("(" ++ text ++ ")")) :=
  render_of_placeholders_eq_nil (Sql.placeholders?_of_isBlank h) context b

theorem Bindings.render_of_isBlank {b : Bindings} {name text : String}
    (hget : b.get? name = some (.expression text)) (h : Text.isBlank text = true)
    (context : String) : b.render context name = .ok (.ofText ("(" ++ text ++ ")")) := by
  have hready : b.Ready name := by
    intro sql hsql
    cases hget.symm.trans hsql
    exact Sql.placeholders?_of_isBlank h
  have hbound : b.get? name ≠ none := by
    rw [hget]
    exact Option.some_ne_none _
  obtain ⟨f, hf⟩ := render_of_ready context hbound hready
  rw [hf, written_of_render hf, written, hget]
  rfl

/-! ### Conditions -/

namespace Condition

/-- The text of a condition that has one. -/
def text? : Condition → Option String
  | .text s => some s
  | .value v => v.textOrSql?

theorem toText_of_isBlank {c : Condition} {text : String} (htext : c.text? = some text)
    (h : Text.isBlank text = true) (context : String) :
    c.toText context = .error (.invalidArgument context .blankExpression) := by
  have hchecked : checked context text = .error (.invalidArgument context .blankExpression) := by
    rw [checked, if_pos h]
  cases c with
  | text s =>
    cases htext
    exact hchecked
  | value v =>
    cases v with
    | text s | expression s =>
      cases htext
      exact hchecked
    | _ => cases htext

/-- What is accepted is not blank. -/
theorem not_blank_of_toText {c : Condition} {context text : String}
    (h : c.toText context = .ok text) : Text.isBlank text = false := by
  refine Bool.eq_false_iff.mpr fun hblank => ?_
  have htext : c.text? = some text := by
    have hgiven := given_of_toText h
    cases c with
    | text s => exact congrArg some hgiven
    | value v =>
      cases v with
      | text s | expression s => exact congrArg some hgiven
      | _ => cases h
  cases h.symm.trans (toText_of_isBlank htext hblank context)

end Condition

/-! ### Blank conditions are refused -/

namespace SelectStatement

variable {s : SelectStatement} {condition : Condition} {text : String}

theorem apply_filter_of_isBlank (hallowed : .filter ∈ s.operations)
    (htext : condition.text? = some text) (h : Text.isBlank text = true) :
    s.apply (.filter condition) =
      .error (.invalidArgument "TableSelect.where" .blankExpression) := by
  have hmem : (Call.filter condition).operation ∈ s.operations := hallowed
  rw [apply, Operation.guarded_of_mem hmem, perform, condition.toText_of_isBlank htext h]
  rfl

theorem apply_having_of_isBlank (hallowed : .having ∈ s.operations)
    (htext : condition.text? = some text) (h : Text.isBlank text = true) :
    s.apply (.having condition) =
      .error (.invalidArgument "TableSelect.having" .blankExpression) := by
  have hmem : (Call.having condition).operation ∈ s.operations := hallowed
  rw [apply, Operation.guarded_of_mem hmem, perform, condition.toText_of_isBlank htext h]
  rfl

/-- The conditions of a reachable statement are not blank. -/
theorem conditions_not_blank (h : Builder.Reachable s) :
    ∀ t ∈ s.filter.toList ++ s.having.toList, Text.isBlank t.text = false := by
  refine h.induction (P := fun s => ∀ t ∈ s.filter.toList ++ s.having.toList,
    Text.isBlank t.text = false) ?_ ?_ ?_
  · intro x s hs
    obtain ⟨table, projection, rfl⟩ := exists_of_start hs
    exact nofun
  · intro s c s' hs hs'
    obtain ⟨hfilter, hhaving⟩ := List.forall_mem_append.mp hs
    obtain ⟨-, hgives⟩ := apply_eq_ok_iff.mp hs'
    cases hgives with
    | filter htext =>
      refine List.forall_mem_append.mpr ⟨List.forall_mem_singleton.mpr ?_, hhaving⟩
      exact Condition.not_blank_of_toText htext
    | having htext =>
      refine List.forall_mem_append.mpr ⟨hfilter, List.forall_mem_singleton.mpr ?_⟩
      exact Condition.not_blank_of_toText htext
    | _ => exact hs
  · exact fun _ _ hs _ => hs

end SelectStatement

namespace DeleteStatement

variable {s : DeleteStatement} {condition : Condition} {text : String}

theorem apply_filter_of_isBlank (hallowed : .filter ∈ s.operations)
    (htext : condition.text? = some text) (h : Text.isBlank text = true) :
    s.apply (.filter condition) =
      .error (.invalidArgument "TableDelete.where" .blankExpression) := by
  have hmem : (Call.filter condition).operation ∈ s.operations := hallowed
  rw [apply, Operation.guarded_of_mem hmem, perform, condition.toText_of_isBlank htext h]
  rfl

/-- The filter of a reachable statement is not blank. -/
theorem conditions_not_blank (h : Builder.Reachable s) :
    ∀ t ∈ s.filter.toList, Text.isBlank t.text = false := by
  refine h.induction (P := fun s => ∀ t ∈ s.filter.toList, Text.isBlank t.text = false) ?_ ?_ ?_
  · intro table s hs
    cases hs
    exact nofun
  · intro s c s' hfilter hs'
    obtain ⟨-, hgives⟩ := apply_eq_ok_iff.mp hs'
    cases hgives with
    | filter htext => exact List.forall_mem_singleton.mpr (Condition.not_blank_of_toText htext)
    | _ => exact hfilter
  · exact fun _ _ hs _ => hs

end DeleteStatement

namespace UpdateStatement

variable {s : UpdateStatement} {condition : Condition} {text : String}

theorem apply_filter_of_isBlank (hallowed : .filter ∈ s.operations)
    (htext : condition.text? = some text) (h : Text.isBlank text = true) :
    s.apply (.filter condition) =
      .error (.invalidArgument "TableUpdate.where" .blankExpression) := by
  have hmem : (Call.filter condition).operation ∈ s.operations := hallowed
  rw [apply, Operation.guarded_of_mem hmem, perform, condition.toText_of_isBlank htext h]
  rfl

/-- The filter of a reachable statement is not blank. -/
theorem conditions_not_blank (h : Builder.Reachable s) :
    ∀ t ∈ s.filter.toList, Text.isBlank t.text = false := by
  refine h.induction (P := fun s => ∀ t ∈ s.filter.toList, Text.isBlank t.text = false) ?_ ?_ ?_
  · intro table s hs
    cases hs
    exact nofun
  · intro s c s' hfilter hs'
    obtain ⟨-, hgives⟩ := apply_eq_ok_iff.mp hs'
    cases hgives with
    | set _ hassign =>
      obtain ⟨-, rfl⟩ := assign_eq_ok hassign
      rwa [← filter_assigned s] at hfilter
    | filter htext => exact List.forall_mem_singleton.mpr (Condition.not_blank_of_toText htext)
    | _ => exact hfilter
  · exact fun _ _ hs _ => hs

end UpdateStatement

/-! ### Texts that are written out -/

/-- The texts of expressions that are bound to names. -/
theorem Bindings.mem_inlined_iff {b : Bindings} {names : List String} {text : String} :
    text ∈ b.inlined names ↔ ∃ name ∈ names, b.get? name = some (.expression text) := by
  simp only [inlined, List.mem_filterMap, Option.bind_eq_some_iff, Value.sql?_eq_some_iff,
    exists_eq_right]

namespace Part

/-- The texts that are written out for a part. -/
def inlined (b : Bindings) : Part → List String
  | .text _ => []
  | .condition t => t.inlined b
  | .value v => v.inlined b

/-- The names of the placeholders in a part. -/
def names : Part → List String
  | .text _ => []
  | .condition t => t.names
  | .value v => v.names

variable {b : Bindings}

/-- What is written out for a part is its condition, its expression or a bound expression. -/
theorem mem_inlined_iff {p : Part} {text : String} : text ∈ p.inlined b ↔
    (∃ t, p.condition? = some t ∧ t.text = text) ∨ p.value? = some (.expression text) ∨
      ∃ name ∈ p.names, b.get? name = some (.expression text) := by
  rw [← Bindings.mem_inlined_iff]
  cases p with
  | text sql => simp [inlined, names, Bindings.inlined]
  | condition t =>
    simp [inlined, names, Template.inlined, condition?, value?, eq_comm]
  | value v =>
    cases hsql : v.sql? with
    | none =>
      have hne : v ≠ .expression text := fun heq => by simp [heq, Value.sql?] at hsql
      simp [inlined, names, Value.inlined, Value.names, hsql, hne, Bindings.inlined]
    | some sql =>
      cases Value.sql?_eq_some_iff.mp hsql
      simp [inlined, names, Value.inlined, Value.names, hsql, eq_comm]

/-- **The text is written out if it was given as a value**, and only then: in a column, or bound to
a placeholder that occurs. -/
def OnlyAsValue (parts : List Part) (b : Bindings) (values : List Value) (text : String) : Prop :=
  text ∈ parts.flatMap (inlined b) ↔
    .expression text ∈ values ∨
      ∃ name ∈ parts.flatMap names, b.get? name = some (.expression text)

theorem WrittenOut.onlyAsValue {parts : List Part} {values : List Value}
    {conditions : List Template} {kind : StatementKind}
    {compiled : Except Error CompiledStatement}
    (h : WrittenOut parts b values conditions kind compiled)
    (hconditions : ∀ t ∈ conditions, Text.isBlank t.text = false) {text : String}
    (hblank : Text.isBlank text = true) : OnlyAsValue parts b values text := by
  rw [OnlyAsValue, ← h.values_eq]
  simp only [List.mem_flatMap, List.mem_filterMap, mem_inlined_iff]
  constructor
  · rintro ⟨p, hp, ⟨t, ht, rfl⟩ | hvalue | ⟨name, hname, hget⟩⟩
    · have hmem : t ∈ conditions := h.conditions_eq ▸ List.mem_filterMap.mpr ⟨p, hp, ht⟩
      cases hblank.symm.trans (hconditions t hmem)
    · exact .inl ⟨p, hp, hvalue⟩
    · exact .inr ⟨name, ⟨p, hp, hname⟩, hget⟩
  · rintro (⟨p, hp, hvalue⟩ | ⟨name, ⟨p, hp, hname⟩, hget⟩)
    · exact ⟨p, hp, .inr (.inl hvalue)⟩
    · exact ⟨p, hp, .inr (.inr ⟨name, hname, hget⟩)⟩

end Part

/-! ### All paths -/

/-- **A blank expression is refused as a condition and passes as a value.** A reachable statement
writes it out if it was assigned, inserted or bound to a placeholder that occurs, and only then. No
call refuses it there, and it is written between parentheses. -/
theorem blank_expression_passes_as_value (text : String) (hblank : Text.isBlank text = true) :
    (∀ condition : Condition, condition.text? = some text →
      (∀ s : SelectStatement, .filter ∈ s.operations → s.apply (.filter condition) =
        .error (.invalidArgument "TableSelect.where" .blankExpression)) ∧
      (∀ s : SelectStatement, .having ∈ s.operations → s.apply (.having condition) =
        .error (.invalidArgument "TableSelect.having" .blankExpression)) ∧
      (∀ s : UpdateStatement, .filter ∈ s.operations → s.apply (.filter condition) =
        .error (.invalidArgument "TableUpdate.where" .blankExpression)) ∧
      (∀ s : DeleteStatement, .filter ∈ s.operations → s.apply (.filter condition) =
        .error (.invalidArgument "TableDelete.where" .blankExpression))) ∧
    (∀ s : SelectStatement, Builder.Reachable s → Part.OnlyAsValue s.parts s.bindings [] text) ∧
    (∀ s : InsertStatement, Part.OnlyAsValue s.parts .empty s.rows.flatten text) ∧
    (∀ s : UpdateStatement, Builder.Reachable s → Part.OnlyAsValue s.parts s.bindings
      (s.assignments.map UpdateStatement.Assignment.value) text) ∧
    (∀ s : DeleteStatement, Builder.Reachable s → Part.OnlyAsValue s.parts s.bindings [] text) ∧
    (∀ s : UpdateStatement, Builder.Reachable s → .set ∈ s.operations → ∀ column,
      Text.isBlank column = false → ∃ s', s.apply (.set column (.expression text)) = .ok s') ∧
    (∀ context b, (Value.expression text).render context b =
      .ok (.ofText ("(" ++ text ++ ")"))) ∧
    (∀ context (b : Bindings) name, b.get? name = some (.expression text) →
      b.render context name = .ok (.ofText ("(" ++ text ++ ")"))) := by
  refine ⟨fun condition htext => ⟨?_, ?_, ?_, ?_⟩, ?_, ?_, ?_, ?_, ?_, ?_, ?_⟩
  · exact fun s hallowed => SelectStatement.apply_filter_of_isBlank hallowed htext hblank
  · exact fun s hallowed => SelectStatement.apply_having_of_isBlank hallowed htext hblank
  · exact fun s hallowed => UpdateStatement.apply_filter_of_isBlank hallowed htext hblank
  · exact fun s hallowed => DeleteStatement.apply_filter_of_isBlank hallowed htext hblank
  · exact fun s hs => s.writtenOut.onlyAsValue (SelectStatement.conditions_not_blank hs) hblank
  · exact fun s => s.writtenOut.onlyAsValue nofun hblank
  · exact fun s hs => s.writtenOut.onlyAsValue (UpdateStatement.conditions_not_blank hs) hblank
  · exact fun s hs => s.writtenOut.onlyAsValue (DeleteStatement.conditions_not_blank hs) hblank
  · intro s hs hallowed column hcolumn
    have hconsistent := UpdateStatement.consistent_of_reachable hs
    refine (UpdateStatement.exists_apply_set_iff hconsistent hallowed column _).mpr
      ⟨hcolumn, fun sql hsql => ?_⟩
    cases hsql
    exact ⟨[], Sql.placeholders?_of_isBlank hblank⟩
  · exact fun context b => Value.render_of_isBlank hblank context b
  · exact fun context b name hget => Bindings.render_of_isBlank hget hblank context

/-- A space is refused as a filter and assigned to a column. -/
theorem blank_expression_passes_as_value_of_space :
    (SelectStatement.all ⟨"", "t"⟩).apply (.filter (.text " ")) =
      .error (.invalidArgument "TableSelect.where" .blankExpression) ∧
    ∃ s', (UpdateStatement.ofTable ⟨"", "t"⟩).apply (.set "a" (.expression " ")) = .ok s' := by
  have hblank : Text.isBlank " " = true := by decide
  have hcolumn : Text.isBlank "a" = false := by decide
  have hselect : .filter ∈ (SelectStatement.all ⟨"", "t"⟩).operations := by
    show Operation.filter ∈ SelectStatement.Stage.allowed .select
    decide
  have hupdate : .set ∈ (UpdateStatement.ofTable ⟨"", "t"⟩).operations := by
    show Operation.set ∈ UpdateStatement.Stage.allowed .update
    decide
  have hstart : Builder.Reachable (UpdateStatement.ofTable ⟨"", "t"⟩) := .start (x := ⟨"", "t"⟩) rfl
  obtain ⟨hrefused, -, -, -, -, hassigned, -⟩ := blank_expression_passes_as_value " " hblank
  exact ⟨(hrefused (.text " ") rfl).1 _ hselect, hassigned _ hstart hupdate "a" hcolumn⟩

/-- **Blank expressions are sent**: assigned, inserted and bound ones. -/
theorem exists_blank_expression_sent :
    ∃ (update : UpdateStatement) (insert : InsertStatement) (delete : DeleteStatement),
      update = Builder.after (.ofTable ⟨"test", "table1"⟩) [.call (.set "a" (.expression ""))] ∧
      insert = Builder.after (.ofTable ⟨"test", "table1"⟩)
        [.call (.values [.expression " "])] ∧
      delete = Builder.after (.ofTable ⟨"test", "table1"⟩)
        [.call (.filter (.text ":x")), .call (.bind "x" (.expression " "))] ∧
      Builder.Reachable update ∧ Builder.Reachable insert ∧ Builder.Reachable delete ∧
      Text.isBlank "" = true ∧ Text.isBlank " " = true ∧
      update.prepareExecute = .ok ⟨.update, "UPDATE `test`.`table1` SET `a` = ()", []⟩ ∧
      insert.prepareExecute = .ok ⟨.insert, "INSERT INTO `test`.`table1` VALUES (( ))", []⟩ ∧
      delete.prepareExecute =
        .ok ⟨.delete, "DELETE FROM `test`.`table1` WHERE ( )", []⟩ := by
  have hupdate : Builder.Reachable (UpdateStatement.ofTable ⟨"test", "table1"⟩) :=
    .start (x := ⟨"test", "table1"⟩) rfl
  have hinsert : Builder.Reachable (InsertStatement.ofTable ⟨"test", "table1"⟩) :=
    .start (x := .table ⟨"test", "table1"⟩) rfl
  have hdelete : Builder.Reachable (DeleteStatement.ofTable ⟨"test", "table1"⟩) :=
    .start (x := ⟨"test", "table1"⟩) rfl
  exact ⟨_, _, _, rfl, rfl, rfl, Builder.reachable_after hupdate _,
    Builder.reachable_after hinsert _, Builder.reachable_after hdelete _, by decide, by decide,
    rfl, rfl, rfl⟩

end TableSql
