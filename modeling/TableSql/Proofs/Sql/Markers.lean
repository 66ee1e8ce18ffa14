import Mathlib.Algebra.GroupWithZero.Nat
import TableSql.Error
import TableSql.Lock
import TableSql.Ordering
import TableSql.Proofs.Sql.Cut
import TableSql.Proofs.Sql.Quoting

/-!
# Markers of the texts that statements are made of

Counting markers is additive over closed texts. Quoted names, numbers, keywords, locks and
directions are closed and hold no marker, whatever the name or the number.

## Main results

* `Sql.countMarkers?_append`, `Sql.countMarkers?_intercalate` — joined texts
* `Sql.countMarkers?_quoteIdentifier`, `TableRef.countMarkers?_toSql` — names in backticks
* `countMarkers?_decimal`, `LockMode.countMarkers?_toSql`, `OrderCriterion.countMarkers?_toSql`
-/

namespace TableSql

namespace Sql

/-! ### Joined texts -/

theorem countMarkers?_append {s t : String} {m n : Nat} (hs : countMarkers? s = .ok m)
    (ht : countMarkers? t = .ok n) : countMarkers? (s ++ t) = .ok (m + n) := by
  obtain ⟨hsc, rfl⟩ := countMarkers?_eq_ok_iff.mp hs
  obtain ⟨htc, rfl⟩ := countMarkers?_eq_ok_iff.mp ht
  exact countMarkers?_eq_ok_iff.mpr ⟨hsc.append htc, markers_append hsc t⟩

theorem countMarkers?_of_closed {s : String} (h : Closed s) : countMarkers? s = .ok (markers s) :=
  countMarkers?_eq_ok_iff.mpr ⟨h, rfl⟩

theorem forall_closed_iff {texts : List String} :
    (∀ t ∈ texts, Closed t) ↔ ∀ t ∈ texts, ∃ n, countMarkers? t = .ok n := by
  constructor
  · intro h t ht
    exact ⟨_, countMarkers?_of_closed (h t ht)⟩
  · intro h t ht
    obtain ⟨n, hn⟩ := h t ht
    exact (countMarkers?_eq_ok_iff.mp hn).1

theorem countMarkers?_intercalate {separator : String} {texts : List String}
    (hsep : countMarkers? separator = .ok 0) (h : ∀ t ∈ texts, Closed t) :
    countMarkers? (separator.intercalate texts) = .ok (texts.map markers).sum := by
  induction texts with
  | nil => rfl
  | cons t rest ih =>
    obtain ⟨ht, hrest⟩ := List.forall_mem_cons.mp h
    cases rest with
    | nil =>
      rw [String.intercalate_singleton]
      simpa using countMarkers?_of_closed ht
    | cons u rest =>
      rw [String.intercalate_cons_cons, List.map_cons, List.sum_cons]
      have := countMarkers?_append (countMarkers?_append (countMarkers?_of_closed ht) hsep)
        (ih hrest)
      rwa [Nat.add_zero] at this

/-! ### Names in backticks -/

/-- No marker is in a quoted name, since all of it is one token. -/
theorem countMarkers?_quoteIdentifier (name : String) :
    countMarkers? (quoteIdentifier name) = .ok 0 := by
  have hend : ([] : List UInt8).head? ≠ some 96 := by simp
  have htoken := Quote.tailLength?_name name.toList hend
  obtain ⟨hafter, hmark⟩ := Mode.after_quote (b := 96) rfl htoken
  have hnone : (Text.encode (doubleBackticks name.toList) ++ [96]).drop
      ((Text.encode (doubleBackticks name.toList)).length + 1) = [] := by
    simp
  rw [hnone] at hafter hmark
  refine countMarkers?_eq_ok_iff.mpr ⟨?_, ?_⟩
  · rw [Closed, bytes_quoteIdentifier, hafter]
    rfl
  · rw [markers, bytes_quoteIdentifier, hmark]
    rfl

/-- A list of quoted names with commas in between. -/
theorem countMarkers?_quoteIdentifiers (names : List String) :
    countMarkers? (", ".intercalate (names.map quoteIdentifier)) = .ok 0 := by
  have hcomma : countMarkers? ", " = .ok 0 := rfl
  have hnone : ∀ name, Closed (quoteIdentifier name) ∧ markers (quoteIdentifier name) = 0 :=
    fun name => countMarkers?_eq_ok_iff.mp (countMarkers?_quoteIdentifier name)
  have hsum : ((names.map quoteIdentifier).map markers).sum = 0 := by
    refine List.sum_eq_zero_iff_forall_eq_nat.mpr fun n hn => ?_
    simp only [List.map_map, List.mem_map, Function.comp_apply] at hn
    obtain ⟨name, -, rfl⟩ := hn
    exact (hnone name).2
  rw [← hsum]
  refine countMarkers?_intercalate hcomma fun t ht => ?_
  obtain ⟨name, -, rfl⟩ := List.mem_map.mp ht
  exact (hnone name).1

end Sql

theorem TableRef.countMarkers?_toSql (t : TableRef) : Sql.countMarkers? t.toSql = .ok 0 := by
  rw [TableRef.toSql]
  split
  · exact Sql.countMarkers?_quoteIdentifier _
  · have hdot : Sql.countMarkers? "." = .ok 0 := rfl
    have hschema := Sql.countMarkers?_append (Sql.countMarkers?_quoteIdentifier t.schema) hdot
    exact Sql.countMarkers?_append hschema (Sql.countMarkers?_quoteIdentifier t.name)

/-! ### Numbers and keywords -/

/-- The digits of a number are read like those of a name. -/
theorem countMarkers?_decimal (n : Nat) : Sql.countMarkers? (decimal n) = .ok 0 := by
  have hname : ∀ b ∈ Text.bytes (decimal n), Sql.isNameByte b = true := by
    intro b hb
    rw [decimal, Text.bytes_ofList, Text.encode, List.mem_flatMap] at hb
    obtain ⟨c, hc, hb⟩ := hb
    have hdigit : c.isDigit = true := Nat.isDigit_of_mem_toDigits (by decide) (by decide) hc
    obtain ⟨hge, hle⟩ : 48 ≤ c.toNat ∧ c.toNat ≤ 57 := by
      simpa [Char.isDigit, UInt32.le_iff_toNat_le] using hdigit
    rw [Text.utf8EncodeChar_of_lt (by omega), List.mem_singleton] at hb
    subst hb
    have hval : (UInt8.ofNat c.toNat).toNat = c.toNat :=
      UInt8.toNat_ofNat_of_lt' (Nat.lt_of_le_of_lt hle (by decide))
    simp [Sql.isNameByte, UInt8.le_iff_toNat_le, hval, hge, hle]
  obtain ⟨hout, hmark⟩ := Sql.Mode.after_name hname
  exact Sql.countMarkers?_eq_ok_iff.mpr ⟨hout, hmark⟩

theorem LockMode.countMarkers?_toSql (mode : LockMode) : Sql.countMarkers? mode.toSql = .ok 0 := by
  rcases mode with c | c <;> cases c <;> rfl

theorem OrderCriterion.countMarkers?_toSql {c : OrderCriterion} (h : Sql.Closed c.column) :
    Sql.countMarkers? c.toSql = .ok (Sql.markers c.column) := by
  have hdirection : Sql.countMarkers? c.direction.name = .ok 0 := by
    cases c.direction <;> rfl
  have hspace : Sql.countMarkers? " " = .ok 0 := rfl
  have hcolumn := Sql.countMarkers?_append (Sql.countMarkers?_of_closed h) hspace
  exact Sql.countMarkers?_append hcolumn hdirection

end TableSql
