import TableSql.Proofs.Text.Encoding
import TableSql.Sql.Identifier
import TableSql.Sql.Scan

/-!
# Reading a quoted name back

A name between backticks has every backtick of its own doubled. A scan that starts at the first
backtick therefore takes the whole of it, whatever the name: bytes other than backticks are taken
one by one, doubled backticks in pairs, and the last one has no other behind it. That last point is
the only one at which the text that follows matters, so all that is asked of it is that it does not
go on with a backtick.

Since the token ends where the name does, text that starts with a quoted name falls apart in one
way only. A table's name is such text, with or without a schema in front.

## Main definitions

* `Sql.leadingToken?` — the quoted token that a text starts with
* `Sql.undoubleBackticks?` — the name that stands between backticks

## Main results

* `Sql.leadingToken?_quoteIdentifier_append` — a quoted name is one token
* `Sql.quoteIdentifier_append_inj` — text behind a quoted name can be told from it
* `Sql.quoteIdentifier_reads_back` — no name gets out of its backticks, and none is mistaken for
  another
-/

namespace TableSql

namespace Sql

/-- The quoted token that a text starts with: its quote, and its length in bytes with both quotes
counted. -/
def leadingToken? (text : String) : Option (Quote × Nat) :=
  match Text.bytes text with
  | [] => none
  | b :: bs => do
    let q ← Quote.ofByte? b
    let n ← q.tailLength? bs
    return (q, n + 1)

/-- The name that stands between backticks. None if a backtick of it is not doubled. -/
def undoubleBackticks? : List Char → Option (List Char)
  | [] => some []
  | '\x60' :: '\x60' :: cs => (undoubleBackticks? cs).map ('\x60' :: ·)
  | c :: cs => if c = '\x60' then none else (undoubleBackticks? cs).map (c :: ·)

/-! ### Characters of a name -/

@[simp] theorem doubleBackticks_nil : doubleBackticks [] = [] := rfl

@[simp] theorem doubleBackticks_cons_backtick (cs : List Char) :
    doubleBackticks ('\x60' :: cs) = '\x60' :: '\x60' :: doubleBackticks cs := rfl

theorem doubleBackticks_cons_of_ne {c : Char} (h : c ≠ '\x60') (cs : List Char) :
    doubleBackticks (c :: cs) = c :: doubleBackticks cs := by
  rw [doubleBackticks, List.flatMap_cons, if_neg h]
  rfl

/-- Doubling loses nothing. -/
theorem undoubleBackticks?_doubleBackticks (cs : List Char) :
    undoubleBackticks? (doubleBackticks cs) = some cs := by
  induction cs with
  | nil => rfl
  | cons c cs ih =>
    by_cases hc : c = '\x60'
    · subst hc
      rw [doubleBackticks_cons_backtick, undoubleBackticks?, ih]
      rfl
    · rw [doubleBackticks_cons_of_ne hc, undoubleBackticks?, if_neg hc, ih]
      · rfl
      · rintro _ rfl
        exact absurd rfl hc

theorem doubleBackticks_injective : Function.Injective doubleBackticks := by
  intro cs ds h
  have hcs := undoubleBackticks?_doubleBackticks cs
  rw [h, undoubleBackticks?_doubleBackticks] at hcs
  exact (Option.some.inj hcs).symm

/-! ### Bytes of a name -/

/-- Only a backtick has the backtick's byte. -/
theorem ne_of_mem_utf8EncodeChar {c : Char} (hc : c ≠ '\x60') {b : UInt8}
    (hb : b ∈ String.utf8EncodeChar c) : b ≠ 96 := by
  rintro rfl
  exact hc (Text.eq_of_mem_utf8EncodeChar hb (by decide)).1

theorem head?_bytes_ne {text : String} (h : text.toList.head? ≠ some '\x60') :
    (Text.bytes text).head? ≠ some 96 := by
  rw [Text.bytes]
  cases htext : text.toList with
  | nil => simp
  | cons c cs =>
    have hc : c ≠ '\x60' := by simpa [htext] using h
    obtain ⟨b, bs, hcons⟩ := List.exists_cons_of_ne_nil (String.utf8EncodeChar_ne_nil (c := c))
    have hb : b ≠ 96 := ne_of_mem_utf8EncodeChar hc (by simp [hcons])
    rw [Text.encode_cons, hcons]
    simpa using hb

theorem bytes_quoteIdentifier (name : String) :
    Text.bytes (quoteIdentifier name) =
      96 :: (Text.encode (doubleBackticks name.toList) ++ [96]) := by
  rw [quoteIdentifier, Text.bytes_ofList, Text.encode_cons, Text.encode_append]
  rfl

/-! ### The token -/

namespace Quote

theorem tailLength?_backtick_of_ne {b : UInt8} (h : b ≠ 96) (bs : List UInt8) :
    Quote.backtick.tailLength? (b :: bs) = (Quote.backtick.tailLength? bs).map (· + 1) := by
  rw [tailLength?.eq_def]
  simp [hasEscapes, byte, h]

theorem tailLength?_backtick_doubled (bs : List UInt8) :
    Quote.backtick.tailLength? (96 :: 96 :: bs) = (Quote.backtick.tailLength? bs).map (· + 2) := by
  rw [tailLength?]
  simp [hasEscapes, byte]

theorem tailLength?_backtick_close {bs : List UInt8} (h : bs.head? ≠ some 96) :
    Quote.backtick.tailLength? (96 :: bs) = some 1 := by
  cases bs with
  | nil => rfl
  | cons b bs =>
    have hb : b ≠ 96 := by simpa using h
    rw [tailLength?]
    simp [hasEscapes, byte, hb]

/-- Bytes other than backticks are taken one by one. -/
theorem tailLength?_backtick_append {as : List UInt8} (h : ∀ b ∈ as, b ≠ 96) (bs : List UInt8) :
    Quote.backtick.tailLength? (as ++ bs) =
      (Quote.backtick.tailLength? bs).map (· + as.length) := by
  induction as with
  | nil => simp
  | cons b as ih =>
    obtain ⟨hb, has⟩ := List.forall_mem_cons.mp h
    rw [List.cons_append, tailLength?_backtick_of_ne hb, ih has, Option.map_map]
    rfl

/-- The characters of a name are taken to their end, and the scan goes on behind them. -/
theorem tailLength?_doubleBackticks_append (cs : List Char) (bs : List UInt8) :
    Quote.backtick.tailLength? (Text.encode (doubleBackticks cs) ++ bs) =
      (Quote.backtick.tailLength? bs).map (· + (Text.encode (doubleBackticks cs)).length) := by
  induction cs with
  | nil => simp
  | cons c cs ih =>
    by_cases hc : c = '\x60'
    · subst hc
      have hpair : Text.encode (doubleBackticks ('\x60' :: cs)) =
          96 :: 96 :: Text.encode (doubleBackticks cs) := rfl
      rw [hpair, List.cons_append, List.cons_append, tailLength?_backtick_doubled, ih,
        Option.map_map]
      rfl
    · have hone : ∀ b ∈ String.utf8EncodeChar c, b ≠ 96 := fun b hb =>
        ne_of_mem_utf8EncodeChar hc hb
      rw [doubleBackticks_cons_of_ne hc, Text.encode_cons, List.append_assoc,
        tailLength?_backtick_append hone, ih, Option.map_map, List.length_append]
      congr 1
      funext n
      exact Nat.add_right_comm n _ _ |>.trans (Nat.add_assoc n _ _)

/-- A name and the backtick behind it are the rest of a token. -/
theorem tailLength?_name (cs : List Char) {bs : List UInt8} (h : bs.head? ≠ some 96) :
    Quote.backtick.tailLength? (Text.encode (doubleBackticks cs) ++ 96 :: bs) =
      some ((Text.encode (doubleBackticks cs)).length + 1) := by
  rw [tailLength?_doubleBackticks_append, tailLength?_backtick_close h, Option.map_some,
    Nat.add_comm]

end Quote

/-- **A quoted name is one token**, whatever the name and whatever follows but a backtick. -/
theorem leadingToken?_quoteIdentifier_append (name : String) {rest : String}
    (h : rest.toList.head? ≠ some '\x60') :
    leadingToken? (quoteIdentifier name ++ rest) =
      some (.backtick, Text.byteLength (quoteIdentifier name)) := by
  have hbytes : Text.bytes (quoteIdentifier name ++ rest) =
      96 :: (Text.encode (doubleBackticks name.toList) ++ 96 :: Text.bytes rest) := by
    rw [Text.bytes_append, bytes_quoteIdentifier]
    simp
  have htail := Quote.tailLength?_name name.toList (head?_bytes_ne h)
  have hlen : Text.byteLength (quoteIdentifier name) =
      (Text.encode (doubleBackticks name.toList)).length + 1 + 1 := by
    rw [Text.byteLength, bytes_quoteIdentifier, List.length_cons, List.length_append]
    rfl
  rw [leadingToken?, hbytes, hlen]
  simp [Quote.ofByte?, htail]

/-- What stands between the backticks is the name with its backticks doubled. -/
theorem slice_quoteIdentifier_append (name rest : String) :
    Text.slice (quoteIdentifier name ++ rest) 1 (Text.byteLength (quoteIdentifier name) - 1) =
      String.ofList (doubleBackticks name.toList) := by
  have hchars : (quoteIdentifier name ++ rest).toList =
      ['\x60'] ++ (doubleBackticks name.toList ++ ('\x60' :: rest.toList)) := by
    simp [quoteIdentifier]
  have hstop : Text.byteLength (quoteIdentifier name) - 1 =
      (Text.encode ['\x60']).length + (Text.encode (doubleBackticks name.toList)).length := by
    rw [Text.byteLength, bytes_quoteIdentifier, List.length_cons, List.length_append]
    exact Nat.add_comm _ 1
  rw [hstop]
  exact Text.slice_append hchars

/-! ### Telling names apart -/

theorem quoteIdentifier_injective : Function.Injective quoteIdentifier := by
  intro name other h
  have hchars := String.ofList_injective h
  rw [List.cons.injEq] at hchars
  exact String.toList_injective (doubleBackticks_injective (List.append_cancel_right hchars.2))

/-- **Text behind a quoted name can be told from it.** -/
theorem quoteIdentifier_append_inj {name other rest tail : String}
    (hrest : rest.toList.head? ≠ some '\x60') (htail : tail.toList.head? ≠ some '\x60')
    (h : quoteIdentifier name ++ rest = quoteIdentifier other ++ tail) :
    name = other ∧ rest = tail := by
  have htoken := leadingToken?_quoteIdentifier_append name hrest
  rw [h, leadingToken?_quoteIdentifier_append other htail] at htoken
  obtain ⟨-, hlen⟩ := Prod.mk.inj (Option.some.inj htoken)
  obtain ⟨hname, hbehind⟩ := Text.append_inj_of_byteLength hlen.symm h
  exact ⟨quoteIdentifier_injective hname, hbehind⟩

end Sql

/-- **Two tables never have the same name in a statement.** With a schema a point stands behind
the first quoted name, and without one nothing does. -/
theorem TableRef.toSql_injective : Function.Injective TableRef.toSql := by
  have hnone : "".toList.head? ≠ some '\x60' := by simp
  have hdot : ∀ name : String, ("." ++ Sql.quoteIdentifier name).toList.head? ≠ some '\x60' := by
    intro name
    simp
  have hne : ∀ name : String, "" ≠ "." ++ Sql.quoteIdentifier name := by
    intro name h
    simpa using congrArg String.toList h
  have halone : ∀ name : String, Sql.quoteIdentifier name = Sql.quoteIdentifier name ++ "" :=
    fun _ => String.append_empty.symm
  rintro ⟨schema, name⟩ ⟨schema', name'⟩ h
  simp only [TableRef.toSql, String.append_assoc] at h
  split at h
  next hschema =>
    rw [halone name] at h
    split at h
    next hschema' =>
      rw [halone name'] at h
      obtain ⟨rfl, -⟩ := Sql.quoteIdentifier_append_inj hnone hnone h
      rw [hschema, hschema']
    next => exact absurd (Sql.quoteIdentifier_append_inj hnone (hdot _) h).2 (hne _)
  next =>
    split at h
    next =>
      rw [halone name'] at h
      exact absurd (Sql.quoteIdentifier_append_inj (hdot _) hnone h).2.symm (hne _)
    next =>
      obtain ⟨rfl, hbehind⟩ := Sql.quoteIdentifier_append_inj (hdot _) (hdot _) h
      rw [Sql.quoteIdentifier_injective ((String.append_right_inj ".").mp hbehind)]

/-- **No name gets out of its backticks, and none is mistaken for another.** A quoted name with any
text behind it that does not go on with a backtick is one token up to its last byte, and the name
is what stands in it with its backticks no longer doubled. Tables of different schemas or names,
or with and without a schema, are written differently. -/
theorem Sql.quoteIdentifier_reads_back :
    (∀ name rest : String, rest.toList.head? ≠ some '\x60' →
      Sql.leadingToken? (Sql.quoteIdentifier name ++ rest) =
        some (.backtick, Text.byteLength (Sql.quoteIdentifier name)) ∧
      Sql.undoubleBackticks? (Text.slice (Sql.quoteIdentifier name ++ rest) 1
        (Text.byteLength (Sql.quoteIdentifier name) - 1)).toList = some name.toList) ∧
    Function.Injective TableRef.toSql := by
  refine ⟨fun name rest hrest => ⟨?_, ?_⟩, TableRef.toSql_injective⟩
  · exact Sql.leadingToken?_quoteIdentifier_append name hrest
  · rw [Sql.slice_quoteIdentifier_append, String.toList_ofList]
    exact Sql.undoubleBackticks?_doubleBackticks name.toList

/-- A name with backticks at its start and in the middle, which looks like that of a table with its
schema. -/
theorem Sql.quoteIdentifier_reads_back_of_backticks :
    ".`c`".toList.head? ≠ some '\x60' ∧
      Sql.leadingToken? ("```a````.``b`" ++ ".`c`") = some (.backtick, 13) ∧
      Sql.undoubleBackticks? (Text.slice ("```a````.``b`" ++ ".`c`") 1 12).toList =
        some "`a``.`b".toList ∧
      TableRef.toSql ⟨"", "a`.`b"⟩ ≠ TableRef.toSql ⟨"a", "b"⟩ := by
  have hrest : ".`c`".toList.head? ≠ some '\x60' := by decide
  have hquote : Sql.quoteIdentifier "`a``.`b" = "```a````.``b`" := by decide
  obtain ⟨reads, apart⟩ := Sql.quoteIdentifier_reads_back
  have hread := reads "`a``.`b" ".`c`" hrest
  rw [hquote] at hread
  refine ⟨hrest, hread.1, hread.2, fun h => ?_⟩
  exact absurd (apart h) (by decide)

end TableSql
