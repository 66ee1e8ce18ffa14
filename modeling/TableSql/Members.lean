/-!
# Members in key order

Lists of keyed members, kept in the order of their keys and with one member a key. JSON objects,
insert documents and bound values are such lists. Keys are ordered by their code points, which is
also the order of their UTF-8 bytes.

## Implementation notes

Lists stay plain lists of pairs, and `Members.Ordered` is a statement about them, not a field. A
caller that maps or filters members gets lists back, and proves the order where it is needed.

## Main definitions

* `Members.insert` — adds a member, or gives an existing key a new value
* `Members.ofList` — the members of a list of pairs; the last value of a key stands
* `Members.get?` — the value of a key
* `Members.Ordered` — the keys increase strictly

## Main results

* `Members.ordered_ofList` — every list of pairs becomes ordered members
* `Members.get?_insert_self`, `Members.get?_insert_of_ne` — what a key reads as after `insert`
* `Members.get?_filter` — what a key reads as where only some keys are kept
* `Members.get?_eq_none_iff` — a key without a value is the key of no member
-/

namespace TableSql.Members

variable {α : Type}

/-- Gives `key` the value `value`, at its place in the key order. -/
def insert (key : String) (value : α) : List (String × α) → List (String × α)
  | [] => [(key, value)]
  | (k, v) :: rest =>
    if key < k then (key, value) :: (k, v) :: rest
    else if key = k then (key, value) :: rest
    else (k, v) :: insert key value rest

/-- The members of a list of pairs. A later pair replaces an earlier one of the same key. -/
def ofList (pairs : List (String × α)) : List (String × α) :=
  pairs.foldl (fun members pair => insert pair.1 pair.2 members) []

/-- The value of a key. -/
def get? (key : String) : List (String × α) → Option α
  | [] => none
  | (k, v) :: rest => if key = k then some v else get? key rest

/-- The keys increase strictly. -/
def Ordered (members : List (String × α)) : Prop :=
  members.Pairwise fun a b => a.1 < b.1

/-! ### Read after write -/

theorem get?_insert_self (key : String) (value : α) (members : List (String × α)) :
    get? key (insert key value members) = some value := by
  induction members with
  | nil => simp [insert, get?]
  | cons m rest ih =>
    obtain ⟨k, v⟩ := m
    by_cases hlt : key < k
    · simp [insert, get?, hlt]
    · by_cases heq : key = k
      · simp [insert, get?, heq]
      · simp [insert, get?, hlt, heq, ih]

theorem get?_insert_of_ne {key other : String} (h : other ≠ key) (value : α)
    (members : List (String × α)) : get? other (insert key value members) = get? other members := by
  induction members with
  | nil => simp [insert, get?, h]
  | cons m rest ih =>
    obtain ⟨k, v⟩ := m
    by_cases hlt : key < k
    · simp [insert, get?, hlt, h]
    · by_cases heq : key = k
      · subst heq
        simp [insert, get?, h]
      · simp [insert, get?, hlt, heq, ih]

theorem get?_filter (keep : String → Bool) (key : String) (members : List (String × α)) :
    get? key (members.filter fun m => keep m.1) = if keep key then get? key members else none := by
  induction members with
  | nil => simp [get?]
  | cons m rest ih =>
    obtain ⟨k, v⟩ := m
    by_cases heq : key = k
    · subst heq
      by_cases hkeep : keep key <;> simp_all [get?]
    · by_cases hkeep : keep k <;> simp [get?, heq, hkeep, ih]

theorem get?_eq_none_iff {key : String} {members : List (String × α)} :
    get? key members = none ↔ key ∉ members.map Prod.fst := by
  induction members with
  | nil => simp [get?]
  | cons m rest ih =>
    obtain ⟨k, v⟩ := m
    by_cases heq : key = k <;> simp [get?, heq, ih]

/-! ### Order -/

/-- Two keys of which neither is less are the same. -/
theorem eq_of_not_lt {a b : String} (h : ¬ a < b) (h' : ¬ b < a) : a = b :=
  String.le_antisymm h' h

theorem mem_insert {key : String} {value : α} {members : List (String × α)} {m : String × α}
    (h : m ∈ insert key value members) : m = (key, value) ∨ m ∈ members := by
  induction members with
  | nil => simpa [insert] using h
  | cons n rest ih =>
    obtain ⟨k, v⟩ := n
    unfold insert at h
    split at h
    · simpa using h
    · split at h
      · rcases List.mem_cons.1 h with h | h
        · exact .inl h
        · exact .inr (List.mem_cons_of_mem _ h)
      · rcases List.mem_cons.1 h with h | h
        · exact .inr (h ▸ List.mem_cons_self)
        · exact (ih h).imp_right (List.mem_cons_of_mem _)

theorem ordered_insert (key : String) (value : α) {members : List (String × α)}
    (h : Ordered members) : Ordered (insert key value members) := by
  induction members with
  | nil => simp [insert, Ordered]
  | cons m rest ih =>
    obtain ⟨k, v⟩ := m
    have hrest : Ordered rest := (List.pairwise_cons.1 h).2
    have hhead : ∀ n ∈ rest, k < n.1 := (List.pairwise_cons.1 h).1
    unfold insert
    split
    next hlt =>
      refine List.pairwise_cons.2 ⟨fun n hn => ?_, h⟩
      rcases List.mem_cons.1 hn with rfl | hn
      · exact hlt
      · exact String.lt_trans hlt (hhead n hn)
    next hlt =>
      split
      next heq =>
        subst heq
        exact List.pairwise_cons.2 ⟨hhead, hrest⟩
      next hne =>
        refine List.pairwise_cons.2 ⟨fun n hn => ?_, ih hrest⟩
        rcases mem_insert hn with rfl | hn
        · exact Decidable.byContradiction fun hkey => hne (eq_of_not_lt hlt hkey)
        · exact hhead n hn

/-- Whatever the pairs, their members are in key order. -/
theorem ordered_ofList (pairs : List (String × α)) : Ordered (ofList pairs) := by
  suffices ∀ members : List (String × α), Ordered members →
      Ordered (pairs.foldl (fun members pair => insert pair.1 pair.2 members) members) from
    this [] List.Pairwise.nil
  induction pairs with
  | nil => exact fun _ h => h
  | cons p rest ih => exact fun _ h => ih _ (ordered_insert p.1 p.2 h)

end TableSql.Members
