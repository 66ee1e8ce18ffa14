import Mathlib.Data.List.Induction
import Mathlib.Data.List.Nodup
import TableSql.Members
import TableSql.Proofs.Text.Order

/-!
# Members of a map

A map is a list of members in key order. It does not depend on the order in which its members were
given, as long as no key was given twice: then ordered members are just a sorted list of them. Where
a key is given more than once, its last value stands, and the order of the others does not matter.

## Main definitions

* `Members.sortByKey` — members sorted by their keys
* `Members.LastGiven` — the value that was given last for a key
* `Members.insertAll` — the members after some more were given

## Main results

* `Members.exists_append_of_get?` — a value that is read is that of the first member of its key
* `Members.perm_ofList` — members with different keys are neither lost nor added
* `Members.ofList_of_perm`, `Members.sortByKey_of_perm` — the members of a map in any order are that
  map again, and so they are when they are sorted
* `Members.mem_keys_ofList`, `Members.pairwise_bytes_ofList` — the keys are those that were given,
  in the order of their bytes
* `Members.Ordered.ext` — maps with the same values are the same
* `Members.get?_insertAll`, `Members.get?_ofList_eq_some_iff` — a key reads as what was given last
* `Members.insertAll_congr` — what was given last is all that matters
-/

namespace TableSql.Members

variable {α : Type}

/-- A value that is read is that of the first member of its key. -/
theorem exists_append_of_get? {key : String} {value : α} {members : List (String × α)}
    (h : get? key members = some value) :
    ∃ before behind, members = before ++ (key, value) :: behind ∧ key ∉ before.map Prod.fst := by
  induction members with
  | nil => cases h
  | cons m rest ih =>
    obtain ⟨k, v⟩ := m
    rw [get?] at h
    split at h
    next heq =>
      cases h
      exact ⟨[], rest, by rw [heq]; rfl, List.not_mem_nil⟩
    next hne =>
      obtain ⟨before, behind, rfl, hnot⟩ := ih h
      exact ⟨(k, v) :: before, behind, rfl, List.not_mem_cons_of_ne_of_not_mem hne hnot⟩

/-! ### Members in any order -/

/-- The members sorted by their keys. -/
def sortByKey (members : List (String × α)) : List (String × α) :=
  members.mergeSort fun a b => decide (a.1 ≤ b.1)

variable {key : String} {value : α} {members given : List (String × α)}

/-- The member that is given last is added last. -/
theorem ofList_concat (given : List (String × α)) (m : String × α) :
    ofList (given ++ [m]) = insert m.1 m.2 (ofList given) :=
  List.foldl_append

/-- A member with a new key comes to the others. -/
theorem perm_insert (h : key ∉ members.map Prod.fst) :
    (insert key value members).Perm ((key, value) :: members) := by
  induction members with
  | nil => exact .refl _
  | cons m rest ih =>
    obtain ⟨k, v⟩ := m
    obtain ⟨hne, hrest⟩ := List.ne_and_not_mem_of_not_mem_cons h
    rw [insert, if_neg hne]
    split
    next => exact .refl _
    next => exact ((ih hrest).cons (k, v)).trans (.swap (key, value) (k, v) rest)

/-- Members with different keys are neither lost nor added. -/
theorem perm_ofList (h : (given.map Prod.fst).Nodup) : (ofList given).Perm given := by
  induction given using List.reverseRecOn with
  | nil => exact .refl _
  | append_singleton given m ih =>
    rw [List.map_append, List.nodup_append] at h
    obtain ⟨hgiven, -, hne⟩ := h
    have hperm := ih hgiven
    have hnew : m.1 ∉ (ofList given).map Prod.fst := by
      rw [(hperm.map Prod.fst).mem_iff]
      exact fun hmem => hne _ hmem _ (List.mem_singleton_self m.1) rfl
    rw [ofList_concat]
    exact (perm_insert hnew).trans ((hperm.cons m).trans (List.perm_append_singleton m given).symm)

/-- The keys of ordered members are different. -/
theorem Ordered.nodup (h : Ordered members) : (members.map Prod.fst).Nodup := by
  rw [List.Nodup, List.pairwise_map]
  exact h.imp String.ne_of_lt

/-- Members can be in key order in one way only. -/
theorem Ordered.eq_of_perm {others : List (String × α)} (h : Ordered members)
    (hothers : Ordered others) (hperm : members.Perm others) : members = others :=
  hperm.eq_of_pairwise (fun _ _ _ _ hlt hgt => absurd hgt (String.lt_asymm hlt)) h hothers

/-- **The members of a map are that map again**, in whatever order they are given. -/
theorem ofList_of_perm (h : Ordered members) (hperm : given.Perm members) :
    ofList given = members := by
  have hnodup : (given.map Prod.fst).Nodup := (hperm.map Prod.fst).nodup_iff.mpr h.nodup
  exact (ordered_ofList given).eq_of_perm h ((perm_ofList hnodup).trans hperm)

/-- **Sorting the members of a map by their keys gives the map**, in whatever order they are
given. -/
theorem sortByKey_of_perm (h : Ordered members) (hperm : given.Perm members) :
    sortByKey given = members := by
  have hsorted : (sortByKey given).Perm members := (List.mergeSort_perm given _).trans hperm
  have hle : (sortByKey given).Pairwise fun a b => decide (a.1 ≤ b.1) = true := by
    refine List.pairwise_mergeSort (fun a b c hab hbc => ?_) (fun a b => ?_) given
    · exact decide_eq_true (String.le_trans (of_decide_eq_true hab) (of_decide_eq_true hbc))
    · rw [Bool.or_eq_true, decide_eq_true_eq, decide_eq_true_eq]
      exact String.le_total a.1 b.1
  have hne : (sortByKey given).Pairwise fun a b => a.1 ≠ b.1 :=
    List.pairwise_map.mp ((hsorted.map Prod.fst).nodup_iff.mpr h.nodup)
  have hordered : Ordered (sortByKey given) :=
    (hle.and hne).imp fun ⟨hab, hne⟩ => Std.lt_of_le_of_ne (of_decide_eq_true hab) hne
  exact hordered.eq_of_perm h hsorted

/-! ### Keys -/

theorem mem_keys_insert {other : String} : other ∈ (insert key value members).map Prod.fst ↔
    other = key ∨ other ∈ members.map Prod.fst := by
  rw [← not_iff_not, not_or, ← get?_eq_none_iff, ← get?_eq_none_iff]
  by_cases h : other = key
  · rw [h, get?_insert_self]
    simp
  · rw [get?_insert_of_ne h]
    simp [h]

/-- The keys are those that were given. -/
theorem mem_keys_ofList : key ∈ (ofList given).map Prod.fst ↔ key ∈ given.map Prod.fst := by
  induction given using List.reverseRecOn with
  | nil => exact .rfl
  | append_singleton given m ih =>
    rw [ofList_concat, mem_keys_insert, ih, List.map_append, List.mem_append, or_comm]
    exact or_congr_right List.mem_singleton.symm

/-- The keys are in the order of their bytes. -/
theorem pairwise_bytes_ofList (given : List (String × α)) :
    ((ofList given).map fun m => Text.bytes m.1).Pairwise (· < ·) :=
  List.pairwise_map.mpr ((ordered_ofList given).imp Text.bytes_lt_iff.mpr)

theorem ofList_eq_nil_iff : ofList given = [] ↔ given = [] := by
  constructor
  · intro h
    cases given with
    | nil => rfl
    | cons m rest =>
      have hmem : m.1 ∈ (ofList (m :: rest)).map Prod.fst := mem_keys_ofList.mpr List.mem_cons_self
      rw [h] at hmem
      cases hmem
  · rintro rfl
    rfl

/-! ### Keys that are given more than once -/

/-- The value that is given last for a key. -/
def LastGiven (given : List (String × α)) (key : String) (value : α) : Prop :=
  ∃ earlier later, given = earlier ++ (key, value) :: later ∧ key ∉ later.map Prod.fst

/-- The members after some more were given, one after another. -/
def insertAll (given members : List (String × α)) : List (String × α) :=
  given.foldl (fun members m => insert m.1 m.2 members) members

theorem get?_append (key : String) (members others : List (String × α)) :
    get? key (members ++ others) = (get? key members).or (get? key others) := by
  induction members with
  | nil => rfl
  | cons m rest ih =>
    rw [List.cons_append, get?, get?]
    split
    next => rfl
    next => exact ih

/-- The value that is given last is the first from behind. -/
theorem lastGiven_iff : LastGiven given key value ↔ get? key given.reverse = some value := by
  constructor
  · rintro ⟨earlier, later, rfl, hlater⟩
    have hnone : get? key later.reverse = none := by
      rwa [get?_eq_none_iff, List.map_reverse, List.mem_reverse]
    rw [List.reverse_append, List.reverse_cons, List.append_assoc, get?_append, hnone,
      Option.none_or, List.cons_append, get?, if_pos rfl]
  · intro h
    obtain ⟨before, behind, heq, hbefore⟩ := exists_append_of_get? h
    refine ⟨behind.reverse, before.reverse, ?_, ?_⟩
    · rw [← List.reverse_reverse given, heq, List.reverse_append, List.reverse_cons,
        List.append_assoc, List.singleton_append]
    · rwa [List.map_reverse, List.mem_reverse]

/-- The value that is given last stands at the last place of its key. -/
theorem lastGiven_iff_getElem? : LastGiven given key value ↔
    ∃ i : Nat, given[i]? = some (key, value) ∧
      ∀ j : Nat, i < j → ∀ other, given[j]? ≠ some (key, other) := by
  constructor
  · rintro ⟨earlier, later, rfl, hlater⟩
    refine ⟨earlier.length, by simp, fun j hj other h => hlater ?_⟩
    have hplace : (earlier ++ (key, value) :: later)[j]? = later[j - earlier.length - 1]? := by
      rw [List.getElem?_append_right (Nat.le_of_lt hj), List.getElem?_cons, if_neg (by omega)]
    rw [hplace] at h
    exact List.mem_map.mpr ⟨_, List.mem_of_getElem? h, rfl⟩
  · rintro ⟨i, hi, hlast⟩
    obtain ⟨hlt, hget⟩ := List.getElem?_eq_some_iff.mp hi
    refine ⟨given.take i, given.drop (i + 1), ?_, fun hmem => ?_⟩
    · rw [← hget, ← List.drop_eq_getElem_cons hlt, List.take_append_drop]
    · obtain ⟨⟨k, other⟩, hm, rfl⟩ := List.mem_map.mp hmem
      obtain ⟨n, hn⟩ := List.getElem?_of_mem hm
      rw [List.getElem?_drop] at hn
      exact hlast (i + 1 + n) (by omega) other hn

theorem exists_lastGiven_iff : (∃ value, LastGiven given key value) ↔
    key ∈ given.map Prod.fst := by
  simp only [lastGiven_iff, ← Option.ne_none_iff_exists', Ne, get?_eq_none_iff, not_not,
    List.map_reverse, List.mem_reverse]

/-- Keys that are left out do not matter to the others. -/
theorem lastGiven_filter (keep : String → Bool) :
    LastGiven (given.filter fun m => keep m.1) key value ↔
      keep key = true ∧ LastGiven given key value := by
  rw [lastGiven_iff, lastGiven_iff, ← List.filter_reverse, get?_filter]
  cases keep key <;> simp

theorem insertAll_concat (given members : List (String × α)) (m : String × α) :
    insertAll (given ++ [m]) members = insert m.1 m.2 (insertAll given members) :=
  List.foldl_append

/-- A key reads as what was given last for it, or else as before. -/
theorem get?_insertAll (key : String) (given members : List (String × α)) :
    get? key (insertAll given members) = (get? key given.reverse).or (get? key members) := by
  induction given using List.reverseRecOn with
  | nil => rfl
  | append_singleton given m ih =>
    rw [insertAll_concat, List.reverse_concat, get?]
    split
    next heq => rw [heq, get?_insert_self, Option.some_or]
    next hne => rw [get?_insert_of_ne hne, ih]

theorem get?_ofList_eq_some_iff : get? key (ofList given) = some value ↔
    LastGiven given key value := by
  have h : get? key (ofList given) = (get? key given.reverse).or (get? key []) :=
    get?_insertAll key given []
  rw [lastGiven_iff, h, get?, Option.or_none]

/-! ### Members with the same values -/

theorem Ordered.get?_eq_some_iff (h : Ordered members) :
    get? key members = some value ↔ (key, value) ∈ members := by
  constructor
  · intro hget
    obtain ⟨before, behind, rfl, -⟩ := exists_append_of_get? hget
    exact List.mem_append_cons_self
  · intro hmem
    obtain ⟨before, behind, rfl⟩ := List.append_of_mem hmem
    have hnodup := h.nodup
    rw [List.map_append, List.nodup_append] at hnodup
    have hnone : get? key before = none :=
      get?_eq_none_iff.mpr fun hbefore => hnodup.2.2 key hbefore key List.mem_cons_self rfl
    rw [get?_append, hnone, Option.none_or, get?, if_pos rfl]

/-- **Maps with the same values are the same.** -/
theorem Ordered.ext {others : List (String × α)} (h : Ordered members) (hothers : Ordered others)
    (hget : ∀ key, get? key members = get? key others) : members = others := by
  refine h.eq_of_perm hothers ((List.perm_ext_iff_of_nodup ?_ ?_).mpr fun m => ?_)
  · exact List.Nodup.of_map _ h.nodup
  · exact List.Nodup.of_map _ hothers.nodup
  · rw [← h.get?_eq_some_iff, ← hothers.get?_eq_some_iff, hget]

/-- Of two values for the same key the last one stands. -/
theorem insert_insert_self (key : String) (value last : α) (members : List (String × α)) :
    insert key last (insert key value members) = insert key last members := by
  induction members with
  | nil => simp [insert]
  | cons m rest ih =>
    rw [insert, insert]
    split
    next hlt => simp [insert]
    next hlt =>
      split
      next heq => simp [insert]
      next hne => rw [insert, if_neg hlt, if_neg hne, ih]

theorem insert_comm_of_lt {other : String} (h : key < other) (value value' : α)
    (members : List (String × α)) : insert key value (insert other value' members) =
      insert other value' (insert key value members) := by
  have hlt : ¬ other < key := String.lt_asymm h
  have hne : other ≠ key := (String.ne_of_lt h).symm
  induction members with
  | nil => simp [insert, h, hlt, hne]
  | cons m rest ih =>
    obtain ⟨k, v⟩ := m
    by_cases hk : key < k
    · -- the smaller key comes first, and the other one finds its place behind it
      have hfirst : insert key value (insert other value' ((k, v) :: rest)) =
          (key, value) :: insert other value' ((k, v) :: rest) := by
        rw [insert]
        split
        next => rw [insert, if_pos h]
        next =>
          split
          next => rw [insert, if_pos h]
          next => rw [insert, if_pos hk]
      rw [hfirst, insert.eq_2 key, if_pos hk, insert.eq_2 _ _ key, if_neg hlt, if_neg hne]
    · have hother : ¬ other < k ∧ other ≠ k := by
        refine ⟨fun hlt' => hk (String.lt_trans h hlt'), ?_⟩
        rintro rfl
        exact hk h
      by_cases heq : key = k
      · subst heq
        simp [insert, hother]
      · simp [insert, hk, heq, hother, ih]

/-- Values for different keys may be given in any order. -/
theorem insert_comm {other : String} (h : key ≠ other) (value value' : α)
    (members : List (String × α)) : insert key value (insert other value' members) =
      insert other value' (insert key value members) := by
  by_cases hlt : key < other
  · exact insert_comm_of_lt hlt value value' members
  · have hgt : other < key :=
      Decidable.byContradiction fun hgt => h (eq_of_not_lt hlt hgt)
    exact (insert_comm_of_lt hgt value' value members).symm

theorem insertAll_insert_of_not_mem (h : key ∉ given.map Prod.fst) (members : List (String × α)) :
    insertAll given (insert key value members) = insert key value (insertAll given members) := by
  induction given generalizing members with
  | nil => rfl
  | cons m rest ih =>
    obtain ⟨hne, hrest⟩ := List.ne_and_not_mem_of_not_mem_cons h
    show insertAll rest (insert m.1 m.2 (insert key value members)) =
      insert key value (insertAll rest (insert m.1 m.2 members))
    rw [insert_comm (Ne.symm hne), ih hrest]

theorem insertAll_insert (h : Ordered given) (key : String) (value : α)
    (members : List (String × α)) :
    insertAll (insert key value given) members = insert key value (insertAll given members) := by
  induction given generalizing members with
  | nil => rfl
  | cons m rest ih =>
    obtain ⟨hhead, hrest⟩ := List.pairwise_cons.mp h
    rw [insert]
    split
    next hlt =>
      -- the new key is smaller than all others
      refine insertAll_insert_of_not_mem (fun hmem => ?_) members
      rcases List.mem_cons.mp hmem with heq | hmem
      · exact String.ne_of_lt hlt heq
      · obtain ⟨n, hn, rfl⟩ := List.mem_map.mp hmem
        exact String.lt_asymm hlt (hhead n hn)
    next hlt =>
      split
      next heq =>
        subst heq
        have hnot : m.1 ∉ rest.map Prod.fst := List.nodup_cons.mp h.nodup |>.1
        show insertAll rest (insert m.1 value members) =
          insert m.1 value (insertAll rest (insert m.1 m.2 members))
        rw [← insertAll_insert_of_not_mem hnot, insert_insert_self]
      next hne => exact ih hrest (insert m.1 m.2 members)

theorem insertAll_ofList (given members : List (String × α)) :
    insertAll (ofList given) members = insertAll given members := by
  induction given using List.reverseRecOn with
  | nil => rfl
  | append_singleton given m ih =>
    rw [ofList_concat, insertAll_insert (ordered_ofList given), ih, insertAll_concat]

/-- **What was given last is all that matters.** -/
theorem insertAll_congr {given' : List (String × α)}
    (h : ∀ key value, LastGiven given key value ↔ LastGiven given' key value)
    (members : List (String × α)) : insertAll given members = insertAll given' members := by
  have heq : ofList given = ofList given' := by
    refine (ordered_ofList given).ext (ordered_ofList given') fun key => Option.ext fun value => ?_
    exact get?_ofList_eq_some_iff.trans ((h key value).trans get?_ofList_eq_some_iff.symm)
  rw [← insertAll_ofList, heq, insertAll_ofList]

end TableSql.Members
