import TableSql.Proofs.Text.Encoding
import TableSql.Proofs.Uri.Percent
import TableSql.Uri.Path

/-!
# Paths without dot segments

Once its dot segments are resolved a path holds none, so it is read back as it is written. What is
left of it behind its leading slashes is read back as well, which is what a schema goes through.

## Main definitions

* `Uri.Plain` — a segment that is no dot segment and holds only what a path holds
* `Uri.Path.Settled` — the text after the first slash of a path that is read as it stands

## Main results

* `Uri.Path.settled_chars_ofText` — the text of every path is settled
* `Uri.Path.chars_ofText` — a settled text is read as it stands
* `Uri.Path.settled_percentEncode` — a segment whose dots are encoded is settled
-/

namespace TableSql

/-! ### Texts in parts -/

namespace Text

variable {mark c : Char} {as bs cs part : List Char}

theorem splitAt_cons_self (mark : Char) (cs : List Char) :
    splitAt mark (mark :: cs) = [] :: splitAt mark cs := by
  rw [splitAt, if_pos rfl]

/-- A character that is no mark goes in front of the first part. -/
theorem exists_splitAt_cons (h : c ≠ mark) (cs : List Char) :
    ∃ part rest, splitAt mark cs = part :: rest ∧ splitAt mark (c :: cs) = (c :: part) :: rest := by
  obtain ⟨part, rest, hcs⟩ := List.exists_cons_of_ne_nil (splitAt_ne_nil mark cs)
  refine ⟨part, rest, hcs, ?_⟩
  rw [splitAt, if_neg h, hcs]

/-- A text without the mark is one part. -/
theorem splitAt_eq_singleton (h : mark ∉ cs) : splitAt mark cs = [cs] := by
  induction cs with
  | nil => rfl
  | cons c cs ih =>
    obtain ⟨hc, hcs⟩ := List.ne_and_not_mem_of_not_mem_cons h
    obtain ⟨part, rest, hsplit, hcons⟩ := exists_splitAt_cons (Ne.symm hc) cs
    rw [ih hcs] at hsplit
    obtain ⟨rfl, rfl⟩ := List.cons.inj hsplit
    exact hcons

/-- The text in front of the first mark is the first part. -/
theorem splitAt_append_cons (h : mark ∉ as) (bs : List Char) :
    splitAt mark (as ++ mark :: bs) = as :: splitAt mark bs := by
  induction as with
  | nil => exact splitAt_cons_self mark bs
  | cons a as ih =>
    obtain ⟨ha, has⟩ := List.ne_and_not_mem_of_not_mem_cons h
    obtain ⟨part, rest, hsplit, hcons⟩ := exists_splitAt_cons (Ne.symm ha) (as ++ mark :: bs)
    rw [ih has] at hsplit
    obtain ⟨rfl, rfl⟩ := List.cons.inj hsplit
    exact hcons

/-- The parts hold nothing but the text, and no marks. -/
theorem mem_of_mem_splitAt (hpart : part ∈ splitAt mark cs) (hc : c ∈ part) :
    c ∈ cs ∧ c ≠ mark := by
  induction cs generalizing part with
  | nil =>
    rw [splitAt, List.mem_singleton] at hpart
    subst hpart
    cases hc
  | cons d cs ih =>
    by_cases hd : d = mark
    · subst hd
      rw [splitAt_cons_self] at hpart
      rcases List.mem_cons.mp hpart with rfl | hpart
      · cases hc
      · exact (ih hpart hc).imp_left (List.mem_cons_of_mem _)
    · obtain ⟨first, rest, hsplit, hcons⟩ := exists_splitAt_cons hd cs
      rw [hcons] at hpart
      rw [hsplit] at ih
      rcases List.mem_cons.mp hpart with rfl | hpart
      · rcases List.mem_cons.mp hc with rfl | hc
        · exact ⟨List.mem_cons_self, hd⟩
        · exact (ih List.mem_cons_self hc).imp_left (List.mem_cons_of_mem _)
      · exact (ih (List.mem_cons_of_mem _ hpart) hc).imp_left (List.mem_cons_of_mem _)

/-- The parts hold the text up to its marks. -/
theorem exists_mem_splitAt (hc : c ∈ cs) (hmark : c ≠ mark) :
    ∃ part ∈ splitAt mark cs, c ∈ part := by
  induction cs with
  | nil => cases hc
  | cons d cs ih =>
    by_cases hd : d = mark
    · subst hd
      obtain ⟨part, hpart, hmem⟩ := ih ((List.mem_cons.mp hc).resolve_left hmark)
      exact ⟨part, splitAt_cons_self d cs ▸ List.mem_cons_of_mem _ hpart, hmem⟩
    · obtain ⟨first, rest, hsplit, hcons⟩ := exists_splitAt_cons hd cs
      rw [hcons]
      rw [hsplit] at ih
      rcases List.mem_cons.mp hc with rfl | hc
      · exact ⟨_, List.mem_cons_self, List.mem_cons_self⟩
      · obtain ⟨part, hpart, hmem⟩ := ih hc
        rcases List.mem_cons.mp hpart with rfl | hpart
        · exact ⟨_, List.mem_cons_self, List.mem_cons_of_mem _ hmem⟩
        · exact ⟨part, List.mem_cons_of_mem _ hpart, hmem⟩

end Text

namespace Uri

variable {c : Char} {cs segment : List Char} {closed segments : List (List Char)}

/-! ### Segments -/

/-- A segment that a path keeps as it is. -/
structure Plain (segment : List Char) : Prop where
  safe : ∀ c ∈ segment, isPathSafe c = true ∧ c ≠ '/'
  not_single : isSingleDot segment = false
  not_double : isDoubleDot segment = false

theorem plain_nil : Plain [] where
  safe := nofun
  not_single := rfl
  not_double := rfl

/-- What dots are written as is decoded to dots. -/
theorem percentDecode_of_plainDots_nil (h : plainDots cs = []) : percentDecode cs = [] := by
  cases cs with
  | nil => rfl
  | cons c cs =>
    rw [plainDots.eq_def] at h
    split at h <;> simp_all

theorem percentDecode_of_plainDots_cons {dots : List Char} (h : plainDots cs = '.' :: dots) :
    ∃ rest, plainDots rest = dots ∧ percentDecode cs = 46 :: percentDecode rest := by
  rw [plainDots.eq_def] at h
  split at h
  next rest => exact ⟨rest, (List.cons.inj h).2, rfl⟩
  next rest => exact ⟨rest, (List.cons.inj h).2, rfl⟩
  next c rest _ _ =>
    obtain ⟨rfl, hrest⟩ := List.cons.inj h
    exact ⟨rest, hrest, percentDecode_cons_of_ne (by decide) rest⟩
  next => cases h

/-- **A segment whose dots are encoded is kept** unless it stands for one dot or two. -/
theorem plain_percentEncode (hone : cs ≠ ['.']) (htwo : cs ≠ ['.', '.']) :
    Plain (percentEncode Char.isAlphanum cs) where
  safe c hc := by
    have hsafe := isUserSafe_of_mem_percentEncode hc
    exact ⟨isPathSafe_of_isUserSafe hsafe, ne_of_safe hsafe (by decide)⟩
  not_single := by
    rw [isSingleDot, beq_eq_false_iff_ne]
    intro hdots
    obtain ⟨rest, hrest, hdecode⟩ := percentDecode_of_plainDots_cons hdots
    rw [percentDecode_percentEncode (by decide), percentDecode_of_plainDots_nil hrest] at hdecode
    exact hone (String.ofList_injective (Text.ofList_of_encode hdecode (by simp)))
  not_double := by
    rw [isDoubleDot, beq_eq_false_iff_ne]
    intro hdots
    obtain ⟨rest, hrest, hdecode⟩ := percentDecode_of_plainDots_cons hdots
    obtain ⟨rest', hrest', hdecode'⟩ := percentDecode_of_plainDots_cons hrest
    rw [percentDecode_percentEncode (by decide), hdecode',
      percentDecode_of_plainDots_nil hrest'] at hdecode
    exact htwo (String.ofList_injective (Text.ofList_of_encode hdecode (by simp)))

/-! ### Paths -/

namespace Path

/-- A path of segments that are kept. -/
structure Clean (p : Path) : Prop where
  closed : ∀ segment ∈ p.closed, Plain segment
  last : Plain p.last

theorem mem_parent (h : segment ∈ parent closed) : segment ∈ closed := by
  rw [parent.eq_def] at h
  split at h
  next =>
    split at h
    · exact h
    · exact List.mem_cons_of_mem _ h
  next => exact h

/-- Dot segments are all that a path loses: where the others hold only what a path holds, it is
clean. -/
theorem clean_resolve (hclosed : ∀ segment ∈ closed, Plain segment)
    (hsegments : ∀ segment ∈ segments, ∀ c ∈ segment, isPathSafe c = true ∧ c ≠ '/') :
    (resolve closed segments).Clean := by
  have hparent : ∀ {closed : List (List Char)}, (∀ segment ∈ closed, Plain segment) →
      ∀ segment ∈ parent closed, Plain segment :=
    fun h _ hmem => h _ (mem_parent hmem)
  induction closed, segments using resolve.induct with
  | case1 closed => exact ⟨hclosed, plain_nil⟩
  | case2 closed segment hdouble =>
    rw [resolve, if_pos hdouble]
    exact ⟨hparent hclosed, plain_nil⟩
  | case3 closed segment hdouble hsingle =>
    rw [resolve, if_neg hdouble, if_pos hsingle]
    exact ⟨hclosed, plain_nil⟩
  | case4 closed segment hdouble hsingle =>
    rw [resolve, if_neg hdouble, if_neg hsingle]
    exact ⟨hclosed, hsegments segment List.mem_cons_self, Bool.eq_false_iff.mpr hsingle,
      Bool.eq_false_iff.mpr hdouble⟩
  | case5 closed segment next rest hdouble ih =>
    rw [resolve, if_pos hdouble]
    exact ih (hparent hclosed) fun s hs => hsegments s (List.mem_cons_of_mem _ hs)
  | case6 closed segment next rest hdouble hsingle ih =>
    rw [resolve, if_neg hdouble, if_pos hsingle]
    exact ih hclosed fun s hs => hsegments s (List.mem_cons_of_mem _ hs)
  | case7 closed segment next rest hdouble hsingle ih =>
    rw [resolve, if_neg hdouble, if_neg hsingle]
    refine ih (List.forall_mem_cons.mpr ⟨⟨hsegments segment List.mem_cons_self, ?_, ?_⟩, hclosed⟩)
      fun s hs => hsegments s (List.mem_cons_of_mem _ hs)
    · exact Bool.eq_false_iff.mpr hsingle
    · exact Bool.eq_false_iff.mpr hdouble

/-- Segments that are kept are written as they were read. -/
theorem chars_resolve (hne : segments ≠ []) (h : ∀ segment ∈ segments, Plain segment) :
    (resolve closed segments).chars =
      closed.reverse.flatMap (· ++ ['/']) ++ ['/'].intercalate segments := by
  induction segments generalizing closed with
  | nil => exact absurd rfl hne
  | cons segment rest ih =>
    obtain ⟨hplain, hrest⟩ := List.forall_mem_cons.mp h
    cases rest with
    | nil =>
      simp [resolve, hplain.not_single, hplain.not_double, chars]
    | cons next rest =>
      rw [resolve, hplain.not_double, hplain.not_single, if_neg Bool.false_ne_true,
        if_neg Bool.false_ne_true, ih (List.cons_ne_nil _ _) hrest]
      simp [List.intercalate]

/-- The text after the first slash of a path that is read as it stands. -/
def Settled (cs : List Char) : Prop :=
  ∀ segment ∈ Text.splitAt '/' cs, Plain segment

theorem Settled.safe (h : Settled cs) (hc : c ∈ cs) : isPathSafe c = true := by
  by_cases hslash : c = '/'
  · subst hslash
    decide
  · obtain ⟨segment, hsegment, hmem⟩ := Text.exists_mem_splitAt hc hslash
    exact ((h segment hsegment).safe c hmem).1

/-- **A settled text is read as it stands.** -/
theorem chars_ofText (h : Settled cs) : (ofText cs).chars = '/' :: cs := by
  rw [ofText, percentEncode_of_safe fun _ => h.safe, chars_resolve (Text.splitAt_ne_nil '/' cs) h,
    Text.intercalate_splitAt]
  rfl

theorem settled_flatMap (hclosed : ∀ segment ∈ closed, Plain segment) (hlast : Plain cs) :
    Settled (closed.flatMap (· ++ ['/']) ++ cs) := by
  have hslash : ∀ {segment : List Char}, Plain segment → '/' ∉ segment :=
    fun hplain hmem => (hplain.safe '/' hmem).2 rfl
  induction closed with
  | nil =>
    intro segment hsegment
    rw [List.flatMap_nil, List.nil_append, Text.splitAt_eq_singleton (hslash hlast),
      List.mem_singleton] at hsegment
    exact hsegment ▸ hlast
  | cons first closed ih =>
    obtain ⟨hfirst, hclosed⟩ := List.forall_mem_cons.mp hclosed
    have htext : (first :: closed).flatMap (· ++ ['/']) ++ cs
        = first ++ '/' :: (closed.flatMap (· ++ ['/']) ++ cs) := by simp
    rw [Settled, htext, Text.splitAt_append_cons (hslash hfirst)]
    exact List.forall_mem_cons.mpr ⟨hfirst, ih hclosed⟩

/-- **The text of every path is settled.** -/
theorem settled_chars_ofText (cs : List Char) : Settled (ofText cs).chars := by
  have hsafe : ∀ segment ∈ Text.splitAt '/' (percentEncode isPathSafe cs),
      ∀ c ∈ segment, isPathSafe c = true ∧ c ≠ '/' := by
    intro segment hsegment c hc
    obtain ⟨hmem, hne⟩ := Text.mem_of_mem_splitAt hsegment hc
    exact ⟨isSafe_of_mem_percentEncode (by decide) hmem, hne⟩
  have hclean : (ofText cs).Clean :=
    clean_resolve (List.forall_mem_singleton.mpr plain_nil) hsafe
  exact settled_flatMap (fun s hs => hclean.closed s (List.mem_reverse.mp hs)) hclean.last

/-- What is behind the leading slashes of a settled text is settled. -/
theorem Settled.dropSlashes (h : Settled cs) : Settled (cs.dropWhile (· == '/')) := by
  induction cs with
  | nil => exact h
  | cons c cs ih =>
    by_cases hc : c = '/'
    · subst hc
      rw [Settled, Text.splitAt_cons_self] at h
      exact ih (List.forall_mem_cons.mp h).2
    · rw [List.dropWhile_cons, beq_false_of_ne hc]
      exact h

/-- **A segment with all but letters and digits encoded is settled**, unless it is one dot or
two. -/
theorem settled_percentEncode (hone : cs ≠ ['.']) (htwo : cs ≠ ['.', '.']) :
    Settled (percentEncode Char.isAlphanum cs) :=
  by
  simpa using settled_flatMap (List.forall_mem_nil Plain) (plain_percentEncode hone htwo)

end Path

end Uri

end TableSql
