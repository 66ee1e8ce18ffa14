import TableSql.Proofs.Sql.Mode
import TableSql.Proofs.Text.Encoding

/-!
# Text cut at its placeholders

The placeholders of a text cut it into pieces. Each piece starts and ends outside quotes, and so
does each placeholder, as no quote and no `?` is in it. What is put in a placeholder's place is
therefore read as it would be on its own, and so is the piece that follows it.

## Main definitions

* `Sql.Cut` — text from a byte on, as pieces with placeholders between them

## Main results

* `Sql.cut_of_placeholders?` — a scan that succeeds cuts the text
* `Sql.Cut.closed` — cut text is closed
* `Sql.exists_text_of_placeholder`, `Sql.exists_ahead_of_placeholder` — a placeholder starts and
  ends between characters
-/

namespace TableSql.Sql

/-- The text `bs`, whose first byte is at `pos`, is cut by the placeholders `ps` into pieces that
are outside quotes at both ends. -/
inductive Cut : (pos : Nat) → List UInt8 → List Placeholder → Prop
  /-- The piece behind the last placeholder. -/
  | rest {pos : Nat} {bs : List UInt8} (closed : Mode.after .outside bs = .outside) : Cut pos bs []
  /-- A piece and the placeholder behind it: a colon and the bytes of a name. -/
  | placeholder {pos : Nat} {piece name bs : List UInt8} {ps : List Placeholder}
      (closed : Mode.after .outside piece = .outside) (nonempty : name ≠ [])
      (isName : ∀ b ∈ name, isNameByte b = true)
      (others : Cut (pos + piece.length + 1 + name.length) bs ps) :
      Cut pos (piece ++ 58 :: (name ++ bs))
        (⟨Text.ofAscii name, pos + piece.length, pos + piece.length + 1 + name.length⟩ :: ps)

/-! ### Bytes of a name -/

theorem ofByte?_of_isNameByte {b : UInt8} (h : isNameByte b = true) : Quote.ofByte? b = none := by
  have h39 : b ≠ 39 := by rintro rfl; exact absurd h (by decide)
  have h34 : b ≠ 34 := by rintro rfl; exact absurd h (by decide)
  have h96 : b ≠ 96 := by rintro rfl; exact absurd h (by decide)
  rw [Quote.ofByte?, if_neg h39, if_neg h34, if_neg h96]

theorem ne_of_isNameByte {b : UInt8} (h : isNameByte b = true) : b ≠ 63 := by
  rintro rfl
  exact absurd h (by decide)

theorem lt_of_isNameByte {b : UInt8} (h : isNameByte b = true) : b.toNat < 128 := by
  simp only [isNameByte, Bool.or_eq_true, Bool.and_eq_true, decide_eq_true_eq, beq_iff_eq,
    UInt8.le_iff_toNat_le] at h
  rcases h with ((⟨-, h⟩ | ⟨-, h⟩) | ⟨-, h⟩) | rfl
  · exact Nat.lt_of_le_of_lt h (by decide)
  · exact Nat.lt_of_le_of_lt h (by decide)
  · exact Nat.lt_of_le_of_lt h (by decide)
  · decide

/-- A name is read outside quotes, and no marker is in it. -/
theorem Mode.after_name {name : List UInt8} (h : ∀ b ∈ name, isNameByte b = true) :
    Mode.after .outside name = .outside ∧ Mode.markers .outside name = 0 := by
  induction name with
  | nil => exact ⟨rfl, rfl⟩
  | cons b name ih =>
    obtain ⟨hb, hname⟩ := List.forall_mem_cons.mp h
    obtain ⟨hout, hmark⟩ := ih hname
    have hquote := ofByte?_of_isNameByte hb
    rw [Mode.after_cons, Mode.next_outside_of_ne hquote, Mode.markers_outside_of_ne hquote,
      if_neg (ne_of_isNameByte hb), hmark]
    exact ⟨hout, rfl⟩

/-- So is a whole placeholder. -/
theorem Mode.after_placeholder {name : List UInt8} (h : ∀ b ∈ name, isNameByte b = true)
    (bs : List UInt8) :
    Mode.after .outside (58 :: (name ++ bs)) = Mode.after .outside bs ∧
      Mode.markers .outside (58 :: (name ++ bs)) = Mode.markers .outside bs := by
  obtain ⟨hout, hmark⟩ := Mode.after_name h
  have hcolon : Quote.ofByte? 58 = none := rfl
  constructor
  · rw [Mode.after_cons, Mode.next_outside_of_ne hcolon, Mode.after_append, hout]
  · rw [Mode.markers_outside_of_ne hcolon, Mode.markers_append, hout, hmark,
      if_neg (by decide), Nat.zero_add, Nat.zero_add]

namespace Cut

variable {pos : Nat} {bs : List UInt8} {ps : List Placeholder}

theorem closed (h : Cut pos bs ps) : Mode.after .outside bs = .outside := by
  induction h with
  | rest hbs => exact hbs
  | placeholder hpiece _ hname _ ih =>
    rw [Mode.after_append, hpiece, (Mode.after_placeholder hname _).1]
    exact ih

/-- What is read before the first piece can be part of it. -/
theorem prepend {before : List UInt8} (hbefore : Mode.after .outside before = .outside)
    (h : Cut (pos + before.length) bs ps) : Cut pos (before ++ bs) ps := by
  generalize hstart : pos + before.length = start at h
  cases h with
  | rest hbs => exact .rest (by rw [Mode.after_append, hbefore, hbs])
  | @placeholder _ piece name bs ps hpiece hne hname hrest =>
    have hlen : pos + (before ++ piece).length = start + piece.length := by
      rw [List.length_append]
      omega
    have hclosed : Mode.after .outside (before ++ piece) = .outside := by
      rw [Mode.after_append, hbefore, hpiece]
    rw [← hlen] at hrest
    have hcut := Cut.placeholder hclosed hne hname hrest
    rwa [hlen, List.append_assoc] at hcut

end Cut

theorem cut_of_placeholdersFrom {pos : Nat} {bs : List UInt8} {ps : List Placeholder}
    (h : placeholdersFrom 0 pos bs = .ok ps) : Cut pos bs ps := by
  induction hlen : bs.length using Nat.strongRecOn generalizing pos bs ps with
  | _ len ih =>
  cases bs with
  | nil =>
    cases h
    exact .rest rfl
  | cons b rest =>
    rw [List.length_cons] at hlen
    rw [placeholdersFrom] at h
    cases hb : Quote.ofByte? b with
    | some q =>
      simp only [hb] at h
      cases hq : q.tailLength? rest with
      | none => simp [hq] at h
      | some k =>
        simp only [hq] at h
        have hk : k ≤ rest.length := Quote.tailLength?_le hq
        have htoken : Mode.after .outside (b :: rest.take k) = .outside := by
          rw [Mode.after_cons, Mode.next_outside_of_quote hb]
          exact (Quote.tailLength?_eq_some hq).1
        have hcut : Cut (pos + (b :: rest.take k).length) (rest.drop k) ps := by
          rw [placeholdersFrom_skip] at h
          rw [List.length_cons, List.length_take_of_le hk, Nat.add_comm k 1, ← Nat.add_assoc]
          exact ih _ (by rw [List.length_drop]; omega) h rfl
        have := hcut.prepend htoken
        rwa [List.cons_append, List.take_append_drop] at this
    | none =>
      simp only [hb] at h
      split at h
      next hcolon =>
        obtain ⟨hcolon, hne⟩ := Bool.and_eq_true_iff.mp hcolon
        have hb58 : b = 58 := by simpa using hcolon
        split at h
        next others hothers =>
          cases h
          have hname : ∀ c ∈ rest.takeWhile isNameByte, isNameByte c = true :=
            List.all_eq_true.mp List.all_takeWhile
          have hsplit : rest.takeWhile isNameByte ++ rest.dropWhile isNameByte = rest :=
            List.takeWhile_append_dropWhile
          generalize rest.takeWhile isNameByte = name at *
          generalize rest.dropWhile isNameByte = tail at *
          subst hsplit
          rw [placeholdersFrom_skip, List.drop_left] at hothers
          have hcut : Cut (pos + 1 + name.length) tail others := by
            rw [List.length_append] at hlen
            exact ih _ (by omega) hothers rfl
          have hempty : Mode.after .outside [] = .outside := rfl
          rw [hb58]
          exact Cut.placeholder hempty (by simpa using hne) hname hcut
        next => cases h
      next =>
        have hone : Mode.after .outside [b] = .outside := by
          rw [Mode.after_cons, Mode.next_outside_of_ne hb]
          rfl
        have hcut : Cut (pos + [b].length) rest ps := ih _ (by omega) h rfl
        exact hcut.prepend hone

/-- **A scan that succeeds cuts the text.** -/
theorem cut_of_placeholders? {text : String} {ps : List Placeholder}
    (h : placeholders? text = .ok ps) : Cut 0 (Text.bytes text) ps :=
  cut_of_placeholdersFrom h

theorem closed_of_placeholders? {text : String} {ps : List Placeholder}
    (h : placeholders? text = .ok ps) : Closed text :=
  (cut_of_placeholders? h).closed

/-! ### Characters

A placeholder is written in ASCII, so the cuts before and after it are between characters. -/

/-- The piece, the placeholder and the rest as texts. -/
theorem exists_text_of_placeholder {cs : List Char} {piece name bs : List UInt8}
    (h : Text.encode cs = piece ++ 58 :: (name ++ bs)) (hname : ∀ b ∈ name, isNameByte b = true) :
    ∃ ds ns es, cs = ds ++ (ns ++ es) ∧ Text.encode ds = piece ∧
      Text.encode ns = 58 :: name ∧ Text.encode es = bs := by
  obtain ⟨ds, rest, rfl, rfl, hrest⟩ := Text.encode_eq_append_cons h (by decide)
  obtain ⟨es, rfl, rfl⟩ :=
    Text.encode_eq_append_of_lt hrest fun c hc => lt_of_isNameByte (hname c hc)
  refine ⟨ds, _ :: name.map fun b => Char.ofNat b.toNat, es, rfl, rfl, ?_, rfl⟩
  rw [Text.encode_append, ← List.cons_append, Text.encode_append] at h
  exact List.append_cancel_right (List.append_cancel_left h)

/-- A placeholder that is ahead in a text: the piece is the text up to it, and the rest is what is
ahead behind it. -/
theorem exists_ahead_of_placeholder {text : String} {pos : Nat} {cs : List Char}
    {piece name bs : List UInt8} (hahead : Text.Ahead text pos cs)
    (h : Text.encode cs = piece ++ 58 :: (name ++ bs)) (hname : ∀ b ∈ name, isNameByte b = true) :
    ∃ ds ns es, cs = ds ++ (ns ++ es) ∧ Text.encode ds = piece ∧ Text.encode ns = 58 :: name ∧
      Text.encode es = bs ∧ Text.slice text pos (pos + piece.length) = String.ofList ds ∧
      Text.Ahead text (pos + piece.length + 1 + name.length) es := by
  obtain ⟨ds, ns, es, rfl, rfl, hns, rfl⟩ := exists_text_of_placeholder h hname
  refine ⟨ds, ns, es, rfl, rfl, hns, rfl, hahead.slice_eq, ?_⟩
  have hrest := hahead.behind.behind
  rwa [hns, List.length_cons, Nat.add_comm name.length 1, ← Nat.add_assoc] at hrest

end TableSql.Sql
