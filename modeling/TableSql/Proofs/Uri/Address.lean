import Mathlib.Data.List.Induction
import TableSql.Proofs.Text.Digits
import TableSql.Uri.Address

/-!
# IPv6 addresses read back

Whatever spelling an address is read from, it has eight groups of sixteen bits, and the one
spelling it is written in is read as that address again.

## Main definitions

* `Uri.Address.Valid` — eight groups of sixteen bits

## Main results

* `Uri.Address.valid_of_parse?` — what is read is valid
* `Uri.Address.parse?_chars` — a valid address is read back from its text
-/

namespace TableSql.Uri.Address

/-- Eight groups of sixteen bits. -/
structure Valid (groups : Address) : Prop where
  length_eq : groups.length = 8
  lt : ∀ n ∈ groups, n < 65536

variable {groups before after : List Nat} {cs rest : List Char} {pieces : List Piece}
  {room n start length : Nat} {hadGap : Bool}

/-! ### The digits of a group -/

theorem isHexDigit_of_mem_toDigits {c : Char} (h : c ∈ Nat.toDigits 16 n) :
    isHexDigit c = true := by
  obtain ⟨d, hd, rfl⟩ := Text.exists_of_mem_toDigits (by decide) h
  have hall : ∀ d, d < 16 → isHexDigit (Nat.digitChar d) = true := by decide
  exact hall d hd

theorem hexDigitsValue_toDigits (n : Nat) : hexDigitsValue (Nat.toDigits 16 n) = n := by
  have hvalue : ∀ d, d < 16 → (Json.hexValue? (Nat.digitChar d)).getD 0 = d := by decide
  exact Text.foldl_toDigits (by decide) hvalue n

/-- A group has at most four digits, so all of them are read. -/
theorem takeWhile_take_toDigits (hn : n < 65536)
    (hrest : ∀ c, rest.head? = some c → isHexDigit c = false) :
    ((Nat.toDigits 16 n ++ rest).take 4).takeWhile isHexDigit = Nat.toDigits 16 n := by
  have hlength : (Nat.toDigits 16 n).length ≤ 4 :=
    (Nat.length_toDigits_le_iff (by decide) (by decide)).mpr hn
  rw [List.take_append, List.take_of_length_le hlength]
  refine Text.takeWhile_append_of_head? (fun _ => isHexDigit_of_mem_toDigits) fun c hc => ?_
  refine hrest c ?_
  cases rest with
  | nil => simp at hc
  | cons d rest =>
    rw [List.head?_take] at hc
    split at hc
    · cases hc
    · exact hc

/-- A group starts with a digit, never with a colon. -/
theorem toDigits_ne_colon (n : Nat) : Nat.toDigits 16 n ++ rest ≠ ':' :: cs := by
  intro h
  obtain ⟨d, digits, hdigits⟩ := List.exists_cons_of_ne_nil (@Nat.toDigits_ne_nil n 16)
  rw [hdigits, List.cons_append] at h
  have hd : isHexDigit d = true := isHexDigit_of_mem_toDigits (hdigits ▸ List.mem_cons_self)
  rw [(List.cons.inj h).1] at hd
  exact absurd hd (by decide)

/-! ### Reading what was written -/

theorem pieces?_toDigits (hn : n < 65536) :
    pieces? (room + 1) hadGap (Nat.toDigits 16 n) = some [.group n] := by
  have hdigits : ((Nat.toDigits 16 n ++ []).take 4).takeWhile isHexDigit = Nat.toDigits 16 n :=
    takeWhile_take_toDigits hn nofun
  rw [List.append_nil] at hdigits
  rw [pieces?, hdigits, List.drop_length]
  · simp only [hexDigitsValue_toDigits]
  · exact Nat.toDigits_ne_nil
  · intro rest h
    exact toDigits_ne_colon n (by rw [h, List.append_nil])

theorem pieces?_toDigits_append (hn : n < 65536) (hrest : rest ≠ []) :
    pieces? (room + 1) hadGap (Nat.toDigits 16 n ++ ':' :: rest)
      = (pieces? room hadGap rest).map (.group n :: ·) := by
  have hdigits : ((Nat.toDigits 16 n ++ ':' :: rest).take 4).takeWhile isHexDigit
      = Nat.toDigits 16 n :=
    takeWhile_take_toDigits hn fun c hc => by
      cases hc
      decide
  rw [pieces?, hdigits, List.drop_left]
  · simp only [if_neg hrest, hexDigitsValue_toDigits]
  · exact List.append_ne_nil_of_right_ne_nil _ (List.cons_ne_nil _ _)
  · exact fun _ => toDigits_ne_colon n

theorem groupChars_ne_nil (h : groups ≠ []) : groupChars groups ≠ [] := by
  rw [groupChars.eq_def]
  split
  · exact absurd rfl h
  · exact Nat.toDigits_ne_nil
  · exact List.append_ne_nil_of_right_ne_nil _ (List.cons_ne_nil _ _)

theorem groupChars_ne_colon (h : groups ≠ []) : groupChars groups ++ rest ≠ ':' :: cs := by
  rw [groupChars.eq_def]
  split
  · exact absurd rfl h
  · exact toDigits_ne_colon _
  · rw [List.append_assoc]
    exact toDigits_ne_colon _

/-- Groups between colons are read back where there is room for them. -/
theorem pieces?_groupChars (hroom : groups.length ≤ room) (hlt : ∀ n ∈ groups, n < 65536) :
    pieces? room hadGap (groupChars groups) = some (groups.map .group) := by
  induction groups using groupChars.induct generalizing room with
  | case1 => simp [groupChars, pieces?]
  | case2 n =>
    obtain ⟨room, rfl⟩ := Nat.exists_eq_add_of_le' hroom
    exact pieces?_toDigits (hlt n List.mem_cons_self)
  | case3 n m rest ih =>
    obtain ⟨hn, hrest⟩ := List.forall_mem_cons.mp hlt
    rw [List.length_cons] at hroom
    obtain ⟨room, rfl⟩ := Nat.exists_eq_add_of_le' (Nat.le_trans (Nat.le_add_left 1 _) hroom)
    rw [groupChars, pieces?_toDigits_append hn (groupChars_ne_nil (List.cons_ne_nil m rest)),
      ih (Nat.le_of_succ_le_succ hroom) hrest]
    rfl

/-- Groups with two colons among them are read back as the groups and a gap. -/
theorem pieces?_gap (hne : before ≠ []) (hroom : before.length + 1 + after.length ≤ room)
    (hbefore : ∀ n ∈ before, n < 65536) (hafter : ∀ n ∈ after, n < 65536) :
    pieces? room false (groupChars before ++ ':' :: ':' :: groupChars after)
      = some (before.map .group ++ .gap :: after.map .group) := by
  induction before using groupChars.induct generalizing room with
  | case1 => exact absurd rfl hne
  | case2 n =>
    obtain ⟨room, rfl⟩ : ∃ k, room = k + 1 + 1 := ⟨room - 2, by simp at hroom; omega⟩
    have hlength : after.length ≤ room := by
      rw [List.length_singleton] at hroom
      omega
    rw [groupChars, pieces?_toDigits_append (hbefore n List.mem_cons_self) (List.cons_ne_nil _ _),
      pieces?, if_neg Bool.false_ne_true, pieces?_groupChars hlength hafter]
    rfl
  | case3 n m rest ih =>
    obtain ⟨hn, hrest⟩ := List.forall_mem_cons.mp hbefore
    obtain ⟨room, rfl⟩ : ∃ k, room = k + 1 := ⟨room - 1, by simp at hroom; omega⟩
    rw [List.length_cons] at hroom
    rw [groupChars, List.append_assoc, List.cons_append,
      pieces?_toDigits_append hn (List.append_ne_nil_of_right_ne_nil _ (List.cons_ne_nil _ _)),
      ih (List.cons_ne_nil m rest) (by omega) hrest]
    rfl

/-! ### The pieces together -/

theorem takeWhile_map_group (groups : List Nat)
    (h : pieces = [] ∨ ∃ rest, pieces = .gap :: rest) :
    (groups.map Piece.group ++ pieces).takeWhile (· != .gap) = groups.map .group := by
  rw [List.takeWhile_append_of_pos (by simp)]
  rcases h with rfl | ⟨rest, rfl⟩ <;> simp

theorem dropWhile_map_group (groups : List Nat) (pieces : List Piece) :
    (groups.map Piece.group ++ .gap :: pieces).dropWhile (· != .gap) = .gap :: pieces := by
  rw [List.dropWhile_append_of_pos (by simp)]
  simp

theorem filterMap_map_group (groups : List Nat) :
    (groups.map Piece.group).filterMap Piece.value? = groups := by
  rw [List.filterMap_map]
  exact List.filterMap_some

theorem ofPieces?_groups (h : groups.length = 8) :
    ofPieces? (groups.map .group) = some groups := by
  have htake := takeWhile_map_group groups (.inl rfl)
  rw [List.append_nil] at htake
  have hgap : (groups.map Piece.group).contains .gap = false := by simp
  rw [ofPieces?, hgap, if_neg Bool.false_ne_true, htake, filterMap_map_group, if_pos h]

theorem ofPieces?_gap (before after : List Nat) :
    ofPieces? (before.map .group ++ .gap :: after.map .group)
      = some (before ++ List.replicate (8 - before.length - after.length) 0 ++ after) := by
  have hgap : (before.map Piece.group ++ Piece.gap :: after.map .group).contains .gap = true := by
    simp
  rw [ofPieces?, hgap, if_pos rfl, takeWhile_map_group _ (.inr ⟨_, rfl⟩), dropWhile_map_group,
    List.filterMap_cons_none rfl, filterMap_map_group, filterMap_map_group]

/-! ### The run that is left out -/

theorem replicate_append_drop (groups : List Nat) :
    List.replicate (leadingZeros groups) 0 ++ groups.drop (leadingZeros groups) = groups := by
  induction groups with
  | nil => rfl
  | cons n groups ih =>
    by_cases hn : n = 0
    · subst hn
      have hzeros : leadingZeros (0 :: groups) = leadingZeros groups + 1 := by simp [leadingZeros]
      rw [hzeros, List.replicate_succ, List.drop_succ_cons, List.cons_append, ih]
    · have hzeros : leadingZeros (n :: groups) = 0 := by simp [leadingZeros, hn]
      rw [hzeros]
      rfl

/-- The run that is left out is one of at least two zeros. -/
theorem longestRun_spec (h : longestRun groups = some (start, length)) :
    1 < length ∧ length = leadingZeros (groups.drop start) := by
  -- every record so far is such a run
  have hrecord : ∀ run, longestRun groups = some run →
      1 < run.2 ∧ run.2 = leadingZeros (groups.drop run.1) := by
    refine List.foldlRecOn (motive := fun best : Option (Nat × Nat) => ∀ run, best = some run →
      1 < run.2 ∧ run.2 = leadingZeros (groups.drop run.1)) _ _ nofun ?_
    intro best hbest start _
    cases best with
    | none =>
      dsimp only
      split
      next hlonger =>
        rintro _ ⟨⟩
        exact ⟨hlonger, rfl⟩
      next => exact nofun
    | some best =>
      dsimp only
      split
      next hlonger =>
        rintro _ ⟨⟩
        exact ⟨Nat.lt_trans (hbest best rfl).1 hlonger, rfl⟩
      next => exact hbest
  exact hrecord _ h

/-- An address is written out, or with two colons for a run of its zeros. -/
theorem chars_cases (groups : Address) :
    chars groups = groupChars groups ∨
      ∃ before zeros after, 1 < zeros ∧ groups = before ++ List.replicate zeros 0 ++ after ∧
        chars groups = groupChars before ++ ':' :: ':' :: groupChars after := by
  rw [chars]
  split
  next start length hrun =>
    have hdrop := replicate_append_drop (groups.drop start)
    rw [← (longestRun_spec hrun).2, List.drop_drop] at hdrop
    refine .inr ⟨_, length, _, (longestRun_spec hrun).1, ?_, rfl⟩
    rw [List.append_assoc, hdrop, List.take_append_drop]
  next => exact .inl rfl

/-- An address is written with hexadecimal digits and colons. -/
theorem mem_chars {c : Char} (h : c ∈ chars groups) :
    (∃ d, d < 16 ∧ c = Nat.digitChar d) ∨ c = ':' := by
  have hmem : ∀ {groups : List Nat}, c ∈ groupChars groups →
      (∃ d, d < 16 ∧ c = Nat.digitChar d) ∨ c = ':' := by
    intro groups hc
    induction groups using groupChars.induct with
    | case1 => cases hc
    | case2 n => exact .inl (Text.exists_of_mem_toDigits (by decide) hc)
    | case3 n m rest ih =>
      rcases List.mem_append.mp hc with hc | hc
      · exact .inl (Text.exists_of_mem_toDigits (by decide) hc)
      · rcases List.mem_cons.mp hc with rfl | hc
        · exact .inr rfl
        · exact ih hc
  rcases chars_cases groups with hchars | ⟨before, zeros, after, -, -, hchars⟩
  · exact hmem (hchars ▸ h)
  · rw [hchars] at h
    rcases List.mem_append.mp h with h | h
    · exact hmem h
    · simp only [List.mem_cons] at h
      rcases h with rfl | rfl | h
      · exact .inr rfl
      · exact .inr rfl
      · exact hmem h

/-! ### The whole -/

theorem parse?_of_ne_colon (hcolon : ∀ rest, cs ≠ ':' :: rest) (hlength : 1 < cs.length) :
    parse? cs = (pieces? 8 false cs).bind ofPieces? := by
  rw [parse?]
  · exact fun rest => hcolon _
  · exact hcolon
  · rintro rfl
    cases hlength
  · rintro c rfl
    exact absurd hlength (Nat.lt_irrefl 1)

theorem parse?_groupChars (h : Valid groups) : parse? (groupChars groups) = some groups := by
  obtain ⟨n, m, rest, rfl⟩ : ∃ n m rest, groups = n :: m :: rest := by
    match groups, h.length_eq with
    | n :: m :: rest, _ => exact ⟨n, m, rest, rfl⟩
  have hcolon : ∀ cs, groupChars (n :: m :: rest) ≠ ':' :: cs := by
    intro cs
    have hne : groupChars (n :: m :: rest) ++ [] ≠ ':' :: cs :=
      groupChars_ne_colon (List.cons_ne_nil _ _)
    rwa [List.append_nil] at hne
  have hlength : 1 < (groupChars (n :: m :: rest)).length := by
    have hpos : 0 < (Nat.toDigits 16 n).length := List.length_pos_iff.mpr Nat.toDigits_ne_nil
    rw [groupChars, List.length_append, List.length_cons]
    omega
  rw [parse?_of_ne_colon hcolon hlength, pieces?_groupChars (Nat.le_of_eq h.length_eq) h.lt]
  exact ofPieces?_groups h.length_eq

theorem parse?_gap {zeros : Nat} (hzeros : 0 < zeros)
    (h : Valid (before ++ List.replicate zeros 0 ++ after)) :
    parse? (groupChars before ++ ':' :: ':' :: groupChars after)
      = some (before ++ List.replicate zeros 0 ++ after) := by
  have hlength := h.length_eq
  simp only [List.length_append, List.length_replicate] at hlength
  have hbefore : ∀ n ∈ before, n < 65536 :=
    fun n hn => h.lt n (List.mem_append_left _ (List.mem_append_left _ hn))
  have hafter : ∀ n ∈ after, n < 65536 := fun n hn => h.lt n (List.mem_append_right _ hn)
  have hpieces : ofPieces? (before.map .group ++ .gap :: after.map .group)
      = some (before ++ List.replicate zeros 0 ++ after) := by
    have hmissing : 8 - before.length - after.length = zeros := by omega
    rw [ofPieces?_gap, hmissing]
  by_cases hne : before = []
  · subst hne
    rw [List.length_nil] at hlength
    rw [groupChars, List.nil_append, parse?, pieces?_groupChars (by omega) hafter]
    exact hpieces
  · have htwo : 1 < (groupChars before ++ ':' :: ':' :: groupChars after).length := by
      rw [List.length_append, List.length_cons, List.length_cons]
      omega
    rw [parse?_of_ne_colon (fun _ => groupChars_ne_colon hne) htwo,
      pieces?_gap hne (by omega) hbefore hafter]
    exact hpieces

/-- **A valid address is read back from its text.** -/
theorem parse?_chars (h : Valid groups) : parse? (chars groups) = some groups := by
  rcases chars_cases groups with hchars | ⟨before, zeros, after, hzeros, hgroups, hchars⟩
  · rw [hchars, parse?_groupChars h]
  · rw [hchars, hgroups]
    exact parse?_gap (Nat.lt_of_succ_lt hzeros) (hgroups ▸ h)

/-! ### What is read is valid -/

theorem hexDigit_lt (c : Char) : (Json.hexValue? c).getD 0 < 16 := by
  rw [Json.hexValue?]
  split
  next h =>
    have hle : c.toNat ≤ '9'.toNat := h.2
    have hnine : '9'.toNat = '0'.toNat + 9 := rfl
    rw [Option.getD_some]
    omega
  split
  next h =>
    have hle : c.toNat ≤ 'f'.toNat := h.2
    have hf : 'f'.toNat = 'a'.toNat + 5 := rfl
    rw [Option.getD_some]
    omega
  split
  next h =>
    have hle : c.toNat ≤ 'F'.toNat := h.2
    have hf : 'F'.toNat = 'A'.toNat + 5 := rfl
    rw [Option.getD_some]
    omega
  next => decide

theorem hexDigitsValue_lt_pow (cs : List Char) : hexDigitsValue cs < Nat.pow 16 cs.length := by
  rw [hexDigitsValue]
  induction cs using List.reverseRecOn with
  | nil => decide
  | append_singleton cs c ih =>
    have hdigit := hexDigit_lt c
    rw [List.foldl_append, List.foldl_cons, List.foldl_nil, List.length_append,
      List.length_singleton]
    change _ < Nat.pow 16 cs.length * 16
    omega

/-- Four digits are sixteen bits. -/
theorem hexDigitsValue_lt (cs : List Char) :
    hexDigitsValue ((cs.take 4).takeWhile isHexDigit) < 65536 := by
  have hlength : ((cs.take 4).takeWhile isHexDigit).length ≤ 4 :=
    Nat.le_trans (List.takeWhile_prefix _).length_le (List.length_take_le 4 cs)
  calc hexDigitsValue ((cs.take 4).takeWhile isHexDigit)
      < Nat.pow 16 ((cs.take 4).takeWhile isHexDigit).length := hexDigitsValue_lt_pow _
    _ ≤ Nat.pow 16 4 := Nat.pow_le_pow_right (by decide) hlength

theorem le_of_octet? (h : octet? cs = some (n, rest)) : n ≤ 255 := by
  rw [octet?] at h
  split at h
  · cases h
  · cases h
  · split at h
    next hle =>
      cases h
      exact hle
    next => cases h

theorem le_of_octets? {count : Nat} {octets : List Nat} (h : octets? count cs = some octets) :
    ∀ n ∈ octets, n ≤ 255 := by
  induction count generalizing cs octets with
  | zero => cases h
  | succ count ih =>
    rw [octets?.eq_def] at h
    split at h
    next heq => cases heq
    next =>
      split at h
      next hoctet =>
        cases h
        exact List.forall_mem_singleton.mpr (le_of_octet? hoctet)
      next => cases h
    next heq =>
      cases heq
      split at h
      next hoctet =>
        obtain ⟨rest, hrest, rfl⟩ := Option.map_eq_some_iff.mp h
        exact List.forall_mem_cons.mpr ⟨le_of_octet? hoctet, ih hrest⟩
      next => cases h

/-- Pieces that there is room for, each of sixteen bits. -/
structure Fits (room : Nat) (pieces : List Piece) : Prop where
  length_le : pieces.length ≤ room
  lt : ∀ n, .group n ∈ pieces → n < 65536

theorem Fits.gap (h : Fits room pieces) : Fits (room + 1) (.gap :: pieces) where
  length_le := Nat.succ_le_succ h.length_le
  lt n hn := h.lt n ((List.mem_cons.mp hn).resolve_left nofun)

theorem Fits.group (h : Fits room pieces) (hn : n < 65536) :
    Fits (room + 1) (.group n :: pieces) where
  length_le := Nat.succ_le_succ h.length_le
  lt m hm := by
    rcases List.mem_cons.mp hm with hm | hm
    · cases hm
      exact hn
    · exact h.lt m hm

theorem fits_nil (room : Nat) : Fits room [] := ⟨Nat.zero_le room, nofun⟩

theorem fits_pieces? (h : pieces? room hadGap cs = some pieces) : Fits room pieces := by
  fun_induction pieces? room hadGap cs generalizing pieces with
  | case1 room =>
    cases h
    exact fits_nil room
  | case4 room hadGap rest hgap ih =>
    obtain ⟨rest, hrest, rfl⟩ := Option.map_eq_some_iff.mp h
    exact (ih hrest).gap
  | case5 room hadGap cs =>
    cases h
    exact (fits_nil room).group (hexDigitsValue_lt cs)
  | case7 room hadGap cs =>
    rename_i ih
    obtain ⟨rest, hrest, rfl⟩ := Option.map_eq_some_iff.mp h
    exact (ih hrest).group (hexDigitsValue_lt cs)
  | case9 room hadGap cs =>
    rename_i hroom a b c d hoctets
    cases h
    have hle := le_of_octets? hoctets
    simp only [List.forall_mem_cons] at hle
    obtain ⟨room, rfl⟩ := Nat.exists_eq_succ_of_ne_zero (not_or.mp hroom).2
    exact ((fits_nil room).group (by omega)).group (by omega)
  | _ => cases h

theorem mem_of_mem_filterMap (h : n ∈ pieces.filterMap Piece.value?) : .group n ∈ pieces := by
  obtain ⟨piece, hpiece, hvalue⟩ := List.mem_filterMap.mp h
  cases piece with
  | group m =>
    cases hvalue
    exact hpiece
  | gap => cases hvalue

theorem valid_of_ofPieces? (hfits : Fits 8 pieces) (h : ofPieces? pieces = some groups) :
    Valid groups := by
  have htake : ∀ n ∈ (pieces.takeWhile (· != .gap)).filterMap Piece.value?, n < 65536 :=
    fun n hn => hfits.lt n ((List.takeWhile_prefix _).subset (mem_of_mem_filterMap hn))
  have hdrop : ∀ n ∈ (pieces.dropWhile (· != .gap)).filterMap Piece.value?, n < 65536 :=
    fun n hn => hfits.lt n ((List.dropWhile_suffix _).subset (mem_of_mem_filterMap hn))
  rw [ofPieces?] at h
  split at h
  next =>
    cases h
    constructor
    · have hlength := hfits.length_le
      rw [← @List.takeWhile_append_dropWhile _ (· != .gap) pieces, List.length_append] at hlength
      have hbefore := List.length_filterMap_le Piece.value? (pieces.takeWhile (· != .gap))
      have hafter := List.length_filterMap_le Piece.value? (pieces.dropWhile (· != .gap))
      rw [List.length_append, List.length_append, List.length_replicate]
      omega
    · simp only [List.forall_mem_append]
      refine ⟨⟨htake, fun n hn => ?_⟩, hdrop⟩
      rw [List.eq_of_mem_replicate hn]
      decide
  next =>
    split at h
    next hlength =>
      cases h
      exact ⟨hlength, htake⟩
    next => cases h

/-- **What is read is valid.** -/
theorem valid_of_parse? (h : parse? cs = some groups) : Valid groups := by
  rw [parse?.eq_def] at h
  split at h
  next =>
    obtain ⟨pieces, hpieces, hgroups⟩ := Option.bind_eq_some_iff.mp h
    obtain ⟨rest, hrest, rfl⟩ := Option.map_eq_some_iff.mp hpieces
    exact valid_of_ofPieces? (fits_pieces? hrest).gap hgroups
  next => cases h
  next => cases h
  next => cases h
  next =>
    obtain ⟨pieces, hpieces, hgroups⟩ := Option.bind_eq_some_iff.mp h
    exact valid_of_ofPieces? (fits_pieces? hpieces) hgroups

end TableSql.Uri.Address
