import TableSql.Proofs.Outcome
import TableSql.Proofs.Uri.Address
import TableSql.Proofs.Uri.Path
import TableSql.Uri.Parser

/-!
# URIs read back

The parts of a URI are kept in an encoded form, and each part is read back from that form: a user
and a password, a host, a port and a path that are put together to a URI again are the parts of
that URI. What a URI is read as has this form.

## What is asked of a parser

`Uri.Reads` states these two facts of any parser, in terms of characters and without a word on how
a text is taken apart. Whatever is said about connections is derived from the two, and
`Uri.reads_parse` shows that `Uri.parse` has them.

## Main definitions

* `Uri.Encoded`, `Uri.EncodedPair` — a user and a password that are read as they stand
* `Uri.PlainHost` — a host of printing characters that mean nothing in a URI
* `Uri.WrittenHost`, `Uri.WrittenPath` — a host and a path as URIs are written
* `Uri.HostText` — a host that is read as it stands
* `Uri.HasAuthority` — a text with two slashes after its scheme
* `Uri.Stable` — parts in the form that they are kept in
* `Uri.Reads` — what is asked of a parser

## Main results

* `Uri.parse_of_parts` — parts that are put together are read back
* `Uri.stable_of_parse` — what is read is kept in that form
* `Uri.reads_parse` — so `Uri.parse` is a parser like that
-/

namespace TableSql.Uri

variable {c mark : Char} {as bs cs before host path rest tail user : List Char}
  {password : Option (List Char)} {port : Nat}

/-! ### Characters -/

theorem isControlOrSpace_of_isOpaqueSafe (h : isOpaqueSafe c = true) (hne : c ≠ ' ') :
    isControlOrSpace c = false := by
  have hle : 0x20 ≤ c.toNat := of_decide_eq_true (Bool.and_eq_true_iff.mp h).1
  have hspace : c.toNat ≠ 0x20 := fun heq => hne (Char.toNat_inj.mp heq)
  rw [isControlOrSpace, decide_eq_false_iff_not]
  omega

theorem isControlOrSpace_of_isPathSafe (h : isPathSafe c = true) : isControlOrSpace c = false :=
  isControlOrSpace_of_isOpaqueSafe (isOpaqueSafe_of_isPathSafe h) (ne_of_safe h (by decide))

theorem isIgnored_of_isControlOrSpace (h : isControlOrSpace c = false) : isIgnored c = false := by
  have hne : ∀ {d : Char}, isControlOrSpace d = true → c ≠ d := fun hd => (ne_of_safe hd h).symm
  rw [isIgnored, decide_eq_false (hne (by decide)), decide_eq_false (hne (by decide)),
    decide_eq_false (hne (by decide))]
  rfl

/-- A character that is told apart from the three marks does not end the authority. -/
theorem endsAuthority_of_ne (hslash : c ≠ '/') (hquery : c ≠ '?') (hfragment : c ≠ '#') :
    endsAuthority c = false := by
  rw [endsAuthority, decide_eq_false hslash, decide_eq_false hquery, decide_eq_false hfragment]
  rfl

theorem isUserSafe_of_mem_toDigits (h : c ∈ Nat.toDigits 10 port) : isUserSafe c = true := by
  have hdigit : c.isDigit = true := Text.isDigit_of_mem_toDigits h
  exact isUserSafe_of_isAlphanum (by rw [Char.isAlphanum, hdigit, Bool.or_true])

theorem endsAuthority_of_isUserSafe (h : isUserSafe c = true) : endsAuthority c = false :=
  endsAuthority_of_ne (ne_of_safe h (by decide)) (ne_of_safe h (by decide))
    (ne_of_safe h (by decide))

/-- What stands in front of the host, and an address, hold safe characters and colons. -/
theorem endsAuthority_of_safe_or_colon (h : isUserSafe c = true ∨ c = ':') :
    endsAuthority c = false := by
  rcases h with hsafe | rfl
  · exact endsAuthority_of_isUserSafe hsafe
  · rfl

theorem isControlOrSpace_of_safe_or_colon (h : isUserSafe c = true ∨ c = ':') :
    isControlOrSpace c = false := by
  rcases h with hsafe | rfl
  · exact isControlOrSpace_of_isPathSafe (isPathSafe_of_isUserSafe hsafe)
  · decide

/-- A text of printing characters is all significant. -/
theorem significant_eq (h : ∀ c ∈ cs, isControlOrSpace c = false) :
    significant (String.ofList cs) = cs := by
  have hdrop : ∀ ds : List Char, (∀ c ∈ ds, isControlOrSpace c = false) →
      ds.dropWhile isControlOrSpace = ds :=
    fun ds hds => Text.dropWhile_append_of_head? (List.forall_mem_nil _) fun c hc =>
      hds c (List.mem_of_mem_head? hc)
  rw [significant, String.toList_ofList, hdrop cs h,
    hdrop cs.reverse fun c hc => h c (List.mem_reverse.mp hc), List.reverse_reverse]
  exact List.filter_eq_self.mpr fun c hc => by
    rw [isIgnored_of_isControlOrSpace (h c hc)]
    rfl

/-! ### Credentials -/

/-- A text is cut at its last mark. -/
theorem splitAtLast?_append (h : mark ∉ bs) :
    splitAtLast? mark (as ++ mark :: bs) = some (as, bs) := by
  have hmark : ∀ c ∈ bs.reverse, (c != mark) = true := by
    intro c hc
    rw [bne_iff_ne]
    rintro rfl
    exact h (List.mem_reverse.mp hc)
  have hhead : ∀ c, (mark :: as.reverse).head? = some c → (c != mark) = false := by
    rintro c ⟨⟩
    exact bne_self_eq_false mark
  have hreverse : (as ++ mark :: bs).reverse = bs.reverse ++ mark :: as.reverse := by simp
  rw [splitAtLast?, hreverse, Text.dropWhile_append_of_head? hmark hhead,
    Text.takeWhile_append_of_head? hmark hhead]
  simp only [List.reverse_reverse]

/-- A user, and a password behind a colon. -/
def credentialChars (user : List Char) : Option (List Char) → List Char
  | none => user
  | some password => user ++ ':' :: password

/-- A name that is kept as it is: some characters, all of them safe. -/
structure Encoded (cs : List Char) : Prop where
  ne_nil : cs ≠ []
  safe : ∀ c ∈ cs, isUserSafe c = true

instance (cs : List Char) : Decidable (Encoded cs) :=
  decidable_of_iff (cs ≠ [] ∧ cs.all isUserSafe = true)
    ⟨fun h => ⟨h.1, List.all_eq_true.mp h.2⟩, fun h => ⟨h.ne_nil, List.all_eq_true.mpr h.safe⟩⟩

/-- A user and maybe a password that are kept as they are. -/
structure EncodedPair (user : List Char) (password : Option (List Char)) : Prop where
  user : Encoded user
  password : ∀ cs, password = some cs → Encoded cs

theorem ofText_credentialChars (h : EncodedPair user password) :
    Credentials.ofText (credentialChars user password)
      = ⟨String.ofList user, password.map String.ofList⟩ := by
  have hcolon : ∀ c ∈ user, (c != ':') = true :=
    fun c hc => bne_iff_ne.mpr (ne_of_safe (h.user.safe c hc) (by decide))
  cases password with
  | none =>
    rw [credentialChars, Credentials.ofText, List.takeWhile_eq_self_iff.mpr hcolon,
      List.dropWhile_eq_nil_iff.mpr hcolon, percentEncode_of_safe h.user.safe]
    rfl
  | some password =>
    have hencoded := h.password password rfl
    have hhead : ∀ c, (':' :: password).head? = some c → (c != ':') = false := by
      rintro c ⟨⟩
      rfl
    rw [credentialChars, Credentials.ofText, Text.takeWhile_append_of_head? hcolon hhead,
      Text.dropWhile_append_of_head? hcolon hhead, percentEncode_of_safe h.user.safe]
    simp only [if_neg hencoded.ne_nil, percentEncode_of_safe hencoded.safe, Option.map_some]

theorem mem_credentialChars (h : EncodedPair user password)
    (hc : c ∈ credentialChars user password) : isUserSafe c = true ∨ c = ':' := by
  cases password with
  | none => exact .inl (h.user.safe c hc)
  | some password =>
    rcases List.mem_append.mp hc with hc | hc
    · exact .inl (h.user.safe c hc)
    · rcases List.mem_cons.mp hc with rfl | hc
      · exact .inr rfl
      · exact .inl ((h.password password rfl).safe c hc)

/-- The credentials are what stands in front of the last `@`. -/
theorem credentials_append (h : EncodedPair user password)
    (hrest : ∀ c ∈ rest, endsAuthority c = false ∧ c ≠ '@')
    (htail : ∀ c, tail.head? = some c → c = '/') :
    credentials (credentialChars user password ++ '@' :: (rest ++ tail))
      = .ok (⟨String.ofList user, password.map String.ofList⟩, rest ++ tail) := by
  have hends : ∀ c ∈ credentialChars user password ++ '@' :: rest, (!endsAuthority c) = true := by
    intro c hc
    rw [Bool.not_eq_true']
    rcases List.mem_append.mp hc with hc | hc
    · exact endsAuthority_of_safe_or_colon (mem_credentialChars h hc)
    · rcases List.mem_cons.mp hc with rfl | hc
      · rfl
      · exact (hrest c hc).1
  have hhead : ∀ c, tail.head? = some c → (!endsAuthority c) = false := by
    intro c hc
    rw [htail c hc]
    rfl
  have hsplit : credentialChars user password ++ '@' :: (rest ++ tail)
      = (credentialChars user password ++ '@' :: rest) ++ tail := by simp
  have hne : credentialChars user password ≠ [] := by
    cases password with
    | none => exact h.user.ne_nil
    | some password => exact List.append_ne_nil_of_left_ne_nil h.user.ne_nil _
  rw [credentials, hsplit, Text.takeWhile_append_of_head? hends hhead,
    Text.dropWhile_append_of_head? hends hhead]
  simp only [splitAtLast?_append fun hmem => (hrest '@' hmem).2 rfl, if_neg hne,
    ofText_credentialChars h]

/-! ### Hosts -/

/-- A host that is read as it stands. -/
structure HostText (cs : List Char) : Prop where
  ne_nil : cs ≠ []
  safe : ∀ c ∈ cs, isControlOrSpace c = false ∧ endsAuthority c = false ∧ c ≠ '@'
  split : ∀ rest, splitHost false (cs ++ ':' :: rest) = (cs, ':' :: rest)
  read : readHost .other cs = .ok (String.ofList cs)

/-- A host of printing characters that mean nothing in a URI. -/
structure PlainHost (cs : List Char) : Prop where
  ne_nil : cs ≠ []
  safe : ∀ c ∈ cs, isOpaqueSafe c = true ∧ isForbiddenInHost c = false

instance (cs : List Char) : Decidable (PlainHost cs) :=
  decidable_of_iff (cs ≠ [] ∧ cs.all (fun c => isOpaqueSafe c && !isForbiddenInHost c) = true)
    ⟨fun h => ⟨h.1, by simpa using h.2⟩, fun h => ⟨h.ne_nil, by simpa using h.safe⟩⟩

/-- Characters that neither end a host nor are brackets go to the host. -/
theorem splitHost_append {inBrackets : Bool}
    (h : ∀ c ∈ cs, endsAuthority c = false ∧ (c = ':' → inBrackets = true) ∧ c ≠ '[' ∧ c ≠ ']')
    (rest : List Char) :
    splitHost inBrackets (cs ++ rest)
      = (cs ++ (splitHost inBrackets rest).1, (splitHost inBrackets rest).2) := by
  induction cs with
  | nil => rfl
  | cons c cs ih =>
    obtain ⟨⟨hends, hcolon, hopen, hclose⟩, hcs⟩ := List.forall_mem_cons.mp h
    have hgo : ¬ (endsAuthority c = true ∨ (c = ':' ∧ inBrackets = false)) := by
      rintro (hc | ⟨hc, hout⟩)
      · rw [hends] at hc
        cases hc
      · rw [hcolon hc] at hout
        cases hout
    rw [List.cons_append, splitHost, if_neg hgo, if_neg hopen, if_neg hclose]
    dsimp only
    rw [ih hcs]
    rfl

theorem splitHost_colon (rest : List Char) : splitHost false (':' :: rest) = ([], ':' :: rest) := by
  rw [splitHost, if_pos (.inr ⟨rfl, rfl⟩)]

theorem splitHost_open (rest : List Char) :
    splitHost false ('[' :: rest) = ('[' :: (splitHost true rest).1, (splitHost true rest).2) := by
  rw [splitHost, if_neg (by decide), if_pos rfl]

theorem splitHost_close (rest : List Char) :
    splitHost true (']' :: rest) = (']' :: (splitHost false rest).1, (splitHost false rest).2) := by
  rw [splitHost, if_neg (by decide), if_neg (by decide), if_pos rfl]

theorem PlainHost.ne (h : PlainHost cs) (hc : c ∈ cs) {d : Char} (hd : isForbiddenInHost d = true) :
    c ≠ d :=
  (ne_of_safe hd (h.safe c hc).2).symm

theorem PlainHost.endsAuthority (h : PlainHost cs) (hc : c ∈ cs) : endsAuthority c = false :=
  endsAuthority_of_ne (h.ne hc (by decide)) (h.ne hc (by decide)) (h.ne hc (by decide))

/-- **A plain host is read as it stands.** -/
theorem PlainHost.hostText (h : PlainHost cs) : HostText cs where
  ne_nil := h.ne_nil
  safe c hc := ⟨isControlOrSpace_of_isOpaqueSafe (h.safe c hc).1 (h.ne hc (by decide)),
    h.endsAuthority hc, h.ne hc (by decide)⟩
  split rest := by
    rw [splitHost_append fun c hc => ⟨h.endsAuthority hc, fun hcolon =>
      absurd hcolon (h.ne hc (by decide)), h.ne hc (by decide), h.ne hc (by decide)⟩,
      splitHost_colon, List.append_nil]
  read := by
    have hany : cs.any isForbiddenInHost = false := by
      rw [List.any_eq_false]
      intro c hc
      rw [(h.safe c hc).2]
      exact Bool.false_ne_true
    have hsafe : percentEncode isOpaqueSafe cs = cs :=
      percentEncode_of_safe fun c hc => (h.safe c hc).1
    rw [readHost.eq_def]
    split
    next rest => exact absurd rfl (h.ne List.mem_cons_self (by decide))
    next =>
      rw [readText, hany, hsafe]
      rfl

/-- **An address in brackets is read as it stands.** -/
theorem hostText_address {groups : Address} (h : groups.Valid) :
    HostText ('[' :: (groups.chars ++ [']'])) := by
  have hchars : ∀ c ∈ groups.chars, isUserSafe c = true ∨ c = ':' := by
    intro c hc
    have hall : ∀ d, d < 16 → isUserSafe (Nat.digitChar d) = true := by decide
    rcases Address.mem_chars hc with ⟨d, hd, rfl⟩ | hcolon
    · exact .inl (hall d hd)
    · exact .inr hcolon
  have hends : ∀ c ∈ groups.chars, TableSql.Uri.endsAuthority c = false :=
    fun c hc => endsAuthority_of_safe_or_colon (hchars c hc)
  have hne : ∀ {c d : Char}, c ∈ groups.chars → isUserSafe d = false → d ≠ ':' → c ≠ d := by
    rintro c d hc hd hcolon rfl
    rcases hchars c hc with hsafe | h
    · exact ne_of_safe hsafe hd rfl
    · exact hcolon h
  refine ⟨List.cons_ne_nil _ _, fun c hc => ?_, fun rest => ?_, ?_⟩
  · simp only [List.mem_cons, List.mem_append, List.not_mem_nil, or_false] at hc
    rcases hc with rfl | hc | rfl
    · decide
    · exact ⟨isControlOrSpace_of_safe_or_colon (hchars c hc), hends c hc,
        hne hc (by decide) (by decide)⟩
    · decide
  · -- the colons of the address are inside the brackets, the one of the port is not
    have hinside : ∀ c ∈ groups.chars, TableSql.Uri.endsAuthority c = false ∧
        (c = ':' → true = true) ∧ c ≠ '[' ∧ c ≠ ']' :=
      fun c hc => ⟨hends c hc, fun _ => rfl, hne hc (by decide) (by decide),
        hne hc (by decide) (by decide)⟩
    rw [List.cons_append, List.append_assoc, splitHost_open, splitHost_append hinside,
      List.singleton_append, splitHost_close, splitHost_colon]
  · have hlast : (groups.chars ++ [']']).getLast? = some ']' := List.getLast?_concat
    rw [readHost.eq_def]
    simp only [readBracketed, hlast, List.dropLast_concat, Address.parse?_chars h]
    rfl

/-- A host as URIs are written: in plain characters, or an address in brackets in the one spelling
that it is written in. -/
inductive WrittenHost : List Char → Prop
  | plain {cs : List Char} (h : PlainHost cs) : WrittenHost cs
  | address {groups : Address} (h : groups.Valid) : WrittenHost ('[' :: (groups.chars ++ [']']))

theorem WrittenHost.hostText (h : WrittenHost cs) : HostText cs := by
  cases h with
  | plain h => exact h.hostText
  | address h => exact hostText_address h

/-- What a host is read as is written like that. -/
theorem writtenHost_of_readHost {name : String} (hne : cs ≠ [])
    (h : readHost .other cs = .ok name) : WrittenHost name.toList := by
  rw [readHost.eq_def] at h
  split at h
  next rest =>
    rw [readBracketed] at h
    split at h
    next =>
      split at h
      next groups hparse =>
        cases h
        rw [String.toList_ofList]
        exact .address (Address.valid_of_parse? hparse)
      next => cases h
    next => cases h
  next =>
    dsimp only at h
    rw [readText] at h
    split at h
    next => cases h
    next hany =>
      cases h
      rw [String.toList_ofList]
      refine .plain ⟨percentEncode_ne_nil hne, fun c hc => ?_⟩
      refine ⟨isSafe_of_mem_percentEncode (by decide) hc, ?_⟩
      rcases mem_percentEncode hc with ⟨hmem, -⟩ | hmark
      · exact Bool.eq_false_iff.mpr fun hbad => hany (List.any_eq_true.mpr ⟨c, hmem, hbad⟩)
      · have hall : encodingChars.any isForbiddenInHost = false := by decide
        exact Bool.eq_false_iff.mpr (List.any_eq_false.mp hall c hmark)

/-! ### Ports -/

/-- A port is read up to the path. -/
theorem readPort_toDigits (hport : port ≤ 65535) (htail : ∀ c, tail.head? = some c → c = '/') :
    readPort (Nat.toDigits 10 port ++ tail) = .ok (some port, tail) := by
  have hhead : ∀ c, tail.head? = some c → c.isDigit = false := by
    intro c hc
    rw [htail c hc]
    rfl
  have hdigits : ∀ c ∈ Nat.toDigits 10 port, c.isDigit = true :=
    fun _ => Text.isDigit_of_mem_toDigits
  have hvalue : (Nat.toDigits 10 port).foldl (fun n c => n * 10 + (c.toNat - '0'.toNat)) 0 = port :=
    Text.foldl_toDigits (by decide) (by decide) port
  rw [readPort, Text.takeWhile_append_of_head? hdigits hhead,
    Text.dropWhile_append_of_head? hdigits hhead, hvalue]
  simp only [if_neg (Nat.not_lt.mpr hport), if_neg Nat.toDigits_ne_nil]
  cases tail with
  | nil => rfl
  | cons c tail =>
    rw [htail c rfl]
    rfl

/-- No port is greater than that of sixteen bits. -/
theorem le_of_readPort {number : Option Nat} (h : readPort cs = .ok (number, rest))
    (hnumber : number = some port) : port ≤ 65535 := by
  have hport : ∀ {digits : List Char} {n : Nat}, ¬ 65535 < n →
      (if digits = [] then none else some n) = number → port ≤ 65535 := by
    intro digits n hle heq
    rw [hnumber] at heq
    split at heq
    next => cases heq
    next =>
      cases heq
      exact Nat.not_lt.mp hle
  rw [readPort] at h
  split at h
  next => cases h
  next hle =>
    split at h
    next => exact hport hle (Prod.mk.inj (Except.ok.inj h)).1
    next =>
      split at h
      next => exact hport hle (Prod.mk.inj (Except.ok.inj h)).1
      next => cases h

/-! ### Paths -/

/-- A path as URIs are written: none, or a settled text behind a slash. -/
inductive WrittenPath : List Char → Prop
  | none : WrittenPath []
  | rooted {cs : List Char} (h : Path.Settled cs) : WrittenPath ('/' :: cs)

namespace WrittenPath

theorem head (h : WrittenPath cs) (hc : cs.head? = some c) : c = '/' := by
  cases h with
  | none => cases hc
  | rooted => exact (Option.some.inj hc).symm

theorem safe (h : WrittenPath cs) (hc : c ∈ cs) : isPathSafe c = true := by
  cases h with
  | none => cases hc
  | rooted h =>
    rcases List.mem_cons.mp hc with rfl | hc
    · decide
    · exact h.safe hc

/-- **A path is read as it stands.** -/
theorem pathText_eq (h : WrittenPath cs) : pathText cs = String.ofList cs := by
  cases h with
  | none => rfl
  | @rooted cs h =>
    have hends : ∀ c ∈ cs, (!endsPath c) = true := by
      intro c hc
      rw [endsPath, decide_eq_false (ne_of_safe (h.safe hc) (by decide)),
        decide_eq_false (ne_of_safe (h.safe hc) (by decide))]
      rfl
    rw [pathText, List.takeWhile_eq_self_iff.mpr hends, Path.chars_ofText h]

end WrittenPath

/-! ### The whole -/

theorem afterSlashes_of_parts {scheme : String} (h : EncodedPair user password)
    (hhost : HostText host) (hport : port ≤ 65535) (htail : ∀ c, tail.head? = some c → c = '/') :
    afterSlashes scheme .other (credentialChars user password ++ '@' ::
        (host ++ ':' :: Nat.toDigits 10 port ++ tail))
      = .ok ⟨scheme, String.ofList user, password.map String.ofList, some (String.ofList host),
          some port, pathText tail⟩ := by
  have hrest : ∀ c ∈ host ++ ':' :: Nat.toDigits 10 port, endsAuthority c = false ∧ c ≠ '@' := by
    intro c hc
    rcases List.mem_append.mp hc with hc | hc
    · exact (hhost.safe c hc).2
    · rcases List.mem_cons.mp hc with rfl | hc
      · decide
      · have hsafe := isUserSafe_of_mem_toDigits hc
        exact ⟨endsAuthority_of_isUserSafe hsafe, ne_of_safe hsafe (by decide)⟩
  have hafter : host ++ ':' :: Nat.toDigits 10 port ++ tail
      = host ++ ':' :: (Nat.toDigits 10 port ++ tail) := by simp
  have hnone : ¬ (host = [] ∧ (SchemeKind.other = .web ∨
      (⟨String.ofList user, password.map String.ofList⟩ : Credentials) ≠ .empty)) :=
    fun h => hhost.ne_nil h.1
  rw [afterSlashes, authority, credentials_append h hrest htail, hafter]
  simp only [bind, Except.bind, hhost.split, hhost.read, if_neg hhost.ne_nil,
    readPort_toDigits hport htail, if_neg hnone]
  rfl

/-- The scheme that the text of a configuration starts with. -/
theorem scheme?_mysql (rest : List Char) :
    scheme? ("mysql:".toList ++ rest) = some ("mysql", rest) := by
  rfl

/-- The text of a URI of the configuration's scheme. -/
def partsChars (user : List Char) (password : Option (List Char)) (host : List Char) (port : Nat)
    (path : List Char) : List Char :=
  "mysql:".toList ++ '/' :: '/' :: (credentialChars user password ++ '@' ::
    (host ++ ':' :: Nat.toDigits 10 port ++ path))

-- stated because an equation derived for the definition evaluates the literal, which is slow
theorem partsChars_eq (user : List Char) (password : Option (List Char)) (host : List Char)
    (port : Nat) (path : List Char) :
    partsChars user password host port path
      = "mysql:".toList ++ '/' :: '/' :: (credentialChars user password ++ '@' ::
          (host ++ ':' :: Nat.toDigits 10 port ++ path)) := rfl

/-- **Parts that are put together are read back.** -/
theorem parse_of_parts (h : EncodedPair user password) (hhost : WrittenHost host)
    (hport : port ≤ 65535) (hpath : WrittenPath path) :
    parse (String.ofList (partsChars user password host port path))
      = .ok ⟨"mysql", String.ofList user, password.map String.ofList, some (String.ofList host),
          some port, String.ofList path⟩ := by
  have hprinting : ∀ c ∈ partsChars user password host port path, isControlOrSpace c = false := by
    have hall : "mysql:".toList.all isPathSafe = true := by decide
    have hscheme : ∀ c ∈ "mysql:".toList, isControlOrSpace c = false :=
      fun c hc => isControlOrSpace_of_isPathSafe (List.all_eq_true.mp hall c hc)
    have hpair : ∀ c ∈ credentialChars user password, isControlOrSpace c = false :=
      fun c hc => isControlOrSpace_of_safe_or_colon (mem_credentialChars h hc)
    have hdigits : ∀ c ∈ Nat.toDigits 10 port, isControlOrSpace c = false :=
      fun c hc => isControlOrSpace_of_safe_or_colon (.inl (isUserSafe_of_mem_toDigits hc))
    have hpath' : ∀ c ∈ path, isControlOrSpace c = false :=
      fun c hc => isControlOrSpace_of_isPathSafe (hpath.safe hc)
    simp only [partsChars_eq, List.forall_mem_append, List.forall_mem_cons]
    exact ⟨hscheme, by decide, by decide, hpair, by decide,
      ⟨fun c hc => (hhost.hostText.safe c hc).1, by decide, hdigits⟩, hpath'⟩
  rw [parse, significant_eq hprinting, partsChars_eq, scheme?_mysql, ← hpath.pathText_eq]
  exact afterSlashes_of_parts h hhost.hostText hport fun _ => hpath.head

/-! ### What is read -/

/-- A text with two slashes after its scheme. -/
def HasAuthority (text : String) : Prop :=
  ∃ scheme after, scheme? (significant text) = some (scheme, '/' :: '/' :: after)

/-- Parts in the form that they are kept in. -/
structure Stable (u : Uri) : Prop where
  user : u.user = "" ∨ Encoded u.user.toList
  password : ∀ password, u.password = some password → Encoded password.toList
  host : ∀ host, u.host = some host → WrittenHost host.toList
  port : ∀ port, u.port = some port → port ≤ 65535
  path : u.path = "" ∨ Path.Settled u.path.toList

theorem pathText_cases (cs : List Char) :
    pathText cs = "" ∨ ∃ ds, pathText cs = String.ofList (Path.ofText ds).chars := by
  rw [pathText.eq_def]
  split
  next => exact .inl rfl
  next => exact .inr ⟨_, rfl⟩
  next =>
    split
    next => exact .inl rfl
    next => exact .inr ⟨_, rfl⟩

theorem ofText_user (cs : List Char) :
    (Credentials.ofText cs).user
      = String.ofList (percentEncode isUserSafe (cs.takeWhile (· != ':'))) := by
  rw [Credentials.ofText]
  split
  next => rfl
  next => split <;> rfl

/-- Credentials in the form that they are kept in. -/
structure Credentials.Stable (who : Credentials) : Prop where
  user : who.user = "" ∨ Encoded who.user.toList
  password : ∀ password, who.password = some password → Encoded password.toList

theorem encoded_percentEncode (hne : cs ≠ []) : Encoded (percentEncode isUserSafe cs) :=
  ⟨percentEncode_ne_nil hne, fun _ => isSafe_of_mem_percentEncode (by decide)⟩

theorem Credentials.stable_empty : Credentials.empty.Stable :=
  ⟨.inl rfl, nofun⟩

theorem Credentials.stable_ofText (cs : List Char) : (Credentials.ofText cs).Stable where
  user := by
    rw [ofText_user, String.toList_ofList]
    by_cases hempty : cs.takeWhile (· != ':') = []
    · rw [hempty]
      exact .inl rfl
    · exact .inr (encoded_percentEncode hempty)
  password password h := by
    rw [Credentials.ofText] at h
    split at h
    next => cases h
    next =>
      split at h
      next => cases h
      next hne =>
        cases h
        rw [String.toList_ofList]
        exact encoded_percentEncode hne

theorem stable_of_credentials {who : Credentials} (h : credentials cs = .ok (who, rest)) :
    who.Stable := by
  rw [credentials] at h
  split at h
  next =>
    cases h
    exact Credentials.stable_empty
  next =>
    split at h
    next =>
      split at h
      next => cases h
      next =>
        cases h
        exact Credentials.stable_empty
    next =>
      cases h
      exact Credentials.stable_ofText _

/-- An authority in the form that it is kept in. -/
structure Authority.Stable (who : Authority) : Prop where
  credentials : who.credentials.Stable
  host : ∀ host, who.host = some host → WrittenHost host.toList
  port : ∀ port, who.port = some port → port ≤ 65535

theorem stable_of_authority {who : Authority} (h : authority .other cs = .ok (who, rest)) :
    who.Stable := by
  rw [authority, Outcome.bind_eq_ok_iff] at h
  obtain ⟨⟨user, afterUser⟩, huser, h⟩ := h
  dsimp only at h
  rw [Outcome.bind_eq_ok_iff] at h
  obtain ⟨name, hname, h⟩ := h
  generalize (splitHost false afterUser).1 = hostChars at hname h
  -- with the port read, what is left is to put the three together
  have hend : ∀ {p : Prop} [Decidable p] {host : Option String} {number : Option Nat}
      {after : List Char}, (∀ name, host = some name → WrittenHost name.toList) →
      (∀ port, number = some port → port ≤ 65535) →
      (if p then .error .emptyHost else .ok (⟨user, host, number⟩, after)
        : Except Fault (Authority × List Char)) = .ok (who, rest) → who.Stable := by
    intro p _ host number after hhost hnumber h
    split at h
    next => cases h
    next =>
      cases h
      exact ⟨stable_of_credentials huser, hhost, hnumber⟩
  split at h
  next =>
    split at h
    next => cases h
    next hne =>
      obtain ⟨⟨number, after⟩, hnumber, h⟩ := Outcome.bind_eq_ok_iff.mp h
      refine hend ?_ (fun port => le_of_readPort hnumber) h
      rintro _ ⟨⟩
      exact writtenHost_of_readHost hne hname
  next =>
    refine hend ?_ (by simp) h
    intro host hhost
    split at hhost
    next => cases hhost
    next hne =>
      cases hhost
      exact writtenHost_of_readHost hne hname

/-- **What is read has the form that it is kept in.** -/
theorem stable_of_afterSlashes {scheme : String} {u : Uri}
    (h : afterSlashes scheme .other cs = .ok u) : Stable u := by
  rw [afterSlashes, Outcome.bind_eq_ok_iff] at h
  obtain ⟨⟨who, rest⟩, hwho, h⟩ := h
  cases h
  have hstable := stable_of_authority hwho
  refine ⟨hstable.credentials.user, hstable.credentials.password, hstable.host, hstable.port, ?_⟩
  rcases pathText_cases rest with hpath | ⟨ds, hpath⟩
  · exact .inl hpath
  · refine .inr ?_
    rw [hpath, String.toList_ofList]
    exact Path.settled_chars_ofText ds

theorem scheme_of_parse {text scheme : String} {u : Uri}
    (hscheme : scheme? (significant text) = some (scheme, rest)) (h : parse text = .ok u) :
    u.scheme = scheme := by
  have hslashes : ∀ {kind : SchemeKind} {cs : List Char},
      afterSlashes scheme kind cs = .ok u → u.scheme = scheme := by
    intro kind cs h
    obtain ⟨_, -, h⟩ := Outcome.bind_eq_ok_iff.mp h
    cases h
    rfl
  have hwithout : ∀ {path : String},
      (.ok (withoutAuthority scheme path) : Except Fault Uri) = .ok u → u.scheme = scheme := by
    intro path h
    cases h
    rfl
  rw [parse, hscheme] at h
  dsimp only at h
  split at h
  next =>
    rw [ofFileText.eq_def] at h
    split at h
    next =>
      dsimp only at h
      split at h
      next => exact hwithout h
      next =>
        split at h
        next => exact hwithout h
        next =>
          split at h
          next =>
            cases h
            rfl
          next => cases h
    next => exact hwithout h
  next => exact hslashes h
  next =>
    split at h
    next => exact hslashes h
    next => exact hwithout h
    next => exact hwithout h

/-- **What is read of a text with an authority has the form that it is kept in**, where the scheme
is one of a connection. -/
theorem stable_of_parse {text : String} {u : Uri} (htext : HasAuthority text)
    (hname : u.scheme = "mysql" ∨ u.scheme = "mysqlx") (h : parse text = .ok u) : Stable u := by
  obtain ⟨scheme, after, hscheme⟩ := htext
  rw [scheme_of_parse hscheme h] at hname
  have hkind : SchemeKind.ofName scheme = .other := by
    rcases hname with rfl | rfl <;> rfl
  rw [parse, hscheme] at h
  simp only [hkind] at h
  exact stable_of_afterSlashes h

/-! ### Any parser -/

/-- **What is asked of a parser of URIs**, where a connection is concerned: what is written in the
form that parts are kept in is handed out as it stands, and what is handed out of a text with an
authority has that form. -/
structure Reads (parse : String → Except Fault Uri) : Prop where
  of_parts : ∀ {user : List Char} {password : Option (List Char)} {host : List Char} {port : Nat}
    {path : List Char}, EncodedPair user password → WrittenHost host → port ≤ 65535 →
    WrittenPath path → parse (String.ofList (partsChars user password host port path)) =
      .ok ⟨"mysql", String.ofList user, password.map String.ofList, some (String.ofList host),
        some port, String.ofList path⟩
  stable : ∀ {text : String} {u : Uri}, HasAuthority text →
    u.scheme = "mysql" ∨ u.scheme = "mysqlx" → parse text = .ok u → u.Stable

/-- **The parser is like that.** -/
theorem reads_parse : Reads parse where
  of_parts := parse_of_parts
  stable := stable_of_parse

end TableSql.Uri
