import TableSql.Proofs.Json.Tokens
import TableSql.Proofs.Members

/-!
# Trees of printed text

A tree has tokens, and the machine that builds trees builds it from them again: in front of any
other tokens it comes to where it would be if the tree had been handed to it. Printed JSON is made
of the tokens of one tree, from which the value is read again as long as it is not nested too
deeply.

## Main definitions

* `Json.Node.tokens` — the tokens of a tree
* `Json.Exact` — a value without floating-point numbers, with its members in key order
* `Json.node`, `Json.depth` — the tree of a value, and how deeply it is nested

## Main results

* `Json.Node.run_tokens` — a tree is built from its tokens
* `Json.Exact.spells` — the tokens of printed text
* `Json.Exact.toJson?_node` — a value is read from its tree
-/

namespace TableSql.Json

/-! ### Trees and their tokens -/

namespace Node

mutual

/-- The tokens of a tree. -/
def tokens : Node → List Token
  | .null => [.null]
  | .bool b => [.bool b]
  | .number n => [.number n]
  | .string parts => [.string parts]
  | .array elements => .openArray :: (elementTokens elements ++ [.closeArray])
  | .object members => .openObject :: (memberTokens members ++ [.closeObject])

/-- Elements with commas between them. -/
def elementTokens : List Node → List Token
  | [] => []
  | [x] => tokens x
  | x :: y :: rest => tokens x ++ .comma :: elementTokens (y :: rest)

/-- Members with commas between them. -/
def memberTokens : List (List StringPart × Node) → List Token
  | [] => []
  | [(k, x)] => .string k :: .colon :: tokens x
  | (k, x) :: m :: rest => .string k :: .colon :: (tokens x ++ .comma :: memberTokens (m :: rest))

end

/-- The first element of an array is read as any other. -/
theorem run_firstElement (x : Node) (xs : List Node) (stack : List Frame) (rest : List Token) :
    (State.firstElement stack).run (elementTokens (x :: xs) ++ rest) =
      (State.value (.array [] :: stack)).run (elementTokens (x :: xs) ++ rest) := by
  cases xs <;> cases x <;> simp [elementTokens, tokens, State.run, State.step]

/-- The first key of an object is read as any other. -/
theorem run_firstKey (m : List StringPart × Node) (ms : List (List StringPart × Node))
    (stack : List Frame) (rest : List Token) :
    (State.firstKey stack).run (memberTokens (m :: ms) ++ rest) =
      (State.key [] stack).run (memberTokens (m :: ms) ++ rest) := by
  cases ms <;> simp [memberTokens, State.run, State.step]

mutual

/-- **A tree is built from its tokens**, whatever comes behind them. -/
theorem run_tokens : ∀ (x : Node) (stack : List Frame) (rest : List Token),
    (State.value stack).run (x.tokens ++ rest) = (State.deliver x stack).run rest
  | .null, _, _ => rfl
  | .bool _, _, _ => rfl
  | .number _, _, _ => rfl
  | .string _, _, _ => rfl
  | .array [], _, _ => rfl
  | .array (x :: xs), stack, rest => by
    have helements := run_elementTokens x xs [] stack rest
    rw [← run_firstElement] at helements
    simpa [tokens, State.run, State.step, State.startValue] using helements
  | .object [], _, _ => rfl
  | .object (m :: ms), stack, rest => by
    have hmembers := run_memberTokens m ms [] stack rest
    rw [← run_firstKey] at hmembers
    simpa [tokens, State.run, State.step, State.startValue] using hmembers
termination_by x => sizeOf x

/-- The elements of an array that has some already. -/
theorem run_elementTokens : ∀ (x : Node) (xs before : List Node) (stack : List Frame)
    (rest : List Token),
    (State.value (.array before :: stack)).run (elementTokens (x :: xs) ++ .closeArray :: rest) =
      (State.deliver (.array (before.reverse ++ x :: xs)) stack).run rest
  | x, [], before, stack, rest => by
    rw [elementTokens, run_tokens x]
    simp [State.deliver, State.run, State.step]
  | x, y :: ys, before, stack, rest => by
    have htail := run_elementTokens y ys (x :: before) stack rest
    rw [elementTokens, List.append_assoc, run_tokens x]
    simpa [State.deliver, State.run, State.step] using htail
termination_by x xs => sizeOf (x :: xs)

/-- The members of an object that has some already. -/
theorem run_memberTokens : ∀ (m : List StringPart × Node)
    (ms before : List (List StringPart × Node))
    (stack : List Frame) (rest : List Token),
    (State.key before stack).run (memberTokens (m :: ms) ++ .closeObject :: rest) =
      (State.deliver (.object (before.reverse ++ m :: ms)) stack).run rest
  | (k, x), [], before, stack, rest => by
    have hvalue := run_tokens x (.object before k :: stack) (.closeObject :: rest)
    simpa [memberTokens, State.deliver, State.run, State.step] using hvalue
  | (k, x), m :: ms, before, stack, rest => by
    have htail := run_memberTokens m ms ((k, x) :: before) stack rest
    have hvalue := run_tokens x (.object before k :: stack)
      (.comma :: (memberTokens (m :: ms) ++ .closeObject :: rest))
    simp only [memberTokens, List.cons_append, List.append_assoc, State.run, State.step,
      Option.bind_some]
    rw [hvalue]
    simpa [State.deliver, State.run, State.step] using htail
termination_by m ms => sizeOf (m :: ms)

end

theorem ofTokens?_tokens (x : Node) : ofTokens? x.tokens = some x := by
  have hrun := run_tokens x [] []
  rw [List.append_nil] at hrun
  rw [ofTokens?, hrun]
  rfl

end Node

/-! ### Values and their trees -/

/-- A value without floating-point numbers whose members stand in key order. -/
inductive Exact : Json → Prop where
  | null : Exact .null
  | bool (b : Bool) : Exact (.bool b)
  | integer (n : Integer) : Exact (.integer n)
  | string (s : String) : Exact (.string s)
  | array {elements : List Json} (h : ∀ x ∈ elements, Exact x) : Exact (.array elements)
  | object {members : List (String × Json)} (hordered : Members.Ordered members)
      (h : ∀ m ∈ members, Exact m.2) : Exact (.object members)

mutual

/-- The tree of a value. None of a floating-point number is asked for. -/
def node : Json → Node
  | .null => .null
  | .bool b => .bool b
  | .integer n => .number (.ofInt n.val)
  | .float _ => .null
  | .string s => .string (s.toList.map .ofChar)
  | .array elements => .array (elementNodes elements)
  | .object members => .object (memberNodes members)

/-- The trees of elements. -/
def elementNodes : List Json → List Node
  | [] => []
  | x :: rest => node x :: elementNodes rest

/-- The keys and trees of members. -/
def memberNodes : List (String × Json) → List (List StringPart × Node)
  | [] => []
  | (k, x) :: rest => (k.toList.map .ofChar, node x) :: memberNodes rest

end

mutual

/-- How many arrays and objects stand inside each other. -/
def depth : Json → Nat
  | .array elements => elementDepth elements + 1
  | .object members => memberDepth members + 1
  | _ => 0

/-- The greatest depth of elements. -/
def elementDepth : List Json → Nat
  | [] => 0
  | x :: rest => max (depth x) (elementDepth rest)

/-- The greatest depth of members. -/
def memberDepth : List (String × Json) → Nat
  | [] => 0
  | (_, x) :: rest => max (depth x) (memberDepth rest)

end

/-! ### Printed values -/

section Spells

variable {rest : List Char}

theorem spells_elements {elements : List Json}
    (h : ∀ x ∈ elements, ∀ rest, Closes rest → Spells x.chars x.node.tokens rest)
    (hrest : Closes rest) :
    Spells (elementChars elements) (Node.elementTokens (elementNodes elements)) rest := by
  induction elements with
  | nil => exact spells_nil rest
  | cons x elements ih =>
    obtain ⟨hx, helements⟩ := List.forall_mem_cons.mp h
    cases elements with
    | nil => exact hx rest hrest
    | cons y elements =>
      have htail := (ih helements).cons mark_comma
      exact (hx _ (closes_cons (.inl rfl))).append htail

theorem spells_members {members : List (String × Json)}
    (h : ∀ m ∈ members, ∀ rest, Closes rest → Spells m.2.chars m.2.node.tokens rest)
    (hrest : Closes rest) :
    Spells (memberChars members) (Node.memberTokens (memberNodes members)) rest := by
  induction members with
  | nil => exact spells_nil rest
  | cons m members ih =>
    obtain ⟨k, x⟩ := m
    obtain ⟨hx, hmembers⟩ := List.forall_mem_cons.mp h
    cases members with
    | nil =>
      have hvalue := (hx rest hrest).cons mark_colon
      exact (spells_string k _).append hvalue
    | cons m members =>
      have htail := (ih hmembers).cons mark_comma
      have hvalue := ((hx _ (closes_cons (.inl rfl))).append htail).cons mark_colon
      exact (spells_string k _).append hvalue

/-- **Printed JSON is made of the tokens of its tree.** -/
theorem Exact.spells {j : Json} (hj : j.Exact) :
    ∀ rest, Closes rest → Spells j.chars j.node.tokens rest := by
  induction hj with
  | null => exact fun rest _ => spells_of_token? (by decide) rfl
  | bool b => cases b <;> exact fun rest _ => spells_of_token? (by decide) rfl
  | integer n => exact fun rest hrest => spells_integer n.val hrest
  | string s => exact fun rest _ => spells_string s rest
  | array _ ih =>
    intro rest _
    have hclose := (spells_nil rest).cons mark_closeArray
    have helements := spells_elements ih (closes_cons (.inr (.inl rfl)) : Closes (']' :: rest))
    exact (helements.append hclose).cons mark_openArray
  | object _ _ ih =>
    intro rest _
    have hclose := (spells_nil rest).cons mark_closeObject
    have hmembers := spells_members ih (closes_cons (.inr (.inr rfl)) : Closes ('\x7d' :: rest))
    exact (hmembers.append hclose).cons mark_openObject

end Spells

/-! ### Values that are read -/

section Read

theorem toElements?_elementNodes {elements : List Json} (depth : Nat)
    (h : ∀ x ∈ elements, x.node.toJson? depth = if x.depth ≤ depth then some x else none) :
    Node.toElements? depth (elementNodes elements) =
      if elementDepth elements ≤ depth then some elements else none := by
  induction elements with
  | nil => simp [elementNodes, Node.toElements?, elementDepth]
  | cons x elements ih =>
    obtain ⟨hx, helements⟩ := List.forall_mem_cons.mp h
    simp only [elementNodes, Node.toElements?, elementDepth, hx, ih helements, Nat.max_le]
    by_cases h1 : x.depth ≤ depth <;> by_cases h2 : elementDepth elements ≤ depth <;> simp [h1, h2]

theorem toMembers?_memberNodes {members : List (String × Json)} (depth : Nat)
    (h : ∀ m ∈ members, m.2.node.toJson? depth = if m.2.depth ≤ depth then some m.2 else none) :
    Node.toMembers? depth (memberNodes members) =
      if memberDepth members ≤ depth then some members else none := by
  induction members with
  | nil => simp [memberNodes, Node.toMembers?, memberDepth]
  | cons m members ih =>
    obtain ⟨k, x⟩ := m
    obtain ⟨hx, hmembers⟩ := List.forall_mem_cons.mp h
    simp only [memberNodes, Node.toMembers?, memberDepth, hx, ih hmembers, Nat.max_le,
      decodeString?_ofChar]
    by_cases h1 : x.depth ≤ depth <;> by_cases h2 : memberDepth members ≤ depth <;> simp [h1, h2]

/-- **A value is read from its tree** unless it is nested more deeply than what is asked for. -/
theorem Exact.toJson?_node {j : Json} (hj : j.Exact) :
    ∀ depth, j.node.toJson? depth = if j.depth ≤ depth then some j else none := by
  induction hj with
  | null => exact fun _ => rfl
  | bool b => exact fun _ => rfl
  | integer n =>
    intro depth
    simp [node, Json.depth, Node.toJson?, NumberLiteral.value?_ofInt]
  | string s =>
    intro depth
    simp [node, Json.depth, Node.toJson?, decodeString?_ofChar]
  | @array elements _ ih =>
    intro depth
    cases depth with
    | zero => simp [node, Json.depth, Node.toJson?]
    | succ depth =>
      have helements := toElements?_elementNodes depth fun x hx => ih x hx depth
      simp [node, Json.depth, Node.toJson?, helements]
  | @object members hordered _ ih =>
    intro depth
    cases depth with
    | zero => simp [node, Json.depth, Node.toJson?]
    | succ depth =>
      have hmembers := toMembers?_memberNodes depth fun m hm => ih m hm depth
      have hsame : ofMembers members = .object members :=
        congrArg Json.object (Members.ofList_of_perm hordered (List.Perm.refl members))
      simp [node, Json.depth, Node.toJson?, hmembers]
      split
      · exact congrArg some hsame
      · rfl

theorem tokens?_of_spells {cs : List Char} {ts : List Token} (h : Spells cs ts []) :
    tokens? cs = some ts := by
  have hnil : tokens? [] = some [] := by
    rw [tokens?]
    rfl
  rw [Spells, List.append_nil, hnil] at h
  simpa using h

theorem Node.parse?_of_spells {cs : List Char} {x : Node} (h : Spells cs x.tokens []) :
    Node.parse? (String.ofList cs) = some x := by
  rw [Node.parse?, String.toList_ofList, tokens?_of_spells h]
  exact x.ofTokens?_tokens

end Read

end TableSql.Json
