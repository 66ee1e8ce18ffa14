import TableSql.Proofs.Fragment.Rendering
import TableSql.Proofs.Fragment.Supply
import TableSql.Proofs.Sql.Bare

/-!
# Rendering is substitution

The placeholders of a template tile its text together with the pieces between them. A rendering has
the same pieces, with a marker or an expression in parentheses for each placeholder. No piece holds
a placeholder, nothing that is written does, and where the two meet none can arise. So the rendered
text, scanned again, has no placeholder. And since the pieces are kept byte by byte, writing the
placeholders where the markers stand gives the text back.

## Main definitions

* `Template.pieces` — the text between the placeholders
* `Template.Substituted` — what a rendering should be

## Main results

* `Template.bare_pieces` — no piece holds a placeholder
* `Template.render_substitutes` — a rendering is exact substitution
-/

namespace TableSql

/-! ### Pieces -/

namespace Template

/-- The text from byte `cursor` on, without the spans of the placeholders. -/
def piecesFrom (text : String) : (cursor : Nat) → List Sql.Placeholder → List String
  | cursor, [] => [Text.sliceFrom text cursor]
  | cursor, p :: rest => Text.slice text cursor p.start :: piecesFrom text p.stop rest

/-- The text before, between and behind the placeholders. -/
def pieces (t : Template) : List String :=
  piecesFrom t.text 0 t.placeholders

theorem length_piecesFrom (text : String) (cursor : Nat) (ps : List Sql.Placeholder) :
    (piecesFrom text cursor ps).length = ps.length + 1 := by
  induction ps generalizing cursor with
  | nil => rfl
  | cons p rest ih => rw [piecesFrom, List.length_cons, ih, List.length_cons]

theorem sql_fillFrom (write : String → Fragment) (text : String) (cursor : Nat)
    (ps : List Sql.Placeholder) :
    (fillFrom write text cursor ps).sql =
      Text.weave (piecesFrom text cursor ps) (ps.map fun p => (write p.name).sql) := by
  induction ps generalizing cursor with
  | nil => rfl
  | cons p rest ih =>
    rw [fillFrom, Fragment.sql_append, Fragment.sql_append, Fragment.sql_ofText, ih, piecesFrom,
      List.map_cons, Text.weave, String.append_assoc]

/-- A template that is filled in has the pieces of its text. -/
theorem sql_fill (write : String → Fragment) (t : Template) :
    (t.fill write).sql = Text.weave t.pieces (t.names.map fun name => (write name).sql) := by
  rw [fill, sql_fillFrom, names, List.map_map]
  rfl

/-- The placeholders and the pieces tile the text. -/
theorem weave_placeholders (t : Template) :
    Text.weave t.pieces (t.names.map fun name => ":" ++ name) = t.text := by
  have hfill := congrArg Fragment.sql t.fill_placeholders
  rwa [sql_fill] at hfill

theorem bare_piecesFrom {text : String} {pos : Nat} {bs : List UInt8} {ps : List Sql.Placeholder}
    (hcut : Sql.Cut pos bs ps) (hcovers : Sql.Covers pos bs ps) {cs : List Char}
    (hahead : Text.Ahead text pos cs) (hbs : Text.encode cs = bs) :
    ∀ piece ∈ piecesFrom text pos ps, Sql.Bare piece := by
  induction hcut generalizing cs with
  | rest hclosed =>
    rw [piecesFrom, hahead.sliceFrom_eq, List.forall_mem_singleton, Sql.bare_iff, Sql.Closed,
      Text.bytes_ofList, hbs]
    exact ⟨hclosed, fun p hp => absurd (hcovers p hp) List.not_mem_nil⟩
  | @placeholder pos piece name bs ps hclosed _ hname hothers ih =>
    obtain ⟨ds, ns, es, rfl, hds, -, hes, hslice, hbehind⟩ :=
      Sql.exists_ahead_of_placeholder hahead hbs hname
    have hnone : ∀ p, p ∉ Sql.colons piece := by
      refine hcovers.before (Nat.le_refl _) fun q hq => ?_
      exact Nat.le_trans (by simp only; omega) (hothers.le_start q hq)
    refine List.forall_mem_cons.mpr ⟨?_, ih (hcovers.behind hclosed hname rfl) hbehind hes⟩
    rw [hslice, Sql.bare_iff, Sql.Closed, Text.bytes_ofList, hds]
    exact ⟨hclosed, hnone⟩

/-- **No piece holds a placeholder.** -/
theorem bare_pieces (t : Template) : ∀ piece ∈ t.pieces, Sql.Bare piece :=
  bare_piecesFrom (Sql.cut_of_placeholders? t.scanned) (Sql.covers_of_placeholders? t.scanned)
    (Text.ahead_zero t.text) rfl

end Template

/-! ### What is written -/

namespace Bindings

variable {b : Bindings} {name : String}

/-- What is written for a name makes no placeholder, whatever stands around it. -/
theorem inert_written (hbound : b.get? name ≠ none) (hready : b.Ready name) :
    Sql.Inert (b.written name).sql := by
  rw [written]
  cases hget : b.get? name with
  | none => exact absurd hget hbound
  | some v =>
    cases v with
    | expression sql => exact Sql.Bare.inert_parenthesize (hready sql hget)
    | _ => exact Sql.inert_marker

/-- A literal is written as a marker. -/
theorem sql_written_of_literal {v : Value} (hget : b.get? name = some v)
    (hliteral : v.isExpression = false) : (b.written name).sql = "?" := by
  rw [written, hget]
  cases v with
  | expression sql => cases hliteral
  | _ => rfl

/-- The literals that are bound to names are the values of the names but the expressions. -/
theorem values_supplied (b : Bindings) (names : List String) :
    (b.supplied names).map Prod.snd = (names.filterMap b.get?).filter (!·.isExpression) := by
  induction names with
  | nil => rfl
  | cons name names ih =>
    rw [supplied] at ih ⊢
    rw [List.filterMap_cons, List.filterMap_cons, supplied?]
    cases b.get? name with
    | none => exact ih
    | some v => cases hv : v.isExpression <;> simp [hv, ih]

end Bindings

/-! ### The rendering -/

/-- **A rendering of a template.** -/
structure Template.Substituted (t : Template) (b : Bindings) (f : Fragment) : Prop where
  /-- The pieces and the placeholders between them are the whole text. -/
  tiles : t.pieces.length = t.names.length + 1 ∧
    Text.weave t.pieces (t.names.map fun name => ":" ++ name) = t.text
  /-- Each placeholder is replaced, by a marker or by an expression in parentheses, and nothing
  else. -/
  sql : f.sql = Text.weave t.pieces (t.names.map fun name => (b.written name).sql)
  /-- The values are the literals of the placeholders, one for each occurrence. -/
  params : f.params = (t.names.filterMap b.get?).filter (!·.isExpression)
  /-- Scanned again, the text holds no placeholder. -/
  bare : ∃ u, Template.scan f.sql = .ok u ∧ u.placeholders = []
  /-- With nothing but literals, the placeholders put where the markers stand restore the text. -/
  restores : (∀ name ∈ t.names, ∀ v, b.get? name = some v → v.isExpression = false) →
    f.sql = Text.weave t.pieces (t.names.map fun _ => "?") ∧
    Text.replaceSpans f.sql (Text.fillerSpans 0 t.pieces (t.names.map fun _ => "?"))
      (t.names.map fun name => ":" ++ name) = t.text

namespace Template

variable {t : Template} {b : Bindings}

/-- Names that are bound to literals are all written as markers. -/
theorem map_written_of_literals (hbound : ∀ name ∈ t.names, b.get? name ≠ none)
    (hliteral : ∀ name ∈ t.names, ∀ v, b.get? name = some v → v.isExpression = false) :
    (t.names.map fun name => (b.written name).sql) = t.names.map fun _ => "?" := by
  refine List.map_congr_left fun name hname => ?_
  obtain ⟨v, hv⟩ := Option.ne_none_iff_exists'.mp (hbound name hname)
  exact Bindings.sql_written_of_literal hv (hliteral name hname v hv)

theorem exists_scan_of_bare {text : String} (h : Sql.Bare text) :
    ∃ u, scan text = .ok u ∧ u.placeholders = [] := by
  have hscan := scan_text ⟨text, [], h⟩
  exact ⟨_, hscan, rfl⟩

theorem bare_weave (hbound : ∀ name ∈ t.names, b.get? name ≠ none)
    (hready : ∀ name ∈ t.names, b.Ready name) :
    Sql.Bare (Text.weave t.pieces (t.names.map fun name => (b.written name).sql)) := by
  refine Sql.Bare.weave t.bare_pieces fun filler hfiller => ?_
  obtain ⟨name, hname, rfl⟩ := List.mem_map.mp hfiller
  exact Bindings.inert_written (hbound name hname) (hready name hname)

/-- **Rendering is exact substitution and leaves no placeholder behind**, for every text that scans
and all bindings that bind each of its placeholders to a literal or to an expression without open
quotes and placeholders. -/
theorem render_substitutes (context : String) (t : Template) (b : Bindings)
    (hbound : ∀ name ∈ t.names, b.get? name ≠ none) (hready : ∀ name ∈ t.names, b.Ready name) :
    ∃ f, t.render context b = .ok f ∧ t.Substituted b f := by
  obtain ⟨f, hf⟩ := ((renders_render context b t).exists_eq_ok_iff hbound).mpr hready
  have hsql : f.sql = Text.weave t.pieces (t.names.map fun name => (b.written name).sql) := by
    rw [fill_of_render hf, sql_fill]
  refine ⟨f, hf, ⟨?_, t.weave_placeholders⟩, hsql, ?_, ?_, fun hliteral => ?_⟩
  · rw [pieces, length_piecesFrom, names, List.length_map]
  · rw [params_render hf, Bindings.values_supplied]
  · rw [hsql]
    exact exists_scan_of_bare (bare_weave hbound hready)
  · rw [map_written_of_literals hbound hliteral] at hsql
    refine ⟨hsql, ?_⟩
    rw [hsql, Text.replaceSpans_weave t.pieces (by simp)]
    exact t.weave_placeholders

/-- Colons before and behind placeholders, one in quotes, a name that stands three times, and an
expression that ends with a colon; and the same text with literals only. -/
theorem render_substitutes_of_colons :
    ∃ t : Template, t.text = "a = :x AND b::x = ':x' OR :y=:x:" ∧
      (∃ b f, (∀ name ∈ t.names, b.get? name ≠ none) ∧ (∀ name ∈ t.names, b.Ready name) ∧
        t.render "TableSelect.where" b = .ok f ∧
        f.sql = "a = ? AND b:? = ':x' OR (d:)=?:" ∧
        f.params = [.bigint 1, .bigint 1, .bigint 1] ∧
        ∃ u, scan f.sql = .ok u ∧ u.placeholders = []) ∧
      ∃ b f, t.render "TableSelect.where" b = .ok f ∧ f.sql = "a = ? AND b:? = ':x' OR ?=?:" ∧
        Text.replaceSpans f.sql [(4, 5), (12, 13), (24, 25), (26, 27)] [":x", ":x", ":y", ":x"] =
          t.text := by
  let t : Template := ⟨"a = :x AND b::x = ':x' OR :y=:x:",
    [⟨"x", 4, 6⟩, ⟨"x", 13, 15⟩, ⟨"y", 26, 28⟩, ⟨"x", 29, 31⟩], by decide +kernel⟩
  let b : Bindings := ⟨["x", "y"], [("x", .bigint 1), ("y", .expression "d:")]⟩
  let c : Bindings := ⟨["x", "y"], [("x", .bigint 1), ("y", .null)]⟩
  have hbound : ∀ name ∈ t.names, b.get? name ≠ none := by
    simp [t, b, names, Bindings.get?, Members.get?]
  have hready : ∀ name ∈ t.names, b.Ready name := by
    have hexpression : Sql.placeholders? "d:" = .ok [] := by decide +kernel
    simp [t, b, names, Bindings.Ready, Bindings.get?, Members.get?, hexpression]
  have hliteral : ∀ name ∈ t.names, ∀ v, c.get? name = some v → v.isExpression = false := by
    simp [t, c, names, Bindings.get?, Members.get?, Value.isExpression]
  obtain ⟨f, hf, hs⟩ := render_substitutes "TableSelect.where" t b hbound hready
  obtain ⟨g, hg, hr⟩ := render_substitutes "TableSelect.where" t c
    (by simp [t, c, names, Bindings.get?, Members.get?])
    (by simp [t, c, names, Bindings.Ready, Bindings.get?, Members.get?])
  obtain ⟨hmarkers, hrestored⟩ := hr.restores hliteral
  have hspans : Text.fillerSpans 0 t.pieces (t.names.map fun _ => "?") =
      [(4, 5), (12, 13), (24, 25), (26, 27)] := by decide +kernel
  have hnames : t.names.map (fun name => ":" ++ name) = [":x", ":x", ":y", ":x"] := by
    decide +kernel
  rw [hspans, hnames] at hrestored
  refine ⟨t, rfl, ⟨b, f, hbound, hready, hf, ?_, hs.params, hs.bare⟩, c, g, hg, ?_, ?_⟩
  · rw [hs.sql]
    decide +kernel
  · rw [hmarkers]
    decide +kernel
  · exact hrestored

end Template

end TableSql
