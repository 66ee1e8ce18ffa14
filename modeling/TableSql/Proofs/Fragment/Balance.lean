import TableSql.Proofs.Fragment.Values
import TableSql.Proofs.Sql.Markers
import TableSql.Statement.Clause

/-!
# Markers and values of fragments

A fragment brings its own values: each literal becomes one marker and one value. Any other marker
is a `?` that somebody wrote in a text that was taken over as it is. So the markers of a fragment
are its values and the markers of those texts, which is what `Fragment.Balanced` counts.

## Main definitions

* `Fragment.Balanced` — a closed fragment with a number of markers beyond its values
* `Bindings.inlined`, `Template.inlined`, `Value.inlined` — the texts that a rendering takes over,
  with those of bound expressions once for each occurrence of their placeholder

## Main results

* `Fragment.Balanced.append`, `Fragment.balanced_join` — joined fragments
* `Template.balanced_render`, `Value.balanced_render` — what is rendered is balanced
-/

namespace TableSql

open Sql (Closed countMarkers? markers Mode)

/-! ### Texts taken over -/

/-- The texts of the expressions that are bound to names, in the order of the names. -/
def Bindings.inlined (b : Bindings) (names : List String) : List String :=
  names.filterMap fun name => (b.get? name).bind Value.sql?

/-- The texts that a rendering of a template takes over. -/
def Template.inlined (b : Bindings) (t : Template) : List String :=
  t.text :: b.inlined t.names

/-- The texts that a rendering of a column value takes over. -/
def Value.inlined (b : Bindings) (v : Value) : List String :=
  v.sql?.toList.flatMap fun sql => sql :: b.inlined (Sql.names sql)

theorem Bindings.inlined_cons (b : Bindings) (name : String) (names : List String) :
    b.inlined (name :: names) = b.inlined [name] ++ b.inlined names := by
  simp only [Bindings.inlined, List.filterMap_cons, List.filterMap_nil]
  split <;> rfl

theorem sum_map_flatMap {α β : Type} (f : α → List β) (g : β → Nat) (xs : List α) :
    ((xs.flatMap f).map g).sum = (xs.map fun x => ((f x).map g).sum).sum := by
  induction xs with
  | nil => rfl
  | cons x xs ih => simp [ih]

namespace Fragment

/-! ### Balance -/

/-- The text is closed, and has a marker for each value and `q` more. -/
def Balanced (f : Fragment) (q : Nat) : Prop :=
  countMarkers? f.sql = .ok (f.params.length + q)

variable {f g : Fragment} {q r : Nat}

theorem balanced_ofText {text : String} (h : countMarkers? text = .ok q) :
    (ofText text).Balanced q := by
  rw [Balanced, sql_ofText, params_ofText, List.length_nil, Nat.zero_add]
  exact h

theorem balanced_empty : empty.Balanced 0 :=
  balanced_ofText (show countMarkers? "" = .ok 0 from rfl)

theorem balanced_marker (v : Value) : (marker v).Balanced 0 :=
  show countMarkers? "?" = .ok 1 from rfl

theorem Balanced.append (hf : f.Balanced q) (hg : g.Balanced r) : (f ++ g).Balanced (q + r) := by
  have h := Sql.countMarkers?_append hf hg
  rw [Balanced, sql_append, params_append, List.length_append, h]
  congr 1
  omega

theorem Balanced.parenthesize (hf : f.Balanced q) : f.parenthesize.Balanced q := by
  have hopen : (ofText "(").Balanced 0 := balanced_ofText rfl
  have hclose : (ofText ")").Balanced 0 := balanced_ofText rfl
  have h := (hopen.append hf).append hclose
  rwa [Nat.zero_add] at h

/-- Fragments joined by a separator without markers. -/
theorem balanced_join {α : Type} {separator : String} (hsep : countMarkers? separator = .ok 0)
    {extra : α → Nat} {xs : List α} {fs : List Fragment}
    (h : List.Forall₂ (fun x f => f.Balanced (extra x)) xs fs) :
    (join separator fs).Balanced (xs.map extra).sum := by
  induction h with
  | nil => exact balanced_empty
  | @cons x f xs fs hf hrest ih =>
    rw [List.map_cons, List.sum_cons]
    cases hrest with
    | nil => simpa [join] using hf
    | cons hg hrest =>
      rw [join_cons_cons]
      exact (hf.append (balanced_ofText hsep)).append ih

end Fragment

/-! ### Placeholders -/

theorem Bindings.balanced_render {b : Bindings} {context name : String} {f : Fragment}
    (h : b.render context name = .ok f) : f.Balanced ((b.inlined [name]).map markers).sum := by
  rw [Bindings.render] at h
  cases hget : b.get? name with
  | none => simp [hget] at h
  | some v =>
    have hinlined : b.inlined [name] = (v.sql?).toList := by
      rw [Bindings.inlined, List.filterMap_cons, hget]
      cases hsql : v.sql? <;> simp [hsql]
    rw [hinlined]
    simp only [hget] at h
    cases v with
    | expression sql =>
      simp only at h
      split at h
      next => cases h
      next inner hinner =>
        split at h
        next =>
          cases h
          have hclosed : Closed sql :=
            Sql.closed_of_placeholders? (Template.placeholders_of_ofText hinner)
          have hbal := (Fragment.balanced_ofText (Sql.countMarkers?_of_closed hclosed)).parenthesize
          simpa [Value.sql?] using hbal
        next => cases h
    | _ =>
      cases h
      exact Fragment.balanced_marker _

namespace Template

/-- **Rendering keeps the balance.** The pieces between the placeholders are closed, and so each
is read in its new surroundings as it was read in the template. -/
theorem balanced_renderFrom {context text : String} {b : Bindings} {pos : Nat} {bs : List UInt8}
    {ps : List Sql.Placeholder} (hcut : Sql.Cut pos bs ps) {as cs : List Char} {f : Fragment}
    (htext : text.toList = as ++ cs) (hpos : (Text.encode as).length = pos)
    (hbs : Text.encode cs = bs) (h : renderFrom context b text pos ps = .ok f) :
    f.Balanced
      (Mode.markers .outside bs + ((b.inlined (ps.map Sql.Placeholder.name)).map markers).sum) := by
  induction hcut generalizing as cs f with
  | rest hclosed =>
    cases h
    subst hbs hpos
    rw [Text.sliceFrom_append htext]
    refine Fragment.balanced_ofText (Sql.countMarkers?_eq_ok_iff.mpr ⟨?_, ?_⟩)
    · rw [Closed, Text.bytes_ofList, hclosed]
    · rw [markers, Text.bytes_ofList]
      rfl
  | @placeholder pos piece name bs ps hclosed hne hname hrest ih =>
    obtain ⟨ds, ns, es, rfl, rfl, hns, rfl⟩ := Sql.exists_text_of_placeholder hbs hname
    rw [renderFrom] at h
    obtain ⟨value, hvalue, h⟩ := Outcome.bind_eq_ok_iff.mp h
    obtain ⟨others, hothers, h⟩ := Outcome.bind_eq_ok_iff.mp h
    cases h
    have hpiece : (Fragment.ofText (String.ofList ds)).Balanced
        (Mode.markers .outside (Text.encode ds)) := by
      refine Fragment.balanced_ofText (Sql.countMarkers?_eq_ok_iff.mpr ⟨?_, ?_⟩)
      · rw [Closed, Text.bytes_ofList, hclosed]
      · rw [markers, Text.bytes_ofList]
    -- the next piece stands behind this one and its placeholder
    have hnext : (Text.encode (as ++ (ds ++ ns))).length =
        pos + (Text.encode ds).length + 1 + name.length := by
      rw [Text.encode_append, Text.encode_append, hns, ← hpos]
      simp only [List.length_append, List.length_cons]
      omega
    have hrest := ih (htext.trans (by simp)) hnext rfl hothers
    have hslice : Text.slice text pos (pos + (Text.encode ds).length) = String.ofList ds := by
      rw [← hpos]
      exact Text.slice_append htext
    have hmarkers : Mode.markers .outside (Text.encode ds ++ 58 :: (name ++ Text.encode es)) =
        Mode.markers .outside (Text.encode ds) + Mode.markers .outside (Text.encode es) := by
      rw [Mode.markers_append, hclosed, (Mode.after_placeholder hname _).2]
    rw [hslice, hmarkers, List.map_cons, Bindings.inlined_cons, List.map_append, List.sum_append]
    have hall := (hpiece.append (Bindings.balanced_render hvalue)).append hrest
    rwa [Nat.add_assoc, Nat.add_left_comm _ (Mode.markers _ _), ← Nat.add_assoc] at hall

theorem balanced_render {context : String} {b : Bindings} {t : Template} {f : Fragment}
    (h : t.render context b = .ok f) : f.Balanced ((t.inlined b).map markers).sum := by
  have hcut := Sql.cut_of_placeholders? t.scanned
  have htext : t.text.toList = [] ++ t.text.toList := rfl
  exact balanced_renderFrom hcut htext rfl rfl h

end Template

/-! ### Column values and clauses -/

theorem Value.balanced_render {context : String} {b : Bindings} {v : Value} {f : Fragment}
    (h : v.render context b = .ok f) : f.Balanced ((v.inlined b).map markers).sum := by
  cases hsql : v.sql? with
  | none =>
    rw [render_of_literal hsql] at h
    cases h
    rw [inlined, hsql]
    exact Fragment.balanced_marker v
  | some sql =>
    cases sql?_eq_some_iff.mp hsql
    obtain ⟨t, g, rfl, hg, rfl⟩ := render_eq_ok h
    have hinlined : (expression t.text).inlined b = t.inlined b := by
      rw [inlined, hsql, Template.inlined, Option.toList_some, List.flatMap_singleton, t.names_text]
    rw [hinlined]
    exact (Template.balanced_render hg).parenthesize

namespace Clause

theorem balanced_condition {keyword context : String} {b : Bindings} {t : Option Template}
    {f : Fragment} (hkeyword : countMarkers? keyword = .ok 0)
    (h : condition keyword context b t = .ok f) :
    f.Balanced ((t.toList.flatMap (Template.inlined b)).map markers).sum := by
  cases t with
  | none =>
    cases h
    exact Fragment.balanced_empty
  | some t =>
    rw [condition] at h
    split at h
    next g hg =>
      cases h
      have hall := (Fragment.balanced_ofText hkeyword).append (Template.balanced_render hg)
      simpa using hall
    next => cases h

theorem balanced_list {keyword : String} {entries : List String}
    (hkeyword : countMarkers? keyword = .ok 0) (h : ∀ t ∈ entries, Closed t) :
    (list keyword entries).Balanced (entries.map markers).sum := by
  cases entries with
  | nil => exact Fragment.balanced_empty
  | cons t rest =>
    have hcomma : countMarkers? ", " = .ok 0 := rfl
    have hall := Sql.countMarkers?_append hkeyword (Sql.countMarkers?_intercalate hcomma h)
    rw [Nat.zero_add] at hall
    exact Fragment.balanced_ofText hall

theorem balanced_ordering {criteria : List OrderCriterion} (h : ∀ c ∈ criteria, Closed c.column) :
    (ordering criteria).Balanced (criteria.map (markers ·.column)).sum := by
  have hclosed : ∀ t ∈ criteria.map OrderCriterion.toSql, Closed t := by
    intro t ht
    obtain ⟨c, hc, rfl⟩ := List.mem_map.mp ht
    exact (Sql.countMarkers?_eq_ok_iff.mp (OrderCriterion.countMarkers?_toSql (h c hc))).1
  have hmarkers : (criteria.map OrderCriterion.toSql).map markers =
      criteria.map (markers ·.column) := by
    rw [List.map_map]
    refine List.map_congr_left fun c hc => ?_
    exact (Sql.countMarkers?_eq_ok_iff.mp (OrderCriterion.countMarkers?_toSql (h c hc))).2
  rw [← hmarkers]
  exact balanced_list rfl hclosed

theorem balanced_count {keyword : String} (hkeyword : countMarkers? keyword = .ok 0)
    (n : Option UInt64) : (count keyword n).Balanced 0 := by
  cases n with
  | none => exact Fragment.balanced_empty
  | some n =>
    exact Fragment.balanced_ofText (Sql.countMarkers?_append hkeyword (countMarkers?_decimal _))

theorem balanced_where {context : String} {b : Bindings} {t : Option Template} {f : Fragment}
    (h : condition " WHERE " context b t = .ok f) :
    f.Balanced ((t.toList.flatMap (Template.inlined b)).map markers).sum := by
  have hwhere : countMarkers? " WHERE " = .ok 0 := rfl
  exact balanced_condition hwhere h

theorem balanced_limit (n : Option UInt64) : (limit n).Balanced 0 := by
  have hlimit : countMarkers? " LIMIT " = .ok 0 := rfl
  exact balanced_count hlimit n

end Clause

end TableSql
