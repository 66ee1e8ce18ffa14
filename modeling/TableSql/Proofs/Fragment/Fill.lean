import TableSql.Proofs.Fragment.Values

/-!
# Filled templates

What stands for a placeholder does not depend on where it stands, and the text around it is kept as
it is. So a rendered template is the template filled in with a fragment for each name, and filling
it in with the placeholders themselves gives the text back.

## Main definitions

* `Template.fill` — a template with a fragment for each of its names
* `Value.written`, `Bindings.written` — the fragment for a value, and for a name bound to one

## Main results

* `Template.fill_placeholders` — with the placeholders themselves the text is as it was
* `Template.params_fill` — the values are those of the fragments, at every occurrence of a name
* `Template.fill_of_render` — a rendering fills in what is bound
* `Value.render_of_placeholders_eq_nil` — an expression without placeholders is written as it is
-/

namespace TableSql

/-- The fragment for a value: a marker, or the text of an expression in parentheses. -/
def Value.written : Value → Fragment
  | .expression sql => (Fragment.ofText sql).parenthesize
  | v => .marker v

/-- The fragment for the value of a name. -/
def Bindings.written (b : Bindings) (name : String) : Fragment :=
  ((b.get? name).map Value.written).getD .empty

/-- Nothing that is written has an expression among its values. -/
theorem Value.isExpression_of_written {v w : Value} (h : w ∈ v.written.params) :
    w.isExpression = false := by
  cases v with
  | expression sql =>
    rw [written, Fragment.params_parenthesize] at h
    cases h
  | _ =>
    cases List.mem_singleton.mp h
    rfl

theorem Bindings.isExpression_of_written {b : Bindings} {name : String} {w : Value}
    (h : w ∈ (b.written name).params) : w.isExpression = false := by
  rw [written] at h
  cases hget : b.get? name with
  | none =>
    rw [hget] at h
    cases h
  | some v =>
    rw [hget] at h
    exact Value.isExpression_of_written h

/-- A placeholder that can be rendered is written as its value. -/
theorem Bindings.written_of_render {b : Bindings} {context name : String} {f : Fragment}
    (h : b.render context name = .ok f) : f = b.written name := by
  rw [render] at h
  rw [written]
  cases hget : b.get? name with
  | none =>
    rw [hget] at h
    cases h
  | some v =>
    rw [hget] at h
    cases v with
    | expression sql =>
      simp only at h
      split at h
      next => cases h
      next =>
        split at h
        next =>
          cases h
          rfl
        next => cases h
    | _ =>
      cases h
      rfl

namespace Template

/-- The text from byte `cursor` on, with a fragment for each placeholder. -/
def fillFrom (write : String → Fragment) (text : String) :
    (cursor : Nat) → List Sql.Placeholder → Fragment
  | cursor, [] => .ofText (Text.sliceFrom text cursor)
  | cursor, p :: rest =>
    .ofText (Text.slice text cursor p.start) ++ write p.name ++ fillFrom write text p.stop rest

/-- The template with a fragment for each of its names. -/
def fill (write : String → Fragment) (t : Template) : Fragment :=
  fillFrom write t.text 0 t.placeholders

/-! ### What is kept -/

theorem ofList_placeholder {cs : List Char} {name : List UInt8} (h : Text.encode cs = 58 :: name)
    (hname : ∀ b ∈ name, Sql.isNameByte b = true) :
    String.ofList cs = ":" ++ Text.ofAscii name := by
  have hlt : ∀ b ∈ 58 :: name, b.toNat < 128 :=
    List.forall_mem_cons.mpr ⟨by decide, fun b hb => Sql.lt_of_isNameByte (hname b hb)⟩
  rw [Text.ofList_of_encode h hlt, Text.ofAscii, List.map_cons, ← List.singleton_append,
    String.ofList_append]
  rfl

theorem fillFrom_placeholders {text : String} {pos : Nat} {bs : List UInt8}
    {ps : List Sql.Placeholder} (hcut : Sql.Cut pos bs ps) {cs : List Char}
    (hahead : Text.Ahead text pos cs) (hbs : Text.encode cs = bs) :
    fillFrom (fun name => .ofText (":" ++ name)) text pos ps = .ofText (String.ofList cs) := by
  induction hcut generalizing cs with
  | rest _ => rw [fillFrom, hahead.sliceFrom_eq]
  | @placeholder pos piece name bs ps _ _ hname _ ih =>
    obtain ⟨ds, ns, es, rfl, rfl, hns, rfl, hslice, hbehind⟩ :=
      Sql.exists_ahead_of_placeholder hahead hbs hname
    rw [fillFrom, hslice, ih hbehind rfl, String.ofList_append, String.ofList_append,
      ofList_placeholder hns hname, ← String.append_assoc]
    rfl

/-- **With the placeholders themselves the text is as it was.** -/
theorem fill_placeholders (t : Template) :
    t.fill (fun name => .ofText (":" ++ name)) = .ofText t.text := by
  have hcut := Sql.cut_of_placeholders? t.scanned
  have hfill := fillFrom_placeholders hcut (Text.ahead_zero t.text) rfl
  rwa [String.ofList_toList] at hfill

/-- A text without placeholders is kept whatever is written for them. -/
theorem fill_of_placeholders_eq_nil {t : Template} (h : t.placeholders = [])
    (write : String → Fragment) : t.fill write = .ofText t.text := by
  have hfill := t.fill_placeholders
  rw [fill, h, fillFrom] at hfill ⊢
  exact hfill

/-! ### What is filled in -/

theorem params_fillFrom (write : String → Fragment) (text : String) (cursor : Nat)
    (ps : List Sql.Placeholder) :
    (fillFrom write text cursor ps).params =
      (ps.map Sql.Placeholder.name).flatMap fun name => (write name).params := by
  induction ps generalizing cursor with
  | nil => rfl
  | cons p rest ih =>
    rw [fillFrom, Fragment.params_append, Fragment.params_append, Fragment.params_ofText, ih]
    rfl

/-- The values are those of the fragments, at every occurrence of a name. -/
theorem params_fill (write : String → Fragment) (t : Template) :
    (t.fill write).params = t.names.flatMap fun name => (write name).params :=
  params_fillFrom write t.text 0 t.placeholders

theorem fillFrom_of_render {context text : String} {b : Bindings} {cursor : Nat}
    {ps : List Sql.Placeholder} {f : Fragment} (h : renderFrom context b text cursor ps = .ok f) :
    f = fillFrom b.written text cursor ps := by
  induction ps generalizing cursor f with
  | nil =>
    cases h
    rfl
  | cons p rest ih =>
    obtain ⟨value, hvalue, h⟩ := Outcome.bind_eq_ok_iff.mp h
    obtain ⟨others, hothers, h⟩ := Outcome.bind_eq_ok_iff.mp h
    cases h
    rw [fillFrom, Bindings.written_of_render hvalue, ih hothers]

/-- **A rendering fills in what is bound.** -/
theorem fill_of_render {context : String} {b : Bindings} {t : Template} {f : Fragment}
    (h : t.render context b = .ok f) : f = t.fill b.written :=
  fillFrom_of_render h

end Template

/-- An expression without placeholders is written out as it is. -/
theorem Value.render_of_placeholders_eq_nil {sql : String} (h : Sql.placeholders? sql = .ok [])
    (context : String) (b : Bindings) :
    (expression sql).render context b = .ok (expression sql).written := by
  let t : Template := ⟨sql, [], h⟩
  have hfill : t.fill b.written = .ofText sql := Template.fill_of_placeholders_eq_nil rfl b.written
  have hrender : t.render context b = .ok (t.fill b.written) := rfl
  have htemplate := render_template context b t
  rw [hrender, hfill] at htemplate
  exact htemplate

end TableSql
