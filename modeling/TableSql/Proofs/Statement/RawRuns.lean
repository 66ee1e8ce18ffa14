import Mathlib.Data.List.DropRight
import TableSql.Proofs.Session
import TableSql.Proofs.Sql.Mode
import TableSql.Proofs.Statement.Raw

/-!
# Runs of raw SQL statements

A raw SQL statement is bound, cleared, compiled and executed in any order and any number of times.
What it holds at some point are the values that were bound since it was cleared last. Whether it can
be run with these is a question about the text and the values alone, so asking it and running it
leave everything as it is.

## Main definitions

* `SqlStatement.Runnable` — the values fit the markers of a text
* `SqlStatement.Fails` — the first reason why they do not
* `SqlStatement.Call`, `SqlStatement.step`, `SqlStatement.after` — a call on a session, and many
* `SqlStatement.held` — the values that were bound since the last clear
* `SqlStatement.RunsWhenMatched` — what a statement does that holds some values

## Main results

* `SqlStatement.fails_of_compile` — the error of a compilation is the first reason
* `SqlStatement.fst_after` — what a statement holds after some calls
* `SqlStatement.fst_after_of_observes`, `SqlStatement.statements_after_of_observes` — what calls do
  that bind nothing
* `SqlStatement.runs_iff_values_match`
-/

namespace TableSql.SqlStatement

/-! ### A text and its values -/

/-- A text can be run with some values. -/
structure Runnable (text : String) (values : List Value) : Prop where
  not_blank : Text.isBlank text = false
  /-- No quote is left open. -/
  closed : Sql.Closed text
  /-- There is a value for each `?` outside quotes. -/
  markers : Sql.markers text = values.length
  literals : ∀ v ∈ values, v.isExpression = false

/-- The reason why a text can not be run with some values, which is the first of several. -/
inductive Fails (text : String) (values : List Value) : ArgumentFault → Prop where
  | blank : Text.isBlank text = true → Fails text values .blankSql
  | unclosed {offset : Nat} : Text.isBlank text = false → ¬ Sql.Closed text →
    Sql.UnclosedAt text offset → Fails text values (.unterminatedString offset)
  | markers : Text.isBlank text = false → Sql.Closed text → Sql.markers text ≠ values.length →
    Fails text values (.markerCount (Sql.markers text) values.length)
  | expression {v : Value} : Text.isBlank text = false → Sql.Closed text →
    Sql.markers text = values.length → v ∈ values → v.isExpression = true →
    Fails text values .expressionParameter

section

variable {text : String} {values : List Value}

theorem compile_eq_ok_iff_runnable {c : CompiledStatement} :
    compile ⟨text, values⟩ = .ok c ↔ Runnable text values ∧ c = ⟨.sql, text, values⟩ := by
  rw [compile_eq_ok_iff, Sql.countMarkers?_eq_ok_iff]
  constructor
  · rintro ⟨hblank, ⟨hclosed, hmarkers⟩, hliterals, rfl⟩
    exact ⟨⟨hblank, hclosed, hmarkers, hliterals⟩, rfl⟩
  · rintro ⟨⟨hblank, hclosed, hmarkers, hliterals⟩, rfl⟩
    exact ⟨hblank, ⟨hclosed, hmarkers⟩, hliterals, rfl⟩

/-- **The error of a compilation is the first reason.** -/
theorem fails_of_compile {e : Error} (h : compile ⟨text, values⟩ = .error e) :
    ∃ fault, Fails text values fault ∧ e = .invalidArgument context fault := by
  rw [compile] at h
  split at h
  next hblank =>
    cases h
    exact ⟨_, .blank hblank, rfl⟩
  next hblank =>
    have hblank : Text.isBlank text = false := Bool.eq_false_iff.mpr hblank
    rw [markers] at h
    cases hcount : Sql.countMarkers? text with
    | error u =>
      have hopen : ¬ Sql.Closed text := by
        intro hclosed
        rw [Sql.countMarkers?_eq_ok_iff.mpr ⟨hclosed, rfl⟩] at hcount
        cases hcount
      simp only [hcount] at h
      cases h
      exact ⟨_, .unclosed hblank hopen (Sql.unclosedAt_of_countMarkers? hcount), rfl⟩
    | ok n =>
      obtain ⟨hclosed, rfl⟩ := Sql.countMarkers?_eq_ok_iff.mp hcount
      simp only [hcount, Outcome.ok_bind] at h
      split at h
      next hlength =>
        cases h
        exact ⟨_, .markers hblank hclosed hlength, rfl⟩
      next hlength =>
        split at h
        next hany =>
          cases h
          obtain ⟨v, hv, hexpression⟩ := List.any_eq_true.mp hany
          have hmarkers := Decidable.not_not.mp hlength
          exact ⟨_, .expression hblank hclosed hmarkers hv hexpression, rfl⟩
        next => cases h

end

/-! ### Calls -/

/-- A call on a raw SQL statement. -/
inductive Call where
  | bind (v : Value)
  | bindAll (vs : List Value)
  | clearBindings
  | compile
  | execute

namespace Call

/-- The values that the call binds. -/
def values : Call → List Value
  | .bind v => [v]
  | .bindAll vs => vs
  | .clearBindings | .compile | .execute => []

/-- The call forgets all values. -/
def clears : Call → Bool
  | .clearBindings => true
  | .bind _ | .bindAll _ | .compile | .execute => false

/-- The call is an execution. -/
def executes : Call → Bool
  | .execute => true
  | .bind _ | .bindAll _ | .clearBindings | .compile => false

/-- The call is to leave the statement alone. -/
def observes : Call → Bool
  | .compile | .execute => true
  | .bind _ | .bindAll _ | .clearBindings => false

theorem eq_of_observes {c : Call} (h : c.observes = true) : c = .compile ∨ c = .execute := by
  cases c with
  | compile => exact .inl rfl
  | execute => exact .inr rfl
  | _ => cases h

end Call

variable {σ : Type} (server : Server σ)

/-- The statement and the session after a call. -/
def step (p : SqlStatement × Session σ) : Call → SqlStatement × Session σ
  | .bind v => (p.1.bind v, p.2)
  | .bindAll vs => (p.1.bindAll vs, p.2)
  | .clearBindings => (p.1.clearBindings, p.2)
  | .compile => p
  | .execute => (p.1, (p.1.execute server p.2).2)

/-- The statement and the session after some calls. -/
def after (p : SqlStatement × Session σ) (calls : List Call) : SqlStatement × Session σ :=
  calls.foldl (step server) p

/-- The values that were bound since the last clear, in order. -/
def held (calls : List Call) : List Value :=
  (calls.rtakeWhile fun c => !c.clears).flatMap Call.values

/-- A value from before the clear is not among them. -/
example : held [.bind .null, .clearBindings, .bindAll [.bool true], .execute, .bind .null] =
    [.bool true, .null] := rfl

/-! ### What a statement holds -/

theorem after_concat (p : SqlStatement × Session σ) (calls : List Call) (c : Call) :
    after server p (calls ++ [c]) = step server (after server p calls) c :=
  List.foldl_append

theorem held_concat_of_clears {c : Call} (h : c.clears = true) (calls : List Call) :
    held (calls ++ [c]) = [] := by
  rw [held, List.rtakeWhile_concat_neg _ _ _ (by simp [h])]
  rfl

theorem held_concat {c : Call} (h : c.clears = false) (calls : List Call) :
    held (calls ++ [c]) = held calls ++ c.values := by
  rw [held, List.rtakeWhile_concat_pos _ _ _ (by simp [h]), List.flatMap_append,
    List.flatMap_singleton]
  rfl

/-- **A statement holds what was bound since the last clear.** -/
theorem fst_after (session : Session σ) (text : String) (calls : List Call) :
    (after server (ofText text, session) calls).1 = ⟨text, held calls⟩ := by
  induction calls using List.reverseRecOn with
  | nil => rfl
  | append_singleton calls c ih =>
    rw [after_concat]
    cases c with
    | bind v =>
      rw [held_concat rfl, step, ih]
      rfl
    | bindAll vs =>
      rw [held_concat rfl, step, ih]
      rfl
    | clearBindings =>
      rw [held_concat_of_clears rfl, step, ih]
      rfl
    | compile =>
      rw [held_concat rfl, step, ih, Call.values, List.append_nil]
    | execute =>
      rw [held_concat rfl, step, ih, Call.values, List.append_nil]

/-- Values that are bound at once are bound in turn. -/
theorem bindAll_eq_foldl (s : SqlStatement) (vs : List Value) :
    s.bindAll vs = vs.foldl bind s := by
  induction vs generalizing s with
  | nil => rw [bindAll, List.append_nil, List.foldl_nil]
  | cons v rest ih =>
    rw [List.foldl_cons, ← ih, bindAll, bindAll, bind, List.append_assoc, List.singleton_append]

/-! ### Calls that bind nothing -/

section Observes

variable (s : SqlStatement) (session : Session σ) {calls : List Call}
  (h : ∀ c ∈ calls, c.observes = true)

include h

/-- They leave the statement alone. -/
theorem fst_after_of_observes : (after server (s, session) calls).1 = s := by
  induction calls generalizing session with
  | nil => rfl
  | cons c rest ih =>
    obtain ⟨hc, hrest⟩ := List.forall_mem_cons.mp h
    rcases Call.eq_of_observes hc with rfl | rfl
    · exact ih session hrest
    · exact ih (s.execute server session).2 hrest

/-- Each execution hands over the same, and nothing else is handed over. -/
theorem statements_after_of_observes {c : CompiledStatement} (hcompile : s.compile = .ok c) :
    (after server (s, session) calls).2.statements =
      session.statements ++ List.replicate (calls.countP Call.executes) c := by
  induction calls generalizing session with
  | nil => exact (List.append_nil _).symm
  | cons call rest ih =>
    obtain ⟨hcall, hrest⟩ := List.forall_mem_cons.mp h
    rcases Call.eq_of_observes hcall with rfl | rfl
    · exact ih session hrest
    · have hone : (s.execute server session).2.statements = session.statements ++ [c] := by
        rw [execute, hcompile]
        exact (session.puts_perform server (.ok c) Reply.toSqlResult).statements
      refine (ih (s.execute server session).2 hrest).trans ?_
      rw [hone, List.countP_cons_of_pos rfl, List.replicate_succ, List.append_assoc,
        List.singleton_append]

/-- Where there is nothing to hand over, nothing happens to the session. -/
theorem snd_after_of_observes {e : Error} (hcompile : s.compile = .error e) :
    (after server (s, session) calls).2 = session := by
  induction calls with
  | nil => rfl
  | cons call rest ih =>
    obtain ⟨hcall, hrest⟩ := List.forall_mem_cons.mp h
    rcases Call.eq_of_observes hcall with rfl | rfl
    · exact ih hrest
    · have hone : (s.execute server session).2 = session := by
        rw [execute, hcompile]
        rfl
      show (after server (s, (s.execute server session).2) rest).2 = session
      rw [hone]
      exact ih hrest

end Observes

/-- An execution fails where the compilation does, or is answered by the server. -/
theorem fst_execute (s : SqlStatement) (session : Session σ) : (s.execute server session).1 =
    s.compile >>= fun c => (server.execute c session.state).1.map Reply.toSqlResult := by
  rw [execute]
  cases s.compile with
  | error e => rfl
  | ok c =>
    rw [Session.perform_ok]
    rfl

/-! ### Runs -/

/-- **A statement on a session runs exactly when its values match its text.** -/
structure RunsWhenMatched (text : String) (values : List Value) (p : SqlStatement × Session σ) :
    Prop where
  /-- The statement holds the text as it was given and these values. -/
  holds : p.1 = ⟨text, values⟩
  /-- It is compiled exactly if the values fit, and then to nothing else than what it holds. -/
  compile_eq_ok_iff : ∀ c, p.1.compile = .ok c ↔
    Runnable text values ∧ c = ⟨.sql, text, values⟩
  /-- Otherwise the first reason is reported. -/
  fails : ∀ e, p.1.compile = .error e →
    ∃ fault, Fails text values fault ∧ e = .invalidArgument "SqlStatement.execute" fault
  /-- An execution fails with the same, and otherwise tells what the server answers. -/
  told : (p.1.execute server p.2).1 =
    p.1.compile >>= fun c => (server.execute c p.2.state).1.map Reply.toSqlResult
  /-- Values that are bound at once are bound in turn. -/
  bindAll_eq : ∀ vs, step server p (.bindAll vs) = after server p (vs.map .bind)
  /-- Compiling and executing changes nothing. -/
  unchanged : ∀ more, (∀ c ∈ more, c.observes = true) → (after server p more).1 = p.1
  /-- Each execution hands over the compiled statement once. -/
  handed : Runnable text values → ∀ more, (∀ c ∈ more, c.observes = true) →
    (after server p more).2.statements =
      p.2.statements ++ List.replicate (more.countP Call.executes) ⟨.sql, text, values⟩
  /-- No execution gets to the server where the values do not fit. -/
  not_handed : ¬ Runnable text values → ∀ more, (∀ c ∈ more, c.observes = true) →
    (after server p more).2 = p.2

theorem step_bindAll_eq (p : SqlStatement × Session σ) (vs : List Value) :
    step server p (.bindAll vs) = after server p (vs.map .bind) := by
  rw [step, bindAll_eq_foldl]
  induction vs generalizing p with
  | nil => rfl
  | cons v rest ih => exact ih (p.1.bind v, p.2)

/-- What a statement does on a session follows from what it holds. -/
theorem runsWhenMatched (text : String) (values : List Value) (session : Session σ) :
    RunsWhenMatched server text values (⟨text, values⟩, session) where
  holds := rfl
  compile_eq_ok_iff _ := compile_eq_ok_iff_runnable
  fails _ := fails_of_compile
  told := fst_execute server ⟨text, values⟩ session
  bindAll_eq := step_bindAll_eq server _
  unchanged _ hmore := fst_after_of_observes server _ session hmore
  handed hrunnable _ hmore := by
    have hcompile := compile_eq_ok_iff_runnable.mpr ⟨hrunnable, rfl⟩
    exact statements_after_of_observes server _ session hmore hcompile
  not_handed hnot _ hmore := by
    cases hcompile : compile ⟨text, values⟩ with
    | ok c => exact absurd (compile_eq_ok_iff_runnable.mp hcompile).1 hnot
    | error e => exact snd_after_of_observes server _ session hmore hcompile

/-- **A raw SQL statement runs exactly when its markers and values match.** Whatever was called
before, its values are those that were bound since it was cleared last. -/
theorem runs_iff_values_match {σ : Type} (server : Server σ) (session : Session σ) (text : String)
    (calls : List Call) :
    RunsWhenMatched server text (held calls) (after server (ofText text, session) calls) := by
  have hholds := fst_after server session text calls
  rcases hafter : after server (ofText text, session) calls with ⟨s, session'⟩
  rw [hafter] at hholds
  obtain rfl : s = ⟨text, held calls⟩ := hholds
  exact runsWhenMatched server text (held calls) session'

end TableSql.SqlStatement
