import TableSql.Proofs.Builder.History
import TableSql.Proofs.Session

/-!
# Attempts to execute

An attempt to execute a statement comes to one of three things. The statement is not ready, and then
nothing happens at all. The server is asked and refuses, and then the builder is as it was. The
server is asked and replies, and then the builder goes on to its last stage. The last stage takes
nothing away from what the statement is compiled to, so the server is asked the same thing each time
until a call is accepted that changes the statement. What the caller is told of an execution is read
from the reply to it, and from nothing else.

## Main definitions

* `Builder.Comes` — what an execution comes to
* `Builder.Attempt`, `Builder.attempts` — calls and executions on one session, with what the caller
  is told of each
* `Server.answers`, `Server.leave` — a server that is asked the same thing some times in a row
* `Builder.Repeats` — what it means that attempts go on asking the same

## Main results

* `Builder.comes_of_perform` — a prepared statement that is handed over comes to what it should
* `Builder.repeats_of_comes` — attempts go on asking the same if being executed takes nothing away
-/

namespace TableSql

/-! ### Asking again -/

namespace Server

variable {σ : Type} (server : Server σ) (c : CompiledStatement)

/-- What a server answers when it is asked the same thing some times in a row. -/
def answers : Nat → σ → List (Except Error Reply)
  | 0, _ => []
  | n + 1, state => (server.execute c state).1 :: answers n (server.execute c state).2

/-- The state that this leaves the server in. -/
def leave : Nat → σ → σ
  | 0, state => state
  | n + 1, state => leave n (server.execute c state).2

end Server

namespace Builder

variable {S Start Call : Type} [Builder S Start Call] {σ α : Type}

/-! ### One execution -/

/-- **What an execution comes to.** `moved` is the statement after a reply. -/
structure Comes (server : Server σ) (read : Reply → α) (s moved : S) (session : Session σ)
    (result : Except Error α × S × Session σ) : Prop where
  /-- A statement that is not ready is refused, and nothing happens. -/
  refused : ∀ e, prepareExecute s = .error e → result = (.error e, s, session)
  /-- One that is ready is handed over as it was prepared, once. -/
  handed : ∀ c, prepareExecute s = .ok c →
    result.2.2.statements = session.statements ++ [c] ∧
      result.2.2.state = (server.execute c session.state).2
  /-- The server's error is the caller's, and the statement is as it was. -/
  failed : ∀ c e, prepareExecute s = .ok c → (server.execute c session.state).1 = .error e →
    result.1 = .error e ∧ result.2.1 = s
  /-- The caller is told what the server replies, and the statement moves on. -/
  replied : ∀ c reply, prepareExecute s = .ok c →
    (server.execute c session.state).1 = .ok reply →
      result.1 = .ok (read reply) ∧ result.2.1 = moved

theorem comes_of_perform (server : Server σ) (read : Reply → α) (s : S) (session : Session σ) :
    Comes server read s (executed s) session
      ((session.perform server (prepareExecute s) read).1,
        afterSuccess (session.perform server (prepareExecute s) read).1 s (executed s),
        (session.perform server (prepareExecute s) read).2) := by
  constructor
  · intro e hprepare
    rw [hprepare]
    rfl
  · intro c hprepare
    rw [hprepare, Session.perform_ok]
    exact ⟨(session.puts_run server c).statements, session.state_run server c⟩
  · intro c e hprepare hanswer
    rw [hprepare, Session.perform_ok, hanswer]
    exact ⟨rfl, rfl⟩
  · intro c reply hprepare hanswer
    rw [hprepare, Session.perform_ok, hanswer]
    exact ⟨rfl, rfl⟩

/-! ### Attempts in a row -/

/-- A call, or an execution on the session at hand. -/
inductive Attempt (Call : Type) where
  | call (c : Call)
  | execute

/-- The attempt is an execution. -/
def Attempt.isExecute : Attempt Call → Bool
  | .call _ => false
  | .execute => true

/-- What the caller is told of an attempt. -/
inductive Report (α : Type) where
  | called (outcome : Except Error Unit)
  | executed (outcome : Except Error α)

/-- The attempt was a call, and it was accepted. -/
def Report.isAccepted : Report α → Bool
  | .called (.ok _) => true
  | _ => false

/-- What came of the executions among some attempts, in order. -/
def executions : List (Report α) → List (Except Error α)
  | [] => []
  | .called _ :: rest => executions rest
  | .executed outcome :: rest => outcome :: executions rest

/-- Some attempts, one after another: what the caller is told of each, the statement after them and
the session. -/
def attempts (execute : S → Session σ → Except Error α × S × Session σ) :
    List (Attempt Call) → S → Session σ → List (Report α) × S × Session σ
  | [], s, session => ([], s, session)
  | .call c :: rest, s, session =>
    let (reports, last) := attempts execute rest (step s (.call c)) session
    (.called (outcome s (.call c)) :: reports, last)
  | .execute :: rest, s, session =>
    let (outcome, s', session') := execute s session
    let (reports, last) := attempts execute rest s' session'
    (.executed outcome :: reports, last)

/-- **Attempts that go on asking the same.** -/
structure Repeats (server : Server σ) (read : Reply → α) (s : S) (session : Session σ) (times : Nat)
    (result : List (Report α) × S × Session σ) : Prop where
  /-- A statement that is ready is still ready afterwards, for the same. -/
  ready : ∀ c, prepareExecute s = .ok c → prepareExecute result.2.1 = .ok c
  /-- It was handed over each time, and the server is as it is after so many questions. -/
  handed : ∀ c, prepareExecute s = .ok c →
    result.2.2.statements = session.statements ++ List.replicate times c ∧
      result.2.2.state = server.leave c times session.state
  /-- The caller was told each answer, read for itself. -/
  told : ∀ c, prepareExecute s = .ok c →
    executions result.1 = (server.answers c times session.state).map (Except.map read)
  /-- A statement that is not ready is refused each time, and nothing happens. -/
  refused : ∀ e, prepareExecute s = .error e → result.2 = (s, session) ∧
    executions result.1 = List.replicate times (.error e)

section Repeats

variable {server : Server σ} {read : Reply → α}
  {execute : S → Session σ → Except Error α × S × Session σ}

theorem attempts_call (execute : S → Session σ → Except Error α × S × Session σ) (c : Call)
    (rest : List (Attempt Call)) (s : S) (session : Session σ) :
    attempts execute (.call c :: rest) s session =
      (.called (outcome s (.call c)) :: (attempts execute rest (step s (.call c)) session).1,
        (attempts execute rest (step s (.call c)) session).2) := rfl

theorem attempts_execute (execute : S → Session σ → Except Error α × S × Session σ)
    (rest : List (Attempt Call)) (s : S) (session : Session σ) :
    attempts execute (.execute :: rest) s session =
      (.executed (execute s session).1 ::
          (attempts execute rest (execute s session).2.1 (execute s session).2.2).1,
        (attempts execute rest (execute s session).2.1 (execute s session).2.2).2) := rfl

/-- A call that is not accepted is refused, and leaves the statement as it was. -/
theorem step_of_not_isAccepted {s : S} {c : Call}
    (h : (Report.called (outcome s (.call c)) : Report α).isAccepted = false) :
    step s (.call c) = s := by
  cases houtcome : outcome s (.call c) with
  | ok _ =>
    rw [houtcome] at h
    cases h
  | error e => exact step_of_error houtcome

/-- After an execution the statement is prepared as before. -/
theorem Comes.prepareExecute_eq {s : S} {session : Session σ}
    {result : Except Error α × S × Session σ}
    (h : Comes server read s (executed s) session result) {c : CompiledStatement}
    (hexecuted : prepareExecute (executed s) = .ok c) (hprepare : prepareExecute s = .ok c) :
    prepareExecute result.2.1 = .ok c := by
  cases hanswer : (server.execute c session.state).1 with
  | ok reply =>
    rw [(h.replied c reply hprepare hanswer).2]
    exact hexecuted
  | error e =>
    rw [(h.failed c e hprepare hanswer).2]
    exact hprepare

/-- An execution tells the caller what the server answers. -/
theorem Comes.outcome_eq {s moved : S} {session : Session σ}
    {result : Except Error α × S × Session σ} (h : Comes server read s moved session result)
    {c : CompiledStatement} (hprepare : prepareExecute s = .ok c) :
    result.1 = (server.execute c session.state).1.map read := by
  cases hanswer : (server.execute c session.state).1 with
  | ok reply => exact (h.replied c reply hprepare hanswer).1
  | error e => exact (h.failed c e hprepare hanswer).1

/-- **Attempts without an accepted call go on asking the same**, if being executed takes nothing
away from what is prepared. -/
theorem repeats_of_comes
    (hexecuted : ∀ (s : S) (c : CompiledStatement), prepareExecute s = .ok c →
      prepareExecute (executed s) = .ok c)
    (hexecute : ∀ (s : S) (session : Session σ),
      Comes server read s (executed s) session (execute s session))
    (steps : List (Attempt Call)) (s : S) (session : Session σ)
    (h : (attempts execute steps s session).1.any Report.isAccepted = false) :
    Repeats server read s session (steps.countP Attempt.isExecute)
      (attempts execute steps s session) := by
  induction steps generalizing s session with
  | nil =>
    refine ⟨fun c hc => hc, fun c hc => ⟨?_, rfl⟩, fun c hc => rfl, fun e he => ⟨rfl, rfl⟩⟩
    exact (List.append_nil session.statements).symm
  | cons a rest ih =>
    cases a with
    | call c =>
      rw [attempts_call] at h ⊢
      obtain ⟨hcall, hrest⟩ := Bool.or_eq_false_iff.mp h
      rw [step_of_not_isAccepted hcall] at hrest ⊢
      obtain ⟨hready, hhanded, htold, hrefused⟩ := ih s session hrest
      exact ⟨hready, hhanded, htold, hrefused⟩
    | execute =>
      rw [attempts_execute] at h ⊢
      have hcomes := hexecute s session
      obtain ⟨hready, hhanded, htold, hrefused⟩ := ih _ _ (Bool.or_eq_false_iff.mp h).2
      have htimes : (Attempt.execute :: rest).countP Attempt.isExecute =
          rest.countP (@Attempt.isExecute Call) + 1 := List.countP_cons_of_pos rfl
      rw [htimes]
      have hnext : ∀ c, prepareExecute s = .ok c →
          prepareExecute (execute s session).2.1 = .ok c :=
        fun c hc => hcomes.prepareExecute_eq (hexecuted s c hc) hc
      refine ⟨fun c hc => hready c (hnext c hc), fun c hc => ?_, fun c hc => ?_, fun e he => ?_⟩
      · obtain ⟨hstatements, hstate⟩ := hcomes.handed c hc
        obtain ⟨hrest, hleft⟩ := hhanded c (hnext c hc)
        refine ⟨?_, ?_⟩
        · rw [hrest, hstatements, List.append_assoc, List.replicate_succ]
          rfl
        · rw [hleft, hstate]
          rfl
      · have hanswer := hcomes.outcome_eq hc
        have hanswers := htold c (hnext c hc)
        rw [(hcomes.handed c hc).2] at hanswers
        rw [executions, hanswers, hanswer]
        rfl
      · have hnothing := hcomes.refused e he
        rw [hnothing] at hrefused ⊢
        obtain ⟨hlast, hall⟩ := hrefused e he
        refine ⟨hlast, ?_⟩
        rw [executions, hall, List.replicate_succ]

end Repeats

end Builder

end TableSql
