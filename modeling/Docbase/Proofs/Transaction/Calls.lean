import Docbase.Proofs.Recording
import Docbase.Proofs.Transaction.Executor

/-!
# Calls of an executor

An executor whose sessions keep a log does what it does without one, so the log tells what it asked
of its session and in which order, whatever the session answers and whatever the work does.

* `Transaction.Course`: the courses that the calls about one session can take, each with the result
  of the transaction.
* `Transaction.Orderly`: what the courses have in common. The session is ended once and last, a
  transaction is committed only if its work has returned, it is taken back once if it has begun and
  failed, and the first failure is what is reported, unless the session cannot be ended.
-/

namespace Docbase

variable {σ ι α : Type}

namespace Transaction

/-- A call of an executor to a session, or to the work in it, with the answer. With the answer of
the work comes the phase that the executor is in when the work is over. -/
inductive Call (ι α : Type)
  | opened (answer : Except Failure ι)
  | begun (id : ι) (answer : Except Failure Unit)
  | worked (id : ι) (phase : Phase) (answer : Except Failure α)
  | committed (id : ι) (answer : Except Failure Unit)
  | takenBack (id : ι) (answer : Except Failure Unit)
  | ended (id : ι) (answer : Except Failure Unit)

end Transaction

open Transaction (Call) in
def Sessions.logged (sessions : Sessions σ ι) : Sessions (σ × List (Call ι α)) ι where
  start := Action.logging .opened sessions.start
  startTransaction id := Action.logging (.begun id) (sessions.startTransaction id)
  commitTransaction id := Action.logging (.committed id) (sessions.commitTransaction id)
  abortTransaction id := Action.logging (.takenBack id) (sessions.abortTransaction id)
  finish id := Action.logging (.ended id) (sessions.finish id)

namespace Transaction

variable {id : ι} {calls back : List (Call ι α)} {phase : Phase} {outcome : Except Failure α}

def loggedWork (executor : ExecutorId) (work : ι → Action (Shared σ) α) (id : ι) :
    Action (Shared (σ × List (Call ι α))) α := fun ((s, log), statuses) =>
  let (outcome, t, after) := work id (s, statuses)
  (outcome, (t, log ++ [.worked id (after executor).phase outcome]), after)

def loggedRun (sessions : Sessions σ ι) (executor : ExecutorId) (work : ι → Action (Shared σ) α) :
    Action (Shared (σ × List (Call ι α))) α :=
  executeBy sessions.logged executor (loggedWork executor work)

theorem loggedWork_of {executor : ExecutorId} {work : ι → Action (Shared σ) α} {s t : σ}
    {statuses after : ExecutorId → Status} (ran : work id (s, statuses) = (outcome, t, after))
    (log : List (Call ι α)) : loggedWork executor work id ((s, log), statuses) =
      (outcome, (t, log ++ [.worked id (after executor).phase outcome]), after) := by
  rw [loggedWork, ran]

/-! ## Courses -/

/-- The calls that take a transaction back: none if its executor is not in a transaction any more,
because the work has run another one by the same executor. -/
inductive TakenBack (id : ι) : Phase → List (Call ι α) → Prop
  | inProgress (answer : Except Failure Unit) :
    TakenBack id .inTransaction [.takenBack id answer]
  | elsewhere {phase : Phase} (other : phase ≠ .inTransaction) : TakenBack id phase []

/-- The calls between the opening of a session and its end, each with what they come to. -/
inductive Course (id : ι) : List (Call ι α) → Except Failure α → Prop
  | unbegun (failure : Failure) :
    Course id [.begun id (.error failure)] (.error (.transaction .body failure))
  | unfinished {phase : Phase} {back : List (Call ι α)} (failure : Failure)
    (took : TakenBack id phase back) :
    Course id ([.begun id (.ok ()), .worked id phase (.error failure)] ++ back)
      (.error (.transaction .body failure))
  | uncommitted {phase : Phase} {back : List (Call ι α)} (a : α) (failure : Failure)
    (took : TakenBack id phase back) :
    Course id ([.begun id (.ok ()), .worked id phase (.ok a), .committed id (.error failure)]
      ++ back) (.error (.transaction .commit failure))
  | committed (phase : Phase) (a : α) :
    Course id [.begun id (.ok ()), .worked id phase (.ok a), .committed id (.ok ())] (.ok a)

variable {sessions : Sessions σ ι} {executor : ExecutorId} {work : ι → Action (Shared σ) α}
  {s s₁ s₂ : σ} {statuses after : ExecutorId → Status}

def Logs (sessions : Sessions σ ι) (executor : ExecutorId) (work : ι → Action (Shared σ) α) (s : σ)
    (statuses : ExecutorId → Status) (calls : List (Call ι α)) : Prop :=
  ∀ log, loggedRun sessions executor work ((s, log), statuses) =
    ((executeBy sessions executor work (s, statuses)).1,
      ((executeBy sessions executor work (s, statuses)).2.1, log ++ calls),
      (executeBy sessions executor work (s, statuses)).2.2)

theorem exists_takenBack (sessions : Sessions σ ι) (id : ι) (phase : Phase) (s : σ) :
    ∃ back : List (Call ι α), TakenBack id phase back ∧ ∀ log,
      (if phase = .inTransaction then (sessions.logged.abortTransaction id (s, log)).2
        else (s, log)) =
      (if phase = .inTransaction then (sessions.abortTransaction id s).2 else s, log ++ back) := by
  by_cases busy : phase = .inTransaction
  · subst busy
    refine ⟨_, .inProgress (sessions.abortTransaction id s).1, fun log => ?_⟩
    rw [if_pos rfl, if_pos rfl]
    rfl
  · refine ⟨[], .elsewhere busy, fun log => ?_⟩
    rw [if_neg busy, if_neg busy, List.append_nil]

theorem perform_course (sessions : Sessions σ ι) (executor : ExecutorId)
    (work : ι → Action (Shared σ) α) (id : ι) (s : σ) (statuses : ExecutorId → Status) :
    ∃ calls outcome t after, Course id calls outcome ∧
      perform sessions executor work id
        (s, assign executor { phase := .sessionOpen } statuses) = (outcome, t, after) ∧
      ∀ log, perform sessions.logged executor (loggedWork executor work) id
        ((s, log), assign executor { phase := .sessionOpen } statuses) =
          (outcome, (t, log ++ calls), after) := by
  rcases begun : sessions.startTransaction id s with ⟨failure | ⟨⟩, s₁⟩
  · exact ⟨_, _, _, _, .unbegun failure, perform_of_unbegun begun,
      fun log => perform_of_unbegun (Action.logging_of begun log)⟩
  rcases ran : work id (s₁, assign executor .working statuses) with ⟨failure | a, s₂, after⟩
  · obtain ⟨back, took, same⟩ := exists_takenBack (α := α) sessions id (after executor).phase s₂
    refine ⟨_, _, _, _, .unfinished failure took, perform_of_unfinished begun ran, fun log => ?_⟩
    rw [perform_of_unfinished (Action.logging_of begun log) (loggedWork_of ran _), same]
    simp only [List.append_assoc, List.cons_append, List.nil_append]
  rcases committed : sessions.commitTransaction id s₂ with ⟨failure | ⟨⟩, s₃⟩
  · obtain ⟨back, took, same⟩ := exists_takenBack (α := α) sessions id (after executor).phase s₃
    refine ⟨_, _, _, _, .uncommitted a failure took, perform_of_uncommitted begun ran committed,
      fun log => ?_⟩
    rw [perform_of_uncommitted (Action.logging_of begun log) (loggedWork_of ran _)
      (Action.logging_of committed _), same]
    simp only [List.append_assoc, List.cons_append, List.nil_append]
  · refine ⟨_, _, _, _, .committed (after executor).phase a,
      perform_of_committed begun ran committed, fun log => ?_⟩
    rw [perform_of_committed (Action.logging_of begun log) (loggedWork_of ran _)
      (Action.logging_of committed _)]
    simp only [List.append_assoc, List.cons_append, List.nil_append]

theorem executeBy_course (started : sessions.start s = (.ok id, s₁)) :
    ∃ calls outcome answer, Course id calls outcome ∧
      Logs sessions executor work s statuses (.opened (.ok id) :: calls ++ [.ended id answer]) ∧
      (executeBy sessions executor work (s, statuses)).1 = closing answer outcome := by
  obtain ⟨calls, outcome, t, after, course, performed, beside⟩ :=
    perform_course sessions executor work id s₁ statuses
  have run := executeBy_of_performed started performed rfl
  refine ⟨calls, outcome, (sessions.finish id t).1, course, fun log => ?_, by rw [run]⟩
  rw [loggedRun, executeBy_of_performed (Action.logging_of started log) (beside _)
    (Action.logging_of rfl _), run]
  simp only [List.append_assoc, List.cons_append, List.nil_append]

/-! ## Order -/

@[simp] def Call.isTakenBack : Call ι α → Bool
  | takenBack _ _ => true
  | _ => false

@[simp] def failureIn (phase : TransactionPhase) :
    Except Failure α → Option (TransactionPhase × Failure)
  | .ok _ => none
  | .error failure => some (phase, failure)

/-- The failure that a call is answered with, if it is one that a transaction fails by. -/
@[simp] def Call.failure? : Call ι α → Option (TransactionPhase × Failure)
  | begun _ answer => failureIn .body answer
  | worked _ _ answer => failureIn .body answer
  | committed _ answer => failureIn .commit answer
  | _ => none

/-- The first failure to begin a transaction, to do its work or to commit it. -/
def firstFailure (calls : List (Call ι α)) : Option (TransactionPhase × Failure) :=
  calls.findSome? Call.failure?

/-- The calls of an executor, between the opening of a session and its end with some answer, are in
order, and the result of the transaction is what they say. -/
structure Orderly (id : ι) (between : List (Call ι α)) (answer : Except Failure Unit)
    (result : Except Failure α) : Prop where
  not_ended : ∀ other early, .ended other early ∉ between
  committed : ∀ {earlier other answer later}, between = earlier ++ .committed other answer :: later →
    ∃ phase a, .worked id phase (.ok a) ∈ earlier
  /-- It is taken back at most once, namely if it has begun and failed; the exception is a
  transaction whose work has run another one by the same executor. -/
  takenBack_le : between.countP Call.isTakenBack ≤ 1
  takenBack_iff : between.countP Call.isTakenBack = 1 ↔ .begun id (.ok ()) ∈ between ∧
    firstFailure between ≠ none ∧
    ∀ phase outcome, .worked id phase outcome ∈ between → phase = .inTransaction
  returned : ∀ {a}, result = .ok a →
    .committed id (.ok ()) ∈ between ∧ ∃ phase, .worked id phase (.ok a) ∈ between
  /-- If the session can be ended, a failure is that of the transaction, with its first cause. -/
  reported : answer = .ok () → ∀ failure, result = .error failure ↔
    ∃ phase cause, firstFailure between = some (phase, cause) ∧ failure = .transaction phase cause
  unended : ∀ failure, answer = .error failure → result = .error failure

variable {call : Call ι α}

theorem TakenBack.not_mem (took : TakenBack id phase back) (other : call.isTakenBack = false) :
    call ∉ back := by
  intro mem
  cases took with
  | inProgress answer =>
    rw [List.mem_singleton.1 mem] at other
    cases other
  | elsewhere _ => cases mem

theorem TakenBack.countP (took : TakenBack id phase back) :
    back.countP Call.isTakenBack = if phase = .inTransaction then 1 else 0 := by
  cases took with
  | inProgress answer => rfl
  | elsewhere other => exact (if_neg other).symm

theorem TakenBack.not_worked (took : TakenBack id phase back) (other : Phase)
    (outcome : Except Failure α) : .worked id other outcome ∉ back :=
  took.not_mem rfl

theorem second_mem {first second other : Call ι α} {rest earlier later : List (Call ι α)}
    (split : first :: second :: rest = earlier ++ other :: later) (ne : other ≠ first)
    (ne' : other ≠ second) : second ∈ earlier := by
  rcases earlier with _ | ⟨x, _ | ⟨y, earlier⟩⟩
  · exact absurd (List.cons.inj split).1.symm ne
  · exact absurd (List.cons.inj (List.cons.inj split).2).1.symm ne'
  · rw [(List.cons.inj (List.cons.inj split).2).1]
    simp

namespace Course

theorem not_ended (course : Course id calls outcome) (other : ι) (early : Except Failure Unit) :
    .ended other early ∉ calls := by
  cases course with
  | unbegun failure => simp
  | unfinished failure took => simpa using took.not_mem rfl
  | uncommitted a failure took => simpa using took.not_mem rfl
  | committed phase a => simp

theorem worked_before {earlier later : List (Call ι α)} {other : ι} {answer : Except Failure Unit}
    (course : Course id calls outcome)
    (split : calls = earlier ++ .committed other answer :: later) :
    ∃ phase a, .worked id phase (.ok a) ∈ earlier := by
  have mem : Call.committed other answer ∈ calls := by simp [split]
  cases course with
  | unbegun failure => simp at mem
  | unfinished failure took =>
    have none : Call.committed other answer ∉ _ := took.not_mem rfl
    simp [none] at mem
  | @uncommitted phase _ a failure took =>
    exact ⟨phase, a, second_mem split nofun nofun⟩
  | committed phase a => exact ⟨phase, a, second_mem split nofun nofun⟩

theorem countP (course : Course id calls outcome) :
    calls.countP Call.isTakenBack ≤ 1 ∧ (calls.countP Call.isTakenBack = 1 ↔
      .begun id (.ok ()) ∈ calls ∧ firstFailure calls ≠ none ∧
      ∀ phase outcome, .worked id phase outcome ∈ calls → phase = .inTransaction) := by
  cases course with
  | unbegun failure => simp
  | @unfinished phase _ failure took =>
    by_cases busy : phase = .inTransaction <;>
      simp [took.not_worked, took.countP, firstFailure, busy]
  | @uncommitted phase _ a failure took =>
    by_cases busy : phase = .inTransaction <;>
      simp [took.not_worked, took.countP, firstFailure, busy]
  | committed phase a => simp [firstFailure]

theorem failure_cases (course : Course id calls outcome) :
    (∃ a, outcome = .ok a ∧ firstFailure calls = none) ∨ ∃ phase cause,
      outcome = .error (.transaction phase cause) ∧ firstFailure calls = some (phase, cause) := by
  cases course with
  | unbegun failure => exact .inr ⟨_, _, rfl, rfl⟩
  | unfinished failure took => exact .inr ⟨_, _, rfl, rfl⟩
  | uncommitted a failure took => exact .inr ⟨_, _, rfl, rfl⟩
  | committed phase a => exact .inl ⟨a, rfl, rfl⟩

theorem returned {a : α} (course : Course id calls (.ok a)) :
    .committed id (.ok ()) ∈ calls ∧ ∃ phase, .worked id phase (.ok a) ∈ calls := by
  cases course with
  | committed phase a => exact ⟨by simp, phase, by simp⟩

theorem orderly (course : Course id calls outcome) (answer : Except Failure Unit) :
    Orderly id calls answer (closing answer outcome) where
  not_ended := course.not_ended
  committed := course.worked_before
  takenBack_le := course.countP.1
  takenBack_iff := course.countP.2
  returned := by
    rintro a same
    rcases answer with failure | ⟨⟩
    · cases same
    · obtain rfl : outcome = .ok a := same
      exact course.returned
  reported := by
    rintro rfl failure
    rcases course.failure_cases with ⟨a, rfl, none⟩ | ⟨phase, cause, rfl, some⟩
    · simp [closing, none]
    · simp [closing, some, eq_comm]
  unended := by
    rintro failure rfl
    rfl

end Course

/-- Whatever the session answers and whatever the work does, the calls of an executor are in order
once the session is open. -/
theorem executeBy_orderly (sessions : Sessions σ ι) (executor : ExecutorId)
    (work : ι → Action (Shared σ) α) (s : σ) (statuses : ExecutorId → Status) :
    (∃ failure, Logs sessions executor work s statuses [.opened (.error failure)] ∧
      (executeBy sessions executor work (s, statuses)).1 = .error failure) ∨
    ∃ id between answer,
      Logs sessions executor work s statuses
        (.opened (.ok id) :: between ++ [.ended id answer]) ∧
      Orderly id between answer (executeBy sessions executor work (s, statuses)).1 := by
  rcases started : sessions.start s with ⟨failure | id, s₁⟩
  · have run : executeBy sessions executor work (s, statuses) = _ := executeBy_of_unstarted started
    refine .inl ⟨failure, fun log => ?_, by rw [run]⟩
    rw [loggedRun, executeBy_of_unstarted (Action.logging_of started log), run]
  · obtain ⟨between, outcome, answer, course, logs, result⟩ := executeBy_course started
    refine .inr ⟨id, between, answer, logs, ?_⟩
    rw [result]
    exact course.orderly answer

def answering (answer : Except Failure Unit) : Sessions Unit Unit where
  start := pure ()
  startTransaction _ := pure ()
  commitTransaction _ := pure ()
  abortTransaction _ := pure ()
  finish _ := Action.lift answer

def failing (_ : Unit) : Action (Shared Unit) Unit := throw (.outside "no seat")

/-- The session of a transaction that has failed is lost, and with it the cause of the failure. -/
theorem cause_hidden :
    firstFailure
        (loggedRun (answering (.error (.outside "connection lost"))) 0 failing
          (((), []), fun _ => {})).2.1.2 = some (.body, .outside "no seat") ∧
      (executeBy (answering (.error (.outside "connection lost"))) 0 failing
        ((), fun _ => {})).1 = .error (.outside "connection lost") :=
  ⟨rfl, rfl⟩

def overlapping (id : Unit) : Action (Shared Unit) Unit := do
  executeBy (answering (.ok ())) 0 fun _ => pure ()
  failing id

example : (loggedRun (answering (.ok ())) 0 overlapping (((), []), fun _ => {})).2.1.2 =
    [.opened (.ok ()), .begun () (.ok ()),
      .worked () .sessionClosed (.error (.outside "no seat")), .ended () (.ok ())] := rfl

end Transaction
end Docbase
