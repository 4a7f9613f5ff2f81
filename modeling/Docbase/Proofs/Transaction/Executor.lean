import Docbase.Proofs.Action
import Docbase.Transaction

namespace Docbase.Transaction

variable {σ ι α : Type} {executor : ExecutorId} {statuses after : ExecutorId → Status}

@[simp] theorem assign_self (executor : ExecutorId) (status : Status)
    (statuses : ExecutorId → Status) : assign executor status statuses executor = status :=
  if_pos rfl

@[simp] theorem assign_assign (executor : ExecutorId) (status status' : Status)
    (statuses : ExecutorId → Status) :
    assign executor status (assign executor status' statuses) = assign executor status statuses := by
  funext other
  unfold assign
  split <;> rfl

@[simp] theorem onState_apply (a : Action σ α) (shared : Shared σ) :
    onState a shared = ((a shared.1).1, (a shared.1).2, shared.2) := rfl

@[simp] theorem setStatus_apply (executor : ExecutorId) (status : Status) (shared : Shared σ) :
    setStatus executor status shared = (.ok (), shared.1, assign executor status shared.2) := rfl

@[simp] theorem setPhase_apply (executor : ExecutorId) (phase : Phase) (shared : Shared σ) :
    setPhase executor phase shared =
      (.ok (), shared.1, assign executor { shared.2 executor with phase } shared.2) := rfl

variable {sessions : Sessions σ ι} {work : ι → Action (Shared σ) α} {id : ι} {s s₁ s₂ s₃ s₄ s₅ : σ}
  {outcome : Except Failure α} {answer : Except Failure Unit} {failure : Failure} {a : α}

theorem begin_apply (begun : sessions.startTransaction id s₁ = (.ok (), s₂)) :
    begin sessions executor work id (s₁, assign executor { phase := .sessionOpen } statuses) =
      work id (s₂, assign executor .working statuses) := by
  simp [begin, Action.bind_apply, begun, Status.working]

theorem takeBack_apply (sessions : Sessions σ ι) (executor : ExecutorId) (id : ι)
    (shared : Shared σ) :
    takeBack sessions executor id shared =
      (.ok (), if (shared.2 executor).phase = .inTransaction then
          (sessions.abortTransaction id shared.1).2 else shared.1,
        assign executor (.finished .aborted) shared.2) := by
  by_cases busy : (shared.2 executor).phase = .inTransaction <;>
    simp [takeBack, Action.bind_apply, busy]

theorem executeBy_of_unstarted (refused : sessions.start s = (.error failure, s₁)) :
    executeBy sessions executor work (s, statuses) = (.error failure, s₁, statuses) := by
  simp [executeBy, Action.bind_apply, refused]

/-! ## In a session -/

def closing : Except Failure Unit → Except Failure α → Except Failure α
  | .ok (), outcome => outcome
  | .error failure, _ => .error failure

def closed (executor : ExecutorId) :
    Except Failure Unit → (ExecutorId → Status) → ExecutorId → Status
  | .ok (), statuses =>
    assign executor { statuses executor with phase := .sessionClosed } statuses
  | .error _, statuses => statuses

theorem executeBy_of_performed (started : sessions.start s = (.ok id, s₁))
    (performed : perform sessions executor work id
      (s₁, assign executor { phase := .sessionOpen } statuses) = (outcome, s₂, after))
    (ended : sessions.finish id s₂ = (answer, s₃)) :
    executeBy sessions executor work (s, statuses) =
      (closing answer outcome, s₃, closed executor answer after) := by
  rcases answer with failure | ⟨⟩ <;>
    simp [executeBy, Action.bind_apply, started, performed, ended, closing, closed]

theorem perform_of_unbegun (begun : sessions.startTransaction id s₁ = (.error failure, s₂)) :
    perform sessions executor work id (s₁, assign executor { phase := .sessionOpen } statuses) =
      (.error (.transaction .body failure), s₂, assign executor (.finished .aborted) statuses) := by
  simp [perform, begin, Action.bind_apply, begun, takeBack_apply]

theorem perform_of_unfinished (begun : sessions.startTransaction id s₁ = (.ok (), s₂))
    (ran : work id (s₂, assign executor .working statuses) = (.error failure, s₃, after)) :
    perform sessions executor work id (s₁, assign executor { phase := .sessionOpen } statuses) =
      (.error (.transaction .body failure),
        if (after executor).phase = .inTransaction then (sessions.abortTransaction id s₃).2 else s₃,
        assign executor (.finished .aborted) after) := by
  simp [perform, Action.bind_apply, begin_apply begun, ran, takeBack_apply]

theorem perform_of_uncommitted (begun : sessions.startTransaction id s₁ = (.ok (), s₂))
    (ran : work id (s₂, assign executor .working statuses) = (.ok a, s₃, after))
    (refused : sessions.commitTransaction id s₃ = (.error failure, s₄)) :
    perform sessions executor work id (s₁, assign executor { phase := .sessionOpen } statuses) =
      (.error (.transaction .commit failure),
        if (after executor).phase = .inTransaction then (sessions.abortTransaction id s₄).2 else s₄,
        assign executor (.finished .aborted) after) := by
  simp [perform, Action.bind_apply, begin_apply begun, ran, refused, takeBack_apply]

theorem perform_of_committed (begun : sessions.startTransaction id s₁ = (.ok (), s₂))
    (ran : work id (s₂, assign executor .working statuses) = (.ok a, s₃, after))
    (committed : sessions.commitTransaction id s₃ = (.ok (), s₄)) :
    perform sessions executor work id (s₁, assign executor { phase := .sessionOpen } statuses) =
      (.ok a, s₄, assign executor (.finished .committed) after) := by
  simp [perform, Action.bind_apply, begin_apply begun, ran, committed, Except.map]

theorem executeBy_of_committed (started : sessions.start s = (.ok id, s₁))
    (begun : sessions.startTransaction id s₁ = (.ok (), s₂))
    (ran : work id (s₂, assign executor .working statuses) = (.ok a, s₃, after))
    (committed : sessions.commitTransaction id s₃ = (.ok (), s₄))
    (ended : sessions.finish id s₄ = (.ok (), s₅)) :
    executeBy sessions executor work (s, statuses) = (.ok a, s₅,
      assign executor { phase := .sessionClosed, outcome := some .committed } after) := by
  rw [executeBy_of_performed started (perform_of_committed begun ran committed) ended]
  simp [closing, closed, Status.finished]

theorem executeBy_of_aborted (started : sessions.start s = (.ok id, s₁))
    (begun : sessions.startTransaction id s₁ = (.ok (), s₂))
    (ran : work id (s₂, assign executor .working statuses) = (.error failure, s₃, after))
    (ended : sessions.finish id (if (after executor).phase = .inTransaction then
      (sessions.abortTransaction id s₃).2 else s₃) = (.ok (), s₅)) :
    executeBy sessions executor work (s, statuses) = (.error (.transaction .body failure), s₅,
      assign executor { phase := .sessionClosed, outcome := some .aborted } after) := by
  rw [executeBy_of_performed started (perform_of_unfinished begun ran) ended]
  simp [closing, closed, Status.finished]

end Docbase.Transaction
