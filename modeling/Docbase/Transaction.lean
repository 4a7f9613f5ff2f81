import Docbase.Backend

/-!
# Transactions

A transaction runs some work in a session of its own: all of what it does is kept if the work and
the commit succeed, and taken back otherwise. The session is ended in every case. A transaction
that fails says so, with the first failure as its cause.
-/

namespace Docbase.Transaction

inductive Phase
  | idle
  | sessionOpen
  | inTransaction
  | committed
  | aborted
  | sessionClosed
  deriving DecidableEq, Repr

namespace Phase

def word : Phase → String
  | idle => "idle"
  | sessionOpen => "session-open"
  | inTransaction => "in-transaction"
  | committed => "committed"
  | aborted => "aborted"
  | sessionClosed => "session-closed"

end Phase

/-- How far a transaction has come: the phase last reached and, once it has been committed or
aborted, which of the two. -/
structure Status where
  phase : Phase := .idle
  outcome : Option Phase := none
  deriving DecidableEq, Repr

namespace Status

def working : Status := { phase := .inTransaction }

def finished (phase : Phase) : Status := { phase, outcome := some phase }

end Status

/-! ## Executors -/

abbrev ExecutorId := Nat

/-- A state and the status of every executor. The work of a transaction may run further transactions
by any executor, also by the one that runs it. -/
abbrev Shared (σ : Type) := σ × (ExecutorId → Status)

variable {σ ι α : Type}

def onState (a : Action σ α) : Action (Shared σ) α :=
  Action.within Prod.fst (fun s shared => (s, shared.2)) a

def assign (executor : ExecutorId) (status : Status) (statuses : ExecutorId → Status) :
    ExecutorId → Status := fun other => if other = executor then status else statuses other

def setStatus (executor : ExecutorId) (status : Status) : Action (Shared σ) Unit :=
  modify fun shared => (shared.1, assign executor status shared.2)

def setPhase (executor : ExecutorId) (phase : Phase) : Action (Shared σ) Unit := do
  setStatus executor { (← get).2 executor with phase }

/-- Takes a transaction back, if that is what its executor is at. Whether this succeeds does not
matter. -/
def takeBack (sessions : Sessions σ ι) (executor : ExecutorId) (session : ι) :
    Action (Shared σ) Unit := do
  if ((← get).2 executor).phase = .inTransaction then
    let _ ← (onState (sessions.abortTransaction session)).attempt
  setStatus executor (.finished .aborted)

def begin (sessions : Sessions σ ι) (executor : ExecutorId) (work : ι → Action (Shared σ) α)
    (session : ι) : Action (Shared σ) α := do
  onState (sessions.startTransaction session)
  setPhase executor .inTransaction
  work session

def perform (sessions : Sessions σ ι) (executor : ExecutorId) (work : ι → Action (Shared σ) α)
    (session : ι) : Action (Shared σ) α := do
  match ← (begin sessions executor work session).attempt with
  | .error failure =>
    takeBack sessions executor session
    throw (.transaction .body failure)
  | .ok result =>
    match ← (onState (sessions.commitTransaction session)).attempt with
    | .error failure =>
      takeBack sessions executor session
      throw (.transaction .commit failure)
    | .ok () =>
      setStatus executor (.finished .committed)
      return result

/-- Runs a transaction by an executor. If no session can be started, the status is what it was
before; a session that cannot be ended is not closed, and its failure is what is reported. -/
def executeBy (sessions : Sessions σ ι) (executor : ExecutorId) (work : ι → Action (Shared σ) α) :
    Action (Shared σ) α := do
  let session ← onState sessions.start
  setStatus executor { phase := .sessionOpen }
  let outcome ← (perform sessions executor work session).attempt
  onState (sessions.finish session)
  setPhase executor .sessionClosed
  Action.lift outcome

/-- Runs a transaction by an executor whose status the work sees but does not change, and gives its
result and how far it came. -/
def execute (sessions : Sessions σ ι) (work : Status → ι → Action σ α) (before : Status := {}) :
    StateM σ (Except Failure α × Status) := fun s =>
  let seeing (session : ι) : Action (Shared σ) α := do onState (work ((← get).2 0) session)
  let (result, s, statuses) := executeBy sessions 0 seeing (s, fun _ => before)
  ((result, statuses 0), s)

end Docbase.Transaction
