import Docbase.Failure

/-!
# Actions

An action reads and changes a state and may fail. What it changed before it failed stays changed.
-/

namespace Docbase

abbrev Action (σ α : Type) := ExceptT Failure (StateM σ) α

namespace Action

variable {σ τ α : Type}

def lift (result : Except Failure α) : Action σ α := fun s => (result, s)

/-- Performs an action and hands over its outcome, be it a failure. -/
def attempt (a : Action σ α) : Action σ (Except Failure α) := fun s =>
  let (outcome, s) := a s
  (.ok outcome, s)

def within (get : σ → τ) (put : τ → σ → σ) (a : Action τ α) : Action σ α := fun s =>
  let (outcome, t) := a (get s)
  (outcome, put t s)

instance : MonadLift (Except Failure) (ExceptT Failure (StateM σ)) where
  monadLift := lift

instance : MonadLift (Except Misuse) (ExceptT Failure (StateM σ)) where
  monadLift result := lift (monadLift result)

instance : MonadLift (Except ArgumentFault) (ExceptT Failure (StateM σ)) where
  monadLift result := lift (monadLift result)

end Action
end Docbase
