import Docbase.Proofs.Action
import Docbase.Server.Store

namespace Docbase.Server

variable {σ α : Type}

def Driver.idle : Driver σ where
  connect _ := pure ()
  ping := pure ()
  selectDatabase _ := pure ()
  close := pure ()
  startSession := pure .null
  insertOne _ _ _ := pure .null
  insertMany _ _ _ _ := pure .null
  findOne _ _ _ := pure .null
  find _ _ _ := pure []
  limit _ := pure ()
  aggregate _ _ _ := pure []
  drain := pure ()
  count _ _ _ := pure .null
  updateMany _ _ _ _ := pure .null
  deleteMany _ _ _ := pure .null
  indexes _ := pure .null
  createIndex _ _ _ := pure .null

namespace Store

theorem drive_apply (a : Action σ α) (c : Connection σ) :
    drive a c = ((a c.driver).1, { c with driver := (a c.driver).2 }) := rfl

theorem check_apply (c : Connection σ) :
    check c = (if c.hasDatabase then .ok () else .error .serverNotConnected, c) := by
  simp only [check, Action.bind_apply, Action.get_apply]
  cases c.hasDatabase <;> rfl

def meaning (task : DriverTask) (collection : String)
    (explain : Failure → Option (Except Misuse Failure)) (failure : Failure) : Failure :=
  match explain failure with
  | none => .serverTask task collection
  | some (.ok meaning) => meaning
  | some (.error misuse) => .misuse misuse

theorem perform_apply (task : DriverTask) (collection : String) (a : Action σ α)
    (explain : Failure → Option (Except Misuse Failure)) (c : Connection σ) :
    perform task collection a explain c =
      if c.hasDatabase then
        ((a c.driver).1.mapError (meaning task collection explain),
          { c with driver := (a c.driver).2 })
      else (.error .serverNotConnected, c) := by
  obtain ⟨s, client, database⟩ := c
  rw [perform, Action.bind_apply, check_apply]
  cases database with
  | false => rfl
  | true =>
    simp only [if_true, Action.bind_apply, Action.attempt_apply, drive_apply]
    rcases (a s).1 with failure | result
    · simp only [Except.mapError, meaning]
      split <;> simp_all
    · rfl

theorem perform_eq_ok {task : DriverTask} {collection : String} {a : Action σ α}
    {explain : Failure → Option (Except Misuse Failure)} {c : Connection σ} {result : α} :
    (perform task collection a explain c).1 = .ok result ↔
      c.hasDatabase = true ∧ (a c.driver).1 = .ok result := by
  rw [perform_apply]
  cases c.hasDatabase with
  | false => simp
  | true => rcases (a c.driver).1 with _ | _ <;> simp [Except.mapError]

end Store
end Docbase.Server
