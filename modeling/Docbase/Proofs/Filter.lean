import Docbase.Filter
import Docbase.Identity
import Docbase.Proofs.Action

namespace Docbase.Filter

variable {d : Value} {key : String} {rest : List (String × Value)}

def holdsList (d : Value) : Connective → List Value → Except Failure Bool
  | .and, filters => holdsEvery d filters
  | .or, filters => holdsSome d filters
  | .nor, filters => Bool.not <$> holdsSome d filters

theorem holdsFields_nil : holdsFields d [] = .ok true := rfl

theorem holdsFields_list {connective : Connective}
    (known : Connective.ofKey? key = some connective) (filters : List Value) :
    holdsFields d ((key, .list filters) :: rest) = (do
      if ← holdsList d connective filters then holdsFields d rest else return false) := by
  rw [holdsFields.eq_def]
  simp only [known]
  cases connective <;> rfl

theorem holdsFields_path (plain : Connective.ofKey? key = none) (field : isOperator key = false)
    (condition : Value) :
    holdsFields d ((key, condition) :: rest) = (do
      if ← (do meets (← d.get key) condition) then holdsFields d rest else return false) := by
  rw [holdsFields.eq_def]
  simp only [plain, field, Bool.false_eq_true, if_false]

theorem holdsFields_operator (plain : Connective.ofKey? key = none)
    (operator : isOperator key = true) (condition : Value) :
    holdsFields d ((key, condition) :: rest) = .error (.unsupportedFilter key) := by
  rw [holdsFields.eq_def]
  simp only [plain, operator, if_true]
  rfl

theorem isSome_ofKey? (key : String) :
    (Connective.ofKey? key).isSome = Identity.isConnective key := by
  unfold Connective.ofKey? Identity.isConnective
  split <;> simp_all

theorem isOperator_of_ofKey? {connective : Connective}
    (known : Connective.ofKey? key = some connective) : isOperator key = true := by
  unfold Connective.ofKey? at known
  split at known
  · decide
  · decide
  · decide
  · cases known

/-! ## Mappings of a filter -/

mutual

/-- Whether a condition holds of every mapping that a filter is made of. -/
def everyMapping (p : Document → Bool) : Value → Bool
  | .doc fields => p fields && everyMappingOf p fields
  | _ => true

def everyMappingOf (p : Document → Bool) : List (String × Value) → Bool
  | [] => true
  | (key, .list items) :: rest =>
    (!Identity.isConnective key || everyMappingIn p items) && everyMappingOf p rest
  | _ :: rest => everyMappingOf p rest

def everyMappingIn (p : Document → Bool) : List Value → Bool
  | [] => true
  | v :: rest => everyMapping p v && everyMappingIn p rest

end

end Docbase.Filter
