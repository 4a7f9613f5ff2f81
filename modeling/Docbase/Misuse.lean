/-!
# Misuse

The ways in which an operation can meet a value it was not made for. A misuse carries no words of
its own; failures that do are in `Docbase.Failure`.
-/

namespace Docbase

inductive Misuse
  | wrongType
  /-- The value does not have the part that was asked for. -/
  | noSuchPart
  | missingField
  | badValue
  | badPattern
  deriving DecidableEq, Repr, Inhabited

end Docbase
