import Docbase.Action
import Docbase.Pipeline.Stage

/-!
# Backends

What repositories and transactions need from a store. Each operation names the collection it works
on. The answers of a backend are values that it is not known to keep to a type, so what an answer
should be is said here, and what becomes of any other one by those who ask.

Sessions are handed from `Sessions.start` to the operations of a backend by whoever runs them.
-/

namespace Docbase

/-- A store over a state `σ`, with sessions from `ι`. -/
structure Backend (σ ι : Type) where
  insert : String → Document → Option ι → Action σ Value
  /-- Inserts each of some documents that can be inserted, and answers with the list of keys. -/
  insertEach : String → List Document → Option ι → Action σ Value
  update : String → Document → Document → Option ι → Action σ Value
  delete : String → Document → Option ι → Action σ Value
  count : String → Option ι → Action σ Value
  first : String → Option ι → Action σ Value
  all : String → Option ι → Action σ Value
  aggregate : String → List Stage → Option ι → Action σ Value
  hasUnique : String → List Value → Action σ Value
  createUnique : String → List Value → Action σ Unit

structure Sessions (σ ι : Type) where
  start : Action σ ι
  startTransaction : ι → Action σ Unit
  commitTransaction : ι → Action σ Unit
  abortTransaction : ι → Action σ Unit
  finish : ι → Action σ Unit

end Docbase
