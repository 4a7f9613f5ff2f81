import Docbase.Action

/-!
# Drivers of database servers

What a store on a database server needs from the driver of that server. Sessions, filters and
documents are handed through as they are, and answers are values of whatever kind the driver gives.
-/

namespace Docbase.Server

/-- A driver over a state `σ`. Its operations on documents take the name of a collection, and a
session or null. -/
structure Driver (σ : Type) where
  connect : Document → Action σ Unit
  ping : Action σ Unit
  selectDatabase : Value → Action σ Unit
  close : Action σ Unit
  startSession : Action σ Value
  insertOne : String → (document session : Value) → Action σ Value
  insertMany : String → (documents ordered session : Value) → Action σ Value
  findOne : String → (filter session : Value) → Action σ Value
  find : String → (filter session : Value) → Action σ (List Value)
  limit : (count : Value) → Action σ Unit
  aggregate : String → (pipeline session : Value) → Action σ (List Value)
  drain : Action σ Unit
  count : String → (filter session : Value) → Action σ Value
  updateMany : String → (filter update session : Value) → Action σ Value
  deleteMany : String → (filter session : Value) → Action σ Value
  indexes : String → Action σ Value
  createIndex : String → (keys : List Value) → (unique : Value) → Action σ Value

end Docbase.Server
