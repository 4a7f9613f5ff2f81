import Docbase.Query.Basic

/-!
# Stages

The steps of which a query is planned to consist. A store takes a stage as a document with one
field, which `Stage.render` writes.
-/

namespace Docbase

inductive Stage
  | keep (filter : Document)
  /-- Writes to a field the documents of another collection that a field of this one refers to. -/
  | lookup (source : Value) (localField foreignField target : String) (pipeline : List Stage)
  | addFields (fields : Document)
  | project (fields : Document)
  | sort (keys : List (String × SortDirection))
  | skip (count : Int)
  | limit (count : Int)
  | count (field : String)

namespace Stage

mutual

def render : Stage → Value
  | keep filter => .doc [("$match", .doc filter)]
  | lookup source localField foreignField target pipeline =>
    .doc [("$lookup", .doc [("from", source), ("localField", .str localField),
      ("foreignField", .str foreignField), ("as", .str target),
      ("pipeline", .list (renderAll pipeline))])]
  | addFields fields => .doc [("$addFields", .doc fields)]
  | project fields => .doc [("$project", .doc fields)]
  | sort keys => .doc [("$sort", .doc (keys.map fun (path, d) => (path, .int d.sign)))]
  | skip n => .doc [("$skip", .int n)]
  | limit n => .doc [("$limit", .int n)]
  | count field => .doc [("$count", .str field)]

def renderAll : List Stage → List Value
  | [] => []
  | stage :: rest => render stage :: renderAll rest

end

end Stage
end Docbase
