import Docbase.Proofs.Repository.Reading

/-!
# Direct reads and pipelines

A store answers a read of its documents in two ways: by a walk that stops as soon as it has enough,
and by a pipeline. Where the filter can be tested on every document the two see the same ones.
-/

namespace Docbase

namespace Filter

def satisfying (filter : Value) (documents : List Document) : List Document :=
  documents.filter fun d => Except.accepts (holds (.doc d) filter)

variable {filter : Value} {d : Document} {documents : List Document}

theorem satisfying_cons_of_holds (h : holds (.doc d) filter = .ok true) :
    satisfying filter (d :: documents) = d :: satisfying filter documents :=
  List.filter_cons_of_pos (by rw [h]; rfl)

theorem satisfying_cons_of_not_holds (h : holds (.doc d) filter = .ok false) :
    satisfying filter (d :: documents) = satisfying filter documents :=
  List.filter_cons_of_neg (by rw [h]; nofun)

theorem select_eq (tested : ∀ d ∈ documents, ∃ answer, holds (.doc d) filter = .ok answer) :
    select filter documents = .ok (satisfying filter documents) :=
  Except.filterM_eq_ok.2 ⟨tested, rfl⟩

theorem satisfying_null (documents : List Document) : satisfying .null documents = documents :=
  List.filter_true documents

end Filter

namespace Place

theorem compare_ofInt (a b : Int) : (ofInt a).compare (ofInt b) = Ord.compare a b := by
  have positive : (0 : Int) < unitsPerOne := Int.natCast_pos.2 (by decide +kernel)
  simp only [ofInt, compare, Int.compare_eq_ite_lt, Int.mul_lt_mul_right positive]

end Place

namespace Memory.Contents

variable {name : String} {filter : Value} {contents : Contents} {documents : List Document}

theorem isEnough_int (limit found : Nat) :
    isEnough (.int limit) found = .ok (decide (0 < limit ∧ limit ≤ found)) := by
  have ordered : Value.order? (.int found) (.int limit) = some (Ord.compare (found : Int) limit) :=
    congrArg some (Place.compare_ofInt _ _)
  rcases Nat.eq_zero_or_pos limit with rfl | positive
  · rfl
  · have truthy : (Value.int limit).truthy = true := by
      simp only [Value.truthy, bne_iff_ne]
      omega
    simp only [isEnough, truthy, ordered, Bool.not_true, Bool.false_eq_true, if_false, positive,
      true_and]
    have notLess : (Ord.compare (found : Int) limit != .lt) = decide (limit ≤ found) := by
      rw [Int.compare_eq_ite_lt]
      by_cases less : found < limit
      · simp [less]
      · simp only [Int.ofNat_lt, less, if_false, Nat.not_lt.1 less, decide_true]
        split
        · rfl
        · rfl
    rw [notLess]
    rfl

theorem findIn_eq (tested : ∀ d ∈ documents, ∃ answer, Filter.holds (.doc d) filter = .ok answer) :
    findIn filter documents = .ok (Filter.satisfying filter documents).head? := by
  induction documents with
  | nil => rfl
  | cons d rest ih =>
    obtain ⟨⟨answer, here⟩, there⟩ := List.forall_mem_cons.1 tested
    change (Filter.holds (.doc d) filter >>= fun b => if b then _ else findIn filter rest) = _
    rw [here]
    cases answer with
    | true => rw [Filter.satisfying_cons_of_holds here]; rfl
    | false => rw [Filter.satisfying_cons_of_not_holds here]; exact ih there

/-- A walk that has found some documents goes on until it has found as many as the limit says. -/
theorem queryIn_eq (tested : ∀ d ∈ documents, ∃ answer, Filter.holds (.doc d) filter = .ok answer)
    {limit found : Nat} (room : 0 < limit → found < limit) :
    queryIn filter (.int limit) found documents =
      .ok (if 0 < limit then (Filter.satisfying filter documents).take (limit - found)
        else Filter.satisfying filter documents) := by
  induction documents generalizing found with
  | nil => simp [queryIn, Filter.satisfying]; rfl
  | cons d rest ih =>
    obtain ⟨⟨answer, here⟩, there⟩ := List.forall_mem_cons.1 tested
    rw [queryIn, here]
    cases answer with
    | false =>
      rw [Filter.satisfying_cons_of_not_holds here]
      exact ih there room
    | true =>
      rw [Filter.satisfying_cons_of_holds here]
      change (isEnough (.int limit) (found + 1) >>= fun enough => if enough then .ok [d]
        else queryIn filter (.int limit) (found + 1) rest >>= fun later => .ok (d :: later)) = _
      rw [isEnough_int]
      by_cases enough : 0 < limit ∧ limit ≤ found + 1
      · have last : limit - found = 1 := by omega
        simp only [enough, last]
        rfl
      · have more : 0 < limit → found + 1 < limit := by omega
        have left : 0 < limit → limit - found = limit - (found + 1) + 1 := by omega
        simp only [enough, decide_false]
        change (queryIn filter (.int limit) (found + 1) rest >>= fun later =>
          .ok (d :: later)) = _
        rw [ih there more]
        split
        · rename_i positive
          rw [left positive]
          rfl
        · rfl

theorem query_eq (tested : ∀ d ∈ contents.documents name, ∃ answer,
      Filter.holds (.doc d) filter = .ok answer) (limit : Nat) :
    contents.query name filter (.int limit) =
      .ok (if 0 < limit then (Filter.satisfying filter (contents.documents name)).take limit
        else Filter.satisfying filter (contents.documents name)) :=
  queryIn_eq tested fun positive => positive

theorem count_eq (tested : ∀ d ∈ contents.documents name, ∃ answer,
      Filter.holds (.doc d) filter = .ok answer) :
    contents.count name filter =
      .ok (Filter.satisfying filter (contents.documents name)).length := by
  rw [count, Filter.select_eq tested]
  rfl

/-! ## Pipelines that start with a filter -/

def matching (filter : Value) (stages : List Stage) : Value :=
  .list (.doc [("$match", filter)] :: Stage.renderAll stages)

theorem aggregate_matching (tested : ∀ d ∈ contents.documents name, ∃ answer,
      Filter.holds (.doc d) filter = .ok answer) (stages : List Stage) :
    contents.aggregate name (matching filter stages) =
      (Pipeline.runStages (fun other => contents.documents other) (Stage.renderAll stages)
        ((Filter.satisfying filter (contents.documents name)).map .ofDocument)).map
          (List.map Draft.document) := by
  have kept : ((contents.documents name).map Draft.ofDocument).filterM
      (fun d => Filter.holds d.value filter) =
        .ok ((Filter.satisfying filter (contents.documents name)).map .ofDocument) :=
    Pipeline.filterM_ofDocument.2 ⟨_, Filter.select_eq tested, rfl⟩
  change ((List.filterM (fun d : Draft => Filter.holds d.value filter) _ >>= fun drafts =>
    Pipeline.runStages _ (Stage.renderAll stages) drafts) >>= fun results => _) = _
  rw [kept]
  rfl

theorem aggregate_limit (tested : ∀ d ∈ contents.documents name, ∃ answer,
      Filter.holds (.doc d) filter = .ok answer) (limit : Nat) :
    contents.aggregate name (matching filter (Pipeline.boundStages .limit (some ↑limit))) =
      contents.query name filter (.int limit) := by
  rw [aggregate_matching tested, Pipeline.runStages_limit, query_eq tested, Pipeline.cut_map]
  simp only [Except.map, Draft.map_document_ofDocument, Pipeline.cut, Option.getD_none,
    Int.toNat_zero, List.drop_zero, Int.natCast_pos, Int.toNat_natCast]

/-- The number that a counting pipeline reports in a field; it yields no document for none. -/
def reported (field : String) : List Document → Value
  | [] => .int 0
  | d :: _ => Value.field field d

theorem aggregate_count (tested : ∀ d ∈ contents.documents name, ∃ answer,
      Filter.holds (.doc d) filter = .ok answer) (field : String) :
    (contents.aggregate name (matching filter [.count field])).map (reported field) =
      (contents.count name filter).map .ofNat := by
  rw [aggregate_matching tested, count_eq tested, Pipeline.runStages_singleton,
    Pipeline.runStage_count]
  cases kept : Filter.satisfying filter (contents.documents name) with
  | nil => rfl
  | cons d rest =>
    have shown : (Draft.ofDocument [(field, Value.int (rest.length + 1 : Nat))]).document =
        [(field, .int (rest.length + 1 : Nat))] := Draft.document_ofDocument _
    simp only [List.map_cons, List.isEmpty_cons, Bool.false_eq_true, if_false, Except.map,
      List.length_cons, List.length_map, List.map_nil, shown]
    rw [reported, Value.field, List.lookup_cons_self]
    rfl

end Memory.Contents
end Docbase
