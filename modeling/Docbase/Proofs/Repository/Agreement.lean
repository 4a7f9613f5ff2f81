import Docbase.Proofs.Memory.Reads
import Docbase.Proofs.Repository.Single

/-!
# Two ways to read

A store finds documents by a walk or by a pipeline, and a repository reads all documents by the one
and those of a query by the other. Both ways agree, and a read of one document gives the first of
those that a read of many gives.

* `Repository.reads_agree` is the theorem for every store, filter and query.
-/

namespace Docbase

namespace Memory.World

variable {α β γ : Type} {store collection : String} {filter : Value} {caller : Option SessionId}
  {w : World}

theorem check_reading_apply (f : Contents → Except Failure α) :
    (check store caller >>= fun _ => reading store f) w =
      match w.refusal store caller with
      | some failure => (.error failure, w)
      | none => (f (w.contents store), w) := by
  rw [check_bind_apply]
  cases w.refusal store caller with
  | some failure => rfl
  | none => rfl

theorem map_reading_congr {f : Contents → Except Failure α} {g : Contents → Except Failure β}
    {p : α → γ} {q : β → γ} (same : (f (w.contents store)).map p = (g (w.contents store)).map q) :
    (p <$> (check store caller >>= fun _ => reading store f)) w =
      (q <$> (check store caller >>= fun _ => reading store g)) w := by
  rw [Action.map_apply, Action.map_apply, check_reading_apply, check_reading_apply]
  cases w.refusal store caller with
  | some failure => rfl
  | none => exact congrArg (·, w) same

theorem walks_agree (tested : ∀ d ∈ (w.contents store).documents collection, ∃ answer,
      Filter.holds (.doc d) filter = .ok answer) (limit : Nat) :
    query store collection filter (.int limit) caller w =
        aggregate store collection
          (Contents.matching filter (Pipeline.boundStages .limit (some ↑limit))) caller w ∧
      find store collection filter caller w =
        (List.head? <$> query store collection filter (.int limit) caller) w ∧
      ∀ field, (Value.ofNat <$> count store collection filter caller) w =
        (Contents.reported field <$> aggregate store collection
          (Contents.matching filter [.count field]) caller) w := by
  refine ⟨?_, ?_, fun field => ?_⟩
  · rw [query, aggregate, check_reading_apply, check_reading_apply,
      Contents.aggregate_limit tested]
  · have head : (Contents.find collection filter (w.contents store)).map id =
        (Contents.query collection filter (.int limit) (w.contents store)).map List.head? := by
      rw [Contents.find, Contents.findIn_eq tested, Contents.query_eq tested]
      split
      · rename_i positive
        simp only [Except.map, id_eq, List.head?_take, Nat.pos_iff_ne_zero.1 positive, if_false]
      · rfl
    show (check store caller >>= fun _ => reading store (Contents.find collection filter)) w = _
    rw [← id_map (check store caller >>= fun _ => reading store (Contents.find collection filter))]
    exact map_reading_congr head
  · exact map_reading_congr (Contents.aggregate_count tested field).symm

end Memory.World

namespace Repository

open Memory (World SessionId listed)

variable {store : String} {r : Repository World SessionId} {caller : Option SessionId} {w : World}
  {input : QueryInput} {page : Page}

theorem answers_first (stored : r.backend = Memory.backend store)
    (accepted : w.refusal store caller = none) :
    r.answers true caller none w =
      (.ok (listed .doc ((w.contents store).documents r.name).head?.toList,
        .ofNat ((w.contents store).documents r.name).length), w) := by
  have total : (Memory.backend store).count r.name caller w =
      (.ok (.ofNat ((w.contents store).documents r.name).length), w) := by
    rw [Memory.count_eq, Memory.answering_apply, accepted]
    dsimp only
    rw [Memory.Contents.count_null]
    rfl
  have first : (Memory.backend store).first r.name caller w =
      (.ok ((((w.contents store).documents r.name).head?.map .doc).getD .null), w) := by
    rw [Memory.first_eq, Memory.answering_apply, accepted]
    dsimp only
    rw [Memory.Contents.find, Memory.Contents.findIn_eq fun _ _ => ⟨true, rfl⟩,
      Filter.satisfying_null]
    rfl
  rw [answers, attributing_apply, stored]
  simp only [if_true, Action.bind_apply, total, first]
  cases ((w.contents store).documents r.name).head? with
  | none => rfl
  | some d => rfl

theorem findSingle_null (stored : r.backend = Memory.backend store)
    (accepted : w.refusal store caller = none) :
    (r.findSingle (.data .null) caller w).1 =
      r.firstOf (.data .null) ((w.contents store).documents r.name) := by
  have found : r.find true (.data .null) caller w =
      (.ok { documents := (((w.contents store).documents r.name).head?.toList).map
               r.identity.toExternal
             total := .ofNat ((w.contents store).documents r.name).length }, w) := by
    rw [find, Action.bind_apply]
    dsimp only [QueryInput.read, Action.liftM_apply]
    rw [Action.bind_apply, answers_first stored accepted]
    change (List.mapM (fun d => (do r.external d : Action World Document))
      (((w.contents store).documents r.name).head?.toList.map .doc) >>= fun documents =>
        pure (Page.mk documents _)) w = _
    rw [Action.bind_apply, mapM_external]
    rfl
  rw [findSingle, Action.bind_apply, found]
  cases (w.contents store).documents r.name with
  | nil => rfl
  | cons d rest => rfl

theorem findSingle_of_findMany (stored : r.backend = Memory.backend store)
    (found : (r.findMany input caller w).1 = .ok page) :
    ∃ all, (r.findMany input.unpaged caller w).1 = .ok all ∧
      (r.findSingle input caller w).1 =
        match all.documents with
        | [] => .error (.notFound r.name input)
        | d :: _ => .ok d := by
  obtain ⟨query, read⟩ := read_of_findMany found
  obtain ⟨accepted, documents, total, run, rfl⟩ := (findMany_eq_ok stored read).1 found
  have unpaged := QueryInput.read_unpaged read
  have first (documents : List Document) : r.firstOf input documents =
      match documents.map r.identity.toExternal with
      | [] => .error (.notFound r.name input)
      | d :: _ => .ok d := by
    cases documents with
    | nil => rfl
    | cons d rest => rfl
  cases query with
  | none =>
    obtain ⟨rfl, -⟩ | ⟨_, -, absurd⟩ | ⟨_, _, -, -, absurd⟩ := QueryInput.read_cases read
    · refine ⟨_, findMany_everything stored accepted unpaged rfl, ?_⟩
      rw [findSingle_null stored accepted]
      exact first _
    · cases absurd
    · cases absurd
  | some q =>
    have all : ∃ documents, results r.identity
        (fun other => (w.contents store).documents other) ((w.contents store).documents r.name)
        { q with skip := none, limit := none } = .ok (documents, total) := by
      obtain ⟨filter, shape, kept, shaped, filtered, shapes, keeps, shaping, -, rfl⟩ :=
        results_eq_ok.1 run
      exact ⟨_, results_eq_ok.2
        ⟨filter, shape, kept, shaped, filtered, shapes, keeps, shaping, rfl, rfl⟩⟩
    obtain ⟨documents, all⟩ := all
    refine ⟨_, (findMany_eq_ok stored unpaged).2 ⟨accepted, _, _, all, rfl⟩, ?_⟩
    rw [findSingle_of_results stored read accepted all]
    exact first documents

/-- The two ways to read a store agree. -/
theorem reads_agree (stored : r.backend = Memory.backend store) (caller : Option SessionId)
    (w : World) :
    (∀ collection filter, (∀ d ∈ (w.contents store).documents collection, ∃ answer,
        Filter.holds (.doc d) filter = .ok answer) → ∀ limit : Nat,
      World.query store collection filter (.int limit) caller w =
          World.aggregate store collection (Memory.Contents.matching filter
            (Pipeline.boundStages .limit (some ↑limit))) caller w ∧
        World.find store collection filter caller w =
          (List.head? <$> World.query store collection filter (.int limit) caller) w ∧
        ∀ field, (Value.ofNat <$> World.count store collection filter caller) w =
          (Memory.Contents.reported field <$> World.aggregate store collection
            (Memory.Contents.matching filter [.count field]) caller) w) ∧
      (w.refusal store caller = none →
        (∃ page, (r.findMany (.data .null) caller w).1 = .ok page ∧
          (r.findMany (.data (.doc [])) caller w).1 = .ok page) ∧
        ∃ total, (r.count .null caller w).1 = .ok total ∧
          (r.count (.doc []) caller w).1 = .ok total) ∧
      ∀ input page, (r.findMany input caller w).1 = .ok page →
        ∃ all, (r.findMany input.unpaged caller w).1 = .ok all ∧
          (r.findSingle input caller w).1 =
            match all.documents with
            | [] => .error (.notFound r.name input)
            | d :: _ => .ok d := by
  refine ⟨fun collection filter tested => World.walks_agree tested, fun accepted => ⟨?_, ?_⟩,
    fun input page => findSingle_of_findMany stored⟩
  · have noQuery : (QueryInput.data (.doc [])).read = .ok (some {}) := by with_unfolding_all rfl
    exact ⟨_, findMany_everything stored accepted rfl rfl,
      findMany_everything stored accepted noQuery rfl⟩
  · have noClause : Plan.filterStages r.identity (.doc []) = .ok [] := by with_unfolding_all rfl
    exact ⟨_, (count_eq_ok stored).2 ⟨accepted, [], _, Plan.filterStages_null _, rfl, rfl⟩,
      (count_eq_ok stored).2 ⟨accepted, [], _, noClause, rfl, rfl⟩⟩

/-- The first note by one author, all notes, and the note with the highest rank. -/
theorem reads_agree_notes :
    World.query "main" "notes" (.doc [("by", .str "ann")]) (.int 1) none notebook =
        World.aggregate "main" "notes" (Memory.Contents.matching (.doc [("by", .str "ann")])
          [.limit 1]) none notebook ∧
      (∃ page, (notes.findMany (.data .null) none notebook).1 = .ok page ∧
        (notes.findMany (.data (.doc [])) none notebook).1 = .ok page) ∧
      ∃ all, (notes.findMany (.built { ranked with skip := none, limit := none }) none
          notebook).1 = .ok all ∧
        (notes.findSingle (.built { ranked with skip := some 1 }) none notebook).1 =
          match all.documents with
          | [] => .error (.notFound "notes" (.built { ranked with skip := some 1 }))
          | d :: _ => .ok d := by
  have tests : ((notebook.contents "main").documents "notes").all (fun d =>
      (Filter.holds (.doc d) (.doc [("by", .str "ann")])).isOk) = true := by decide +kernel
  have returns : (notes.findMany (.built { ranked with skip := some 1 }) none notebook).1.isOk =
      true := by decide +kernel
  obtain ⟨page, found⟩ := Except.exists_ok returns
  obtain ⟨walks, unqueried, single⟩ := reads_agree (r := notes) rfl none notebook
  obtain ⟨query, -, -⟩ := walks "notes" (.doc [("by", .str "ann")])
    (fun d mem => Except.exists_ok (List.all_eq_true.1 tests d mem)) 1
  exact ⟨query, (unqueried rfl).1, single _ page found⟩

end Repository
end Docbase
