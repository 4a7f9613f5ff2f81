import Docbase.Memory.Backend
import Docbase.Proofs.Memory.Run
import Docbase.Proofs.Pipeline.Run
import Docbase.Repository

namespace Docbase

open Memory (World SessionId backend listed)

/-! ## Answers of the backend -/

namespace Memory

variable {store collection : String} {caller : Option SessionId} {w : World}

def answering {α : Type} (store : String) (caller : Option SessionId) (toValue : α → Value)
    (f : Contents → Except Failure α) : Action World Value :=
  toValue <$> (World.check store caller >>= fun _ => World.reading store f)

theorem answering_apply {α : Type} (toValue : α → Value) (f : Contents → Except Failure α) :
    answering store caller toValue f w =
      match w.refusal store caller with
      | some failure => (.error failure, w)
      | none => ((f (w.contents store)).map toValue, w) := by
  rw [answering, Action.map_apply, World.check_bind_apply]
  cases w.refusal store caller with
  | some failure => rfl
  | none => rfl

theorem answering_snd {α : Type} (toValue : α → Value) (f : Contents → Except Failure α) :
    (answering store caller toValue f w).2 = w := by
  rw [answering_apply]
  cases w.refusal store caller with
  | some failure => rfl
  | none => rfl

theorem answering_eq_ok {α : Type} {toValue : α → Value} {f : Contents → Except Failure α}
    {v : Value} :
    (answering store caller toValue f w).1 = .ok v ↔
      w.refusal store caller = none ∧ ∃ a, f (w.contents store) = .ok a ∧ v = toValue a := by
  rw [answering_apply]
  cases w.refusal store caller with
  | some failure => exact ⟨nofun, fun h => nomatch h.1⟩
  | none =>
    cases f (w.contents store) with
    | error failure => exact ⟨nofun, fun ⟨_, _, h, _⟩ => nomatch h⟩
    | ok a =>
      refine ⟨fun h => ⟨rfl, a, rfl, (Except.ok.inj h).symm⟩, ?_⟩
      rintro ⟨-, _, h, rfl⟩
      obtain rfl := Except.ok.inj h
      rfl

theorem aggregate_eq (stages : List Stage) :
    (backend store).aggregate collection stages caller =
      answering store caller (listed .doc)
        (Contents.aggregate collection (.list (Stage.renderAll stages))) := rfl

theorem count_eq :
    (backend store).count collection caller =
      answering store caller .ofNat (Contents.count collection .null) := rfl

theorem all_eq :
    (backend store).all collection caller =
      answering store caller (listed .doc) (Contents.query collection .null (.int 0)) := rfl

theorem first_eq :
    (backend store).first collection caller =
      answering store caller (fun found => (found.map .doc).getD .null)
        (Contents.find collection .null) := rfl

namespace Contents

variable {contents : Contents}

theorem aggregate_eq_ok {stages : List Stage} {found : List Document} :
    contents.aggregate collection (.list (Stage.renderAll stages)) = .ok found ↔
      ∃ drafts, Pipeline.runStages (fun other => contents.documents other)
        (Stage.renderAll stages) ((contents.documents collection).map .ofDocument) =
          .ok drafts ∧ found = drafts.map Draft.document := by
  rw [aggregate, Pipeline.run, Pipeline.runValue, Except.bind_eq_ok]
  exact exists_congr fun _ => and_congr_right fun _ => Except.pure_eq_ok.trans eq_comm

theorem select_null (documents : List Document) :
    Filter.select .null documents = .ok documents := by
  refine Except.filterM_eq_ok.2 ⟨fun d _ => ⟨true, rfl⟩, ?_⟩
  exact (List.filter_true documents).symm

theorem count_null :
    contents.count collection .null = .ok (contents.documents collection).length := by
  rw [count, select_null]
  rfl

theorem queryIn_null (found : Nat) (documents : List Document) :
    queryIn .null (.int 0) found documents = .ok documents := by
  induction documents generalizing found with
  | nil => rfl
  | cons d rest ih =>
    change (do return d :: (← queryIn .null (.int 0) (found + 1) rest)) = _
    rw [ih]
    rfl

theorem query_null :
    contents.query collection .null (.int 0) = .ok (contents.documents collection) :=
  queryIn_null 0 _

end Contents
end Memory

namespace Repository

variable {σ ι α : Type} {r : Repository σ ι}

theorem attributing_apply (operation : String) (payload : Value) (a : Action σ α) (s : σ) :
    r.attributing operation payload a s =
      ((a s).1.mapError (attributed r.name operation payload), (a s).2) := by
  rw [attributing, Action.bind_apply, Action.attempt_apply]
  cases (a s).1 with
  | error failure => rfl
  | ok result => rfl

theorem attributing_eq_ok {operation : String} {payload : Value} {a : Action σ α} {s : σ}
    {result : α} :
    (r.attributing operation payload a s).1 = .ok result ↔ (a s).1 = .ok result := by
  rw [attributing_apply]
  cases (a s).1 with
  | error failure => exact ⟨nofun, nofun⟩
  | ok result => exact Iff.rfl

theorem mapM_external (documents : List Document) (s : σ) :
    ((documents.map Value.doc).mapM fun d => (do r.external d : Action σ Document)) s =
      (.ok (documents.map r.identity.toExternal), s) := by
  induction documents with
  | nil => rfl
  | cons d rest ih =>
    have here : (do r.external (.doc d) : Action σ Document) s =
        (.ok (r.identity.toExternal d), s) := rfl
    rw [List.map_cons, List.mapM_cons, Action.bind_apply, here]
    dsimp only
    rw [Action.bind_apply, ih]
    rfl

/-! ## Results -/

/-- The documents that a query asks for, under the names that are stored, and how many the filter
keeps. -/
def results (identity : Identity) (foreign : String → List Document) (documents : List Document)
    (q : Query) : Except Failure (List Document × Nat) := do
  let filter ← Plan.filterStages identity (Predicate.clause q.filter)
  let shape ← Plan.shaping identity q
  let kept ← Pipeline.runStages foreign (Stage.renderAll filter) (documents.map .ofDocument)
  let shaped ← Pipeline.runStages foreign (Stage.renderAll shape) kept
  return ((Pipeline.cut q.skip q.limit shaped).map Draft.document, kept.length)

theorem results_eq_ok {identity : Identity} {foreign : String → List Document}
    {documents : List Document} {q : Query} {found : List Document} {total : Nat} :
    results identity foreign documents q = .ok (found, total) ↔
      ∃ filter shape kept shaped,
        Plan.filterStages identity (Predicate.clause q.filter) = .ok filter ∧
        Plan.shaping identity q = .ok shape ∧
        Pipeline.runStages foreign (Stage.renderAll filter) (documents.map .ofDocument) =
          .ok kept ∧
        Pipeline.runStages foreign (Stage.renderAll shape) kept = .ok shaped ∧
        found = (Pipeline.cut q.skip q.limit shaped).map Draft.document ∧
        total = kept.length := by
  simp only [results, Except.bind_eq_ok, Except.pure_eq_ok, Prod.mk.injEq]
  constructor
  · rintro ⟨filter, hf, shape, hs, kept, hk, shaped, hd, rfl, rfl⟩
    exact ⟨filter, shape, kept, shaped, hf, hs, hk, hd, rfl, rfl⟩
  · rintro ⟨filter, shape, kept, shaped, hf, hs, hk, hd, rfl, rfl⟩
    exact ⟨filter, hf, shape, hs, kept, hk, shaped, hd, rfl, rfl⟩

theorem results_empty (identity : Identity) (foreign : String → List Document)
    (documents : List Document) :
    results identity foreign documents {} = .ok (documents, documents.length) := by
  refine results_eq_ok.2 ⟨[], [], documents.map .ofDocument, documents.map .ofDocument,
    Plan.filterStages_null identity, rfl, rfl, rfl, ?_, (List.length_map _).symm⟩
  rw [Pipeline.cut_of_nonpos (Int.le_refl _) (Int.le_refl _), Draft.map_document_ofDocument]

section

variable {store : String} {r : Repository World SessionId} {caller : Option SessionId} {w : World}

theorem total_eq_ok (stored : r.backend = Memory.backend store) {stages : List Stage} {n : Int} :
    (r.total (stages ++ [.count Plan.totalField]) caller w).1 = .ok n ↔
      w.refusal store caller = none ∧ ∃ kept,
        Pipeline.runStages (fun other => (w.contents store).documents other)
          (Stage.renderAll stages) (((w.contents store).documents r.name).map .ofDocument) =
            .ok kept ∧ n = kept.length := by
  have counts (kept : List Draft) :
      ∃ results, Pipeline.runStages (fun other => (w.contents store).documents other)
        (Stage.renderAll [.count Plan.totalField]) kept = .ok results ∧
        Answer.total (listed .doc (results.map Draft.document)) = .ok (kept.length : Int) := by
    rw [Pipeline.runStages_singleton, Pipeline.runStage_count]
    cases kept with
    | nil => exact ⟨[], rfl, rfl⟩
    | cons d rest => exact ⟨_, rfl, rfl⟩
  rw [total, stored, Memory.aggregate_eq, Action.bind_eq_ok, Memory.answering_snd]
  simp only [Action.liftMisuse_eq_ok, Memory.answering_eq_ok, Memory.Contents.aggregate_eq_ok,
    Pipeline.runStages_append, Except.bind_eq_ok]
  constructor
  · rintro ⟨_, ⟨accepted, _, ⟨drafts, ⟨kept, keeps, counted⟩, rfl⟩, rfl⟩, totalled⟩
    obtain ⟨drafts', counted', totalled'⟩ := counts kept
    obtain rfl := Except.ok.inj (counted.symm.trans counted')
    exact ⟨accepted, kept, keeps, Except.ok.inj (totalled.symm.trans totalled')⟩
  · rintro ⟨accepted, kept, keeps, rfl⟩
    obtain ⟨drafts, counted, totalled⟩ := counts kept
    exact ⟨_, ⟨accepted, _, ⟨drafts, ⟨kept, keeps, counted⟩, rfl⟩, rfl⟩, totalled⟩

theorem total_snd (stored : r.backend = Memory.backend store) (stages : List Stage) :
    (r.total stages caller w).2 = w := by
  have unchanged : (Memory.answering store caller (listed .doc)
      (Memory.Contents.aggregate r.name (.list (Stage.renderAll stages))) w).2 = w :=
    Memory.answering_snd _ _
  rw [total, stored, Memory.aggregate_eq, Action.bind_apply]
  rcases run : Memory.answering _ _ _ _ w with ⟨_ | _, w'⟩ <;> rw [run] at unchanged <;>
    exact unchanged

theorem answers_eq_ok (stored : r.backend = Memory.backend store) {query : Option Query}
    {answer : Value × Value} :
    (r.answers false caller query w).1 = .ok answer ↔
      w.refusal store caller = none ∧ ∃ found total,
        results r.identity (fun other => (w.contents store).documents other)
          ((w.contents store).documents r.name) (query.getD {}) = .ok (found, total) ∧
        answer = (listed .doc found, .int total) := by
  cases query with
  | none =>
    simp only [answers, attributing_eq_ok, Action.bind_eq_ok, stored, Memory.count_eq,
      Memory.all_eq, Memory.answering_snd, Memory.answering_eq_ok, Memory.Contents.count_null,
      Memory.Contents.query_null, Option.getD_none, results_empty, Action.pure_apply,
      Bool.false_eq_true, if_false]
    constructor
    · rintro ⟨_, ⟨accepted, n, counted, rfl⟩, _, ⟨-, found, all, rfl⟩, h⟩
      obtain rfl := Except.ok.inj counted
      obtain rfl := Except.ok.inj all
      exact ⟨accepted, _, _, rfl, (Except.ok.inj h).symm⟩
    · rintro ⟨accepted, found, total, h, rfl⟩
      obtain ⟨rfl, rfl⟩ := Prod.mk.inj (Except.ok.inj h)
      exact ⟨_, ⟨accepted, _, rfl, rfl⟩, _, ⟨accepted, _, rfl, rfl⟩, rfl⟩
  | some q =>
    simp only [answers, Action.bind_eq_ok, Action.liftM_apply, attributing_eq_ok, stored,
      total_snd stored, Memory.aggregate_eq, Memory.answering_eq_ok,
      Memory.Contents.aggregate_eq_ok, Option.getD_some, Action.pure_apply, results_eq_ok,
      Plan.ofQuery_eq_ok]
    constructor
    · rintro ⟨_, ⟨filter, shape, filtered, shaped, rfl⟩, total, counted, _,
        ⟨accepted, _, ⟨drafts, run, rfl⟩, rfl⟩, h⟩
      obtain ⟨-, kept, keeps, rfl⟩ := (total_eq_ok stored).1 counted
      rw [Pipeline.runStages_append, Pipeline.runStages_append, keeps] at run
      obtain ⟨shapes, shapes_eq, cuts⟩ := Except.bind_eq_ok.1 run
      rw [Pipeline.runStages_pageStages] at cuts
      obtain rfl := Except.ok.inj cuts
      exact ⟨accepted, _, _, ⟨filter, shape, kept, shapes, filtered, shaped, keeps, shapes_eq,
        rfl, rfl⟩, (Except.ok.inj h).symm⟩
    · rintro ⟨accepted, _, _, ⟨filter, shape, kept, shapes, filtered, shaped, keeps, shapes_eq,
        rfl, rfl⟩, rfl⟩
      have counted := (total_eq_ok stored).2 ⟨accepted, kept, keeps, rfl⟩
      refine ⟨_, ⟨filter, shape, filtered, shaped, rfl⟩, _, counted, _,
        ⟨accepted, _, ⟨_, ?_, rfl⟩, rfl⟩, rfl⟩
      rw [Pipeline.runStages_append, Pipeline.runStages_append, keeps]
      exact Except.bind_eq_ok.2 ⟨shapes, shapes_eq, Pipeline.runStages_pageStages _ _ _⟩

/-- What a read without failure returns. -/
theorem findMany_eq_ok (stored : r.backend = Memory.backend store) {input : QueryInput}
    {query : Option Query} (read : input.read = .ok query) {page : Page} :
    (r.findMany input caller w).1 = .ok page ↔
      w.refusal store caller = none ∧ ∃ found total,
        results r.identity (fun other => (w.contents store).documents other)
          ((w.contents store).documents r.name) (query.getD {}) = .ok (found, total) ∧
        page = { documents := found.map r.identity.toExternal, total := .int total } := by
  simp only [findMany, find, read, Action.bind_eq_ok, Action.liftM_apply, answers_eq_ok stored]
  constructor
  · rintro ⟨_, h, _, ⟨accepted, found, total, run, rfl⟩, members, listed, shown, external, returned⟩
    obtain rfl := Except.ok.inj h
    obtain rfl := Except.ok.inj (Action.liftMisuse_eq_ok.1 listed)
    rw [mapM_external] at external
    obtain rfl := Except.ok.inj external
    exact ⟨accepted, found, total, run, (Except.ok.inj returned).symm⟩
  · rintro ⟨accepted, found, total, run, rfl⟩
    refine ⟨query, rfl, _, ⟨accepted, found, total, run, rfl⟩, found.map .doc, rfl,
      found.map r.identity.toExternal, ?_, rfl⟩
    rw [mapM_external]

def everything (r : Repository World SessionId) (store : String) (w : World) : Page :=
  { documents := ((w.contents store).documents r.name).map r.identity.toExternal
    total := .int ((w.contents store).documents r.name).length }

theorem findMany_everything (stored : r.backend = Memory.backend store)
    (accepted : w.refusal store caller = none) {input : QueryInput} {query : Option Query}
    (read : input.read = .ok query) (nothing : query.getD {} = {}) :
    (r.findMany input caller w).1 = .ok (r.everything store w) := by
  refine (findMany_eq_ok stored read).2 ⟨accepted, _, _, ?_, rfl⟩
  rw [nothing]
  exact results_empty _ _ _

theorem read_of_findMany {σ ι : Type} {r : Repository σ ι} {caller : Option ι} {s : σ}
    {input : QueryInput} {page : Page} (h : (r.findMany input caller s).1 = .ok page) :
    ∃ query, input.read = .ok query := by
  obtain ⟨query, read, -⟩ := Action.bind_eq_ok.1 h
  exact ⟨query, read⟩

theorem count_eq_ok (stored : r.backend = Memory.backend store) {clause n : Value} :
    (r.count clause caller w).1 = .ok n ↔
      w.refusal store caller = none ∧ ∃ filter kept,
        Plan.filterStages r.identity clause = .ok filter ∧
        Pipeline.runStages (fun other => (w.contents store).documents other)
          (Stage.renderAll filter) (((w.contents store).documents r.name).map .ofDocument) =
            .ok kept ∧
        n = .int kept.length := by
  by_cases absent : clause = .null
  · subst absent
    simp only [count, attributing_eq_ok, stored, Memory.count_eq, Memory.answering_eq_ok,
      Memory.Contents.count_null, Plan.filterStages_null]
    constructor
    · rintro ⟨accepted, _, counted, rfl⟩
      obtain rfl := Except.ok.inj counted
      refine ⟨accepted, [], _, rfl, rfl, ?_⟩
      rw [List.length_map]
      rfl
    · rintro ⟨accepted, filter, kept, planned, keeps, rfl⟩
      obtain rfl := Except.ok.inj planned
      obtain rfl := Except.ok.inj keeps
      refine ⟨accepted, _, rfl, ?_⟩
      rw [List.length_map]
      rfl
  · rw [count]
    · simp only [Action.bind_eq_ok, Action.liftM_apply, attributing_eq_ok, Action.pure_apply]
      constructor
      · rintro ⟨_, planned, total, counted, h⟩
        obtain ⟨filter, filtered, h'⟩ := Except.bind_eq_ok.1 planned
        obtain rfl := Except.pure_eq_ok.1 h'
        obtain ⟨accepted, kept, keeps, rfl⟩ := (total_eq_ok stored).1 counted
        exact ⟨accepted, filter, kept, filtered, keeps, (Except.ok.inj h).symm⟩
      · rintro ⟨accepted, filter, kept, filtered, keeps, rfl⟩
        have planned : Plan.counting r.identity clause =
            .ok (filter ++ [.count Plan.totalField]) :=
          Except.bind_eq_ok.2 ⟨filter, filtered, rfl⟩
        exact ⟨_, planned, _, (total_eq_ok stored).2 ⟨accepted, kept, keeps, rfl⟩, rfl⟩
    · exact absent

end

/-! ## A store to read from -/

def records (documents : List Document) : List (Value × Document) :=
  documents.map fun d => (Value.field "_id" d, d)

def notebook : World :=
  (World.empty true).setContents "main" { collections := [
    ("notes", { records := records [
      [("_id", .str "a"), ("by", .str "ann"), ("rank", .int 1)],
      [("_id", .str "b"), ("by", .str "bob")],
      [("_id", .str "c"), ("by", .str "ann"), ("rank", .int 2)]] }),
    ("authors", { records := records [
      [("_id", .str "ann"), ("name", .str "Ann")],
      [("_id", .str "bob"), ("name", .str "Bob")]] })] }

def notes : Repository World SessionId :=
  { backend := Memory.backend "main", name := "notes", identity := default,
    newKey := return .null }

def ranked : Query where
  filter := some (.flat [("rank", .doc [("$gt", .int 0)])])
  select := some [.str "by", .str "place"]
  join := some [("by", { collection := .str "authors", select := some [.str "name"] })]
  sort := some [("place", .descending)]
  aliases := .doc [("place", .str "rank")]

end Repository
end Docbase
