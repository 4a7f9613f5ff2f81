import Docbase.Pipeline.Run
import Docbase.Proofs.Pipeline.Draft
import Docbase.Proofs.Query.Plan
import Docbase.Proofs.Sorting
import Mathlib.Data.List.Perm.Basic

namespace Docbase.Pipeline

variable {foreign : String → List Document} {κ : Type} {P : κ → Draft → Prop}

theorem runStages_append (stages others : List Stage) (drafts : List Draft) :
    runStages foreign (Stage.renderAll (stages ++ others)) drafts =
      runStages foreign (Stage.renderAll stages) drafts >>=
        runStages foreign (Stage.renderAll others) := by
  induction stages generalizing drafts with
  | nil => rfl
  | cons stage rest ih =>
    rw [List.cons_append, Stage.renderAll, Stage.renderAll, runStages, runStages]
    cases runStage foreign stage.render drafts with
    | error failure => rfl
    | ok next => exact ih next

theorem runStages_singleton (stage : Stage) (drafts : List Draft) :
    runStages foreign (Stage.renderAll [stage]) drafts = runStage foreign stage.render drafts := by
  change (runStage foreign stage.render drafts >>= fun next => .ok next) = _
  cases runStage foreign stage.render drafts with
  | error failure => rfl
  | ok next => rfl

/-! ## Single stages -/

theorem runStage_keep (filter : Document) (drafts : List Draft) :
    runStage foreign (Stage.render (.keep filter)) drafts =
      drafts.filterM fun d => Filter.holds d.value (.doc filter) := rfl

theorem runStage_addFields (fields : Document) (drafts : List Draft) :
    runStage foreign (Stage.render (.addFields fields)) drafts =
      drafts.mapM (addFields (.doc fields)) := rfl

theorem runStage_project (fields : Document) (drafts : List Draft) :
    runStage foreign (Stage.render (.project fields)) drafts =
      drafts.mapM (project (.doc fields)) := rfl

theorem runStage_skip (n : Int) (drafts : List Draft) :
    runStage foreign (Stage.render (.skip n)) drafts =
      .ok (drafts.drop (position drafts.length n)) := rfl

theorem runStage_limit (n : Int) (drafts : List Draft) :
    runStage foreign (Stage.render (.limit n)) drafts =
      .ok (drafts.take (position drafts.length n)) := rfl

theorem runStage_count (field : String) (drafts : List Draft) :
    runStage foreign (Stage.render (.count field)) drafts =
      if drafts.isEmpty then .ok []
      else .ok [.ofDocument [(field, .int drafts.length)]] := rfl

theorem runStage_lookup (foreign : String → List Document) (source : Value)
    (localField foreignField target : String) (pipeline : List Stage) (drafts : List Draft) :
    ∃ step : Draft → Except Failure Draft,
      runStage foreign (Stage.render (.lookup source localField foreignField target pipeline))
        drafts = drafts.mapM step ∧
      ∀ d result, step d = .ok result → ∃ found, result = d.setDrafts target found := by
  refine ⟨_, rfl, fun d result h => ?_⟩
  obtain ⟨referred, -, h⟩ := Except.bind_eq_ok.1 h
  obtain ⟨found, -, h⟩ := Except.bind_eq_ok.1 h
  exact ⟨found, (Except.ok.inj h).symm⟩

theorem runStage_sort {keys : List (String × SortDirection)} {drafts results : List Draft}
    (h : runStage foreign (Stage.render (.sort keys)) drafts = .ok results) :
    results.Perm drafts :=
  Sorting.sortM_perm h

/-! ## Filters -/

theorem filterM_ofDocument {filter : Value} {documents : List Document} {kept : List Draft} :
    (documents.map Draft.ofDocument).filterM (fun d => Filter.holds d.value filter) = .ok kept ↔
      ∃ selected, Filter.select filter documents = .ok selected ∧
        kept = selected.map .ofDocument := by
  have value_eq (d : Document) : (Draft.ofDocument d).value = .doc d :=
    congrArg Value.doc (Draft.document_ofDocument d)
  simp only [Filter.select, Except.filterM_eq_ok, List.forall_mem_map, List.filter_map,
    Function.comp_def, value_eq]
  constructor
  · rintro ⟨tested, rfl⟩
    exact ⟨_, ⟨tested, rfl⟩, rfl⟩
  · rintro ⟨_, ⟨tested, rfl⟩, rfl⟩
    exact ⟨tested, rfl⟩

theorem select_nil (documents : List Document) :
    Filter.select (.doc []) documents = .ok documents := by
  refine Except.filterM_eq_ok.2 ⟨fun d _ => ⟨true, rfl⟩, ?_⟩
  exact (List.filter_true documents).symm

/-- The stages of a filter keep the drafts of the documents that it selects. -/
theorem runStages_filterStages {identity : Identity} {clause : Value} {stages : List Stage}
    {documents : List Document} {kept : List Draft}
    (h : Plan.filterStages identity clause = .ok stages)
    (run : runStages foreign (Stage.renderAll stages) (documents.map .ofDocument) = .ok kept) :
    ∃ filter selected, Where.toFilter clause = .ok filter ∧
      Filter.select (.doc (identity.toInternal filter)) documents = .ok selected ∧
      kept = selected.map .ofDocument := by
  obtain ⟨filter, read, h⟩ := Except.bind_eq_ok.1 h
  obtain rfl := Except.pure_eq_ok.1 h
  rw [Except.liftFault_eq_ok] at read
  split at run
  · rename_i nothing
    rw [List.isEmpty_iff] at nothing
    obtain rfl := Except.ok.inj run
    exact ⟨filter, documents, read, by rw [nothing, select_nil], rfl⟩
  · rw [runStages_singleton, runStage_keep, filterM_ofDocument] at run
    obtain ⟨selected, select, rfl⟩ := run
    exact ⟨filter, selected, read, select, rfl⟩

/-! ## What is known of each draft -/

/-- If something is known of each draft before the stages, each by a key of its own, then the same
is known of those that come out, if in another order. -/
def Carries (foreign : String → List Document) (P : κ → Draft → Prop) (stages : List Stage) :
    Prop :=
  ∀ keys drafts results, List.Forall₂ P keys drafts →
    runStages foreign (Stage.renderAll stages) drafts = .ok results →
    ∃ others : List κ, others.Perm keys ∧ List.Forall₂ P others results

theorem carries_nil : Carries foreign P [] := by
  intro keys drafts results each run
  obtain rfl := Except.ok.inj run
  exact ⟨keys, .refl keys, each⟩

theorem Carries.append {stages others : List Stage} (first : Carries foreign P stages)
    (last : Carries foreign P others) : Carries foreign P (stages ++ others) := by
  intro keys drafts results each run
  rw [runStages_append] at run
  obtain ⟨between, run, run'⟩ := Except.bind_eq_ok.1 run
  obtain ⟨keys', perm, each⟩ := first keys drafts between each run
  obtain ⟨keys'', perm', each⟩ := last keys' between results each run'
  exact ⟨keys'', perm'.trans perm, each⟩

theorem carries_of_mem {stages : List Stage} (h : ∀ stage ∈ stages, Carries foreign P [stage]) :
    Carries foreign P stages := by
  induction stages with
  | nil => exact carries_nil
  | cons stage rest ih =>
    obtain ⟨here, there⟩ := List.forall_mem_cons.1 h
    exact here.append (ih there)

theorem forall₂_mapM {Q : κ → Draft → Prop} {step : Draft → Except Failure Draft}
    (moves : ∀ k d result, P k d → step d = .ok result → Q k result) {keys : List κ}
    {drafts results : List Draft} (each : List.Forall₂ P keys drafts)
    (run : drafts.mapM step = .ok results) : List.Forall₂ Q keys results := by
  have steps := Except.mapM_eq_ok.1 run
  clear run
  induction each generalizing results with
  | nil =>
    rw [List.forall₂_nil_left_iff.1 steps]
    exact .nil
  | cons here there ih =>
    obtain ⟨result, rest, first, others, rfl⟩ := List.forall₂_cons_left_iff.1 steps
    exact .cons (moves _ _ _ here first) (ih others)

theorem carries_mapM {stage : Stage}
    (h : ∀ drafts, ∃ step, runStage foreign stage.render drafts = drafts.mapM step ∧
      ∀ k d result, P k d → step d = .ok result → P k result) :
    Carries foreign P [stage] := by
  intro keys drafts results each run
  obtain ⟨step, stage_eq, keeps⟩ := h drafts
  rw [runStages_singleton, stage_eq] at run
  exact ⟨keys, .refl keys, forall₂_mapM keeps each run⟩

theorem carries_sort (keys : List (String × SortDirection)) :
    Carries foreign P [.sort keys] := by
  intro ks drafts results each run
  rw [runStages_singleton] at run
  have sorted : Relation.Comp (List.Forall₂ P) List.Perm ks results :=
    ⟨drafts, each, (runStage_sort run).symm⟩
  rw [List.forall₂_comp_perm_eq_perm_comp_forall₂] at sorted
  obtain ⟨others, perm, each⟩ := sorted
  exact ⟨others, perm.symm, each⟩

theorem carries_unlessEmpty {α : Type} {stage : List α → Stage} {fields : List α}
    (h : Carries foreign P [stage fields]) :
    Carries foreign P (Plan.unlessEmpty stage fields) := by
  rw [Plan.unlessEmpty]
  split
  · exact carries_nil
  · exact h

/-- The joins, the aliases and the projection of a query keep what is known of a draft. -/
structure Keeps (P : κ → Draft → Prop) (identity : Identity) (q : Query) : Prop where
  join : ∀ join ∈ q.join.getD [], ∀ k d found, P k d → P k (d.setDrafts join.1 found)
  aliases : ∀ fields, Plan.aliasFields identity q.aliases = .ok fields →
    ∀ k d result, P k d → addFields (.doc fields) d = .ok result → P k result
  projection : ∀ fields, Plan.projection identity (.tuple (q.select.getD [])) = .ok fields →
    ∀ k d result, P k d → project (.doc fields) d = .ok result → P k result

theorem lookupStage_eq_ok {identity : Identity} {conditions : Value} {field : String}
    {target : JoinTarget} {stage : Stage}
    (h : Plan.lookupStage identity conditions field target = .ok stage) :
    ∃ pipeline, stage = .lookup target.collection field identity.internal field pipeline := by
  obtain ⟨condition, -, h⟩ := Except.bind_eq_ok.1 h
  obtain ⟨filter, -, h⟩ := Except.bind_eq_ok.1 h
  obtain ⟨projection, -, h⟩ := Except.bind_eq_ok.1 h
  exact ⟨_, (Except.pure_eq_ok.1 h).symm⟩

theorem carries_shaping {identity : Identity} {q : Query} {shape : List Stage}
    (h : Plan.shaping identity q = .ok shape) (keeps : Keeps P identity q) :
    Carries foreign P shape := by
  obtain ⟨lookups, joined, h⟩ := Except.bind_eq_ok.1 h
  obtain ⟨aliases, aliased, h⟩ := Except.bind_eq_ok.1 h
  obtain ⟨projection, projected, h⟩ := Except.bind_eq_ok.1 h
  obtain rfl := Except.pure_eq_ok.1 h
  have joins : Carries foreign P lookups := by
    refine carries_of_mem fun stage mem => carries_mapM fun drafts => ?_
    obtain ⟨join, asked, planned⟩ := Except.mem_of_mapM_ok joined stage mem
    obtain ⟨pipeline, rfl⟩ := lookupStage_eq_ok planned
    obtain ⟨step, stage_eq, places⟩ := runStage_lookup foreign join.2.collection join.1
      identity.internal join.1 pipeline drafts
    refine ⟨step, stage_eq, fun k d result known run => ?_⟩
    obtain ⟨found, rfl⟩ := places d result run
    exact keeps.join join asked k d found known
  have adds : Carries foreign P [.addFields aliases] :=
    carries_mapM fun drafts => ⟨_, runStage_addFields aliases drafts, keeps.aliases _ aliased⟩
  have projects : Carries foreign P [.project projection] :=
    carries_mapM fun drafts =>
      ⟨_, runStage_project projection drafts, keeps.projection _ projected⟩
  exact ((joins.append (carries_unlessEmpty adds)).append (carries_unlessEmpty projects)).append
    (carries_unlessEmpty (carries_sort _))

theorem length_shaped {identity : Identity} {q : Query} {shape : List Stage}
    (h : Plan.shaping identity q = .ok shape) {kept shaped : List Draft}
    (run : runStages foreign (Stage.renderAll shape) kept = .ok shaped) :
    shaped.length = kept.length := by
  have keeps : Keeps (fun _ _ : Draft => True) identity q :=
    ⟨fun _ _ _ _ _ _ => trivial, fun _ _ _ _ _ _ _ => trivial, fun _ _ _ _ _ _ _ => trivial⟩
  have each : List.Forall₂ (fun _ _ : Draft => True) kept kept :=
    List.forall₂_same.2 fun _ _ => trivial
  obtain ⟨others, perm, each⟩ := carries_shaping h keeps kept kept shaped each run
  rw [← each.length_eq, perm.length_eq]

/-! ## Pages -/

/-- What is left of a list after some elements are skipped and no more than some are taken. A bound
that is not positive is none. -/
def cut {α : Type} (skip limit : Option Int) (xs : List α) : List α :=
  let rest := xs.drop (skip.getD 0).toNat
  match limit with
  | some n => if 0 < n then rest.take n.toNat else rest
  | none => rest

theorem cut_map {α β : Type} (f : α → β) (skip limit : Option Int) (xs : List α) :
    cut skip limit (xs.map f) = (cut skip limit xs).map f := by
  cases limit with
  | none => exact List.map_drop.symm
  | some n =>
    simp only [cut, ← List.map_drop, ← List.map_take]
    split
    · rfl
    · rfl

theorem forall₂_cut {α β : Type} {R : α → β → Prop} {xs : List α} {ys : List β}
    (related : List.Forall₂ R xs ys) (skip limit : Option Int) :
    List.Forall₂ R (cut skip limit xs) (cut skip limit ys) := by
  have rest := List.forall₂_drop (skip.getD 0).toNat related
  cases limit with
  | none => exact rest
  | some n =>
    simp only [cut]
    split
    · exact List.forall₂_take n.toNat rest
    · exact rest

theorem cut_of_nonpos {α : Type} {skip limit : Option Int} (noSkip : skip.getD 0 ≤ 0)
    (noLimit : limit.getD 0 ≤ 0) (xs : List α) : cut skip limit xs = xs := by
  have all : xs.drop (skip.getD 0).toNat = xs := by
    rw [Int.toNat_of_nonpos noSkip, List.drop_zero]
  cases limit with
  | none => exact all
  | some n =>
    have notPositive : ¬0 < n := Int.not_lt.2 noLimit
    simp only [cut, notPositive, if_false, all]

theorem mem_of_mem_cut {α : Type} {skip limit : Option Int} {xs : List α} {x : α}
    (h : x ∈ cut skip limit xs) : x ∈ xs := by
  cases limit with
  | none => exact List.mem_of_mem_drop h
  | some n =>
    simp only [cut] at h
    split at h
    · exact List.mem_of_mem_drop (List.mem_of_mem_take h)
    · exact List.mem_of_mem_drop h

theorem flatMap_cut {α : Type} {size : Nat} (positive : 0 < size) (count : Nat) (xs : List α) :
    ((List.range count).flatMap fun i => cut (some ↑(i * size)) (some ↑size) xs) =
      xs.take (count * size) := by
  induction count with
  | zero => simp
  | succ count ih =>
    have page : cut (some ↑(count * size)) (some ↑size) xs =
        (xs.drop (count * size)).take size := by
      simp only [cut, Option.getD_some, Int.toNat_natCast, Int.natCast_pos, positive, if_true]
    rw [List.range_succ, List.flatMap_append, ih, List.flatMap_singleton, page,
      Nat.succ_mul, List.take_add]

theorem position_of_pos {n : Int} (h : 0 < n) (length : Nat) : position length n = n.toNat :=
  if_pos (Int.le_of_lt h)

def boundStages (stage : Int → Stage) : Option Int → List Stage
  | some n => if 0 < n then [stage n] else []
  | none => []

theorem runStages_skip (skip : Option Int) (drafts : List Draft) :
    runStages foreign (Stage.renderAll (boundStages .skip skip)) drafts =
      .ok (drafts.drop (skip.getD 0).toNat) := by
  cases skip with
  | none => rfl
  | some n =>
    rw [boundStages, Option.getD_some]
    split
    · rename_i positive
      rw [runStages_singleton, runStage_skip, position_of_pos positive]
    · rename_i other
      rw [Int.toNat_of_nonpos (Int.not_lt.1 other)]
      rfl

theorem runStages_limit (limit : Option Int) (drafts : List Draft) :
    runStages foreign (Stage.renderAll (boundStages .limit limit)) drafts =
      .ok (cut none limit drafts) := by
  cases limit with
  | none => rfl
  | some n =>
    simp only [boundStages, cut]
    split
    · rename_i positive
      rw [runStages_singleton, runStage_limit, position_of_pos positive]
      rfl
    · rfl

theorem runStages_pageStages (skip limit : Option Int) (drafts : List Draft) :
    runStages foreign (Stage.renderAll (Plan.pageStages false skip limit)) drafts =
      .ok (cut skip limit drafts) := by
  have stages : Plan.pageStages false skip limit =
      boundStages .skip skip ++ boundStages .limit limit := rfl
  rw [stages, runStages_append, runStages_skip]
  exact runStages_limit limit _

end Docbase.Pipeline
