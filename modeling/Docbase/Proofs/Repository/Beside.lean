import Docbase.Proofs.Memory.Progress
import Docbase.Proofs.Memory.WholeUpdate
import Docbase.Proofs.Pipeline.Aliases
import Docbase.Proofs.Query.Join
import Docbase.Proofs.Repository.Identifiers

/-!
# What can be read beside a write

An update, a join and an alias write to paths. All of them leave alone what can be read at a path
that neither goes on from a written one nor is on the way to it. There are two exceptions: a list on
the way of both paths is replaced by a document, and what is written behind an alias is written into
its source, too.

* `Memory.World.beside_update` is the statement for updates, whether they return or fail, and
  `Plan.beside_shaping` the one for the joins and the aliases of a query.
* `Repository.writes_beside` is the theorem.
-/

namespace Docbase

open Docbase.Path (Unrelated)

/-- A document reads as another one did at a path, if the path has nothing to do with some others and
goes into no list with one of them. -/
def Document.ReadsBeside (written : List String) (path : String) (d e : Document) : Prop :=
  (∀ name ∈ written, Unrelated (Path.parts name) (Path.parts path) ∧
      ¬d.ShareList (Path.parts name) (Path.parts path)) →
    (Value.doc e).get path = (Value.doc d).get path

open Document (ReadsBeside)

/-! ## Updates -/

namespace Memory

/-- Record by record, the keys are the same, and documents read alike at a path beside some others. -/
def Collection.KeptBeside (written : List String) (path : String) (before after : Collection) : Prop :=
  List.Forall₂ (fun r s => s.1 = r.1 ∧ ReadsBeside written path r.2 s.2) before.records
    after.records

namespace Collection

variable {name path : String} {filter : Value} {patch : Document} {c after : Collection}
  {records : List (Value × Document)}

theorem keptBeside_self (written : List String) (c : Collection) : c.KeptBeside written path c :=
  List.forall₂_same.2 fun _ _ => ⟨rfl, fun _ => rfl⟩

theorem beside_revised (filter : Value) (patch : Document) (r : Value × Document) :
    (revised filter patch r).1 = r.1 ∧
      ReadsBeside (Fields.keys patch) path r.2 (revised filter patch r).2 := by
  refine ⟨revised_fst filter patch r, fun apart => ?_⟩
  rw [revised]
  split
  · exact Document.follow_patched fun f mem => apart f.1 (List.mem_map_of_mem mem)
  · rfl

theorem forall₂_revised (filter : Value) (patch : Document) (records : List (Value × Document)) :
    List.Forall₂ (fun r s => s.1 = r.1 ∧ ReadsBeside (Fields.keys patch) path r.2 s.2) records
      (records.map (revised filter patch)) :=
  List.forall₂_map_right_iff.2 (List.forall₂_same.2 fun r _ => beside_revised filter patch r)

theorem StopsAt.keptBeside {ahead behind : List (Value × Document)} {r : Value × Document}
    {failure : Failure} (stopped : StopsAt name filter patch ahead r behind failure c after) :
    c.KeptBeside (Fields.keys patch) path after := by
  have others : Collection.KeptBeside (Fields.keys patch) path _ _ :=
    keptBeside_self _ { c with records := r :: behind }
  rw [KeptBeside, stopped.split, stopped.left, halfway]
  exact List.rel_append (forall₂_revised filter patch ahead) others

end Collection

namespace Contents

theorem beside_update {name path : String} {contents : Contents} (filter : Value)
    (patch : Document) (table : (contents.collection name).IsTable) :
    (contents.collection name).KeptBeside (Fields.keys patch) path
      ((update name filter (.doc patch) contents).2.collection name) := by
  rcases update_cases filter patch table with refused |
    ⟨failure, ahead, r, behind, -, stopped⟩ | ⟨-, done⟩
  · rw [refused]
    exact Collection.keptBeside_self _ _
  · exact stopped.keptBeside
  · rw [done]
    exact Collection.forall₂_revised filter patch _

end Contents

theorem World.beside_update {store name path : String} {w : World} (filter : Value)
    (patch : Document) (caller : Option SessionId)
    (table : ((w.contents store).collection name).IsTable) :
    ((w.contents store).collection name).KeptBeside (Fields.keys patch) path
      (((update store name filter (.doc patch) caller w).2.contents store).collection name) := by
  rw [update, check_bind_apply]
  cases w.refusal store caller with
  | some failure => exact Collection.keptBeside_self _ _
  | none =>
    show Collection.KeptBeside _ _ _ (((w.setContents store _).contents store).collection name)
    rw [contents_setContents_self]
    exact Contents.beside_update filter patch table

end Memory

/-! ## Joins and aliases -/

def Query.aliasNames (q : Query) : List String :=
  match q.aliases with
  | .doc names => Fields.keys names
  | _ => []

/-- The fields of the joins of a query, and the names of its aliases. -/
def Query.writtenPaths (q : Query) : List String := (q.join.getD []).map Prod.fst ++ q.aliasNames

namespace Plan

variable {identity : Identity} {q : Query} {shape : List Stage}

theorem shaping_unselected (noSelect : q.select.getD [] = []) (noSort : q.sort.getD [] = []) :
    shaping identity q = .ok shape ↔
      ∃ lookups aliases, joinStages identity q = .ok lookups ∧
        aliasFields identity q.aliases = .ok aliases ∧
        shape = lookups ++ unlessEmpty .addFields aliases := by
  have all : projection identity (.tuple (q.select.getD [])) = .ok [] := by
    rw [noSelect]
    rfl
  have unsorted : sortKeys identity (q.sort.getD []) = [] := by
    rw [noSort]
    rfl
  simp only [shaping, joinStages, all, unsorted, Except.bind_eq_ok, Except.pure_eq_ok,
    Except.ok.injEq]
  constructor
  · rintro ⟨lookups, joined, aliases, aliased, _, rfl, rfl⟩
    exact ⟨lookups, aliases, joined, aliased, by simp [unlessEmpty]⟩
  · rintro ⟨lookups, aliases, joined, aliased, rfl⟩
    exact ⟨lookups, joined, aliases, aliased, [], rfl, by simp [unlessEmpty]⟩

theorem targets_joinStages {lookups : List Stage} (h : joinStages identity q = .ok lookups) :
    ∀ stage ∈ lookups, ∃ source field key target pipeline,
      stage = .lookup source field key target pipeline ∧
        target ∈ (q.join.getD []).map Prod.fst := by
  intro stage mem
  obtain ⟨join, asked, planned⟩ := Except.mem_of_mapM_ok h stage mem
  obtain ⟨pipeline, rfl⟩ := Pipeline.lookupStage_eq_ok planned
  exact ⟨_, _, _, _, _, rfl, List.mem_map_of_mem asked⟩

theorem aliasNames_of_aliasFields {fields : Document}
    (h : aliasFields identity q.aliases = .ok fields) : Fields.keys fields ⊆ q.aliasNames := by
  rcases keys_aliasFields h with rfl | ⟨names, aliases, keys⟩
  · exact List.nil_subset _
  · rw [Query.aliasNames, aliases, keys]
    exact List.Subset.refl _

theorem names_aliasFields {aliases : Value} {fields : Document}
    (h : aliasFields identity aliases = .ok fields) :
    ∀ field ∈ fields, ∃ path, Expression.Names path field.2 := by
  unfold aliasFields at h
  split at h
  · obtain rfl := Except.ok.inj h
    exact fun field mem => absurd mem List.not_mem_nil
  · cases aliases with
    | doc sources =>
      obtain rfl := Except.ok.inj h
      refine List.forall_mem_map.2 fun source mem => ?_
      dsimp only
      split
      · exact ⟨identity.internal, .text⟩
      · exact ⟨source.2.text, .part⟩
    | _ => cases h

/-- The joins and the aliases of a query, on all documents that are read. -/
theorem beside_shaping {path : String} {foreign : String → List Document}
    {documents : List Document} {results : List Draft} (noSelect : q.select.getD [] = []) (noSort : q.sort.getD [] = [])
    (apart : (q.aliasNames.map Path.parts).Pairwise Unrelated)
    (planned : shaping identity q = .ok shape)
    (run : Pipeline.runStages foreign (Stage.renderAll shape) (documents.map .ofDocument) =
      .ok results) :
    List.Forall₂ (fun d s => ReadsBeside q.writtenPaths path d s.document) documents results := by
  obtain ⟨lookups, fields, joined, aliased, rfl⟩ := (shaping_unselected noSelect noSort).1 planned
  rw [Pipeline.runStages_append] at run
  obtain ⟨between, joins, adds⟩ := Except.bind_eq_ok.1 run
  rw [Pipeline.runStages_addFields] at adds
  let joinFields := ((q.join.getD []).map Prod.fst).map Path.parts
  have started : List.Forall₂ (Draft.Written · joinFields []) documents
      (documents.map Draft.ofDocument) :=
    List.forall₂_map_right_iff.2 (List.forall₂_same.2 fun d _ => Draft.written_ofDocument d _ _)
  have looked := Pipeline.written_lookups (fun stage mem => by
    obtain ⟨source, field, key, target, pipeline, same, asked⟩ := targets_joinStages joined stage mem
    exact ⟨source, field, key, target, pipeline, same, List.mem_map_of_mem asked⟩) started joins
  have added : List.Forall₂ (Draft.Written · (joinFields ++ q.aliasNames.map Path.parts)
      (q.aliasNames.map Path.parts)) documents results := by
    refine Pipeline.forall₂_mapM (fun d draft result written made => ?_) looked adds
    have more := written.mono (List.subset_append_left joinFields (q.aliasNames.map Path.parts))
      (List.nil_subset (q.aliasNames.map Path.parts))
    exact more.addFields apart (List.subset_append_right _ _)
      (fun path mem => List.mem_map_of_mem (aliasNames_of_aliasFields aliased mem))
      (names_aliasFields aliased) made
  refine added.imp fun d s written other => written.get ?_
  rw [← List.map_append]
  exact List.forall_mem_map.2 other

end Plan

/-! ## All writes -/

open Memory (World SessionId)

/-- What is read at a path after a write at an unrelated one is what was read before, unless a list on
the way of both was replaced: then it is nothing. So updates keep what can be read beside the paths
of the patch, and the joins and the aliases of a query keep it beside their fields and names, if no
alias goes on behind another one. -/
theorem writes_beside (path : String) :
    (∀ (d : Document) (p : String) (v : Value), Unrelated (Path.parts p) (Path.parts path) →
      ((Value.doc d).set p v >>= fun e => e.get path) =
        if d.ShareList (Path.parts p) (Path.parts path) then .ok .missing
        else (Value.doc d).get path) ∧
    (∀ (store name : String) (filter : Value) (patch : Document) (caller : Option SessionId)
        (w : World), ((w.contents store).collection name).IsTable →
      ((w.contents store).collection name).KeptBeside (Fields.keys patch) path
        (((World.update store name filter (.doc patch) caller w).2.contents store).collection
          name)) ∧
    ∀ (identity : Identity) (q : Query) (shape : List Stage) (foreign : String → List Document)
        (documents : List Document) (results : List Draft),
      q.select.getD [] = [] → q.sort.getD [] = [] →
      (q.aliasNames.map Path.parts).Pairwise Unrelated → Plan.shaping identity q = .ok shape →
      Pipeline.runStages foreign (Stage.renderAll shape) (documents.map .ofDocument) = .ok results →
      List.Forall₂ (fun d s => ReadsBeside q.writtenPaths path d s.document) documents results :=
  ⟨fun d _ v apart => Document.follow_set_of_unrelated apart v d,
    fun _ _ filter patch caller _ table => World.beside_update filter patch caller table,
    fun _ _ _ _ _ _ noSelect noSort apart planned run =>
      Plan.beside_shaping noSelect noSort apart planned run⟩

def tagged : Document :=
  [("_id", .str "a"), ("by", .str "ann"), ("place", .doc [("row", .int 3)]),
    ("tags", .list [.str "new", .str "long"])]

def tagging : Query where
  join := some [("by", { collection := .str "authors" })]
  aliases := Plan.aliasesOf [("place.tag", "tags.0"), ("author", "by")]

/-- A place gets a seat, an update of all guests fails on the way, and a note is shaped. -/
theorem writes_beside_tagged :
    let move : Document := [("place.row", .int 2)]
    let guests := (World.seating.contents "main").collection "guests"
    let run := World.update "main" "guests" (.doc []) (.doc move) none World.seating
    ((Value.doc tagged).set "place.seat" (.int 4) >>= fun e => e.get "place.row") = .ok (.int 3) ∧
    run.1.toOption = none ∧
    guests.KeptBeside (Fields.keys move) "table" ((run.2.contents "main").collection "guests") ∧
    ∃ shape s, Plan.shaping default tagging = .ok shape ∧
      Pipeline.runStages (fun _ => [[("_id", .str "ann"), ("name", .str "Ann")]])
        (Stage.renderAll shape) [.ofDocument tagged] = .ok [s] ∧
      (Value.doc s.document).get "place.row" = .ok (.int 3) ∧
      (Value.doc s.document).get "tags.1" = .ok (.str "long") := by
  intro move guests run
  have table : guests.IsTable := (World.seating_consistent.contents "main" "guests").isTable
  have returns : ((Plan.shaping default tagging >>= fun shape =>
      Pipeline.runStages (fun _ => [[("_id", .str "ann"), ("name", .str "Ann")]])
        (Stage.renderAll shape) [.ofDocument tagged])).isOk = true := by
    decide +kernel
  obtain ⟨results, found⟩ := Except.exists_ok returns
  obtain ⟨shape, planned, ran⟩ := Except.bind_eq_ok.1 found
  have related (path : String) := (writes_beside path).2.2 default tagging shape _ [tagged] results
    rfl rfl (by decide) planned ran
  obtain ⟨s, others, row, last, rfl⟩ := List.forall₂_cons_left_iff.1 (related "place.row")
  obtain rfl := List.forall₂_nil_left_iff.1 last
  have tag := (List.forall₂_cons.1 (related "tags.1")).1
  have row_before : (Value.doc tagged).get "place.row" = .ok (.int 3) := rfl
  have tag_before : (Value.doc tagged).get "tags.1" = .ok (.str "long") := rfl
  have kept := (writes_beside "table").2.1 "main" "guests" (.doc []) move none World.seating table
  refine ⟨?_, by decide +kernel, kept, shape, s, planned, ran, ?_, ?_⟩
  · rw [(writes_beside "place.row").1 tagged "place.seat" (.int 4) (by decide),
      if_neg (by decide +kernel)]
    exact row_before
  · exact (row (by decide +kernel)).trans row_before
  · exact (tag (by decide +kernel)).trans tag_before

/-- A write at one position of a list takes the other ones away, and an alias behind another one is
written into the source that they share. -/
theorem write_shows_beside :
    Unrelated (Path.parts "tags.0") (Path.parts "tags.1") ∧
    (Value.doc tagged).get "tags.1" = .ok (.str "long") ∧
    ((Value.doc tagged).set "tags.0" (.str "old") >>= fun e => e.get "tags.1") = .ok .missing ∧
    Unrelated (Path.parts "at") (Path.parts "place.row") ∧
    Unrelated (Path.parts "at.row") (Path.parts "place.row") ∧
    ∃ fields result, Plan.aliasFields default
        (Plan.aliasesOf [("at", "place"), ("at.row", "by")]) = .ok fields ∧
      Pipeline.addFields (.doc fields) (.ofDocument tagged) = .ok result ∧
      (Value.doc tagged).get "place.row" = .ok (.int 3) ∧
      (Value.doc result.document).get "place.row" = .ok (.str "ann") := by
  refine ⟨by decide, rfl, rfl, by decide, by decide, ?_⟩
  have reads : ((Plan.aliasFields default
      (Plan.aliasesOf [("at", "place"), ("at.row", "by")])).toOption.map fun fields =>
        (Pipeline.addFields (.doc fields) (.ofDocument tagged)).toOption.map fun result =>
          ((Value.doc result.document).get "place.row").toOption.map fun v => v.path.toOption) =
      some (some (some (some "ann"))) := by
    decide +kernel
  obtain ⟨fields, aliased, adds⟩ := Except.exists_ok_of_map reads
  obtain ⟨result, added, gets⟩ := Except.exists_ok_of_map adds
  obtain ⟨v, got, text⟩ := Except.exists_ok_of_map gets
  obtain rfl : v = .str "ann" := by
    cases v with
    | str s => exact congrArg Value.str (Option.some.inj text)
    | _ => cases text
  exact ⟨fields, result, aliased, added, rfl, got⟩

end Docbase
