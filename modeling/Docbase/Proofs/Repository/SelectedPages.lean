import Docbase.Proofs.Memory.Identified
import Docbase.Proofs.Pipeline.Inclusion
import Docbase.Proofs.Repository.Restriction
import Docbase.Proofs.Sorting

/-!
# Pages of selected fields

A selection is made before the documents are sorted, so a sort sees nothing but what is selected.
Where it needs no more than that, a page holds the documents that it holds without a selection.

* `Pipeline.project_agrees`: what a sort sees of a document and of its projection.
* `Repository.selection_keeps_page` is the theorem for every query without joins and aliases.
* `Repository.selection_reorders` shows sorts that do need more.
-/

namespace Docbase

namespace Pipeline

variable {keys : List String} {a b a' b' : Draft}

/-! ## Sorts -/

/-- Two drafts that a sort by some keys cannot tell apart, with the same identifier. -/
structure Agree (keys : List String) (a b : Draft) : Prop where
  identified : Fields.has "_id" a.document = true
  reads : ∀ key ∈ keys, b.get key = a.get key
  identifier : b.document.lookup "_id" = a.document.lookup "_id"

theorem compareBy_congr {spec : Document} (left : ∀ key ∈ Fields.keys spec, a'.get key = a.get key)
    (right : ∀ key ∈ Fields.keys spec, b'.get key = b.get key) :
    compareBy spec a' b' = compareBy spec a b := by
  induction spec with
  | nil => rfl
  | cons field rest ih =>
    obtain ⟨path, direction⟩ := field
    obtain ⟨leftHere, leftThere⟩ := List.forall_mem_cons.1 left
    obtain ⟨rightHere, rightThere⟩ := List.forall_mem_cons.1 right
    rw [compareBy, compareBy, leftHere, rightHere, ih leftThere rightThere]

theorem runStages_sort (foreign : String → List Document) (sort : List (String × SortDirection))
    (pairs : List {p : Draft × Draft // Agree (Fields.keys sort) p.1 p.2}) :
    ∃ sorted : Except Failure (List {p : Draft × Draft // Agree (Fields.keys sort) p.1 p.2}),
      runStages foreign (Stage.renderAll (Plan.unlessEmpty .sort sort)) (pairs.map (·.1.1)) =
          List.map (·.1.1) <$> sorted ∧
        runStages foreign (Stage.renderAll (Plan.unlessEmpty .sort sort)) (pairs.map (·.1.2)) =
          List.map (·.1.2) <$> sorted := by
  cases sort with
  | nil => exact ⟨.ok pairs, rfl, rfl⟩
  | cons key rest =>
    let spec : Document := (key :: rest).map fun key => (key.1, .int key.2.sign)
    have keys_eq : Fields.keys spec = Fields.keys (key :: rest) := List.map_map
    have stage (drafts : List Draft) : runStages foreign
        (Stage.renderAll (Plan.unlessEmpty .sort (key :: rest))) drafts =
          Sorting.sortM (fun a b => do return (← compareBy spec a b) == .lt) drafts :=
      runStages_singleton _ _
    rw [stage, stage]
    apply Sorting.sortM_pairs
    intro a a' b b' left right
    rw [compareBy_congr (keys_eq ▸ left.reads) (keys_eq ▸ right.reads)]

end Pipeline

/-! ## Selections -/

namespace Plan

variable {identity : Identity} {names : List String} {sort : List (String × SortDirection)}
  {d : Document}

/-- What a selection can read of a document, and what it keeps of it for a sort: every selected path
can be followed, and where the identifier or a sort key reads a list, none goes on through that list
behind the identifier or a path that is selected before it. -/
structure Faithful (identity : Identity) (names : List String)
    (sort : List (String × SortDirection)) (d : Document) : Prop where
  readable : ∀ path ∈ selectedPaths identity names, ((Value.doc d).get path).isOk = true
  whole : ("_id" :: selectedPaths identity names).Pairwise fun p q =>
    ∀ key ∈ "_id" :: Fields.keys (sortKeys identity sort),
      ¬d.Tears (Path.parts p) (Path.parts q) (Path.parts key)

theorem faithful_of_apart
    (readable : ∀ path ∈ selectedPaths identity names, ((Value.doc d).get path).isOk = true)
    (apart : ("_id" :: selectedPaths identity names).Pairwise fun p q =>
      ∀ key ∈ "_id" :: Fields.keys (sortKeys identity sort),
        ¬Path.parts p <+: Path.parts q ∨ (Path.parts p).head? ≠ (Path.parts key).head?) :
    Faithful identity names sort d := by
  refine ⟨readable, apart.imp fun {p q} unrelated key mem torn => ?_⟩
  rcases unrelated key mem with apart | beside
  · obtain ⟨between, items, le, le', -⟩ := torn
    exact apart (le.trans le')
  · exact beside (torn.head?_eq (Path.parts_ne_nil p) (Path.parts_ne_nil key))

/-- Every sort key is the identifier or a selected path, or behind one of them. A selection that
names nothing but the identifier is one of everything. -/
def SortsSelected (identity : Identity) (names : List String)
    (sort : List (String × SortDirection)) : Prop :=
  (∀ path ∈ selectedPaths identity names, path = "_id") ∨
    ∀ key ∈ Fields.keys (sortKeys identity sort), ∃ path ∈ "_id" :: selectedPaths identity names,
      Path.parts path <+: Path.parts key

def Chooses (identity : Identity) (clause : Value) (d : Document) : Prop :=
  ∃ filter, Where.toFilter clause = .ok filter ∧
    Filter.holds (.doc d) (.doc (identity.toInternal filter)) = .ok true

theorem project_agrees (identified : Fields.has "_id" d = true)
    (faithful : Faithful identity names sort d) (sorts : SortsSelected identity names sort) :
    ∃ result, Pipeline.project (.doc (Pipeline.inclusions (selectedPaths identity names)))
        (.ofDocument d) = .ok result ∧
      Pipeline.Agree (Fields.keys (sortKeys identity sort)) (.ofDocument d) result := by
  have stored : Fields.has "_id" (Draft.ofDocument d).document = true := by
    rwa [Draft.document_ofDocument]
  by_cases only : ∀ path ∈ selectedPaths identity names, path = "_id"
  · exact ⟨_, Pipeline.project_identifier only _, stored, fun _ _ => rfl, rfl⟩
  · have other : ∃ path ∈ selectedPaths identity names, path ≠ "_id" := by
      simpa using only
    have readable (path) (mem : path ∈ selectedPaths identity names) :=
      Except.exists_ok (faithful.readable path mem)
    obtain ⟨result, projects, identifier, covers⟩ :=
      Pipeline.project_covers identified readable faithful.whole other
    refine ⟨result, projects, stored, fun key mem => ?_, ?_⟩
    · exact covers key mem (sorts.resolve_left only key mem)
    · rw [identifier, Draft.document_ofDocument]

end Plan

namespace Repository

open Memory (World SessionId)

variable {identity : Identity} {foreign : String → List Document} {documents : List Document}
  {q : Query} {names : List String} {sort : List (String × SortDirection)}
  {found : List Document} {total : Nat}

def shownIdentifiers (identity : Identity) (documents : List Document) : List (Option Value) :=
  documents.map fun d => (identity.toExternal d).lookup identity.external

theorem lookup_toExternal {d e : Document} (internal : identity.internal = "_id")
    (identified : Fields.has "_id" d = true) (same : e.lookup "_id" = d.lookup "_id") :
    (identity.toExternal e).lookup identity.external =
      (identity.toExternal d).lookup identity.external := by
  obtain ⟨key, found⟩ := Option.isSome_iff_exists.1 identified
  rw [found] at same
  rw [← internal] at found same
  rw [Identity.toExternal, Identity.toExternal, found, same]
  simp only [Fields.lookup_set_self]

theorem aliasFields_of_falsy {aliases : Value} (h : aliases.truthy = false) :
    Plan.aliasFields identity aliases = .ok [] := by
  simp [Plan.aliasFields, h]

theorem mapM_addFields_nil (drafts : List Draft) :
    drafts.mapM (Pipeline.addFields (.doc [])) = .ok drafts :=
  Except.mapM_eq_ok.2 (List.forall₂_same.2 fun _ _ => rfl)

section
variable (identified : ∀ d ∈ documents, Fields.has "_id" d = true)
  (faithful : ∀ d ∈ documents, Plan.Chooses identity (Predicate.clause q.filter) d →
    Plan.Faithful identity names sort d)
  (sorts : Plan.SortsSelected identity names sort)
include identified faithful sorts

theorem exists_projections {filter : List Stage} {kept : List Draft}
    (filtered : Plan.filterStages identity (Predicate.clause q.filter) = .ok filter)
    (keeps : Pipeline.runStages foreign (Stage.renderAll filter) (documents.map .ofDocument) =
      .ok kept) :
    ∃ pairs : List {p : Draft × Draft //
        Pipeline.Agree (Fields.keys (Plan.sortKeys identity sort)) p.1 p.2},
      kept = pairs.map (·.1.1) ∧
        kept.mapM (Pipeline.project (.doc (Pipeline.inclusions
          (Plan.selectedPaths identity names)))) = .ok (pairs.map (·.1.2)) := by
  obtain ⟨written, selected, read, select, rfl⟩ := Pipeline.runStages_filterStages filtered keeps
  have each : ∀ d ∈ selected.map Draft.ofDocument, ∃ result,
      Pipeline.project (.doc (Pipeline.inclusions (Plan.selectedPaths identity names))) d =
          .ok result ∧
        Pipeline.Agree (Fields.keys (Plan.sortKeys identity sort)) d result := by
    rw [List.forall_mem_map]
    intro d mem
    obtain ⟨tested, rfl⟩ := Except.filterM_eq_ok.1 select
    obtain ⟨there, accepted⟩ := List.mem_filter.1 mem
    obtain ⟨answer, h⟩ := tested d there
    rw [h] at accepted
    have chosen : Plan.Chooses identity (Predicate.clause q.filter) d :=
      ⟨written, read, h.trans (congrArg Except.ok accepted)⟩
    exact Plan.project_agrees (identified d there) (faithful d there chosen) sorts
  obtain ⟨projected, projects, related⟩ := Except.exists_mapM_forall₂ each
  obtain ⟨pairs, same, rfl⟩ := Sorting.exists_pairs related
  exact ⟨pairs, same, projects⟩

end

theorem shownIdentifiers_pairs {keys : List String} (internal : identity.internal = "_id")
    (pairs : List {p : Draft × Draft // Pipeline.Agree keys p.1 p.2}) :
    shownIdentifiers identity (pairs.map fun p => p.1.2.document) =
      shownIdentifiers identity (pairs.map fun p => p.1.1.document) := by
  rw [shownIdentifiers, shownIdentifiers, List.map_map, List.map_map]
  apply List.map_congr_left
  intro p _
  exact lookup_toExternal internal p.2.identified p.2.identifier

section
variable (internal : identity.internal = "_id") (noJoin : q.join.getD [] = [])
  (noAliases : q.aliases.truthy = false) (noSelect : q.select.getD [] = [])
  (identified : ∀ d ∈ documents, Fields.has "_id" d = true)
  (faithful : ∀ d ∈ documents, Plan.Chooses identity (Predicate.clause q.filter) d →
    Plan.Faithful identity names (q.sort.getD []) d)
  (sorts : Plan.SortsSelected identity names (q.sort.getD []))
include noJoin noAliases noSelect identified faithful sorts

theorem results_of_selecting
    (run : results identity foreign documents (q.selecting names) = .ok (found, total)) :
    ∃ found, results identity foreign documents q = .ok (found, total) := by
  obtain ⟨filter, aliases, kept, added, projected, sorted, filtered, aliased, keeps, adds, projects,
    sorting, -, rfl⟩ := (results_unjoined (q := q.selecting names) noJoin rfl).1 run
  obtain rfl := Except.ok.inj ((aliasFields_of_falsy noAliases).symm.trans aliased)
  obtain rfl := Except.ok.inj ((mapM_addFields_nil kept).symm.trans adds)
  obtain ⟨pairs, rfl, projects'⟩ := exists_projections identified faithful sorts filtered keeps
  obtain rfl := Except.ok.inj (projects'.symm.trans projects)
  obtain ⟨result, first, second⟩ := Pipeline.runStages_sort foreign _ pairs
  cases result with
  | error failure =>
    cases second.symm.trans sorting
  | ok sortedPairs =>
    exact ⟨_, (results_unselected noJoin noSelect).2
      ⟨filter, [], _, _, _, filtered, aliased, keeps, adds, first, rfl, rfl⟩⟩

include internal

theorem results_selecting_of (run : results identity foreign documents q = .ok (found, total)) :
    ∃ found', results identity foreign documents (q.selecting names) = .ok (found', total) ∧
      shownIdentifiers identity found' = shownIdentifiers identity found := by
  obtain ⟨filter, aliases, kept, added, sorted, filtered, aliased, keeps, adds, sorting, rfl,
    rfl⟩ := (results_unselected noJoin noSelect).1 run
  obtain rfl := Except.ok.inj ((aliasFields_of_falsy noAliases).symm.trans aliased)
  obtain rfl := Except.ok.inj ((mapM_addFields_nil kept).symm.trans adds)
  obtain ⟨pairs, rfl, projects⟩ := exists_projections identified faithful sorts filtered keeps
  obtain ⟨result, first, second⟩ := Pipeline.runStages_sort foreign _ pairs
  cases result with
  | error failure => cases first.symm.trans sorting
  | ok sortedPairs =>
    obtain rfl := Except.ok.inj (first.symm.trans sorting)
    refine ⟨_, (results_unjoined (q := q.selecting names) noJoin rfl).2
      ⟨filter, [], _, _, _, _, filtered, aliased, keeps, adds, projects, second, rfl, rfl⟩, ?_⟩
    show shownIdentifiers identity ((Pipeline.cut q.skip q.limit _).map Draft.document) = _
    rw [Pipeline.cut_map, Pipeline.cut_map, List.map_map, List.map_map]
    exact shownIdentifiers_pairs internal _

end

variable {store : String} {r : Repository World SessionId} {caller : Option SessionId}
  {input selecting : QueryInput}

/-- A selection leaves each page the documents that it has, in the same order, if it keeps what the
sort needs. -/
theorem selection_keeps_page (stored : r.backend = Memory.backend store)
    (internal : r.identity.internal = "_id") (connected : Bool) (events : List Memory.Event)
    (read : input.read = .ok (some q))
    (selects : selecting.read = .ok (some (q.selecting names))) (noJoin : q.join.getD [] = [])
    (noAliases : q.aliases.truthy = false) (noSelect : q.select.getD [] = [])
    (sorts : Plan.SortsSelected r.identity names (q.sort.getD []))
    (faithful : ∀ d ∈ (((World.empty connected).replay events).contents store).documents r.name,
      Plan.Chooses r.identity (Predicate.clause q.filter) d →
        Plan.Faithful r.identity names (q.sort.getD []) d) :
    let w := (World.empty connected).replay events
    ((∃ page, (r.findMany input caller w).1 = .ok page) ↔
        ∃ page, (r.findMany selecting caller w).1 = .ok page) ∧
      ∀ page selected, (r.findMany input caller w).1 = .ok page →
        (r.findMany selecting caller w).1 = .ok selected →
          selected.documents.map (fun d => d.lookup r.identity.external) =
            page.documents.map fun d => d.lookup r.identity.external := by
  intro w
  have identified := World.has_identifier_of_replay connected events store r.name
  obtain ⟨both, related⟩ := findMany_related caller stored read selects
    (fun found total run =>
      results_selecting_of internal noJoin noAliases noSelect identified faithful sorts run)
    fun found total run =>
      results_of_selecting noJoin noAliases noSelect identified faithful sorts run
  refine ⟨both, fun page selected found found' => ?_⟩
  obtain ⟨-, documents, documents', same, shown, shown'⟩ := related page selected found found'
  rw [shown, shown', List.map_map, List.map_map]
  exact same

def filed : List Memory.Event :=
  let note (id writer : String) (number mark : Int) : Value :=
    .doc [("_id", .str id), ("by", .str writer), ("page", .doc [("number", .int number)]),
      ("marks", .list [.int 1, .int mark])]
  [.write "main" (.insertAll "notes"
    [note "a" "ann" 3 9, note "b" "bob" 1 7, note "c" "ann" 2 8] true) none]

def firstBy (key : String) : Query where
  sort := some [(key, .ascending)]
  limit := some 2

theorem selection_keeps_page_filed :
    let w := (World.empty true).replay filed
    let q := firstBy "page.number"
    ∃ page selected, (notes.findMany (.built q) none w).1 = .ok page ∧
      (notes.findMany (.built (q.selecting ["page", "marks", "marks.0"])) none w).1 =
        .ok selected ∧
      page.documents.map (fun d => (Value.field "id" d).text) = ["b", "c"] ∧
      selected.documents.map Fields.keys = [["page", "marks", "id"], ["page", "marks", "id"]] ∧
      selected.documents.map (fun d => d.lookup "id") =
        page.documents.map fun d => d.lookup "id" := by
  intro w q
  have sorts : Plan.SortsSelected notes.identity ["page", "marks", "marks.0"]
      (q.sort.getD []) := by
    right
    decide
  have faithful : ∀ d ∈ (w.contents "main").documents notes.name,
      Plan.Chooses notes.identity (Predicate.clause q.filter) d →
        Plan.Faithful notes.identity ["page", "marks", "marks.0"] (q.sort.getD []) d := by
    intro d mem _
    have readable : ∀ d ∈ (w.contents "main").documents notes.name,
        ∀ path ∈ Plan.selectedPaths notes.identity ["page", "marks", "marks.0"],
          ((Value.doc d).get path).isOk = true := by
      decide +kernel
    exact Plan.faithful_of_apart (readable d mem) (by decide)
  have stored : notes.backend = Memory.backend "main" := rfl
  have read : (QueryInput.built q).read = .ok (some q) := rfl
  have selects : (QueryInput.built (q.selecting ["page", "marks", "marks.0"])).read =
      .ok (some (q.selecting ["page", "marks", "marks.0"])) := rfl
  obtain ⟨-, same⟩ : ((∃ page, (notes.findMany (.built q) none w).1 = .ok page) ↔ _) ∧ _ :=
    selection_keeps_page stored rfl true filed read selects rfl rfl rfl sorts faithful
  have whole : ((notes.findMany (.built q) none w).1.toOption.map fun page =>
      page.documents.map fun d => (Value.field "id" d).text) = some ["b", "c"] := by
    decide +kernel
  have returns : ((notes.findMany (.built (q.selecting ["page", "marks", "marks.0"])) none
      w).1.toOption.map fun page => page.documents.map Fields.keys) =
        some [["page", "marks", "id"], ["page", "marks", "id"]] := by
    decide +kernel
  obtain ⟨page, found, order⟩ := Except.exists_ok_of_map whole
  obtain ⟨selected, found', keys⟩ := Except.exists_ok_of_map returns
  exact ⟨page, selected, found, found', order, keys, same page selected found found'⟩

def identifiersOf (q : Query) : Option (List String) :=
  (notes.findMany (.built q) none ((World.empty true).replay filed)).1.toOption.map fun page =>
    page.documents.map fun d => (Value.field "id" d).text

theorem exists_pages_of_ne {q q' : Query} {ids ids' : List String}
    (first : identifiersOf q = some ids) (second : identifiersOf q' = some ids')
    (ne : ids' ≠ ids) :
    let w := (World.empty true).replay filed
    ∃ page selected, (notes.findMany (.built q) none w).1 = .ok page ∧
      (notes.findMany (.built q') none w).1 = .ok selected ∧
      selected.documents.map (fun d => d.lookup "id") ≠
        page.documents.map fun d => d.lookup "id" := by
  obtain ⟨page, found, order⟩ := Except.exists_ok_of_map first
  obtain ⟨selected, found', order'⟩ := Except.exists_ok_of_map second
  refine ⟨page, selected, found, found', fun same => ne ?_⟩
  have texts := congrArg (List.map fun key => (key.getD .missing).text) same
  rw [List.map_map, List.map_map] at texts
  exact order'.symm.trans (texts.trans order)

/-- A sort by something that is not selected finds it nowhere, and leaves the notes as stored. So
does a sort by lists that are all torn to the same. -/
theorem selection_reorders :
    let w := (World.empty true).replay filed
    (∃ page selected, (notes.findMany (.built (firstBy "page.number")) none w).1 = .ok page ∧
      (notes.findMany (.built ((firstBy "page.number").selecting ["by"])) none w).1 =
        .ok selected ∧
      selected.documents.map (fun d => d.lookup "id") ≠
        page.documents.map fun d => d.lookup "id") ∧
    ∃ page selected, (notes.findMany (.built (firstBy "marks")) none w).1 = .ok page ∧
      (notes.findMany (.built ((firstBy "marks").selecting ["marks", "marks.0"])) none w).1 =
        .ok selected ∧
      selected.documents.map (fun d => d.lookup "id") ≠
        page.documents.map fun d => d.lookup "id" := by
  constructor
  · have whole : identifiersOf (firstBy "page.number") = some ["b", "c"] := by decide +kernel
    have stored : identifiersOf ((firstBy "page.number").selecting ["by"]) = some ["a", "b"] := by
      decide +kernel
    exact exists_pages_of_ne whole stored (by decide)
  · have whole : identifiersOf (firstBy "marks") = some ["b", "c"] := by decide +kernel
    have stored : identifiersOf ((firstBy "marks").selecting ["marks", "marks.0"]) =
        some ["a", "b"] := by
      decide +kernel
    exact exists_pages_of_ne whole stored (by decide)

end Repository
end Docbase
