import Docbase.Proofs.Pipeline.Aliases
import Docbase.Proofs.Repository.Restriction

/-!
# The shape of results

A read with aliases and a selection returns documents with the identifier and the selected names and
nothing else. What stands under a name comes from the stored document: from the source of the alias
with that name, or from the field with the name if no alias has it. A name without a value is left
out, and so is a stored field under an alias whose source is absent.

* `Pipeline.field_added`: the fields of a document with aliases, all of them names.
* `Repository.findMany_shape` is the theorem for whole reads.
-/

namespace Docbase

open Docbase.Path (Unrelated)

def Value.present : Value → Option Value
  | .missing => none
  | v => some v

theorem Value.present_of_isMissing {v : Value} (h : v.isMissing = false) : v.present = some v := by
  cases v with
  | missing => cases h
  | _ => rfl

namespace Pipeline

variable {name key : String} {names : List String} {d : Document}

theorem lookup_pick (names : List String) (key : String) (d : Document) :
    (pick names d).lookup key = if key ∈ names then (Value.field key d).present else none := by
  induction names with
  | nil => rfl
  | cons name rest ih =>
    rw [pick_cons]
    by_cases same : key = name
    · subst same
      rw [if_pos List.mem_cons_self]
      split
      · rename_i absent
        rw [ih, eq_missing absent]
        exact ite_self none
      · rename_i there
        rw [List.lookup_cons_self, Value.present_of_isMissing (eq_false_of_ne_true there)]
    · have others : key ∈ name :: rest ↔ key ∈ rest := by simp [same]
      split
      · simp only [ih, others]
      · rw [List.lookup_cons, beq_false_of_ne same]
        simp only [ih, others]

theorem lookup_restricted (ne : key ≠ "_id") (names : List String) (d : Document) :
    (restricted names d).lookup key =
      if key ∈ names then (Value.field key d).present else none := by
  have nothing : (d.filter fun field => field.1 == "_id").lookup key = none := by
    rw [Fields.lookup_eq_none_iff, Fields.keys, List.mem_map]
    rintro ⟨field, mem, rfl⟩
    exact ne (by simpa using (List.mem_filter.1 mem).2)
  have named : key ∈ names.filter (fun name => name != "_id") ↔ key ∈ names := by simp [ne]
  rw [restricted, List.lookup_append, nothing, Option.none_or, lookup_pick]
  exact if_congr named rfl rfl

theorem lookup_id_restricted {v : Value} (found : d.lookup "_id" = some v) (names : List String) :
    (restricted names d).lookup "_id" = some v := by
  rw [restricted, List.lookup_append, Fields.lookup_filter_self, found]
  rfl

end Pipeline

namespace Identity

variable {identity : Identity} {d : Document} {key : Value}

theorem lookup_toExternal (found : d.lookup identity.internal = some key) (name : String) :
    (identity.toExternal d).lookup name =
      if name = identity.external then some (shownKey key)
      else if name = identity.internal then none else d.lookup name := by
  rw [toExternal, found]
  dsimp only
  rw [← shownKey]
  by_cases external : name = identity.external
  · rw [if_pos external, external, Fields.lookup_set_self]
  · rw [if_neg external, Fields.lookup_set_of_ne external]
    by_cases hidden : name = identity.internal
    · rw [if_pos hidden, hidden, Fields.lookup_erase_self]
    · rw [if_neg hidden, Fields.lookup_erase_of_ne hidden]

end Identity

namespace Plan

/-- The value that stands under a name beside some aliases: the one that the alias copies, or the
field with the name. -/
def namedValue (identity : Identity) (aliases : List (String × String)) (d : Document)
    (name : String) : Except Misuse Value :=
  match aliases.lookup name with
  | some source => sourceValue identity d source
  | none => .ok (Value.field name d)

end Plan

namespace Pipeline

variable {identity : Identity} {aliases : List (String × String)} {d : Document} {draft : Draft}

theorem get_name {name : String} (plain : Path.IsName name) (d : Document) :
    (Value.doc d).get name = .ok (Value.field name d) := by
  rw [Value.get, plain.parts]
  rfl

theorem unrelated_names {p q : String} (plain : Path.IsName p) (plain' : Path.IsName q)
    (ne : p ≠ q) : Unrelated (Path.parts p) (Path.parts q) := by
  rw [plain.parts, plain'.parts]
  simp [Unrelated, ne, ne.symm]

theorem open_name {name : String} (plain : Path.IsName name) (d : Document) :
    d.Open (Path.parts name) := by
  rw [plain.parts]
  intro before le ne items found
  cases before with
  | nil => cases found
  | cons part before =>
    obtain ⟨first, nothing⟩ := List.cons_prefix_cons.1 le
    exact ne (by rw [first, List.prefix_nil.1 nothing])

/-- Aliases that are names copy the values of their sources, and leave all other names alone. -/
theorem field_added (distinct : (aliases.map Prod.fst).Nodup)
    (plain : ∀ a ∈ aliases, Path.IsName a.1)
    (run : addFields (.doc (aliases.map fun a => (a.1, Plan.sourceExpression identity a.2)))
      (.ofDocument d) = .ok draft) {name : String} (named : Path.IsName name) :
    Plan.namedValue identity aliases d name = .ok (Value.field name draft.document) := by
  have apart : (aliases.map fun a => Path.parts a.1).Pairwise Unrelated := by
    refine List.pairwise_map.2 ((List.pairwise_map.1 distinct).imp_of_mem fun mem mem' ne => ?_)
    exact unrelated_names (plain _ mem) (plain _ mem') ne
  have opened : ∀ a ∈ aliases, d.Open (Path.parts a.1) := fun a mem => open_name (plain a mem) d
  -- No name goes on behind a path, since every path has a part.
  have outside : ∀ a ∈ aliases, ∀ b ∈ aliases, ¬Plan.Enters identity d a.2 b.1 := by
    rintro a - b mem ⟨-, le, ne, -⟩
    obtain ⟨rest, parts⟩ := Path.exists_parts a.2
    rw [(plain b mem).parts, parts] at le ne
    obtain ⟨first, nothing⟩ := List.cons_prefix_cons.1 le
    exact ne (by rw [first, List.prefix_nil.1 nothing])
  rw [← get_name named]
  unfold Plan.namedValue
  cases found : aliases.lookup name with
  | some source =>
    obtain ⟨parts, sources, rfl⟩ := addFields_aliases.1 run
    exact (get_added apart opened sources (Fields.mem_of_lookup found) outside).symm
  | none =>
    have others : ∀ a ∈ aliases, Unrelated (Path.parts a.1) (Path.parts name) := by
      intro a mem
      refine unrelated_names (plain a mem) named fun same => ?_
      rw [Fields.lookup_eq_none_iff] at found
      exact found (same ▸ List.mem_map_of_mem mem)
    rw [← get_name named]
    exact (get_added_of_unrelated apart opened run others).symm

end Pipeline

namespace Plan

/-- What a returned document shows of a stored one: the key under the external name, what stands
under each selected name unless it is absent, and no more. -/
def Shows (identity : Identity) (aliases : List (String × String)) (names : List String)
    (d out : Document) : Prop :=
  ∃ key, d.lookup "_id" = some (.str key) ∧
    out.lookup identity.external = some (.str key) ∧
    ∀ name, name ≠ identity.external →
      if name ∈ names ∧ name ≠ "_id" then
        ∃ v, namedValue identity aliases d name = .ok v ∧ out.lookup name = v.present
      else out.lookup name = none

end Plan

namespace Pipeline

variable {identity : Identity} {aliases : List (String × String)} {names : List String}
  {d : Document} {draft result : Draft}

theorem shows_projected (internal : identity.internal = "_id")
    (keyed : ∃ key, d.lookup "_id" = some (.str key))
    (distinct : (aliases.map Prod.fst).Nodup)
    (named : ∀ a ∈ aliases, Path.IsName a.1 ∧ a.1 ≠ "_id")
    (plain : ∀ name ∈ names, Path.IsName name)
    (run : addFields (.doc (aliases.map fun a => (a.1, Plan.sourceExpression identity a.2)))
      (.ofDocument d) = .ok draft)
    (shape : result.document = restricted (Plan.selectedPaths identity names) draft.document) :
    Plan.Shows identity aliases names d (identity.toExternal result.document) := by
  obtain ⟨key, found⟩ := keyed
  have added (name : String) (named' : Path.IsName name) :
      Plan.namedValue identity aliases d name = .ok (Value.field name draft.document) :=
    field_added distinct (fun a mem => (named a mem).1) run named'
  have kept : draft.document.lookup "_id" = some (.str key) := by
    have value := added "_id" (by decide)
    have unaliased : aliases.lookup "_id" = none :=
      Fields.lookup_eq_none_iff.2 fun mem => by
        obtain ⟨a, mem, same⟩ := List.mem_map.1 mem
        exact (named a mem).2 same
    rw [Plan.namedValue, unaliased, Value.field, found] at value
    exact Value.lookup_of_field (Except.ok.inj value).symm (by simp)
  rw [shape]
  have inside := lookup_id_restricted kept (Plan.selectedPaths identity names)
  rw [← internal] at inside
  refine ⟨key, found, ?_, fun name external => ?_⟩
  · rw [Identity.lookup_toExternal inside, if_pos rfl]
    rfl
  · rw [Identity.lookup_toExternal inside, if_neg external, internal]
    by_cases hidden : name = "_id"
    · rw [if_pos hidden, if_neg fun shown => shown.2 hidden]
    · have selected : name ∈ Plan.selectedPaths identity names ↔ name ∈ names :=
        Identity.mem_selectedPaths external (internal ▸ hidden)
      rw [if_neg hidden, lookup_restricted hidden]
      by_cases mem : name ∈ names
      · rw [if_pos ⟨mem, hidden⟩, if_pos (selected.2 mem)]
        exact ⟨_, added name (plain name mem), rfl⟩
      · rw [if_neg fun shown => mem shown.1, if_neg fun there => mem (selected.1 there)]

theorem shows_results {selected : List Document} {added projected : List Draft}
    (internal : identity.internal = "_id")
    (keyed : ∀ d ∈ selected, ∃ key, d.lookup "_id" = some (.str key))
    (distinct : (aliases.map Prod.fst).Nodup)
    (named : ∀ a ∈ aliases, Path.IsName a.1 ∧ a.1 ≠ "_id")
    (plain : ∀ name ∈ names, Path.IsName name)
    (other : ∃ name ∈ names, name ≠ identity.external ∧ name ≠ "_id")
    (adds : (selected.map Draft.ofDocument).mapM (addFields
      (.doc (aliases.map fun a => (a.1, Plan.sourceExpression identity a.2)))) = .ok added)
    (projects : added.mapM (project (.doc (inclusions (Plan.selectedPaths identity names)))) =
      .ok projected) :
    List.Forall₂ (fun d s => Plan.Shows identity aliases names d (identity.toExternal s.document))
      selected projected := by
  have started : List.Forall₂ (fun d s =>
      (∃ key, d.lookup "_id" = some (.str key)) ∧ s = Draft.ofDocument d)
      selected (selected.map Draft.ofDocument) :=
    List.forall₂_map_right_iff.2 (List.forall₂_same.2 fun d mem => ⟨keyed d mem, rfl⟩)
  have extended : List.Forall₂ (fun d s => (∃ key, d.lookup "_id" = some (.str key)) ∧
      addFields (.doc (aliases.map fun a => (a.1, Plan.sourceExpression identity a.2)))
        (.ofDocument d) = .ok s) selected added := by
    refine forall₂_mapM ?_ started adds
    rintro d _ result ⟨keyed, rfl⟩ run
    exact ⟨keyed, run⟩
  refine forall₂_mapM ?_ extended projects
  rintro d draft result ⟨keyed, run⟩ projects
  obtain ⟨_, same, shape⟩ := project_names (Identity.isName_selectedPaths internal plain)
    (Fields.nodup_eraseDups _) (Identity.exists_other_selectedPath internal other)
    ((Draft.sound_ofDocument d).addFields run)
  obtain rfl := Except.ok.inj (same.symm.trans projects)
  exact shows_projected internal keyed distinct named plain run shape

end Pipeline

namespace Repository

open Memory (World SessionId)

variable {store : String} {r : Repository World SessionId} {caller : Option SessionId} {w : World}
  {input : QueryInput} {page : Page} {q : Query} {aliases : List (String × String)}
  {names : List String}

/-- A read with aliases and a selection, both of them names, returns for each document of the page
what the aliases and the selection show of it. -/
theorem findMany_shape (stored : r.backend = Memory.backend store)
    (internal : r.identity.internal = "_id")
    (keyed : ∀ d ∈ (w.contents store).documents r.name, ∃ key, d.lookup "_id" = some (.str key))
    (read : input.read = .ok (some q)) (noJoin : q.join.getD [] = [])
    (noSort : q.sort.getD [] = []) (aliased : q.aliases = Plan.aliasesOf aliases)
    (distinct : (aliases.map Prod.fst).Nodup)
    (named : ∀ a ∈ aliases, Path.IsName a.1 ∧ a.1 ≠ r.identity.external ∧ a.1 ≠ "_id")
    (selects : q.select = some (names.map .str)) (plain : ∀ name ∈ names, Path.IsName name)
    (other : ∃ name ∈ names, name ≠ r.identity.external ∧ name ≠ "_id")
    (found : (r.findMany input caller w).1 = .ok page) :
    ∃ filter selected, r.filter input.clause = .ok filter ∧
      Filter.select (.doc filter) ((w.contents store).documents r.name) = .ok selected ∧
      List.Forall₂ (Plan.Shows r.identity aliases names) (Pipeline.cut q.skip q.limit selected)
        page.documents := by
  obtain ⟨-, documents, total, run, rfl⟩ := (findMany_eq_ok stored read).1 found
  have selection : q.select.getD [] = names.map .str := by
    rw [selects]
    rfl
  obtain ⟨stages, fields, kept, added, projected, sorted, filtered, planned, keeps, adds, projects,
    sorts, rfl, -⟩ := (results_unjoined (q := (some q).getD {}) noJoin selection).1 run
  have unsorted : Plan.sortKeys r.identity (((some q).getD {}).sort.getD []) = [] :=
    congrArg (Plan.sortKeys r.identity) noSort
  rw [unsorted] at sorts
  obtain rfl := Except.ok.inj sorts
  rw [Option.getD_some, aliased, Plan.aliasFields_aliasesOf] at planned
  obtain rfl := Except.ok.inj planned
  obtain ⟨filter, selected, toFilter, select, rfl⟩ :=
    Pipeline.runStages_filterStages filtered keeps
  rw [QueryInput.toFilter_clause_of_read read] at toFilter
  have compiled : r.filter input.clause = .ok (r.identity.toInternal filter) :=
    Except.bind_eq_ok.2 ⟨filter, Except.liftFault_eq_ok.2 toFilter, rfl⟩
  refine ⟨_, selected, compiled, select, ?_⟩
  have identified : ∀ d ∈ selected, ∃ key, d.lookup "_id" = some (.str key) := by
    intro d mem
    obtain ⟨-, rfl⟩ := Except.filterM_eq_ok.1 select
    exact keyed d (List.mem_filter.1 mem).1
  have related := Pipeline.shows_results internal identified distinct
    (fun a mem => ⟨(named a mem).1, (named a mem).2.2⟩) plain other adds projects
  rw [List.map_map, List.forall₂_map_right_iff]
  exact Pipeline.forall₂_cut related q.skip q.limit

def exchanged : Query where
  select := some (["id", "rank", "by"].map .str)
  aliases := Plan.aliasesOf [("by", "rank"), ("rank", "by")]

theorem findMany_shape_exchanged :
    ∃ page, (notes.findMany (.built exchanged) none notebook).1 = .ok page ∧
      page.documents.map (List.map fun field => (field.1, field.2.text)) =
        [[("rank", "ann"), ("by", "1"), ("id", "a")], [("rank", "bob"), ("id", "b")],
          [("rank", "ann"), ("by", "2"), ("id", "c")]] ∧
      ∃ filter selected, notes.filter (QueryInput.built exchanged).clause = .ok filter ∧
        Filter.select (.doc filter) ((notebook.contents "main").documents notes.name) =
          .ok selected ∧
        List.Forall₂ (Plan.Shows notes.identity [("by", "rank"), ("rank", "by")]
          ["id", "rank", "by"]) (Pipeline.cut none none selected) page.documents := by
  have returns : ((notes.findMany (.built exchanged) none notebook).1.toOption.map fun page =>
      page.documents.map (List.map fun field => (field.1, field.2.text))) =
        some [[("rank", "ann"), ("by", "1"), ("id", "a")], [("rank", "bob"), ("id", "b")],
          [("rank", "ann"), ("by", "2"), ("id", "c")]] := by
    decide +kernel
  obtain ⟨page, found, documents⟩ := Except.exists_ok_of_map returns
  have stored : notes.backend = Memory.backend "main" := rfl
  have keyed : ∀ d ∈ (notebook.contents "main").documents notes.name,
      ∃ key, d.lookup "_id" = some (.str key) := by
    intro d mem
    have listed : (notebook.contents "main").documents notes.name =
        [[("_id", .str "a"), ("by", .str "ann"), ("rank", .int 1)],
          [("_id", .str "b"), ("by", .str "bob")],
          [("_id", .str "c"), ("by", .str "ann"), ("rank", .int 2)]] := rfl
    rw [listed] at mem
    simp only [List.mem_cons, List.not_mem_nil, or_false] at mem
    rcases mem with rfl | rfl | rfl
    · exact ⟨"a", rfl⟩
    · exact ⟨"b", rfl⟩
    · exact ⟨"c", rfl⟩
  exact ⟨page, found, documents, findMany_shape stored rfl keyed rfl rfl rfl rfl
    (by decide) (by decide) rfl (by decide) ⟨"rank", by decide, by decide, by decide⟩ found⟩

end Repository
end Docbase
