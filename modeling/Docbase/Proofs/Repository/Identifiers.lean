import Docbase.Proofs.Pipeline.Keyed
import Docbase.Proofs.Repository.Reading

/-!
# Identifiers of what is read

Every document that a where clause selects is returned once, under the identifier that it is stored
under, whatever else the query asks for. Only joins and aliases write to names that a caller
chooses, so these must not be the internal name.
-/

namespace Docbase

open Memory (World SessionId)

variable {key : String}

namespace Identity

variable {identity : Identity} {d : Document}

theorem lookup_external_toExternal (h : d.lookup identity.internal = some (.str key)) :
    (identity.toExternal d).lookup identity.external = some (.str key) := by
  rw [toExternal, h]
  exact Fields.lookup_set_self _ _ _

theorem lookup_internal_toExternal (identity : Identity) (d : Document) :
    (identity.toExternal d).lookup identity.internal = none := by
  rw [toExternal]
  split
  · rename_i absent
    exact absent
  · rw [Fields.lookup_set_of_ne identity.distinct.symm]
    exact Fields.lookup_erase_self _ _

end Identity

/-- No join and no alias of the query writes to a name or into what is there. -/
structure Query.Spares (name : String) (q : Query) : Prop where
  join : ∀ join ∈ q.join.getD [], ¬Path.IsWithin name join.1
  aliases : ∀ aliases, q.aliases = .doc aliases →
    ∀ path ∈ Fields.keys aliases, ¬Path.IsWithin name path

namespace Plan

variable {identity : Identity}

theorem keys_aliasFields {aliases : Value} {fields : Document}
    (h : aliasFields identity aliases = .ok fields) :
    fields = [] ∨ ∃ names, aliases = .doc names ∧ Fields.keys fields = Fields.keys names := by
  unfold aliasFields at h
  split at h
  · exact .inl (Except.ok.inj h).symm
  · cases aliases with
    | doc names =>
      obtain rfl := Except.ok.inj h
      exact .inr ⟨names, rfl, by simp [Fields.keys]⟩
    | _ => cases h

theorem projection_one {select : Value} {fields : Document}
    (h : projection identity select = .ok fields) : ∀ field ∈ fields, field.2 = .int 1 := by
  unfold projection at h
  split at h
  · obtain rfl := Except.ok.inj h
    exact fun field mem => nomatch mem
  · split at h
    · cases h
    · obtain ⟨names, -, h⟩ := Except.bind_eq_ok.1 h
      obtain rfl := Except.pure_eq_ok.1 h
      exact Fields.forall_mem_ofWrites fun field mem => by
        obtain ⟨name, -, rfl⟩ := List.mem_map.1 mem
        rfl

end Plan

theorem Pipeline.keeps_keyed {identity : Identity} {q : Query} (spares : q.Spares "_id") :
    Keeps (Draft.Keyed "_id") identity q where
  join join mem _ _ found keyed :=
    keyed.setDrafts (fun first => spares.join join mem (Path.isWithin_of_first_eq first)) found
  aliases fields planned _ _ _ keyed run := by
    refine keyed.addFields (fun path mem first => ?_) run
    rcases Plan.keys_aliasFields planned with rfl | ⟨names, aliases, keys⟩
    · cases mem
    · rw [keys] at mem
      exact spares.aliases names aliases path mem (Path.isWithin_of_first_eq first)
  projection _ planned _ _ _ keyed run := keyed.project (Plan.projection_one planned) run

theorem Pipeline.identifiers_shaped {identity : Identity} {q : Query} {shape : List Stage}
    {foreign : String → List Document} {selected : List Document} {shaped : List Draft}
    (shapes : Plan.shaping identity q = .ok shape) (spares : q.Spares "_id")
    (identified : ∀ d ∈ selected, ∃ key, d.lookup "_id" = some (.str key))
    (run : runStages foreign (Stage.renderAll shape) (selected.map .ofDocument) = .ok shaped) :
    (shaped.map fun d => d.document.lookup "_id").Perm (selected.map fun d => d.lookup "_id") ∧
      ∀ d ∈ shaped, ∃ key, d.document.lookup "_id" = some (.str key) := by
  have named : ∀ d ∈ selected, d.lookup "_id" = some (.str (Value.field "_id" d).text) := by
    intro d mem
    obtain ⟨key, found⟩ := identified d mem
    rw [Value.field, found]
    rfl
  have before : List.Forall₂ (Draft.Keyed "_id")
      (selected.map fun d => (Value.field "_id" d).text) (selected.map .ofDocument) := by
    rw [List.forall₂_map_left_iff, List.forall₂_map_right_iff, List.forall₂_same]
    exact fun d mem => Draft.keyed_ofDocument (named d mem)
  obtain ⟨keys, perm, after⟩ := carries_shaping shapes (keeps_keyed spares) _ _ _ before run
  have shown : shaped.map (fun d => d.document.lookup "_id") =
      keys.map fun key => some (.str key) := by
    rw [eq_comm, ← List.forall₂_eq_eq_eq, List.forall₂_map_left_iff, List.forall₂_map_right_iff]
    exact after.imp fun key d keyed => keyed.lookup_document.symm
  have asked : (selected.map fun d => d.lookup "_id") =
      (selected.map fun d => (Value.field "_id" d).text).map fun key => some (.str key) := by
    rw [List.map_map]
    exact List.map_congr_left named
  refine ⟨?_, fun d mem => ?_⟩
  · rw [shown, asked]
    exact perm.map _
  · have found : d.document.lookup "_id" ∈ keys.map fun key => some (.str key) :=
      shown ▸ List.mem_map_of_mem mem
    obtain ⟨key, -, found⟩ := List.mem_map.1 found
    exact ⟨key, found.symm⟩

namespace Repository

variable {store : String} {r : Repository World SessionId} {caller : Option SessionId} {w : World}
  {input : QueryInput} {page : Page}

/-- What is read are the documents that the where clause selects, each once and each under its own
identifier alone. -/
theorem findMany_identifiers (stored : r.backend = Memory.backend store)
    (internal : r.identity.internal = "_id")
    (keyed : ∀ d ∈ (w.contents store).documents r.name, ∃ key, d.lookup "_id" = some (.str key))
    (unpaged : ∀ q, input.read = .ok (some q) → q.skip.getD 0 ≤ 0 ∧ q.limit.getD 0 ≤ 0)
    (spares : ∀ q, input.read = .ok (some q) → q.Spares "_id")
    (found : (r.findMany input caller w).1 = .ok page) :
    ∃ filter selected, r.filter input.clause = .ok filter ∧
      Filter.select (.doc filter) ((w.contents store).documents r.name) = .ok selected ∧
      (page.documents.map fun d => d.lookup r.identity.external).Perm
        (selected.map fun d => d.lookup "_id") ∧
      ∀ d ∈ page.documents, d.lookup "_id" = none := by
  obtain ⟨query, read⟩ := read_of_findMany found
  obtain ⟨-, documents, total, run, rfl⟩ := (findMany_eq_ok stored read).1 found
  obtain ⟨stages, shape, kept, shaped, filtered, shapes, keeps, run, rfl, -⟩ := results_eq_ok.1 run
  obtain ⟨filter, selected, toFilter, select, rfl⟩ :=
    Pipeline.runStages_filterStages filtered keeps
  rw [QueryInput.toFilter_clause_of_read read] at toFilter
  have compiled : r.filter input.clause = .ok (r.identity.toInternal filter) :=
    Except.bind_eq_ok.2 ⟨filter, Except.liftFault_eq_ok.2 toFilter, rfl⟩
  have identified : ∀ d ∈ selected, ∃ key, d.lookup "_id" = some (.str key) := by
    intro d mem
    obtain ⟨-, rfl⟩ := Except.filterM_eq_ok.1 select
    exact keyed d (List.mem_filter.1 mem).1
  have plain : (query.getD {}).Spares "_id" ∧ (query.getD {}).skip.getD 0 ≤ 0 ∧
      (query.getD {}).limit.getD 0 ≤ 0 := by
    cases query with
    | none => exact ⟨⟨nofun, nofun⟩, Int.le_refl 0, Int.le_refl 0⟩
    | some q => exact ⟨spares q read, unpaged q read⟩
  obtain ⟨perm, texts⟩ := Pipeline.identifiers_shaped shapes plain.1 identified run
  rw [Pipeline.cut_of_nonpos plain.2.1 plain.2.2]
  refine ⟨_, selected, compiled, select, ?_, fun d mem => ?_⟩
  · have shown : ∀ d ∈ shaped, (r.identity.toExternal d.document).lookup r.identity.external =
        d.document.lookup "_id" := by
      intro d mem
      obtain ⟨key, found⟩ := texts d mem
      rw [found]
      exact Identity.lookup_external_toExternal (internal ▸ found)
    rw [List.map_map, List.map_map]
    exact (List.map_congr_left shown).symm ▸ perm
  · obtain ⟨_, -, rfl⟩ := List.mem_map.1 mem
    rw [← internal]
    exact Identity.lookup_internal_toExternal _ _

/-- The notes with a rank come under their own identifiers, beside authors and a copy of the rank. -/
theorem findMany_identifiers_ranked :
    ∃ page, (notes.findMany (.built ranked) none notebook).1 = .ok page ∧
      ∃ filter selected, notes.filter (QueryInput.built ranked).clause = .ok filter ∧
        Filter.select (.doc filter) ((notebook.contents "main").documents "notes") =
          .ok selected ∧
        (page.documents.map fun d => d.lookup "id").Perm
          (selected.map fun d => d.lookup "_id") ∧
        ∀ d ∈ page.documents, d.lookup "_id" = none := by
  have returns : ((notes.findMany (.built ranked) none notebook).1.toOption.map fun page =>
      page.documents.length) = some 2 := by decide +kernel
  obtain ⟨page, found, -⟩ := Except.exists_ok_of_map returns
  have keyed : ∀ d ∈ (notebook.contents "main").documents "notes",
      ∃ key, d.lookup "_id" = some (.str key) :=
    List.forall_mem_cons.2 ⟨⟨"a", rfl⟩, List.forall_mem_cons.2 ⟨⟨"b", rfl⟩,
      List.forall_mem_singleton.2 ⟨"c", rfl⟩⟩⟩
  have asked (q) (read : (QueryInput.built ranked).read = .ok (some q)) : q = ranked :=
    (Option.some.inj (Except.ok.inj read)).symm
  have unpaged (q) (read : (QueryInput.built ranked).read = .ok (some q)) :
      q.skip.getD 0 ≤ 0 ∧ q.limit.getD 0 ≤ 0 := by
    rw [asked q read]
    decide
  have spares (q) (read : (QueryInput.built ranked).read = .ok (some q)) : q.Spares "_id" := by
    rw [asked q read]
    refine ⟨fun join mem => ?_, fun aliases same path mem => ?_⟩
    · obtain rfl := List.mem_singleton.1 mem
      decide
    · obtain rfl := Value.doc.inj same
      obtain rfl := List.mem_singleton.1 mem
      decide
  exact ⟨page, found, findMany_identifiers rfl rfl keyed unpaged spares found⟩

end Repository
end Docbase
