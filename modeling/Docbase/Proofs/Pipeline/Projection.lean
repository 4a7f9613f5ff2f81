import Docbase.Proofs.Pipeline.Lookup
import Docbase.Proofs.Query.Plan

namespace Docbase

namespace Plan

def selectedPaths (identity : Identity) (names : List String) : List String :=
  (names.map identity.internalName).eraseDups

theorem projection_names (identity : Identity) (names : List String) :
    projection identity (.tuple (names.map .str)) =
      .ok ((selectedPaths identity names).map fun path => (path, .int 1)) := by
  cases names with
  | nil => rfl
  | cons name rest =>
    have keys : ((name :: rest).map Value.str).mapM keyOf = .ok (name :: rest) :=
      Except.mapM_eq_ok.2 (List.forall₂_map_left_iff.2 (List.forall₂_same.2 fun _ _ => rfl))
    have truthy : (Value.tuple ((name :: rest).map .str)).truthy = true := rfl
    have elements : (Value.tuple ((name :: rest).map .str)).elements? =
        some ((name :: rest).map .str) := rfl
    rw [projection, truthy, elements]
    refine Except.bind_eq_ok.2 ⟨name :: rest, keys, Except.pure_eq_ok.2 ?_⟩
    rw [selectedPaths, ← Fields.ofWrites_same, List.map_map]
    rfl

end Plan

namespace Draft

theorem Sound.addFields {d result : Draft} (sound : d.Sound) {expressions : Document}
    (run : Pipeline.addFields (.doc expressions) d = .ok result) : result.Sound := by
  obtain ⟨⟨parts, between⟩, evaluated, h⟩ := Except.bind_eq_ok.1 run
  obtain rfl := Except.pure_eq_ok.1 h
  have inner := Expression.gives_evaluateFields sound.inner expressions d.next
    sound.next_ne parts between evaluated
  have nothing : ∀ w ∈ ([] : List Write), w.BringsInner := fun w mem => nomatch mem
  obtain ⟨fields, next⟩ := Pipeline.gives_assign (P := Node.AreInnerFields) id inner.1
    (fun _ _ _ _ under => Write.carryOutRoot_inner under.brings) nothing sound.inner between
    inner.2
  exact ⟨next, fields⟩

end Draft

namespace Pipeline

variable {foreign : String → List Document} {paths names : List String} {d : Draft}

def inclusions (paths : List String) : Document := paths.map fun path => (path, .int 1)

theorem keeps_identifier (paths : List String) :
    (((inclusions paths).lookup "_id").getD (.int 1)).isExclusion = false := by
  cases flagged : (inclusions paths).lookup "_id" with
  | none => exact isExclusion_one
  | some flag =>
    obtain ⟨path, -, h⟩ := List.mem_map.1 (Fields.mem_of_lookup flagged)
    obtain ⟨-, rfl⟩ := Prod.mk.inj h
    exact isExclusion_one

theorem flags_inclusions (paths : List String) :
    (inclusions paths).filter (fun field => field.1 != "_id") =
      inclusions (paths.filter fun path => path != "_id") := by
  rw [inclusions, List.filter_map]
  rfl

/-- The identifier alone does not make a projection: all fields are kept. -/
theorem project_identifier (only : ∀ path ∈ paths, path = "_id") (d : Draft) :
    project (.doc (inclusions paths)) d = .ok d := by
  have none : paths.filter (fun path => path != "_id") = [] :=
    List.filter_eq_nil_iff.2 fun path mem => by simp [only path mem]
  simp only [project, keeps_identifier, flags_inclusions, none]
  rfl

theorem project_paths (other : ∃ path ∈ paths, path ≠ "_id") (d : Draft) :
    project (.doc (inclusions paths)) d = (do
      let (fields, next) ← (gather (inclusions (paths.filter fun path => path != "_id")) d.fields
        (d.fields.filter fun field => field.1 == "_id")).run d.next
      return { next, fields }) := by
  obtain ⟨path, mem, other⟩ := other
  have included : (inclusions (paths.filter fun path => path != "_id")).all
      (fun field => field.2.isExclusion) = false := by
    rw [List.all_eq_false]
    refine ⟨(path, .int 1), List.mem_map.2 ⟨path, List.mem_filter.2 ⟨mem, ?_⟩, rfl⟩, ?_⟩
    · exact bne_iff_ne.2 other
    · rw [isExclusion_one]
      exact Bool.false_ne_true
  simp only [project, keeps_identifier, flags_inclusions, included]
  rfl

/-! ## Stages that a query may have -/

theorem runStages_addFields (fields : Document) (drafts : List Draft) :
    runStages foreign (Stage.renderAll (Plan.unlessEmpty .addFields fields)) drafts =
      drafts.mapM (addFields (.doc fields)) := by
  cases fields with
  | nil =>
    exact (Except.mapM_eq_ok.2 (List.forall₂_same.2 fun _ _ => rfl)).symm
  | cons field rest => exact (runStages_singleton _ _).trans (runStage_addFields _ _)

theorem mapM_project_nil (drafts : List Draft) :
    drafts.mapM (project (.doc (inclusions []))) = .ok drafts := by
  apply Except.mapM_eq_ok.2
  apply List.forall₂_same.2
  intro d _
  exact project_identifier (fun _ mem => absurd mem List.not_mem_nil) d

theorem runStages_project (paths : List String) (drafts : List Draft) :
    runStages foreign (Stage.renderAll (Plan.unlessEmpty .project (inclusions paths))) drafts =
      drafts.mapM (project (.doc (inclusions paths))) := by
  cases paths with
  | nil => exact (mapM_project_nil drafts).symm
  | cons path rest => exact (runStages_singleton _ _).trans (runStage_project _ _)

/-! ## Names -/

/-- A document without the fields that are neither the identifier nor among some names. -/
def restricted (names : List String) (d : Document) : Document :=
  d.filter (fun field => field.1 == "_id") ++ pick (names.filter fun name => name != "_id") d

theorem project_names (plain : ∀ name ∈ names, Path.IsName name) (nodup : names.Nodup)
    (other : ∃ name ∈ names, name ≠ "_id") (sound : d.Sound) :
    ∃ result, project (.doc (inclusions names)) d = .ok result ∧
      result.document = restricted names d.document := by
  have identifier (field : String × Node) (mem : field ∈ d.fields.filter fun f => f.1 == "_id") :
      field.1 = "_id" := by simpa using (List.mem_filter.1 mem).2
  have new : ∀ name ∈ names.filter (fun name => name != "_id"),
      name ∉ Fields.keys (d.fields.filter fun field => field.1 == "_id") := by
    intro name mem found
    obtain ⟨field, there, rfl⟩ := List.mem_map.1 found
    exact bne_iff_ne.1 (List.mem_filter.1 mem).2 (identifier field there)
  obtain ⟨fields, gathered, values⟩ := gather_names
    (fun name mem => plain name (List.mem_filter.1 mem).1) sound.inner (sound.inner.filter _)
    (nodup.filter _) new d.next
  refine ⟨{ next := d.next, fields }, ?_, ?_⟩
  · rw [project_paths other]
    exact Except.bind_eq_ok.2 ⟨_, gathered, rfl⟩
  · have kept : Node.fieldValues (d.fields.filter fun field => field.1 == "_id") =
        d.document.filter fun field => field.1 == "_id" := by
      rw [Draft.document, Node.fieldValues_eq_map, Node.fieldValues_eq_map, List.filter_map]
      rfl
    rw [restricted, ← kept]
    exact values

theorem pick_cons (name : String) (rest : List String) (d : Document) :
    pick (name :: rest) d = if (Value.field name d).isMissing then pick rest d
      else (name, Value.field name d) :: pick rest d := by
  rw [pick, List.filter_cons]
  cases (Value.field name d).isMissing with
  | true => rfl
  | false => rfl

theorem eq_missing {v : Value} (h : v.isMissing = true) : v = .missing := by
  cases v with
  | missing => rfl
  | _ => cases h

theorem field_pick (names : List String) (key : String) (d : Document) :
    Value.field key (pick names d) = if key ∈ names then Value.field key d else .missing := by
  induction names with
  | nil => rfl
  | cons name rest ih =>
    rw [pick_cons]
    by_cases same : key = name
    · subst same
      rw [if_pos List.mem_cons_self]
      split
      · rename_i absent
        rw [ih, eq_missing absent, ite_self]
      · rw [Value.field, List.lookup_cons_self, Option.getD_some]
    · have behind (v : Value) : Value.field key ((name, v) :: pick rest d) =
          Value.field key (pick rest d) := by
        rw [Value.field, List.lookup_cons, beq_false_of_ne same]
        rfl
      have others : key ∈ name :: rest ↔ key ∈ rest := by simp [same]
      simp only [apply_ite (Value.field key), behind, ite_self, ih, others]

theorem field_restricted (names : List String) (key : String) (d : Document) :
    Value.field key (restricted names d) =
      if key = "_id" ∨ key ∈ names then Value.field key d else .missing := by
  rw [Value.field, restricted, List.lookup_append]
  by_cases identifier : key = "_id"
  · subst identifier
    have unnamed : "_id" ∉ names.filter fun name => name != "_id" := by simp
    have nowhere := field_pick (names.filter fun name => name != "_id") "_id" d
    rw [if_neg unnamed] at nowhere
    rw [if_pos (.inl rfl), Fields.lookup_filter_self]
    cases found : d.lookup "_id" with
    | some v => rw [Value.field, found]; rfl
    | none => rw [Value.field, found]; exact nowhere
  · have nothing : (d.filter fun field => field.1 == "_id").lookup key = none := by
      rw [Fields.lookup_eq_none_iff, Fields.keys, List.mem_map]
      rintro ⟨field, mem, rfl⟩
      exact identifier (by simpa using (List.mem_filter.1 mem).2)
    have named : key ∈ names.filter (fun name => name != "_id") ↔ key = "_id" ∨ key ∈ names := by
      simp [identifier]
    rw [nothing, Option.none_or]
    exact (field_pick _ key d).trans (if_congr named rfl rfl)

end Pipeline
end Docbase
