import Docbase.Proofs.Action
import Docbase.Proofs.Query.Read
import Docbase.Query.Plan

namespace Docbase.Plan

variable {identity : Identity} {q : Query} {shape : List Stage}

def shaping (identity : Identity) (q : Query) : Except Failure (List Stage) := do
  let lookups ← (q.join.getD []).mapM fun (field, target) =>
    lookupStage identity q.joinConditions field target
  let aliases ← aliasFields identity q.aliases
  let projection ← projection identity (.tuple (q.select.getD []))
  return lookups ++ unlessEmpty .addFields aliases ++ unlessEmpty .project projection
    ++ unlessEmpty .sort (sortKeys identity (q.sort.getD []))

theorem ofQuery_eq_ok {single : Bool} {plan : Plan} :
    ofQuery identity single q = .ok plan ↔
      ∃ filter shape, filterStages identity (Predicate.clause q.filter) = .ok filter ∧
        shaping identity q = .ok shape ∧
        plan = { stages := filter ++ shape ++ pageStages single q.skip q.limit
                 total := filter ++ [.count totalField] } := by
  simp only [ofQuery, counting, shaping, Except.bind_eq_ok, Except.pure_eq_ok]
  constructor
  · rintro ⟨filter, hf, lookups, hl, aliases, ha, projection, hp, _, ⟨_, hf', rfl⟩, rfl⟩
    obtain rfl := Except.ok.inj (hf.symm.trans hf')
    exact ⟨filter, _, hf, ⟨lookups, hl, aliases, ha, projection, hp, rfl⟩, by
      simp only [List.append_assoc]⟩
  · rintro ⟨filter, _, hf, ⟨lookups, hl, aliases, ha, projection, hp, rfl⟩, rfl⟩
    exact ⟨filter, hf, lookups, hl, aliases, ha, projection, hp, _, ⟨filter, hf, rfl⟩, by
      simp only [List.append_assoc]⟩

theorem filterStages_null (identity : Identity) : filterStages identity .null = .ok [] := by
  with_unfolding_all rfl

theorem filterStages_congr {clause other : Value}
    (same : Where.toFilter clause = Where.toFilter other) :
    filterStages identity clause = filterStages identity other := by
  simp only [filterStages, same]

theorem shaping_eq_ok (noJoin : q.join.getD [] = []) :
    shaping identity q = .ok shape ↔
      ∃ aliases projected, aliasFields identity q.aliases = .ok aliases ∧
        projection identity (.tuple (q.select.getD [])) = .ok projected ∧
        shape = unlessEmpty .addFields aliases ++ unlessEmpty .project projected
          ++ unlessEmpty .sort (sortKeys identity (q.sort.getD [])) := by
  have none : (q.join.getD []).mapM (fun (field, target) =>
      lookupStage identity q.joinConditions field target) = .ok [] := by rw [noJoin]; rfl
  simp only [shaping, none, Except.bind_eq_ok, Except.pure_eq_ok, Except.ok.injEq]
  constructor
  · rintro ⟨_, rfl, aliases, aliased, projected, projects, rfl⟩
    exact ⟨aliases, projected, aliased, projects, by rw [List.nil_append]⟩
  · rintro ⟨aliases, projected, aliased, projects, rfl⟩
    exact ⟨[], rfl, aliases, aliased, projected, projects, by rw [List.nil_append]⟩

theorem shaping_page (skip limit : Option Int) :
    shaping identity { q with skip, limit } = shaping identity q := rfl

end Docbase.Plan
