import Docbase.Proofs.Repository.Paging

namespace Docbase.Repository

open Memory (World SessionId)

theorem find_single {σ ι : Type} {r : Repository σ ι} {caller : Option ι} {input : QueryInput}
    {q : Query} (read : input.read = .ok (some q)) :
    r.find true input caller = r.findMany (.built { q with skip := none, limit := some 1 }) caller := by
  have same : r.answers true caller (some q) =
      r.answers false caller (some { q with skip := none, limit := some 1 }) := rfl
  unfold findMany find
  rw [read]
  change r.answers true caller (some q) >>= _ = r.answers false caller (some _) >>= _
  rw [same]

def firstOf {σ ι : Type} (r : Repository σ ι) (input : QueryInput) :
    List Document → Except Failure Document
  | [] => .error (.notFound r.name input)
  | d :: _ => .ok (r.identity.toExternal d)

variable {store : String} {r : Repository World SessionId} {caller : Option SessionId} {w : World}
  {input : QueryInput} {q : Query} {found : List Document} {total : Nat}

theorem findSingle_of_results (stored : r.backend = Memory.backend store)
    (read : input.read = .ok (some q)) (accepted : w.refusal store caller = none)
    (run : results r.identity (fun other => (w.contents store).documents other)
      ((w.contents store).documents r.name) { q with skip := none, limit := none } =
        .ok (found, total)) :
    (r.findSingle input caller w).1 = r.firstOf input found := by
  have page := results_page run (Int.le_refl _) (Int.le_refl _) none (some 1)
  have asked : (QueryInput.built { q with skip := none, limit := some 1 }).read =
      .ok (some { q with skip := none, limit := some 1 }) := rfl
  have returned := (findMany_eq_ok stored asked).2 ⟨accepted, _, _, page, rfl⟩
  rw [← find_single read] at returned
  rw [findSingle, Action.bind_apply]
  rcases answered : r.find true input caller w with ⟨outcome, v⟩
  rw [answered] at returned
  dsimp only at returned
  rw [returned]
  cases found with
  | nil => rfl
  | cons d rest => rfl

end Docbase.Repository
