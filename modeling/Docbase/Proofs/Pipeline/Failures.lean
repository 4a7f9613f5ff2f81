import Docbase.Proofs.Pipeline.Keyed
import Docbase.Proofs.Pipeline.Lookup
import Docbase.Proofs.Pipeline.Readable

namespace Docbase

variable {P : Failure → Prop} {path : String}

def Path.Covered (P : Failure → Prop) (path : String) : Prop :=
  ¬Path.IsReadable path → P (.misuse .badValue)

theorem Path.IsReadable.covered (readable : Path.IsReadable path) : Path.Covered P path :=
  fun unreadable => absurd readable unreadable

theorem Path.Covered.failsBy_get (covered : Path.Covered P path) (v : Value) :
    Except.FailsBy P (liftM (v.get path) : Except Failure Value) :=
  Except.failsBy_liftMisuse (Value.failsBy_get (P := fun m => P (.misuse m)) covered v)

theorem Path.Covered.failsBy_draft_get (covered : Path.Covered P path) (d : Draft) :
    Except.FailsBy P (liftM (d.get path) : Except Failure Node) :=
  Except.failsBy_liftMisuse (Node.failsBy_follow (P := fun m => P (.misuse m)) covered _)

/-! ## Expressions -/

namespace Expression

variable {α β : Type} {root : Node}

def FailsBy (P : Failure → Prop) (c : Computation α) : Prop := ∀ next, Except.FailsBy P (c next)

theorem failsBy_pure (a : α) : FailsBy P (pure a : Computation α) := fun _ => Except.failsBy_ok _

theorem FailsBy.bind {c : Computation α} {f : α → Computation β} (hc : FailsBy P c)
    (hf : ∀ a, FailsBy P (f a)) : FailsBy P (c >>= f) :=
  fun next => Except.FailsBy.bind (hc next) fun made _ => hf made.1 made.2

theorem failsBy_read (covered : Path.Covered P path) : FailsBy P (read root path) := by
  intro next failure failed
  rw [read] at failed
  cases followed : Node.follow (Path.parts path) root with
  | ok node =>
    rw [followed] at failed
    cases failed
  | error m =>
    rw [followed] at failed
    obtain rfl := Except.error.inj failed
    exact Node.failsBy_follow (P := fun m => P (.misuse m)) covered root m followed

inductive Names (path : String) : Value → Prop
  | part : Names path (.str ("$" ++ path))
  | text : Names path (.doc [("$toString", .str ("$" ++ path))])

theorem path?_dollar (path : String) : path? ("$" ++ path) = some path := by
  simp [path?, String.toList_append]

theorem failsBy_evaluate {e : Value} (names : Names path e) (covered : Path.Covered P path) :
    FailsBy P (evaluate root e) := by
  have part : FailsBy P (evaluate root (.str ("$" ++ path))) := by
    rw [evaluate, path?_dollar]
    exact failsBy_read covered
  cases names with
  | part => exact part
  | text =>
    rw [evaluate, if_pos rfl]
    exact part.bind fun node => failsBy_pure _

theorem failsBy_evaluateFields {expressions : Document}
    (names : ∀ field ∈ expressions, ∃ path, Names path field.2 ∧ Path.Covered P path) :
    FailsBy P (evaluateFields root expressions) := by
  induction expressions with
  | nil => exact failsBy_pure []
  | cons field rest ih =>
    obtain ⟨name, e⟩ := field
    obtain ⟨⟨path, here, covered⟩, there⟩ := List.forall_mem_cons.1 names
    rw [evaluateFields]
    exact (failsBy_evaluate here covered).bind fun node =>
      (ih there).bind fun nodes => failsBy_pure _

end Expression

namespace Pipeline

variable {foreign : String → List Document}

theorem failsBy_addFields {expressions : Document}
    (names : ∀ field ∈ expressions, ∃ path, Expression.Names path field.2 ∧ Path.Covered P path)
    (d : Draft) : Except.FailsBy P (addFields (.doc expressions) d) :=
  Except.FailsBy.bind (Expression.failsBy_evaluateFields names d.next) fun _ _ =>
    Except.failsBy_ok _

/-! ## Projections -/

/-- A field of a projection that is included, holds the text of another one, or is excluded. What
is excluded has to be the identifier, or else it fails. -/
inductive Flagged (P : Failure → Prop) : String × Value → Prop
  | included {path : String} (covered : Path.Covered P path) : Flagged P (path, .int 1)
  | text {name path : String} (covered : Path.Covered P path) :
    Flagged P (name, .doc [("$toString", .str ("$" ++ path))])
  | excluded {path : String} (refused : path ≠ "_id" → P (.exclusionAmongInclusions path)) :
    Flagged P (path, .int 0)

theorem failsBy_gather {projection : Document} (flagged : ∀ field ∈ projection, Flagged P field)
    (others : ∀ field ∈ projection, field.1 ≠ "_id") (source result : List (String × Node)) :
    Expression.FailsBy P (gather projection source result) := by
  induction projection generalizing result source with
  | nil => exact Expression.failsBy_pure result
  | cons field rest ih =>
    obtain ⟨here, there⟩ := List.forall_mem_cons.1 flagged
    obtain ⟨other, others⟩ := List.forall_mem_cons.1 others
    -- Whatever the field holds, it is placed without a failure, and the others follow.
    have kept (path : String) (node : Node) : Expression.FailsBy P (do
        if node.isAbsent then gather rest source result
        else
          let w ← fun next => .ok ((Write.placing node 0 (Path.parts path) result).run next)
          gather rest (w.carryOutFields source) (w.carryOutRoot result)) := by
      split
      · exact ih there others source result
      · refine Expression.FailsBy.bind (fun next => Except.failsBy_ok _) fun w => ?_
        exact ih there others _ _
    cases here with
    | included covered =>
      rw [gather_one]
      exact (Expression.failsBy_read covered).bind (kept _)
    | text covered =>
      rw [gather, isExclusion_doc]
      exact (Expression.failsBy_evaluate .text covered).bind (kept _)
    | excluded refused =>
      rw [gather, isExclusion_zero]
      exact fun next => Except.failsBy_error (refused other)

theorem failsBy_project {projection : Document} (flagged : ∀ field ∈ projection, Flagged P field)
    (d : Draft) : Except.FailsBy P (project (.doc projection) d) := by
  rw [project]
  split
  · exact Except.failsBy_ok _
  · refine Except.FailsBy.bind (failsBy_gather ?_ ?_ _ _ _) fun _ _ => Except.failsBy_ok _
    · exact fun field mem => flagged field (List.mem_filter.1 mem).1
    · exact fun field mem => by simpa using (List.mem_filter.1 mem).2

/-! ## Sorts -/

theorem failsBy_compareBy {keys : List (String × SortDirection)}
    (covered : ∀ key ∈ keys, Path.Covered P key.1) (a b : Draft) :
    Except.FailsBy P (compareBy (keys.map fun (path, d) => (path, .int d.sign)) a b) := by
  induction keys with
  | nil => exact Except.failsBy_ok _
  | cons key rest ih =>
    obtain ⟨path, direction⟩ := key
    obtain ⟨here, there⟩ := List.forall_mem_cons.1 covered
    have signed : ∃ sign, Value.order? (.int direction.sign) (.int 0) = some sign := by
      cases direction with
      | ascending => exact ⟨.gt, by decide +kernel⟩
      | descending => exact ⟨.lt, by decide +kernel⟩
    obtain ⟨sign, signed⟩ := signed
    rw [List.map_cons, compareBy]
    refine Except.FailsBy.bind (here.failsBy_draft_get a) fun left _ => ?_
    refine Except.FailsBy.bind (here.failsBy_draft_get b) fun right _ => ?_
    cases left.value.compare right.value with
    | eq => exact ih there
    | lt =>
      rw [signed]
      exact Except.failsBy_ok _
    | gt =>
      rw [signed]
      exact Except.failsBy_ok _

/-! ## Stages -/

def FailsBy (P : Failure → Prop) (stages : List Stage) : Prop :=
  ∀ (foreign : String → List Document) drafts,
    Except.FailsBy P (runStages foreign (Stage.renderAll stages) drafts)

theorem failsBy_nil : FailsBy P [] := fun _ _ => Except.failsBy_ok _

theorem FailsBy.append {stages others : List Stage} (first : FailsBy P stages)
    (last : FailsBy P others) : FailsBy P (stages ++ others) := by
  intro foreign drafts
  rw [runStages_append]
  exact Except.FailsBy.bind (first foreign drafts) fun between _ => last foreign between

theorem failsBy_of_mem {stages : List Stage} (each : ∀ stage ∈ stages, FailsBy P [stage]) :
    FailsBy P stages := by
  induction stages with
  | nil => exact failsBy_nil
  | cons stage rest ih =>
    obtain ⟨here, there⟩ := List.forall_mem_cons.1 each
    exact here.append (ih there)

theorem failsBy_unlessEmpty {α : Type} {stage : List α → Stage} {fields : List α}
    (h : FailsBy P [stage fields]) : FailsBy P (Plan.unlessEmpty stage fields) := by
  rw [Plan.unlessEmpty]
  split
  · exact failsBy_nil
  · exact h

theorem failsBy_addFieldsStage {expressions : Document}
    (names : ∀ field ∈ expressions, ∃ path, Expression.Names path field.2 ∧ Path.Covered P path) :
    FailsBy P [.addFields expressions] := by
  intro foreign drafts
  rw [runStages_singleton, runStage_addFields]
  exact Except.failsBy_mapM fun d _ => failsBy_addFields names d

theorem failsBy_projectStage {projection : Document}
    (flagged : ∀ field ∈ projection, Flagged P field) : FailsBy P [.project projection] := by
  intro foreign drafts
  rw [runStages_singleton, runStage_project]
  exact Except.failsBy_mapM fun d _ => failsBy_project flagged d

theorem failsBy_sortStage {keys : List (String × SortDirection)}
    (covered : ∀ key ∈ keys, Path.Covered P key.1) : FailsBy P [.sort keys] := by
  intro foreign drafts
  rw [runStages_singleton]
  exact Sorting.failsBy_sortM (fun a b =>
    Except.FailsBy.bind (failsBy_compareBy covered a b) fun _ _ => Except.failsBy_ok _) drafts

theorem failsBy_pageStages (single : Bool) (skip limit : Option Int) :
    FailsBy P (Plan.pageStages single skip limit) := by
  intro foreign drafts
  cases single with
  | true =>
    change Except.FailsBy P (runStages foreign (Stage.renderAll [.limit 1]) drafts)
    rw [runStages_singleton, runStage_limit]
    exact Except.failsBy_ok _
  | false =>
    rw [runStages_pageStages]
    exact Except.failsBy_ok _

/-! ## Lookups -/

section
variable {source : Value} {localField foreignField target : String} {pipeline : List Stage}
  (unnamed : source.hashable = false → P (.misuse .wrongType))
include unnamed

theorem failsBy_documentsOf : Except.FailsBy P (documentsOf foreign source) := by
  unfold documentsOf
  split
  · exact Except.failsBy_ok _
  · split
    · exact Except.failsBy_ok _
    · rename_i unhashable
      exact Except.failsBy_error (unnamed (Bool.eq_false_iff.2 unhashable))

variable (here : Path.Covered P localField) (there : Path.Covered P foreignField)
include here there

theorem failsBy_referred (rest : Document) (d : Draft) :
    Except.FailsBy P (referred foreign (("from", source) :: ("localField", .str localField) ::
      ("foreignField", .str foreignField) :: rest) d) := by
  have opened : referred foreign (("from", source) :: ("localField", .str localField) ::
      ("foreignField", .str foreignField) :: rest) d = (do
        let documents ← documentsOf foreign source
        let localValue ← d.get localField
        let found ← documents.filterM fun g => do
          let foreignValue ← (Value.doc g).get foreignField
          return isReferred localValue.value foreignValue
        return found.map .ofDocument : Except Failure (List Draft)) := rfl
  rw [opened]
  refine Except.FailsBy.bind (failsBy_documentsOf unnamed) fun documents _ => ?_
  refine Except.FailsBy.bind (here.failsBy_draft_get d) fun localValue _ => ?_
  refine Except.FailsBy.bind (Except.failsBy_filterM fun g _ => ?_) fun _ _ =>
    Except.failsBy_ok _
  exact Except.FailsBy.bind (there.failsBy_get (.doc g)) fun _ _ => Except.failsBy_ok _

theorem failsBy_lookupStage (inner : FailsBy P pipeline) :
    FailsBy P [.lookup source localField foreignField target pipeline] := by
  intro foreign drafts
  rw [runStages_singleton]
  refine Except.failsBy_mapM fun d _ => ?_
  refine Except.FailsBy.bind (failsBy_referred unnamed here there _ d) fun found _ => ?_
  rw [runInner_rendered]
  exact Except.FailsBy.bind (inner foreign found) fun _ _ => Except.failsBy_ok _

end

end Pipeline
end Docbase
