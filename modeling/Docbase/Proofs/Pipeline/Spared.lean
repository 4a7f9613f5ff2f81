import Docbase.Proofs.Memory.SharedLists
import Docbase.Proofs.Pipeline.AddedFields
import Docbase.Proofs.Pipeline.Failures
import Docbase.Proofs.Pipeline.Run

/-!
# Paths that joins and aliases leave alone

A join writes new documents to its field, an alias writes a part of the draft to its name. A path that
has nothing to do with the fields and the names leads where it led in the stored document, if no alias
goes on behind another one, and the path goes into no list with one of them.
-/

namespace Docbase

open Docbase.Path (Unrelated)
open Node (Grown follow)

/-! ## The next mark -/

namespace Expression

variable {root : Node} {next next' : Nat}

theorem next_evaluate {e : Value} {path : String} {node : Node} (names : Names path e)
    (run : evaluate root e next = .ok (node, next')) : next' = next := by
  have part {node : Node} {next' : Nat}
      (run : evaluate root (.str ("$" ++ path)) next = .ok (node, next')) : next' = next := by
    rw [evaluate, path?_dollar] at run
    change read root path next = _ at run
    unfold read at run
    cases followed : follow (Path.parts path) root with
    | ok found =>
      rw [followed] at run
      exact (Prod.mk.inj (Except.ok.inj run)).2.symm
    | error misuse =>
      rw [followed] at run
      cases run
  cases names with
  | part => exact part run
  | text =>
    rw [evaluate, if_pos rfl] at run
    obtain ⟨⟨found, between⟩, read, run⟩ := Except.bind_eq_ok.1 run
    exact (Prod.mk.inj (Except.ok.inj run)).2.symm.trans (part read)

theorem next_evaluateFields {expressions : Document} {parts : List (String × Node)}
    (names : ∀ field ∈ expressions, ∃ path, Names path field.2)
    (run : evaluateFields root expressions next = .ok (parts, next')) : next' = next := by
  induction expressions generalizing next parts with
  | nil => exact (Prod.mk.inj (Except.ok.inj run)).2.symm
  | cons field rest ih =>
    obtain ⟨name, e⟩ := field
    obtain ⟨⟨path, here⟩, there⟩ := List.forall_mem_cons.1 names
    obtain ⟨⟨node, between⟩, evaluated, run⟩ := Except.bind_eq_ok.1 run
    obtain ⟨⟨others, last⟩, later, run⟩ := Except.bind_eq_ok.1 run
    obtain ⟨-, rfl⟩ := Prod.mk.inj (Except.ok.inj run)
    exact (ih there later).trans (next_evaluate here evaluated)

end Expression

/-! ## Drafts -/

namespace Draft

variable {d : Document} {names shared : List (List String)} {draft result : Draft} {path : String}

/-- What writes to some paths have made of a document, among them some with content that may be
shared. -/
structure Written (d : Document) (names shared : List (List String)) (draft : Draft) : Prop where
  grown : Grown (.doc 0 (ofDocument d).fields) (ofDocument d).next names shared draft.next
    (.doc 0 draft.fields)
  same : ∀ q, (∀ n ∈ names, Unrelated n q ∧ ¬d.ShareList n q) →
    follow q (.doc 0 draft.fields) = follow q (.doc 0 (ofDocument d).fields)

theorem written_ofDocument (d : Document) (names shared : List (List String)) :
    Written d names shared (ofDocument d) :=
  ⟨Node.grown_self (Node.unshared_ofDocument d) names shared, fun _ _ => rfl⟩

namespace Written

theorem mono {names' shared' : List (List String)} (h : Written d names shared draft)
    (le : names ⊆ names') (le' : shared ⊆ shared') : Written d names' shared' draft :=
  ⟨h.grown.mono le le', fun q apart => h.same q fun n mem => apart n (le mem)⟩

theorem get (h : Written d names shared draft)
    (apart : ∀ n ∈ names, Unrelated n (Path.parts path) ∧ ¬d.ShareList n (Path.parts path)) :
    (Value.doc draft.document).get path = (Value.doc d).get path := by
  have before := Node.value_follow_ofFields (Path.parts path) d 1
  have after := h.grown.value_follow (c := Path.parts path) fun b le _ n mem le' =>
    (apart n mem).1.1 (le'.trans le)
  rw [h.same _ apart] at after
  exact after.symm.trans before

end Written

theorem noList_of_not_shareList {p q b : List String} (opened : ¬d.ShareList p q) (le : b <+: p)
    (le' : b <+: q) (items : List Node) :
    follow b (.doc 0 (ofDocument d).fields) ≠ .ok (.list items) :=
  fun found => opened ⟨b, le, le', Node.exists_list_of_follow found⟩

namespace Written

/-- What is no document can be written anywhere. -/
theorem set (h : Written d names [] draft) (mem : Path.parts path ∈ names) {content : Node}
    (plain : ∀ m fields, content ≠ .doc m fields) :
    Written d names [] (draft.set path content) := by
  have unshared := Node.unshared_ofDocument d
  obtain ⟨w, before, rest, run, puts⟩ :=
    Write.exists_puts_placing content (Path.parts_ne_nil path) draft.fields draft.next
  have free : Node.Free [] before := fun _ mem => absurd mem List.not_mem_nil
  have made : draft.set path content =
      { next := draft.next + rest.length, fields := w.carryOutRoot draft.fields } := by
    unfold Draft.set
    change Draft.mk (Write.placing content 0 (Path.parts path) draft.fields draft.next).2
      ((Write.placing content 0 (Path.parts path) draft.fields draft.next).1.carryOutRoot
        draft.fields) = _
    rw [run]
  rw [made]
  constructor
  · rw [← Write.carryOut_root]
    exact h.grown.put unshared puts free mem (.inr plain)
  · intro q apart
    rw [← Write.carryOut_root]
    exact h.grown.frame unshared puts free mem (fun n mem => (apart n mem).1)
      (fun b le le' => noList_of_not_shareList (apart _ mem).2 le le') (h.same q apart)

theorem setDrafts (h : Written d names [] draft) (mem : Path.parts path ∈ names)
    (items : List Draft) : Written d names [] (draft.setDrafts path items) := by
  have later {next : Nat} (le : draft.next ≤ next) : Written d names [] { draft with next } :=
    ⟨h.grown.later le, h.same⟩
  exact (later (le_grafts items [] draft.next)).set mem (by simp)

theorem addFields (h : Written d names shared draft) (apart : shared.Pairwise Unrelated)
    (among : shared ⊆ names) {expressions : Document}
    (within : ∀ path ∈ Fields.keys expressions, Path.parts path ∈ shared)
    (plain : ∀ field ∈ expressions, ∃ path, Expression.Names path field.2)
    (run : Pipeline.addFields (.doc expressions) draft = .ok result) :
    Written d names shared result := by
  have unshared := Node.unshared_ofDocument d
  obtain ⟨⟨parts, between⟩, evaluated, run⟩ := Except.bind_eq_ok.1 run
  obtain rfl := Except.pure_eq_ok.1 run
  obtain rfl := Expression.next_evaluateFields plain evaluated
  have keys := Expression.keys_evaluateFields evaluated
  have inside : ∀ part ∈ parts, Path.parts part.1 ∈ shared := by
    intro part mem
    refine within part.1 ?_
    rw [← keys]
    exact List.mem_map_of_mem mem
  constructor
  · exact Pipeline.assign_grown unshared apart among inside h.grown
  · intro q other
    exact (Pipeline.assign_frame unshared apart among inside h.grown
      (fun n mem => (other n mem).1)
      (fun n mem b le le' => noList_of_not_shareList (other n mem).2 le le') (h.same q other))

end Written
end Draft

/-! ## Lookups -/

namespace Pipeline

variable {foreign : String → List Document} {names : List (List String)}

theorem written_lookups {lookups : List Stage} {documents : List Document}
    {drafts results : List Draft} (targets : ∀ stage ∈ lookups, ∃ source field key target pipeline,
      stage = .lookup source field key target pipeline ∧ Path.parts target ∈ names)
    (each : List.Forall₂ (Draft.Written · names []) documents drafts)
    (run : runStages foreign (Stage.renderAll lookups) drafts = .ok results) :
    List.Forall₂ (Draft.Written · names []) documents results := by
  induction lookups generalizing drafts with
  | nil =>
    obtain rfl := Except.ok.inj run
    exact each
  | cons stage rest ih =>
    obtain ⟨⟨source, field, key, target, pipeline, rfl, mem⟩, others⟩ :=
      List.forall_mem_cons.1 targets
    obtain ⟨between, here, run⟩ := Except.bind_eq_ok.1 run
    obtain ⟨step, stage_eq, places⟩ := runStage_lookup foreign source field key target pipeline drafts
    rw [stage_eq] at here
    refine ih others (forall₂_mapM (fun d draft result written made => ?_) each here) run
    obtain ⟨found, rfl⟩ := places draft result made
    exact written.setDrafts mem found

end Pipeline
end Docbase
