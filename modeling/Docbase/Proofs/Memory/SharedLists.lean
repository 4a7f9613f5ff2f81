import Docbase.Proofs.Memory.Patches

/-!
# Writes at unrelated paths

What is written at one path cannot be read at another one, if neither goes on from the other. But a
write puts a document in the place of a list that lies on its way. If the list is on the way of the
other path as well, that leads to nothing afterwards.
-/

namespace Docbase

open Memory.Contents (patched)
open Docbase.Path (Unrelated)

namespace Document

variable {p q : List String} {key first : String} {v : Value} {d inner patch : Document}

/-- There is a list at the end of a path with which two others start. -/
def ShareList (p q : List String) (d : Document) : Prop :=
  ∃ start, start <+: p ∧ start <+: q ∧ ∃ items, Value.follow start (.doc d) = .ok (.list items)

instance (p q : List String) (d : Document) : Decidable (ShareList p q d) :=
  decidable_of_iff (∃ start ∈ p.inits, start <+: q ∧
      (Value.follow start (.doc d)).toOption.any (·.isList) = true) <| by
    unfold ShareList
    simp only [List.mem_inits]
    refine exists_congr fun start => and_congr_right fun _ => and_congr_right fun _ => ?_
    cases Value.follow start (.doc d) with
    | error misuse => simp [Except.toOption]
    | ok v => cases v <;> simp [Except.toOption, Value.isList]

theorem shareList_cons : ShareList (key :: p) (key :: q) d ↔
    ∃ start, start <+: p ∧ start <+: q ∧
      ∃ items, Value.follow start (Value.field key d) = .ok (.list items) := by
  constructor
  · rintro ⟨start, le, le', items, list⟩
    cases start with
    | nil => cases list
    | cons part start =>
      obtain ⟨rfl, further⟩ := List.cons_prefix_cons.1 le
      exact ⟨start, further, (List.cons_prefix_cons.1 le').2, items, list⟩
  · rintro ⟨start, le, le', items, list⟩
    exact ⟨key :: start, List.cons_prefix_cons.2 ⟨rfl, le⟩, List.cons_prefix_cons.2 ⟨rfl, le'⟩,
      items, list⟩

theorem not_shareList_of_ne (ne : first ≠ key) : ¬ShareList (key :: p) (first :: q) d := by
  rintro ⟨start, le, le', items, list⟩
  cases start with
  | nil => cases list
  | cons part start =>
    obtain ⟨rfl, -⟩ := List.cons_prefix_cons.1 le
    exact ne (List.cons_prefix_cons.1 le').1.symm

theorem follow_set_of_ne (ne : first ≠ key) :
    Value.follow (first :: q) (.doc (Document.set (key :: p) v d)) =
      Value.follow (first :: q) (.doc d) := by
  rw [Value.follow_cons, Value.follow_cons, Value.field, lookup_set_of_ne ne]
  rfl

theorem follow_set_inside {next : String} :
    Value.follow (key :: q) (.doc (Document.set (key :: next :: p) v d)) =
      Value.follow q (.doc (Document.set (next :: p) v (Document.inside key d))) := by
  rw [set_cons_cons, Value.follow_cons, Value.field, Fields.lookup_set_self]
  rfl

/-- Where an unrelated path leads after a write: to nothing, if a list is on the way
of both, and else where it led before. -/
theorem follow_set_of_unrelated (apart : Unrelated p q) (v : Value) (d : Document) :
    Value.follow q (.doc (Document.set p v d)) =
      if ShareList p q d then .ok .missing else Value.follow q (.doc d) := by
  induction p generalizing q d with
  | nil => exact absurd List.nil_prefix apart.1
  | cons key p ih =>
    cases q with
    | nil => exact absurd List.nil_prefix apart.2
    | cons first q =>
      by_cases same : first = key
      · subst same
        have below := Path.unrelated_cons.1 apart
        cases p with
        | nil => exact absurd List.nil_prefix below.1
        | cons next p =>
          cases q with
          | nil => exact absurd List.nil_prefix below.2
          | cons other q =>
            have new : Value.follow (other :: q) (.doc []) = .ok .missing :=
              Value.follow_missing q
            rw [follow_set_inside, ih below, Value.follow_cons first]
            rcases Value.container_cases (Value.field first d) with ⟨inner, field⟩ |
              ⟨items, field⟩ | ⟨noDoc, nowhere⟩
            · have deeper : ShareList (first :: next :: p) (first :: other :: q) d ↔
                  ShareList (next :: p) (other :: q) inner := by
                rw [shareList_cons, field]
                rfl
              rw [field, inside_of_lookup (Value.lookup_of_field field (by simp))]
              exact (if_congr deeper rfl rfl).symm
            · -- The list is replaced by a new document, in which only the written path leads on.
              have shared : ShareList (first :: next :: p) (first :: other :: q) d :=
                shareList_cons.2 ⟨[], List.nil_prefix, List.nil_prefix, items, congrArg _ field⟩
              have replaced : ∀ inner, Value.field first d ≠ .doc inner := by
                simp [field]
              rw [if_pos shared, inside_of_field replaced, new, ite_self]
            · rw [inside_of_field noDoc, new, nowhere, ite_self, ite_self]
      · rw [follow_set_of_ne same, if_neg (not_shareList_of_ne same)]

theorem exists_doc_follow_set {start : List String} (le : start <+: p) (ne : start ≠ p) (v : Value)
    (d : Document) : ∃ inner, Value.follow start (.doc (Document.set p v d)) = .ok (.doc inner) := by
  induction start generalizing p d with
  | nil => exact ⟨_, rfl⟩
  | cons key start ih =>
    obtain ⟨rest, rfl⟩ := le
    cases further : start ++ rest with
    | nil => exact absurd (by rw [List.cons_append, further, (List.append_eq_nil_iff.1 further).1]) ne
    | cons next others =>
      rw [List.cons_append, further, follow_set_inside, ← further]
      refine ih (List.prefix_append start rest) (fun same => ne ?_) _
      rw [List.cons_append, ← same]

theorem not_shareList_set {written : List String} (apart : Unrelated written q)
    (opened : ¬ShareList p q d) (v : Value) :
    ¬ShareList p q (Document.set written v d) := by
  rintro ⟨start, le, le', items, list⟩
  by_cases before : start <+: written
  · have ne : start ≠ written := fun same => apart.1 (same ▸ le')
    obtain ⟨inner, document⟩ := exists_doc_follow_set before ne v d
    cases list.symm.trans document
  · have beside : Unrelated written start := ⟨fun behind => apart.1 (behind.trans le'), before⟩
    rw [follow_set_of_unrelated beside] at list
    split at list
    · cases list
    · exact opened ⟨start, le, le', items, list⟩

/-- A path that has nothing to do with those of a patch leads where it led before, if it goes into no
list with one of them. -/
theorem follow_patched (apart : ∀ f ∈ patch, Unrelated (Path.parts f.1) q ∧
      ¬ShareList (Path.parts f.1) q d) :
    Value.follow q (.doc (patched d patch)) = Value.follow q (.doc d) := by
  induction patch generalizing d with
  | nil => rfl
  | cons f rest ih =>
    obtain ⟨⟨here, opened⟩, there⟩ := List.forall_mem_cons.1 apart
    have written := follow_set_of_unrelated here f.2 d
    rw [if_neg opened] at written
    rw [← written]
    exact ih fun g mem => ⟨(there g mem).1, not_shareList_set here (there g mem).2 f.2⟩

end Document
end Docbase
