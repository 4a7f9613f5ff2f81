import Docbase.Proofs.Pipeline.Sharing

/-!
# Parts without sharing

The draft of a document has each document in it once: one that a path leads to through documents has
a mark that is found there and nowhere else, except in what it is itself a part of.
-/

namespace Docbase
namespace Node

variable {root node : Node} {fields inside : List (String × Node)} {b c s : List String}
  {bound m n : Nat} {v : Value}

def Without (m : Nat) (node : Node) : Prop := node.Each fun m' _ => m' ≠ m

def Below (bound : Nat) (node : Node) : Prop := node.Each fun m _ => m < bound

theorem carryOut_of_without {w : Write} (h : node.Without w.owner) : w.carryOut node = node :=
  Write.carryOut_of_each (h.imp fun _ _ other same => absurd same other)

structure Unshared (root : Node) (bound : Nat) : Prop where
  below : root.Below bound
  apart : ∀ {c m fields}, Through c root → follow c root = .ok (.doc m fields) →
    ∀ {s node}, ¬s <+: c → follow s root = .ok node → node.Without m

namespace Unshared

theorem lt (h : Unshared root bound) (found : follow c root = .ok (.doc m fields)) : m < bound :=
  (Each.follow h.below found).1

theorem eq_of_mark (h : Unshared root bound) (through : Through c root)
    (found : follow c root = .ok (.doc m fields)) (found' : follow b root = .ok (.doc m inside)) :
    b = c := by
  have before : b <+: c := by
    by_contra apart
    exact (h.apart through found apart found').1 rfl
  have behind : c <+: b := by
    by_contra apart
    exact (h.apart (through.of_le before) found' apart found).1 rfl
  exact before.eq_of_length (Nat.le_antisymm before.length_le behind.length_le)

end Unshared

/-! ## Drafts of documents -/

theorem below_ofValue (v : Value) (n : Nat) : (ofValue v n).1.Below (ofValue v n).2 := by
  obtain ⟨-, heap, each⟩ := exists_heap v n
  exact each.imp fun m fields on => on.lt

theorem lookup_ofFields_apart (key : String) (d : Document) (n : Nat) :
    ∃ low, n ≤ low ∧
      ((ofFields d n).1.lookup key).getD absent = (ofValue (Value.field key d) low).1 ∧
      ∀ other, other ≠ key → (((ofFields d n).1.lookup other).getD absent).Each fun m _ =>
        m < low ∨ (ofValue (Value.field key d) low).2 ≤ m := by
  induction d generalizing n with
  | nil => exact ⟨n, Nat.le_refl n, rfl, fun _ _ => trivial⟩
  | cons field rest ih =>
    obtain ⟨k, v⟩ := field
    obtain ⟨le, heap, here⟩ := exists_heap v n
    obtain ⟨-, heap', later⟩ := exists_heap_fields rest (ofValue v n).2
    have made : (ofFields ((k, v) :: rest) n).1 =
        (k, (ofValue v n).1) :: (ofFields rest (ofValue v n).2).1 := rfl
    rw [made]
    by_cases same : key = k
    · subst same
      refine ⟨n, Nat.le_refl n, ?_, fun other ne => ?_⟩
      · rw [List.lookup_cons_self, Value.field, List.lookup_cons_self]
        rfl
      · rw [List.lookup_cons, beq_false_of_ne ne, Value.field, List.lookup_cons_self]
        exact (later.getD other).imp fun m fields on => .inr on.ge
    · obtain ⟨low, above, found, apart⟩ := ih (ofValue v n).2
      have behind : Value.field key ((k, v) :: rest) = Value.field key rest := by
        rw [Value.field, List.lookup_cons, beq_false_of_ne same]
        rfl
      refine ⟨low, Nat.le_trans le above, ?_, fun other ne => ?_⟩
      · rw [List.lookup_cons, beq_false_of_ne same, behind]
        exact found
      · rw [behind]
        by_cases first : other = k
        · subst first
          rw [List.lookup_cons_self]
          exact here.imp fun m fields on => .inl (Nat.lt_of_lt_of_le on.lt above)
        · rw [List.lookup_cons, beq_false_of_ne first]
          exact apart other ne

theorem exists_doc_of_ofValue (h : (ofValue v n).1 = .doc m fields) :
    ∃ d, v = .doc d ∧ m = n ∧ fields = (ofFields d (n + 1)).1 := by
  cases v with
  | doc d =>
    obtain ⟨mark, inside⟩ := Node.doc.inj h
    exact ⟨d, rfl, mark.symm, inside.symm⟩
  | _ => cases h

theorem without_of_apart (through : Through c (ofValue v n).1)
    (found : follow c (ofValue v n).1 = .ok (.doc m fields)) (apart : ¬s <+: c)
    (there : follow s (ofValue v n).1 = .ok node) : node.Without m := by
  induction c generalizing v n s with
  | nil =>
    obtain ⟨d, rfl, rfl, -⟩ := exists_doc_of_ofValue (Except.ok.inj found)
    cases s with
    | nil => exact absurd List.nil_prefix apart
    | cons part rest =>
      obtain ⟨-, heap, each⟩ := exists_heap_fields d (m + 1)
      have within := (each.getD part).follow there
      exact within.imp fun m' fields on => Nat.ne_of_gt on.ge
  | cons key c ih =>
    obtain ⟨m', fields', whole⟩ := through [] List.nil_prefix (List.cons_ne_nil key c).symm
    obtain ⟨d, rfl, rfl, -⟩ := exists_doc_of_ofValue (Except.ok.inj whole)
    have made : (ofValue (.doc d) m').1 = .doc m' (ofFields d (m' + 1)).1 := rfl
    obtain ⟨low, -, child, others⟩ := lookup_ofFields_apart key d (m' + 1)
    rw [made, through_cons_doc, child] at through
    rw [made, follow_cons_doc, child] at found
    cases s with
    | nil => exact absurd List.nil_prefix apart
    | cons part rest =>
      rw [made, follow_cons_doc] at there
      by_cases same : part = key
      · subst same
        rw [child] at there
        exact ih through found (fun le => apart (List.cons_prefix_cons.2 ⟨rfl, le⟩)) there
      · obtain ⟨-, heap, within⟩ := exists_heap (Value.field key d) low
        have on := (within.follow found).1
        have beside := (others part same).follow there
        refine beside.imp fun m'' fields outside => ?_
        rcases outside with less | more
        · exact Nat.ne_of_lt (Nat.lt_of_lt_of_le less on.ge)
        · exact Nat.ne_of_gt (Nat.lt_of_lt_of_le on.lt more)

theorem unshared_ofDocument (d : Document) :
    Unshared (.doc 0 (Draft.ofDocument d).fields) (Draft.ofDocument d).next :=
  ⟨below_ofValue (.doc d) 0, fun through found _ _ apart there =>
    without_of_apart (v := .doc d) (n := 0) through found apart there⟩

end Node
end Docbase
