import Docbase.Proofs.Pipeline.Unshared

/-!
# Paths to one place

A position of a list can be spelled in more than one way, so that different paths lead to one place.
In the draft of a document only such paths lead to parts that have a document in common.
-/

namespace Docbase

namespace Value

variable {v : Value} {a b : String} {p q c : List String}

/-- Two parts of a path pick the same: they are one, or positions of a list with one number. -/
def SameStep (v : Value) (a b : String) : Prop :=
  a = b ∨ ∃ items, v = .list items ∧ Path.isPosition a = true ∧ Path.isPosition b = true ∧
    Text.digitsValue? 0 false a.toList = Text.digitsValue? 0 false b.toList

/-- Two paths can be followed from a value, and step by step they pick the same. -/
def SameWay : List String → List String → Value → Prop
  | [], [], _ => True
  | a :: p, b :: q, v => v.SameStep a b ∧ ∃ next, v.step a = .ok next ∧ next.SameWay p q
  | _, _, _ => False

/-- One of two paths leads on from where the other one leads. -/
def Meet (p q : List String) (v : Value) : Prop :=
  (∃ c, c <+: q ∧ v.SameWay p c) ∨ ∃ c, c <+: p ∧ v.SameWay c q

theorem SameStep.step_eq (same : v.SameStep a b) : v.step a = v.step b := by
  obtain rfl | ⟨items, rfl, position, position', number⟩ := same
  · rfl
  · simp only [step, position, position', number]

theorem sameWay_refl {found : Value} (h : Value.follow p v = .ok found) : v.SameWay p p := by
  induction p generalizing v with
  | nil => trivial
  | cons a p ih =>
    obtain ⟨next, step, rest⟩ := Except.bind_eq_ok.1 h
    exact ⟨.inl rfl, next, step, ih rest⟩

theorem SameWay.append {found : Value} {r s : List String} (same : v.SameWay p q)
    (there : Value.follow p v = .ok found) (further : found.SameWay r s) :
    v.SameWay (p ++ r) (q ++ s) := by
  induction p generalizing v q with
  | nil =>
    cases q with
    | nil =>
      obtain rfl := Except.ok.inj there
      exact further
    | cons b q => cases same
  | cons a p ih =>
    cases q with
    | nil => cases same
    | cons b q =>
      obtain ⟨here, next, step, same⟩ := same
      rw [Value.follow, step] at there
      exact ⟨here, next, step, ih same there⟩

theorem Meet.head?_eq {d : Document} (meets : (Value.doc d).Meet p q) (left : p ≠ [])
    (right : q ≠ []) : p.head? = q.head? := by
  obtain ⟨a, p, rfl⟩ := List.exists_cons_of_ne_nil left
  obtain ⟨b, q, rfl⟩ := List.exists_cons_of_ne_nil right
  have first {a b : String} {p q : List String} (same : (Value.doc d).SameWay (a :: p) (b :: q)) :
      a = b := by
    obtain ⟨rfl | ⟨items, listed, -⟩, -⟩ := same
    · rfl
    · cases listed
  rcases meets with ⟨c, le, same⟩ | ⟨c, le, same⟩
  · cases c with
    | nil => cases same
    | cons part c =>
      obtain ⟨rfl, -⟩ := List.cons_prefix_cons.1 le
      rw [first same]
      rfl
  · cases c with
    | nil => cases same
    | cons part c =>
      obtain ⟨rfl, -⟩ := List.cons_prefix_cons.1 le
      rw [first same]
      rfl

end Value

namespace Node

variable {root node found : Node} {fields : List (String × Node)} {b c : List String} {v : Value}
  {m n : Nat} {part : String}

/-! ## Sizes -/

theorem sizeOf_step (h : node.step part = .ok found) :
    found = absent ∨ sizeOf found < sizeOf node := by
  cases node with
  | leaf v => exact .inl (Except.ok.inj h).symm
  | list items =>
    rw [Node.step] at h
    split at h
    · split at h
      · rename_i i _
        cases there : items[i]? with
        | none =>
          rw [there] at h
          exact .inl (Except.ok.inj h).symm
        | some item =>
          rw [there] at h
          obtain rfl := Except.ok.inj h
          have smaller := List.sizeOf_lt_of_mem (List.mem_of_getElem? there)
          rw [Node.list.sizeOf_spec]
          exact .inr (by simp only [Option.getD_some]; omega)
      · cases h
    · exact .inl (Except.ok.inj h).symm
  | doc mark fields =>
    rw [Node.step] at h
    cases there : fields.lookup part with
    | none =>
      rw [there] at h
      exact .inl (Except.ok.inj h).symm
    | some inner =>
      rw [there] at h
      obtain rfl := Except.ok.inj h
      have smaller := List.sizeOf_lt_of_mem (Fields.mem_of_lookup there)
      rw [Prod.mk.sizeOf_spec] at smaller
      rw [Node.doc.sizeOf_spec]
      exact .inr (by simp only [Option.getD_some]; omega)

theorem sizeOf_follow (h : follow c node = .ok found) :
    found = absent ∨ sizeOf found ≤ sizeOf node ∧ (c ≠ [] → sizeOf found < sizeOf node) := by
  induction c generalizing node with
  | nil =>
    obtain rfl := Except.ok.inj h
    exact .inr ⟨Nat.le_refl _, fun nonempty => absurd rfl nonempty⟩
  | cons part c ih =>
    obtain ⟨next, step, rest⟩ := Except.bind_eq_ok.1 h
    obtain nothing | ⟨le, -⟩ := ih rest
    · exact .inl nothing
    · obtain rfl | smaller := sizeOf_step step
      · rw [follow_absent] at rest
        exact .inl (Except.ok.inj rest).symm
      · exact .inr ⟨by omega, fun _ => by omega⟩

mutual

theorem each_sizeOf : ∀ node : Node, node.Each fun m fields =>
    sizeOf (doc m fields) ≤ sizeOf node
  | leaf _ => trivial
  | list items => (each_sizeOf_items items).imp fun m fields le => by
    rw [Node.list.sizeOf_spec]
    omega
  | doc m fields => ⟨Nat.le_refl _, (each_sizeOf_fields fields).imp fun m' inside le => by
    rw [Node.doc.sizeOf_spec m fields]
    omega⟩

theorem each_sizeOf_items : ∀ items : List Node, EachItem (fun m fields =>
    sizeOf (doc m fields) ≤ sizeOf items) items
  | [] => trivial
  | node :: rest => ⟨(each_sizeOf node).imp fun m fields le => by
    rw [List.cons.sizeOf_spec]
    omega, (each_sizeOf_items rest).imp fun m fields le => by
    rw [List.cons.sizeOf_spec]
    omega⟩

theorem each_sizeOf_fields : ∀ fields : List (String × Node), EachField (fun m inside =>
    sizeOf (doc m inside) ≤ sizeOf fields) fields
  | [] => trivial
  | (key, node) :: rest => ⟨(each_sizeOf node).imp fun m fields le => by
    rw [List.cons.sizeOf_spec, Prod.mk.sizeOf_spec]
    omega, (each_sizeOf_fields rest).imp fun m fields le => by
    rw [List.cons.sizeOf_spec]
    omega⟩

end

/-! ## Marks of a place -/

theorem getElem_ofItems_apart (i : Nat) (items : List Value) (n : Nat) :
    ∃ low, n ≤ low ∧
      ((ofItems items n).1[i]?).getD absent = (ofValue ((items[i]?).getD .missing) low).1 ∧
      ∀ j, j ≠ i → (((ofItems items n).1[j]?).getD absent).Each fun m _ =>
        m < low ∨ (ofValue ((items[i]?).getD .missing) low).2 ≤ m := by
  induction items generalizing i n with
  | nil => exact ⟨n, Nat.le_refl n, rfl, fun _ _ => trivial⟩
  | cons v rest ih =>
    obtain ⟨le, heap, here⟩ := exists_heap v n
    obtain ⟨-, heap', later⟩ := exists_heap_items rest (ofValue v n).2
    have made : (ofItems (v :: rest) n).1 =
        (ofValue v n).1 :: (ofItems rest (ofValue v n).2).1 := rfl
    rw [made]
    cases i with
    | zero =>
      refine ⟨n, Nat.le_refl n, rfl, fun j ne => ?_⟩
      obtain ⟨j, rfl⟩ := Nat.exists_eq_succ_of_ne_zero ne
      rw [List.getElem?_cons_succ]
      cases there : (ofItems rest (ofValue v n).2).1[j]? with
      | none => trivial
      | some node =>
        have on := eachItem_iff.1 later node (List.mem_of_getElem? there)
        exact on.imp fun m fields on => .inr on.ge
    | succ i =>
      obtain ⟨low, above, found, apart⟩ := ih i (ofValue v n).2
      refine ⟨low, Nat.le_trans le above, found, fun j ne => ?_⟩
      cases j with
      | zero => exact here.imp fun m fields on => .inl (Nat.lt_of_lt_of_le on.lt above)
      | succ j => exact apart j fun same => ne (congrArg Nat.succ same)

theorem step_congr {a b : String} (same : v.SameStep a b) (node : Node)
    (like : ∀ items, v = .list items → ∀ m fields, node ≠ .doc m fields) :
    node.step a = node.step b := by
  obtain rfl | ⟨items, listed, position, position', number⟩ := same
  · rfl
  · cases node with
    | doc m fields => exact absurd rfl (like items listed m fields)
    | list nodes => simp only [step, position, position', number]
    | leaf u => rfl

theorem step_ofValue_congr {a b : String} (same : v.SameStep a b) (n : Nat) :
    (ofValue v n).1.step a = (ofValue v n).1.step b := by
  refine step_congr same _ ?_
  rintro items rfl m fields ⟨⟩

theorem step_apart {next : Value} (step : v.step part = .ok next) (n : Nat) :
    ∃ low, n ≤ low ∧ (ofValue v n).1.step part = .ok (ofValue next low).1 ∧
      ∀ other node, ¬v.SameStep part other → (ofValue v n).1.step other = .ok node →
        node.Each fun m _ => m < low ∨ (ofValue next low).2 ≤ m := by
  cases v with
  | doc d =>
    obtain rfl := Except.ok.inj step
    obtain ⟨low, le, child, others⟩ := lookup_ofFields_apart part d (n + 1)
    refine ⟨low, Nat.le_of_succ_le le, congrArg Except.ok child, fun other node apart there => ?_⟩
    obtain rfl := Except.ok.inj there
    exact others other fun same => apart (.inl same.symm)
  | list items =>
    have made : (ofValue (.list items) n).1 = .list (ofItems items n).1 := rfl
    rw [Value.step] at step
    rw [made]
    cases position : Path.isPosition part with
    | false =>
      rw [position] at step
      obtain rfl := Except.ok.inj step
      refine ⟨n, Nat.le_refl n, ?_, fun other node _ there => ?_⟩
      · rw [Node.step, position]
        rfl
      · obtain ⟨-, heap, each⟩ := exists_heap (.list items) n
        exact (each.step there).imp fun m fields on => .inr on.ge
    | true =>
      rw [position, if_pos rfl] at step
      cases number : Text.digitsValue? 0 false part.toList with
      | none =>
        rw [number] at step
        cases step
      | some i =>
        rw [number] at step
        obtain rfl := Except.ok.inj step
        obtain ⟨low, le, child, others⟩ := getElem_ofItems_apart i items n
        refine ⟨low, le, ?_, fun other node apart there => ?_⟩
        · rw [Node.step, position, if_pos rfl, number]
          exact congrArg Except.ok child
        · rw [Node.step] at there
          split at there
          · rename_i position'
            split at there
            · rename_i j number'
              obtain rfl := Except.ok.inj there
              refine others j fun same => apart (.inr ⟨items, rfl, position, position', ?_⟩)
              rw [number, number', same]
            · cases there
          · obtain rfl := Except.ok.inj there
            trivial
  | _ =>
    obtain rfl := Except.ok.inj step
    refine ⟨n, Nat.le_refl n, rfl, fun other node _ there => ?_⟩
    obtain rfl := Except.ok.inj there
    trivial

/-- A path to a document begins with the way to whatever holds the document. -/
theorem exists_sameWay (found : follow b (ofValue v n).1 = .ok (.doc m fields))
    (there : follow c (ofValue v n).1 = .ok node) (holds : ¬node.Without m) :
    ∃ way rest, b = way ++ rest ∧ v.SameWay way c := by
  induction c generalizing v n b with
  | nil => exact ⟨[], b, rfl, trivial⟩
  | cons part c ih =>
    obtain ⟨next, step, rest⟩ := Except.bind_eq_ok.1 there
    cases b with
    | nil =>
      obtain ⟨d, rfl, rfl, -⟩ := exists_doc_of_ofValue (Except.ok.inj found)
      obtain rfl := Except.ok.inj step
      obtain ⟨-, heap, each⟩ := exists_heap_fields d (m + 1)
      have within := (each.getD part).follow rest
      exact absurd (within.imp fun m' fields on => Nat.ne_of_gt on.ge) holds
    | cons first b =>
      obtain ⟨next', step', rest'⟩ := Except.bind_eq_ok.1 found
      obtain ⟨_, made⟩ := step_ofValue v first n
      rw [step'] at made
      cases taken : v.step first with
      | error misuse =>
        rw [taken] at made
        cases made
      | ok u =>
        obtain ⟨low, -, child, others⟩ := step_apart taken n
        obtain rfl := Except.ok.inj (child.symm.trans step')
        by_cases same : v.SameStep first part
        · rw [← step_ofValue_congr same, child] at step
          obtain rfl := Except.ok.inj step
          obtain ⟨way, behind, rfl, along⟩ := ih rest' rest
          exact ⟨first :: way, behind, rfl, same, u, taken, along⟩
        · obtain ⟨-, heap, within⟩ := exists_heap u low
          have on := (within.follow rest').1
          have beside := (others part next same step).follow rest
          refine absurd (beside.imp fun m' fields outside => ?_) holds
          rcases outside with less | more
          · exact Nat.ne_of_lt (Nat.lt_of_lt_of_le less on.ge)
          · exact Nat.ne_of_gt (Nat.lt_of_lt_of_le on.lt more)

theorem follow_sameWay (same : v.SameWay b c)
    (like : ∀ before items, before <+: c → before ≠ c →
      follow before (ofValue v n).1 = .ok (.list items) →
        ∀ m fields, follow before root ≠ .ok (.doc m fields)) : follow b root = follow c root := by
  induction c generalizing v n b root with
  | nil =>
    cases b with
    | nil => rfl
    | cons first b => cases same
  | cons part c ih =>
    cases b with
    | nil => cases same
    | cons first b =>
      obtain ⟨here, u, taken, same⟩ := same
      obtain ⟨low, -, child, -⟩ := step_apart taken n
      have steps : root.step first = root.step part := by
        refine step_congr here root ?_
        rintro items rfl m fields rfl
        exact like [] _ List.nil_prefix (List.cons_ne_nil _ _).symm rfl m fields rfl
      rw [follow, follow, steps]
      cases step : root.step part with
      | error misuse => rfl
      | ok next =>
        refine ih (n := low) same fun before items le ne listed m fields doc => ?_
        refine like (part :: before) items (List.cons_prefix_cons.2 ⟨rfl, le⟩)
          (fun same => ne (List.cons.inj same).2) ?_ m fields ?_
        · rw [follow, ← step_ofValue_congr here, child]
          exact listed
        · rw [follow, step]
          exact doc

end Node
end Docbase
