import Docbase.Proofs.Pipeline.Written

/-!
# Added fields

The fields that a pipeline computes are written one after the other to paths that do not go on from
each other, and their contents may be shared. Each write is a step of `Node.Grown`, so the draft leads
to the same parts as before by every other path, and to the computed content by the written ones, if
no write can reach that.
-/

namespace Docbase

open Docbase.Path (Unrelated)

namespace Node

variable {root source node : Node} {names shared : List (List String)} {n c b : List String}
  {bound next : Nat} {d : Document}

/-! ## Values -/

def Ends (v : Value) : Prop := ∀ part, v.step part = .ok .missing

theorem ends_of_ofValue {v u : Value} {n : Nat} (h : (ofValue v n).1 = .leaf u) : Ends u := by
  cases v with
  | list items => cases h
  | doc fields => cases h
  | _ =>
    obtain rfl := Node.leaf.inj h
    exact fun part => rfl

theorem exists_follow_ofValue (parts : List String) (v : Value) (n : Nat) :
    ∃ m, follow parts (ofValue v n).1 =
      (Value.follow parts v).map fun found => (ofValue found m).1 := by
  induction parts generalizing v n with
  | nil => exact ⟨n, rfl⟩
  | cons part rest ih =>
    obtain ⟨m, step⟩ := step_ofValue v part n
    rw [follow, Value.follow, step]
    cases v.step part with
    | error misuse => exact ⟨0, rfl⟩
    | ok found => exact ih found m

theorem ends_of_follow {v : Value} (found : follow c (.doc 0 (Draft.ofDocument d).fields) =
    .ok (.leaf v)) : Ends v := by
  obtain ⟨m, leads⟩ := exists_follow_ofValue c (.doc d) 0
  have there : follow c (ofValue (.doc d) 0).1 = .ok (.leaf v) := found
  rw [leads] at there
  cases read : Value.follow c (.doc d) with
  | error misuse =>
    rw [read] at there
    cases there
  | ok u =>
    rw [read] at there
    exact ends_of_ofValue (Except.ok.inj there)

theorem exists_list_of_follow {items : List Node}
    (found : follow c (.doc 0 (Draft.ofDocument d).fields) = .ok (.list items)) :
    ∃ was, Value.follow c (.doc d) = .ok (.list was) := by
  have value := value_follow_ofFields c d 1
  rw [show follow c (.doc 0 (ofFields d 1).1) = .ok (.list items) from found] at value
  exact ⟨_, value.symm⟩

theorem step_value (ends : ∀ v, node = .leaf v → Ends v) (part : String) :
    (node.step part).map value = node.value.step part := by
  cases node with
  | leaf v => exact (ends v rfl part).symm
  | list items =>
    rw [step, value, Value.step, values_eq_map]
    split
    · cases Text.digitsValue? 0 false part.toList with
      | some i =>
        dsimp only
        rw [List.getElem?_map]
        cases items[i]? <;> rfl
      | none => rfl
    · rfl
  | doc m fields => exact congrArg Except.ok (value_lookup fields part)

theorem value_follow_of_ends (ends : ∀ b v, b <+: c → b ≠ c → follow b node = .ok (.leaf v) →
    Ends v) : (follow c node).map value = Value.follow c node.value := by
  induction c generalizing node with
  | nil => rfl
  | cons part rest ih =>
    have here : (node.step part).map value = node.value.step part :=
      step_value (fun v leaf => ends [] v List.nil_prefix (List.cons_ne_nil part rest).symm
        (congrArg Except.ok leaf)) part
    rw [follow, Value.follow, ← here]
    cases step : node.step part with
    | error misuse => rfl
    | ok next =>
      refine ih fun b v le ne found => ?_
      refine ends (part :: b) v (List.cons_prefix_cons.2 ⟨rfl, le⟩)
        (fun same => ne (List.cons.inj same).2) ?_
      rw [follow, step]
      exact found

theorem Grown.value_follow {fields : List (String × Node)}
    (h : Grown (.doc 0 (Draft.ofDocument d).fields) bound names shared next (.doc 0 fields))
    (frees : ∀ b, b <+: c → b ≠ c → Free names b) :
    (follow c (.doc 0 fields)).map value = Value.follow c (.doc (fieldValues fields)) := by
  refine value_follow_of_ends fun b v le ne found => ?_
  cases kin : h.kin (frees b le ne) found with
  | absent => exact fun part => rfl
  | @old _ was there head _ =>
    cases was with
    | leaf u =>
      obtain rfl := Node.leaf.inj head
      exact ends_of_follow there
    | _ => cases head

/-! ## Paths that do not go on from each other -/

instance : Std.Symm Unrelated := ⟨fun _ _ apart => apart.symm⟩

theorem free_of_pairwise (apart : names.Pairwise Unrelated) (mem : n ∈ names) (le : b <+: n)
    (ne : b ≠ n) : Free names b := by
  intro n' mem' le'
  by_cases same : n' = n
  · subst same
    exact ne (le.eq_of_length (Nat.le_antisymm le.length_le le'.length_le))
  · exact (apart.forall mem' mem same).1 (le'.trans le)

end Node

namespace Pipeline

open Node (Grown Unshared Free Through follow absent)

variable {source : Node} {fields parts : List (String × Node)} {names shared : List (List String)}
  {q n : List String} {bound next : Nat} {earlier : List Write}

theorem assign_cons (path : String) (node : Node) (rest : List (String × Node))
    (earlier : List Write) (fields : List (String × Node)) (next : Nat) :
    assign ((path, node) :: rest) earlier fields next =
      match Write.assigning path (earlier.foldl (fun node w => w.carryOut node) node) fields
          next with
      | (some w, next) => assign rest (earlier ++ [w]) (w.carryOutRoot fields) next
      | (none, next) => assign rest earlier fields next := by
  rw [assign]
  simp only [bind, StateT.bind]
  generalize Write.assigning path _ fields next = made
  obtain ⟨made, next⟩ := made
  cases made <;> rfl

/-- What every write to some paths keeps is kept by all of them. -/
theorem assign_induction {P : Nat → List (String × Node) → Prop}
    (written : ∀ part ∈ parts, ∀ {w : Write} {content next fields before rest},
      w.Puts content (Path.parts part.1) (.doc 0 fields) next before rest → P next fields →
        P (next + rest.length) (w.carryOutRoot fields)) (known : P next fields) :
    P (assign parts earlier fields next).2 (assign parts earlier fields next).1 := by
  induction parts generalizing earlier fields next with
  | nil => exact known
  | cons part rest ih =>
    obtain ⟨path, node⟩ := part
    obtain ⟨here, there⟩ := List.forall_mem_cons.1 written
    rw [assign_cons]
    rcases Write.assigning_cases path (earlier.foldl (fun node w => w.carryOut node) node) fields
      next with ⟨w, before, behind, made, puts⟩ | ⟨made, -⟩
    · rw [made]
      exact ih there (here puts known)
    · rw [made]
      exact ih there known

section
variable (unshared : Unshared source bound) (apart : shared.Pairwise Unrelated)
  (among : shared ⊆ names) (within : ∀ part ∈ parts, Path.parts part.1 ∈ shared)
include unshared apart among within

theorem assign_keeps {Q : List (String × Node) → Prop}
    (written : ∀ part ∈ parts, ∀ {w : Write} {content next fields before rest},
      Grown source bound names shared next (.doc 0 fields) →
      w.Puts content (Path.parts part.1) (.doc 0 fields) next before rest → Free shared before →
      Q fields → Q (w.carryOutRoot fields))
    (h : Grown source bound names shared next (.doc 0 fields)) (known : Q fields) :
    Grown source bound names shared (assign parts earlier fields next).2
        (.doc 0 (assign parts earlier fields next).1) ∧
      Q (assign parts earlier fields next).1 := by
  refine assign_induction (P := fun next fields =>
    Grown source bound names shared next (.doc 0 fields) ∧ Q fields) ?_ ⟨h, known⟩
  intro part mem w content next fields before rest puts known
  have free := Node.free_of_pairwise apart (within part mem) puts.proper.1 puts.proper.2
  refine ⟨?_, written part mem known.1 puts free known.2⟩
  rw [← Write.carryOut_root]
  exact known.1.put unshared puts free (among (within part mem)) (.inl (within part mem))

theorem assign_grown (h : Grown source bound names shared next (.doc 0 fields)) :
    Grown source bound names shared (assign parts earlier fields next).2
      (.doc 0 (assign parts earlier fields next).1) :=
  (assign_keeps (Q := fun _ => True) unshared apart among within
    (fun _ _ _ _ _ _ _ _ _ _ _ _ => trivial) h trivial).1

theorem assign_frame (h : Grown source bound names shared next (.doc 0 fields))
    (other : ∀ n ∈ names, Unrelated n q)
    (noList : ∀ n ∈ names, ∀ b, b <+: n → b <+: q → ∀ items, follow b source ≠ .ok (.list items))
    (same : follow q (.doc 0 fields) = follow q source) :
    follow q (.doc 0 (assign parts earlier fields next).1) = follow q source := by
  refine (assign_keeps (Q := fun fields => follow q (.doc 0 fields) = follow q source) unshared
    apart among within ?_ h same).2
  intro part mem w content next fields before rest grown puts free same
  have there := among (within part mem)
  rw [← Write.carryOut_root]
  exact grown.frame unshared puts free there other (noList _ there) same

end

/-! ## Contents -/

/-- A mark of a document that writes to some paths go to: a new one, or one on the way to a path. -/
def Moves (source : Node) (bound : Nat) (names : List (List String)) (m : Nat) : Prop :=
  bound ≤ m ∨ ∃ n ∈ names, ∃ b fields, b <+: n ∧ b ≠ n ∧ Through b source ∧
    follow b source = .ok (.doc m fields)

def Settled (source : Node) (bound : Nat) (names : List (List String)) (node : Node) : Prop :=
  ∀ m, Moves source bound names m → node.Without m

theorem Settled.carryOut {node : Node} {w : Write} (settled : Settled source bound names node)
    (moves : Moves source bound names w.owner) : w.carryOut node = node :=
  Node.carryOut_of_without (settled w.owner moves)

theorem Settled.carryOut_all {node : Node} (settled : Settled source bound names node)
    (moves : ∀ w ∈ earlier, Moves source bound names w.owner) :
    earlier.foldl (fun node w => w.carryOut node) node = node := by
  induction earlier with
  | nil => rfl
  | cons w rest ih =>
    obtain ⟨here, there⟩ := List.forall_mem_cons.1 moves
    rw [List.foldl_cons, settled.carryOut here]
    exact ih there

theorem moves_owner {w : Write} {content root : Node} {before rest : List String}
    (h : Grown source bound names names next root) (puts : w.Puts content n root next before rest)
    (mem : n ∈ names) (free : Free names before) : Moves source bound names w.owner := by
  obtain ⟨inside, owner⟩ := puts.owner
  rcases h.kin_doc (.inl free) owner with ⟨ge, -⟩ | ⟨⟨was, there⟩, transfer⟩
  · exact .inl ge
  · exact .inr ⟨n, mem, before, was, puts.proper.1, puts.proper.2, transfer puts.through, there⟩

section
variable (unshared : Unshared source bound) (apart : names.Pairwise Unrelated)
  (noList : ∀ n ∈ names, ∀ b, b <+: n → b ≠ n → ∀ items, follow b source ≠ .ok (.list items))
include unshared apart noList

theorem assign_held {node : Node} (within : ∀ part ∈ parts, Path.parts part.1 ∈ names)
    (mem : n ∈ names) (other : ∀ part ∈ parts, Unrelated (Path.parts part.1) n)
    (settled : Settled source bound names node)
    (h : Grown source bound names names next (.doc 0 fields))
    (held : follow n (.doc 0 fields) = .ok node) :
    follow n (.doc 0 (assign parts earlier fields next).1) = .ok node := by
  refine (assign_keeps (Q := fun fields => follow n (.doc 0 fields) = .ok node) unshared apart
    (List.Subset.refl _) within ?_ h held).2
  intro part mem' w content next fields before rest grown puts free held
  have ne (more : rest ≠ []) : before ++ [w.key] ≠ Path.parts part.1 := by
    rw [puts.parts_eq]
    simpa using Ne.symm more
  rw [← Write.carryOut_root]
  refine grown.holds unshared puts free (other part mem')
    (fun b le ne => Node.free_of_pairwise apart mem le ne)
    (fun more => Node.free_of_pairwise apart (within part mem') puts.key_le (ne more))
    (fun more => noList _ (within part mem') _ puts.key_le (ne more)) held
    (settled.carryOut (moves_owner grown puts (within part mem') free))

/-- The added fields have the computed contents. -/
theorem assign_content (within : ∀ part ∈ parts, Path.parts part.1 ∈ names)
    (distinct : parts.Pairwise fun a b => Unrelated (Path.parts a.1) (Path.parts b.1))
    (settled : ∀ part ∈ parts, Settled source bound names part.2)
    (moves : ∀ w ∈ earlier, Moves source bound names w.owner)
    (h : Grown source bound names names next (.doc 0 fields)) :
    ∀ part ∈ parts, follow (Path.parts part.1) (.doc 0 (assign parts earlier fields next).1) =
      .ok part.2 := by
  induction parts generalizing earlier fields next with
  | nil => exact fun part mem => absurd mem List.not_mem_nil
  | cons part rest ih =>
    obtain ⟨path, node⟩ := part
    obtain ⟨here, there⟩ := List.forall_mem_cons.1 within
    obtain ⟨first, later⟩ := List.pairwise_cons.1 distinct
    obtain ⟨settledHere, settledThere⟩ := List.forall_mem_cons.1 settled
    rw [assign_cons, settledHere.carryOut_all moves]
    rcases Write.assigning_cases path node fields next with
      ⟨w, before, behind, made, puts⟩ | ⟨made, rfl, before, stuck, le, ne, found, plain⟩
    · rw [made]
      have free := Node.free_of_pairwise apart here puts.proper.1 puts.proper.2
      have grown := h.put unshared puts free here (.inl here)
      have held := h.follow_put unshared puts free
      rw [Write.carryOut_root] at grown held
      refine List.forall_mem_cons.2 ⟨?_, ?_⟩
      · exact assign_held unshared apart noList there here
          (fun part mem => (first part mem).symm) settledHere grown held
      · refine ih there later settledThere (fun w' mem => ?_) grown
        rcases List.mem_append.1 mem with mem | mem
        · exact moves w' mem
        · rw [List.mem_singleton.1 mem]
          exact moves_owner h puts here free
    · rw [made]
      have held : follow (Path.parts path) (.doc 0 fields) = .ok absent := by
        obtain ⟨behind, eq⟩ := le
        have further : behind ≠ [] := fun nil => ne (by rw [← eq, nil, List.append_nil])
        rw [← eq, Node.follow_append, found]
        cases stuck with
        | leaf v => exact Node.follow_leaf further
        | doc m inside => exact absurd rfl (plain m inside)
        | list items =>
          have free := Node.free_of_pairwise apart here ⟨behind, eq⟩ ne
          obtain ⟨was, list⟩ := h.kin_list free found
          exact absurd list (noList _ here before ⟨behind, eq⟩ ne was)
      refine List.forall_mem_cons.2 ⟨?_, ih there later settledThere moves h⟩
      exact assign_held unshared apart noList there here
        (fun part mem => (first part mem).symm) settledHere h held

end

end Pipeline
end Docbase
