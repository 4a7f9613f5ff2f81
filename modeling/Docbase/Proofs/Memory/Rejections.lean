import Docbase.Proofs.Memory.Bulk
import Docbase.Proofs.Memory.Run

/-!
# Duplicates in bulk inserts

A bulk insert refuses the documents that are duplicates when their turn comes, and an ordered one
stops at the first of them. The positions of these documents settle what it returns or fails with:
every other document that it comes to is inserted, and there is one error for each of them.
-/

namespace Docbase.Memory

/-- Whether a bulk insert that rejects the documents at some positions leaves out the one at this
position. An ordered one leaves out all that come after the first. -/
def leavesOut (ordered : Bool) (rejected : List Nat) (position : Nat) : Bool :=
  if ordered then rejected.any (· ≤ position) else rejected.contains position

def kept (out : Nat → Bool) : Nat → List Document → List String
  | _, [] => []
  | position, d :: rest =>
    if out position then kept out (position + 1) rest
    else ((d.lookup "_id").getD .null).text :: kept out (position + 1) rest

section

variable {out out' : Nat → Bool} {position : Nat} {documents : List Document}

theorem kept_congr (same : ∀ i, position ≤ i → out i = out' i) :
    kept out position documents = kept out' position documents := by
  induction documents generalizing position with
  | nil => rfl
  | cons d rest ih =>
    have later : kept out (position + 1) rest = kept out' (position + 1) rest :=
      ih fun i h => same i (by omega)
    rw [kept, kept, same position (Nat.le_refl _), later]

theorem kept_all (all : ∀ i, position ≤ i → out i = true) : kept out position documents = [] := by
  induction documents generalizing position with
  | nil => rfl
  | cons d rest ih =>
    rw [kept, if_pos (all position (Nat.le_refl _))]
    exact ih fun i h => all i (by omega)

theorem kept_none (none : ∀ i, out i = false) :
    kept out position documents =
      documents.map fun d => ((d.lookup "_id").getD .null).text := by
  induction documents generalizing position with
  | nil => rfl
  | cons d rest ih => rw [kept, if_neg (by rw [none]; decide), ih, List.map_cons]

theorem kept_take (count : Nat) :
    kept out position (documents.take count) =
      kept (fun i => out i || decide (position + count ≤ i)) position documents := by
  induction documents generalizing position count with
  | nil => rw [List.take_nil, kept, kept]
  | cons d rest ih =>
    cases count with
    | zero =>
      rw [List.take_zero, kept, kept_all]
      intro i h
      simp only [Nat.add_zero, h, decide_true, Bool.or_true]
    | succ count =>
      rw [List.take_succ_cons, kept, kept, ih]
      have shifted : position + 1 + count = position + (count + 1) := by omega
      have first : ¬ position + (count + 1) ≤ position := by omega
      simp only [shifted, first, decide_false, Bool.or_false]

end

namespace Contents

variable {name : String} {number position : Nat} {ordered : Bool} {documents : List Value}
  {contents contents' : Contents}

/-- The positions at which a bulk insert refuses a document as a duplicate, where the first document
is at this position. -/
def rejections (name : String) (number : Nat) (ordered : Bool) :
    Nat → List Value → Contents → List Nat
  | _, [], _ => []
  | position, document :: rest, contents =>
    match insertKeyed name (number + position) document contents with
    | (.ok _, next) => rejections name number ordered (position + 1) rest next
    | (.error failure, next) =>
      if failure.kind = .duplicateKey then
        if ordered then [position]
        else position :: rejections name number ordered (position + 1) rest next
      else []

theorem le_of_mem_rejections {i : Nat}
    (mem : i ∈ rejections name number ordered position documents contents) : position ≤ i := by
  induction documents generalizing position contents with
  | nil => cases mem
  | cons document rest ih =>
    have later {next : Contents}
        (mem : i ∈ rejections name number ordered (position + 1) rest next) : position ≤ i := by
      have := ih mem
      omega
    rw [rejections] at mem
    split at mem
    · exact later mem
    · split at mem
      · split at mem
        · exact Nat.le_of_eq (List.mem_singleton.1 mem).symm
        · rcases List.mem_cons.1 mem with rfl | mem
          · exact Nat.le_refl _
          · exact later mem
      · cases mem

theorem length_rejections_ordered :
    (rejections name number true position documents contents).length ≤ 1 := by
  induction documents generalizing position contents with
  | nil => exact Nat.zero_le 1
  | cons document rest ih =>
    rw [rejections]
    split
    · exact ih
    · split
      · exact Nat.le_refl 1
      · exact Nat.zero_le 1

theorem leavesOut_before {rejected : List Nat} (later : ∀ i ∈ rejected, position < i) :
    leavesOut ordered rejected position = false := by
  unfold leavesOut
  split
  · rw [List.any_eq_false]
    intro i mem
    simpa using later i mem
  · rw [Bool.eq_false_iff, ne_eq, List.contains_iff_mem]
    exact fun mem => Nat.lt_irrefl _ (later position mem)

def IsErrorAt (position : Nat) (error : String) : Prop :=
  ∃ words, error = "document " ++ toString position ++ ": " ++ words

/-- What a bulk insert reports about its duplicates: it has inserted all documents but those that
are left out for them, and has an error for each. -/
theorem insertFrom_of_rejections {documents : List Document} {outcome : BulkOutcome}
    (keyed : ∀ d ∈ documents, ∃ key, d.lookup "_id" = some key)
    (run : insertFrom name number ordered position (documents.map .doc) contents =
      (.ok outcome, contents')) :
    outcome.inserted = kept (leavesOut ordered
        (rejections name number ordered position (documents.map .doc) contents))
      position documents ∧
    List.Forall₂ IsErrorAt
      (rejections name number ordered position (documents.map .doc) contents) outcome.errors := by
  induction documents generalizing position outcome contents with
  | nil =>
    cases run
    exact ⟨rfl, .nil⟩
  | cons d rest ih =>
    obtain ⟨⟨key, found⟩, others⟩ := List.forall_mem_cons.1 keyed
    obtain ⟨attempted, between, first, onward⟩ := Action.bind_returns.1 run
    rw [Action.attempt_returns] at first
    cases attempted with
    | ok stored =>
      obtain ⟨later, _, there, returned⟩ := Action.bind_returns.1 onward
      obtain ⟨rfl, rfl⟩ := Action.pure_returns.1 returned
      obtain ⟨d', same, rfl, -⟩ := insertKeyed_returns first
      obtain rfl := Value.doc.inj same
      obtain ⟨told, errors⟩ := ih others there
      simp only [List.map_cons, rejections, first]
      refine ⟨?_, errors⟩
      rw [kept, if_neg, told, found, Collection.recordOf_of_lookup found]
      · rfl
      · rw [leavesOut_before fun i mem => le_of_mem_rejections mem]
        decide
    | error failure =>
      simp only [List.map_cons, rejections, first]
      dsimp only at onward
      split at onward
      · -- The document is left out; whether later ones are, depends on the order.
        rename_i duplicate
        rw [if_pos duplicate]
        have one : IsErrorAt position
            ("document " ++ toString position ++ ": " ++ failure.message) := ⟨_, rfl⟩
        split at onward
        · rename_i stops
          obtain ⟨rfl, rfl⟩ := Action.pure_returns.1 onward
          rw [if_pos stops, stops]
          refine ⟨(kept_all fun i h => ?_).symm, .cons one .nil⟩
          simpa [leavesOut] using h
        · rename_i goes
          obtain ⟨later, _, there, returned⟩ := Action.bind_returns.1 onward
          obtain ⟨rfl, rfl⟩ := Action.pure_returns.1 returned
          obtain ⟨told, errors⟩ := ih others there
          rw [if_neg goes]
          refine ⟨?_, .cons one errors⟩
          rw [kept, if_pos (by simp [leavesOut, goes]), told]
          -- Further on, this position makes no difference.
          refine kept_congr fun i h => ?_
          have ne : i ≠ position := by omega
          simp [leavesOut, goes, ne]
      · cases onward

/-- A bulk insert that meets nothing worse than duplicates returns the keys of all documents, or
reports the documents that it has not left out. -/
theorem insertAll_of_rejections {documents : List Document}
    (keyed : ∀ d ∈ documents, ∃ key, d.lookup "_id" = some key)
    (nothingWorse : ∀ failure,
      (insertAll name number (documents.map .doc) ordered contents).1 = .error failure →
        failure.kind = .bulkInsert) :
    let rejected := rejections name number ordered 0 (documents.map .doc) contents
    let inserted := kept (leavesOut ordered rejected) 0 documents
    (rejected = [] ∧
      (insertAll name number (documents.map .doc) ordered contents).1 = .ok inserted) ∨
    (rejected ≠ [] ∧ ∃ errors, List.Forall₂ IsErrorAt rejected errors ∧
      (insertAll name number (documents.map .doc) ordered contents).1 =
        .error (.bulkInsert name (documents.length - inserted.length) (inserted.map .str)
          errors)) := by
  intro rejected inserted
  rcases run : insertFrom name number ordered 0 (documents.map .doc) contents with
    ⟨failure | outcome, after⟩
  · obtain ⟨_, _, _, _, -, -, -, -, stop⟩ := insertFrom_fails run
    refine absurd (nothingWorse failure ?_) (insertKeyed_fails stop).2
    rw [insertAll, Action.bind_apply, run]
  · obtain ⟨told, errors⟩ := insertFrom_of_rejections keyed run
    have whole : (insertAll name number (documents.map .doc) ordered contents).1 =
        if outcome.errors.isEmpty then .ok inserted
        else .error (.bulkInsert name (documents.length - inserted.length) (inserted.map .str)
          outcome.errors) := by
      rw [insertAll, Action.bind_apply, run]
      dsimp only
      rw [told, List.length_map]
      split <;> rfl
    rw [whole]
    change List.Forall₂ IsErrorAt rejected outcome.errors at errors
    by_cases none : rejected = []
    · rw [none, List.forall₂_nil_left_iff] at errors
      exact .inl ⟨none, by rw [errors, List.isEmpty_nil, if_pos rfl]⟩
    · refine .inr ⟨none, outcome.errors, errors, if_neg fun empty => none ?_⟩
      rwa [List.isEmpty_iff.1 empty, List.forall₂_nil_right_iff] at errors

end Contents

namespace World

variable {store collection : String} {ordered : Bool} {caller : Option SessionId} {w : World}

def rejections (store collection : String) (documents : List Value) (ordered : Bool) (w : World) :
    List Nat :=
  Contents.rejections collection w.generated ordered 0 documents (w.contents store)

theorem insertAll_of_rejections {documents : List Document}
    (keyed : ∀ d ∈ documents, ∃ key, d.lookup "_id" = some key)
    (nothingWorse : ∀ failure,
      (insertAll store collection (documents.map .doc) ordered caller w).1 = .error failure →
        failure.kind = .bulkInsert) :
    let rejected := w.rejections store collection (documents.map .doc) ordered
    let inserted := kept (leavesOut ordered rejected) 0 documents
    (rejected = [] ∧
      (insertAll store collection (documents.map .doc) ordered caller w).1 = .ok inserted) ∨
    (rejected ≠ [] ∧ ∃ errors, List.Forall₂ Contents.IsErrorAt rejected errors ∧
      (insertAll store collection (documents.map .doc) ordered caller w).1 =
        .error (.bulkInsert collection (documents.length - inserted.length) (inserted.map .str)
          errors)) := by
  cases refused : w.refusal store caller with
  | some failure =>
    have run : (insertAll store collection (documents.map .doc) ordered caller w).1 =
        .error failure := by
      rw [insertAll, check_bind_apply, refused]
    exact absurd (nothingWorse failure run) (kind_of_refusal refused)
  | none =>
    have run : (insertAll store collection (documents.map .doc) ordered caller w).1 =
        (Contents.insertAll collection w.generated (documents.map .doc) ordered
          (w.contents store)).1 := by
      rw [insertAll, check_bind_apply, refused]
      rfl
    rw [run] at nothingWorse ⊢
    exact Contents.insertAll_of_rejections keyed nothingWorse

end World
end Docbase.Memory
