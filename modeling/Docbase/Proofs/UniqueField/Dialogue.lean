import Docbase.Proofs.Recording
import Docbase.Proofs.UniqueField.Ensure

/-!
# What is asked to ensure indexes

Whatever a backend answers, indexes are ensured in the order in which they are declared. A field
set is done with when the last answer about it says that its index is there or has been created;
the first one that is not ends it all, and nothing is asked about those after it.
-/

namespace Docbase

variable {σ ι : Type}

/-- When the operations on indexes fail, then with failures of a store. -/
structure Backend.FailsAsStore (b : Backend σ ι) : Prop where
  looking : ∀ {collection keys s t failure},
    b.hasUnique collection keys s = (.error failure, t) → failure.kind.isStore = true
  creating : ∀ {collection keys s t failure},
    b.createUnique collection keys s = (.error failure, t) → failure.kind.isStore = true

namespace UniqueField

open Docbase.Action (Notes)

section Courses

variable (collection : String) (names : List Value)

inductive Reported : List Exchange → Failure → Prop
  | looking {failure : Failure} (exist : failure.kind = .indexExists) :
    Reported [.looked collection names (.error failure)] failure
  | creating {present : Value} {failure : Failure} (absent : present.truthy = false)
    (exist : failure.kind = .indexExists) :
    Reported [.looked collection names (.ok present), .created collection names (.error failure)]
      failure

inductive Confirmed : List Exchange → Prop
  | found {present : Value} (there : present.truthy = true) :
    Confirmed [.looked collection names (.ok present)]
  | made {present : Value} (absent : present.truthy = false) :
    Confirmed [.looked collection names (.ok present), .created collection names (.ok ())]
  | foundAgain {said : List Exchange} {reported : Failure} {present : Value}
    (before : Reported collection names said reported) (there : present.truthy = true) :
    Confirmed (said ++ [.looked collection names (.ok present)])

inductive Unconfirmed : List Exchange → Failure → Prop
  | notFound {failure : Failure} (other : failure.kind ≠ .indexExists) :
    Unconfirmed [.looked collection names (.error failure)] failure
  | notMade {present : Value} {failure : Failure} (absent : present.truthy = false)
    (other : failure.kind ≠ .indexExists) :
    Unconfirmed
      [.looked collection names (.ok present), .created collection names (.error failure)] failure
  | contradicted {said : List Exchange} {reported : Failure} {present : Value}
    (before : Reported collection names said reported) (absent : present.truthy = false) :
    Unconfirmed (said ++ [.looked collection names (.ok present)]) reported
  | notFoundAgain {said : List Exchange} {reported failure : Failure}
    (before : Reported collection names said reported) :
    Unconfirmed (said ++ [.looked collection names (.error failure)]) failure

/-- The outcome for one field set, by the course that the calls about it have taken. -/
inductive Concluded : Except Failure Unit → List Exchange → Prop
  | confirmed {said : List Exchange} (h : Confirmed collection names said) :
    Concluded (.ok ()) said
  | unconfirmed {said : List Exchange} {cause : Failure}
    (h : Unconfirmed collection names said cause) :
    Concluded (.error (.unenforceable collection names cause)) said

end Courses

variable {b : Backend σ ι} {collection : String} {names : List Value}

/-! ## Single field sets -/

def confirms : Exchange → Bool
  | .looked _ _ (.ok present) => present.truthy
  | .created _ _ (.ok ()) => true
  | _ => false

theorem Confirmed.last {said : List Exchange} (h : Confirmed collection names said) :
    ∃ x, said.getLast? = some x ∧ confirms x = true := by
  cases h with
  | found there => exact ⟨_, rfl, there⟩
  | made absent => exact ⟨_, rfl, rfl⟩
  | foundAgain before there => exact ⟨_, List.getLast?_concat, there⟩

theorem Unconfirmed.last {said : List Exchange} {cause : Failure}
    (h : Unconfirmed collection names said cause) :
    ∃ x, said.getLast? = some x ∧ confirms x = false := by
  cases h with
  | notFound other => exact ⟨_, rfl, rfl⟩
  | notMade absent other => exact ⟨_, rfl, rfl⟩
  | contradicted before absent => exact ⟨_, List.getLast?_concat, absent⟩
  | notFoundAgain before => exact ⟨_, List.getLast?_concat, rfl⟩

theorem Unconfirmed.not_confirmed {said : List Exchange} {cause : Failure}
    (h : Unconfirmed collection names said cause) : ¬Confirmed collection names said := by
  intro confirmed
  obtain ⟨x, last, yes⟩ := confirmed.last
  obtain ⟨y, last', no⟩ := h.last
  obtain rfl := Option.some.inj (last.symm.trans last')
  exact Bool.eq_false_iff.1 no yes

theorem notes_hasUnique (stored : b.FailsAsStore) (collection : String) (names : List Value) :
    Notes (b.hasUnique collection names) (b.recorded.hasUnique collection names)
      fun answer said => said = [.looked collection names answer] ∧
        ∀ failure, answer = .error failure → failure.kind.isStore = true :=
  Action.notes_noting fun _ => ⟨rfl, fun _ failed => stored.looking (Prod.ext failed rfl)⟩

theorem notes_createUnique (stored : b.FailsAsStore) (collection : String) (names : List Value) :
    Notes (b.createUnique collection names) (b.recorded.createUnique collection names)
      fun answer said => said = [.created collection names answer] ∧
        ∀ failure, answer = .error failure → failure.kind.isStore = true :=
  Action.notes_noting fun _ => ⟨rfl, fun _ failed => stored.creating (Prod.ext failed rfl)⟩

/-- What is known after the index has been looked for and, if need be, created. -/
def Attempted (collection : String) (names : List Value) :
    Except Failure Unit → List Exchange → Prop
  | .ok (), said => Confirmed collection names said
  | .error failure, said => failure.kind.isStore = true ∧
    if failure.kind = .indexExists then Reported collection names said failure
    else Unconfirmed collection names said failure

theorem createMissing_notes (stored : b.FailsAsStore) :
    Notes (createMissing b collection names) (createMissing b.recorded collection names)
      (Attempted collection names) := by
  refine (notes_hasUnique stored collection names).bind ?_ ?_
  · rintro failure said ⟨rfl, isStore⟩
    refine ⟨isStore failure rfl, ?_⟩
    split
    · exact .looking ‹_›
    · exact .notFound ‹_›
  · rintro present said ⟨rfl, -⟩
    cases there : present.truthy with
    | true => exact Action.notes_pure (.found there)
    | false =>
      refine (notes_createUnique stored collection names).mono ?_
      rintro (failure | ⟨⟩) more ⟨rfl, isStore⟩
      · refine ⟨isStore failure rfl, ?_⟩
        split
        · exact .creating there ‹_›
        · exact .notMade there ‹_›
      · exact .made there

theorem recheck_notes (stored : b.FailsAsStore) {said : List Exchange} {reported : Failure}
    (before : Reported collection names said reported) :
    Notes (recheck b collection names reported) (recheck b.recorded collection names reported)
      fun outcome more => Concluded collection names outcome (said ++ more) := by
  refine (notes_hasUnique stored collection names).attempt_bind ?_
  rintro (failure | present) more ⟨rfl, isStore⟩
  · simp only [if_pos (isStore failure rfl)]
    refine Action.notes_throw ?_
    exact .unconfirmed (.notFoundAgain before)
  · cases there : present.truthy with
    | true =>
      simp only [there, if_true]
      refine Action.notes_pure ?_
      exact .confirmed (.foundAgain before there)
    | false =>
      simp only [there, Bool.false_eq_true, if_false]
      refine Action.notes_throw ?_
      exact .unconfirmed (.contradicted before there)

theorem ensureKeys_notes (stored : b.FailsAsStore) :
    Notes (ensureKeys b collection names) (ensureKeys b.recorded collection names)
      (Concluded collection names) := by
  refine (createMissing_notes stored).attempt_bind ?_
  rintro (failure | ⟨⟩) said known
  · obtain ⟨isStore, known⟩ := known
    -- Only the report of an existing index is looked into; any other failure is the cause.
    by_cases exist : failure.kind = .indexExists
    · rw [if_pos exist] at known
      simp only [if_pos exist]
      exact recheck_notes stored known
    · rw [if_neg exist] at known
      simp only [if_neg exist, if_pos isStore]
      refine Action.notes_throw ?_
      rw [List.append_nil]
      exact .unconfirmed known
  · refine Action.notes_pure ?_
    rw [List.append_nil]
    exact .confirmed known

/-! ## Declarations -/

theorem keys_eq_error {fieldSet : Value} {failure : Failure}
    (sequence : fieldSet.elements?.isSome = true) (failed : keys fieldSet = .error failure) :
    failure = .argument .emptyFieldSet ∧ (∀ name, fieldSet ≠ .str name) ∧
      fieldSet.elements? = some [] := by
  obtain ⟨members, listed⟩ := Option.isSome_iff_exists.1 sequence
  unfold keys at failed
  split at failed
  · cases failed
  · rename_i notText
    rw [listed] at failed ⊢
    cases members with
    | nil => exact ⟨(Except.error.inj failed).symm, notText, rfl⟩
    | cons name rest => cases failed

section Declarations

variable (collection : String)

/-- The outcome for a list of field sets, by the course that the calls have taken. -/
inductive Course : List Value → Except Failure Unit → List Exchange → Prop
  | done : Course [] (.ok ()) []
  | confirmed {fieldSet : Value} {names : List Value} {later : List Value}
    {outcome : Except Failure Unit} {said more : List Exchange}
    (named : keys fieldSet = .ok names) (here : Confirmed collection names said)
    (there : Course later outcome more) : Course (fieldSet :: later) outcome (said ++ more)
  /-- It ends with a sequence without members, about which there is nothing to ask. -/
  | empty {fieldSet : Value} {later : List Value} (sequence : ∀ name, fieldSet ≠ .str name)
    (noMembers : fieldSet.elements? = some []) :
    Course (fieldSet :: later) (.error (.argument .emptyFieldSet)) []
  /-- It ends with a field set whose index is not confirmed. -/
  | unconfirmed {fieldSet : Value} {names : List Value} {later : List Value} {cause : Failure}
    {said : List Exchange} (named : keys fieldSet = .ok names)
    (fails : ¬Confirmed collection names said) (here : Unconfirmed collection names said cause) :
    Course (fieldSet :: later) (.error (.unenforceable collection names cause)) said

end Declarations

theorem ensureKeys_keys (b : Backend σ ι) (collection : String) (fieldSet : Value) :
    (do ensureKeys b collection (← keys fieldSet)) =
      match keys fieldSet with
      | .ok names => ensureKeys b collection names
      | .error failure => throw failure := by
  cases keys fieldSet with
  | ok names => rfl
  | error failure => rfl

theorem ensure_notes (stored : b.FailsAsStore) {declared : Value} {fieldSets : List Value}
    (listed : declared.elements? = some fieldSets)
    (sequences : ∀ fieldSet ∈ fieldSets, fieldSet.elements?.isSome = true) :
    Notes (ensure b collection declared) (ensure b.recorded collection declared)
      (Course collection fieldSets) := by
  have walk : Notes (fieldSets.forM fun fieldSet => do ensureKeys b collection (← keys fieldSet))
      (fieldSets.forM fun fieldSet => do ensureKeys b.recorded collection (← keys fieldSet))
      (Course collection fieldSets) := by
    clear listed
    induction fieldSets with
    | nil => exact Action.notes_pure .done
    | cons fieldSet later ih =>
      obtain ⟨sequence, rest⟩ := List.forall_mem_cons.1 sequences
      rw [List.forM, List.forM, ensureKeys_keys, ensureKeys_keys]
      cases named : keys fieldSet with
      | ok names =>
        refine (ensureKeys_notes stored).bind ?_ ?_
        · intro _ said concluded
          cases concluded with
          | unconfirmed here => exact .unconfirmed named here.not_confirmed here
        · intro _ said concluded
          cases concluded with
          | confirmed here =>
            exact (ih rest).mono fun outcome more there => .confirmed named here there
      | error failure =>
        obtain ⟨rfl, notText, noMembers⟩ := keys_eq_error sequence named
        change Notes (throw _ : Action σ Unit) (throw _) _
        exact Action.notes_throw (.empty notText noMembers)
  unfold ensure
  split
  · rw [listed]
    exact walk
  · rename_i empty
    obtain rfl := elements?_of_not_truthy (Bool.eq_false_iff.2 empty) listed
    exact walk

end UniqueField
end Docbase
