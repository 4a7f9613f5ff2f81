import Docbase.Proofs.UniqueField.Dialogue
import Docbase.Repository

/-!
# Guarded writes

Inserts and updates see to the indexes of unique fields first. Whatever a backend answers, no
document is written unless the last answer about each field set was that its index is there.

* `Repository.Guarded` relates the outcome of a write to the calls that it has made.
* `UniqueField.ensure_sound` is the statement, for the guard and for what it guards.
-/

namespace Docbase

open Docbase.Action (Notes)

variable {σ ι α β : Type}

namespace Repository

/-- The repository over a backend that keeps a record. Keys are not drawn from the backend. -/
def recorded (r : Repository σ ι) : Repository (σ × List Exchange) ι where
  backend := r.backend.recorded
  name := r.name
  identity := r.identity
  newKey := r.newKey.within Prod.fst fun t state => (t, state.2)

inductive GuardedWrite
  | insert (data : Value)
  | insertMany (datas : Value)
  | update (clause data : Value)

namespace GuardedWrite

abbrev Result : GuardedWrite → Type
  | insert _ => String
  | insertMany _ => List String
  | update _ _ => Value

def perform (r : Repository σ ι) (declared : Value) (session : Option ι) :
    (write : GuardedWrite) → Action σ write.Result
  | insert data => r.insert data declared session
  | insertMany datas => r.insertMany datas declared session
  | update clause data => r.update clause data declared session

def writesNothing : GuardedWrite → Bool
  | insertMany datas => !datas.truthy
  | _ => false

end GuardedWrite

open UniqueField (Course ensure)

/-- The outcome of a write, by the calls that it has made. -/
inductive Guarded (collection : String) (fieldSets : List Value) (write : GuardedWrite) :
    Except Failure α → List Exchange → Prop
  | idle {result : α} (nothing : write.writesNothing = true) :
    Guarded collection fieldSets write (.ok result) []
  /-- It failed before it came to its guard. -/
  | unprepared {failure : Failure} : Guarded collection fieldSets write (.error failure) []
  | refused {failure : Failure} {said : List Exchange}
    (guard : Course collection fieldSets (.error failure) said) :
    Guarded collection fieldSets write (.error failure) said
  /-- It failed between its guard and the writing of documents. -/
  | unwritten {failure : Failure} {said : List Exchange}
    (guard : Course collection fieldSets (.ok ()) said) :
    Guarded collection fieldSets write (.error failure) said
  | written {outcome : Except Failure α} {said : List Exchange} {answer : Except Failure Value}
    (guard : Course collection fieldSets (.ok ()) said) :
    Guarded collection fieldSets write outcome (said ++ [.wrote collection answer])

theorem Guarded.of_ok {collection : String} {fieldSets : List Value} {write : GuardedWrite}
    {result : α} {said : List Exchange}
    (h : Guarded collection fieldSets write (.ok result) said) (outcome : Except Failure β) :
    Guarded collection fieldSets write outcome said := by
  cases h with
  | idle nothing =>
    cases outcome with
    | ok result => exact .idle nothing
    | error failure => exact .unprepared
  | written guard => exact .written guard

theorem Guarded.of_error {collection : String} {fieldSets : List Value} {write : GuardedWrite}
    {failure : Failure} {said : List Exchange}
    (h : Guarded collection fieldSets write (.error failure : Except Failure α) said) :
    Guarded collection fieldSets write (.error failure : Except Failure β) said := by
  cases h with
  | unprepared => exact .unprepared
  | refused guard => exact .refused guard
  | unwritten guard => exact .unwritten guard
  | written guard => exact .written guard

theorem attributed_of_course {collection : String} {fieldSets : List Value} {failure : Failure}
    {said : List Exchange} (ended : Course collection fieldSets (.error failure) said)
    (name operation : String) (payload : Value) :
    attributed name operation payload failure = failure := by
  generalize outcome : Except.error failure = result at ended
  induction ended with
  | done => cases outcome
  | confirmed named here there ih => exact ih outcome
  | empty sequence noMembers =>
    cases outcome
    rfl
  | unconfirmed named fails here =>
    cases outcome
    rfl

variable {r : Repository σ ι} {declared : Value} {fieldSets : List Value}

theorem guarded_notes (stored : r.backend.FailsAsStore)
    (listed : declared.elements? = some fieldSets)
    (sequences : ∀ fieldSet ∈ fieldSets, fieldSet.elements?.isSome = true)
    {a : Action σ α} {beside : Action (σ × List Exchange) α}
    (once : Notes a beside fun outcome said => (∃ failure, outcome = .error failure ∧ said = []) ∨
      ∃ answer, said = [.wrote r.name answer])
    (write : GuardedWrite) (operation : String) (payload : Value) :
    Notes (r.attributing operation payload do ensure r.backend r.name declared; a)
      (r.recorded.attributing operation payload do
        ensure r.recorded.backend r.recorded.name declared; beside)
      (Guarded r.name fieldSets write) := by
  have whole : Notes (do ensure r.backend r.name declared; a)
      (do ensure r.recorded.backend r.recorded.name declared; beside)
      fun outcome said => (∃ failure, outcome = .error failure ∧
          Course r.name fieldSets (.error failure) said) ∨
        Course r.name fieldSets (.ok ()) said ∧ (∃ failure, outcome = .error failure) ∨
        ∃ before answer, Course r.name fieldSets (.ok ()) before ∧
          said = before ++ [.wrote r.name answer] := by
    refine (UniqueField.ensure_notes stored listed sequences).bind ?_ ?_
    · exact fun failure said ended => .inl ⟨failure, rfl, ended⟩
    · rintro ⟨⟩ said passed
      refine once.mono ?_
      rintro outcome more (⟨failure, rfl, rfl⟩ | ⟨answer, rfl⟩)
      · rw [List.append_nil]
        exact .inr (.inl ⟨passed, failure, rfl⟩)
      · exact .inr (.inr ⟨said, answer, passed, rfl⟩)
  -- A failure of the guard comes out as it is, and one of what is behind it may be attributed.
  refine whole.attempt_bind ?_
  rintro outcome said (⟨failure, rfl, ended⟩ | ⟨passed, failure, rfl⟩ | ⟨before, answer, passed, rfl⟩)
  · refine Action.notes_throw ?_
    rw [List.append_nil, attributed_of_course ended]
    exact .refused ended
  · refine Action.notes_throw ?_
    rw [List.append_nil]
    exact .unwritten passed
  · cases outcome with
    | ok result =>
      refine Action.notes_pure ?_
      rw [List.append_nil]
      exact .written passed
    | error failure =>
      refine Action.notes_throw ?_
      rw [List.append_nil]
      exact .written passed

theorem newKey_notes (r : Repository σ ι) :
    Notes r.newKey r.recorded.newKey fun _ said => said = [] :=
  Action.notes_of_silent (fun _ _ => rfl) fun _ => rfl

theorem keyed_notes (r : Repository σ ι) (datas : List Value) :
    Notes (r.keyed datas) (r.recorded.keyed datas) fun _ said => said = [] := by
  induction datas with
  | nil => exact Action.notes_pure rfl
  | cons data rest ih =>
    refine (newKey_notes r).silent_bind (fun _ => rfl) fun key => ?_
    refine Notes.silent_bind (Action.notes_lift rfl) (fun _ => rfl) fun d => ?_
    exact ih.silent_bind (fun _ => rfl) fun ds => Action.notes_pure rfl

section Writes

variable (stored : r.backend.FailsAsStore) (listed : declared.elements? = some fieldSets)
  (sequences : ∀ fieldSet ∈ fieldSets, fieldSet.elements?.isSome = true)

include stored listed sequences

theorem insert_notes (data : Value) (session : Option ι) :
    Notes (r.insert data declared session) (r.recorded.insert data declared session)
      (Guarded r.name fieldSets (.insert data)) := by
  refine Notes.silent_bind (Action.notes_lift rfl) (fun _ => .unprepared) fun d => ?_
  refine (guarded_notes stored listed sequences ?_ (.insert data) _ _).bind ?_ ?_
  · refine (newKey_notes r).silent_bind (fun failure => .inl ⟨failure, rfl, rfl⟩) fun key => ?_
    exact Action.notes_noting fun s => .inr ⟨_, rfl⟩
  · exact fun failure said guarded => guarded.of_error
  · intro key said guarded
    refine Action.notes_pure ?_
    rw [List.append_nil]
    exact guarded.of_ok _

theorem insertMany_notes (datas : Value) (session : Option ι) :
    Notes (r.insertMany datas declared session) (r.recorded.insertMany datas declared session)
      (Guarded r.name fieldSets (.insertMany datas)) := by
  unfold insertMany
  cases some : datas.truthy with
  | false => exact Action.notes_pure (.idle (by simp [GuardedWrite.writesNothing, some]))
  | true =>
    refine Notes.silent_bind (Action.notes_lift rfl) (fun _ => .unprepared) fun members => ?_
    refine (keyed_notes r members).silent_bind (fun _ => .unprepared) fun documents => ?_
    refine (guarded_notes stored listed sequences ?_ (.insertMany datas) _ _).bind ?_ ?_
    · refine Notes.attempt_bind (P := fun answer said => said = [.wrote r.name answer])
        (Action.notes_noting fun s => rfl) ?_
      rintro answer _ rfl
      exact Action.notes_lift (.inr ⟨answer, rfl⟩)
    · exact fun failure said guarded => guarded.of_error
    · -- The documents are written, whatever becomes of the list of their keys.
      intro keys said guarded
      refine Notes.silent_bind (Action.notes_lift rfl) ?_ fun members => Action.notes_pure ?_
      · intro failure
        rw [List.append_nil]
        exact guarded.of_ok _
      · rw [List.append_nil]
        exact guarded.of_ok _

theorem update_notes (clause data : Value) (session : Option ι) :
    Notes (r.update clause data declared session)
      (r.recorded.update clause data declared session)
      (Guarded r.name fieldSets (.update clause data)) := by
  unfold update
  cases data.truthy with
  | false => exact Action.notes_throw .unprepared
  | true =>
    refine Notes.silent_bind (Action.notes_lift rfl) (fun _ => .unprepared) fun patch => ?_
    cases patch.isEmpty with
    | true => exact Action.notes_throw .unprepared
    | false =>
      refine Notes.silent_bind (Action.notes_lift rfl) (fun _ => .unprepared) fun filter => ?_
      refine guarded_notes stored listed sequences ?_ (.update clause data) _ _
      exact Action.notes_noting fun s => .inr ⟨_, rfl⟩

end Writes

theorem GuardedWrite.notes (stored : r.backend.FailsAsStore)
    (listed : declared.elements? = some fieldSets)
    (sequences : ∀ fieldSet ∈ fieldSets, fieldSet.elements?.isSome = true)
    (write : GuardedWrite) (session : Option ι) :
    Notes (write.perform r declared session) (write.perform r.recorded declared session)
      (Guarded r.name fieldSets write) := by
  cases write with
  | insert data => exact insert_notes stored listed sequences data session
  | insertMany datas => exact insertMany_notes stored listed sequences datas session
  | update clause data => exact update_notes stored listed sequences clause data session

end Repository

namespace UniqueField

open Repository (GuardedWrite Guarded)

/-- Whatever the backend of a repository answers, be it failures of a store, its unique fields are
ensured one after the other until an index is not confirmed, and its writes are guarded by that. -/
theorem ensure_sound {r : Repository σ ι} (stored : r.backend.FailsAsStore) {declared : Value}
    {fieldSets : List Value} (listed : declared.elements? = some fieldSets)
    (sequences : ∀ fieldSet ∈ fieldSets, fieldSet.elements?.isSome = true) :
    Notes (ensure r.backend r.name declared) (ensure r.backend.recorded r.name declared)
        (Course r.name fieldSets) ∧
      ∀ (write : GuardedWrite) (session : Option ι),
        Notes (write.perform r declared session) (write.perform r.recorded declared session)
          (Guarded r.name fieldSets write) :=
  ⟨ensure_notes stored listed sequences, fun write session =>
    write.notes stored listed sequences session⟩

/-- A backend that answers about indexes from a script, and fails to do anything else. -/
inductive Reply
  | yes
  | no
  | taken
  | lost

def Reply.answer : Reply → Except Failure Bool
  | yes => .ok true
  | no => .ok false
  | taken => .error (.indexExists "users" [])
  | lost => .error .notConnected

def nextReply : Action (List Reply) Bool
  | [] => (.ok false, [])
  | reply :: rest => (reply.answer, rest)

def scripted : Repository (List Reply) Unit where
  backend := {
    insert := fun _ _ _ => return .str "1"
    insertEach := fun _ _ _ => throw .notConnected
    update := fun _ _ _ _ => throw .notConnected
    delete := fun _ _ _ => throw .notConnected
    count := fun _ _ => throw .notConnected
    first := fun _ _ => throw .notConnected
    all := fun _ _ => throw .notConnected
    aggregate := fun _ _ _ => throw .notConnected
    hasUnique := fun _ _ => do return .bool (← nextReply)
    createUnique := fun _ _ => do let _ ← nextReply }
  name := "users"
  identity := default
  newKey := return .str "1"

theorem failsAsStore_scripted : scripted.backend.FailsAsStore := by
  constructor
  · rintro - - (- | ⟨- | - | - | -, rest⟩) t failure ⟨⟩
    · rfl
    · rfl
  · rintro - - (- | ⟨- | - | - | -, rest⟩) t failure ⟨⟩
    · rfl
    · rfl

def contact : List Value := [.str "email", .list [.str "team", .str "name"], .str "phone"]

def refusal : Failure := .unenforceable "users" [.str "team", .str "name"] .notConnected

/-- The index over addresses is created by somebody else, and the store is lost after that: nothing
is asked about telephones, and nothing is written. -/
theorem ensure_sound_contact :
    ∃ said, Course "users" contact (.error refusal) said ∧
      Guarded "users" contact (.insert (.doc [])) (.error refusal : Except Failure String) said ∧
      scripted.recorded.insert (.doc []) (.list contact) none ([.no, .taken, .yes, .no, .lost], []) =
        (.error refusal, [], said) ∧
      said = [.looked "users" [.str "email"] (.ok (.bool false)),
        .created "users" [.str "email"] (.error (.indexExists "users" [])),
        .looked "users" [.str "email"] (.ok (.bool true)),
        .looked "users" [.str "team", .str "name"] (.ok (.bool false)),
        .created "users" [.str "team", .str "name"] (.error .notConnected)] := by
  have listed : (Value.list contact).elements? = some contact := rfl
  obtain ⟨guard, writes⟩ := ensure_sound failsAsStore_scripted listed (by decide)
  obtain ⟨said, course, same⟩ := guard [.no, .taken, .yes, .no, .lost]
  obtain ⟨said', guarded, same'⟩ := writes (.insert (.doc [])) none [.no, .taken, .yes, .no, .lost]
  have asked : [] ++ said = _ := (congrArg (fun run => run.2.2) (same [])).symm
  have asked' : [] ++ said' = _ := (congrArg (fun run => run.2.2) (same' [])).symm
  obtain rfl : said = said' := asked.trans asked'.symm
  exact ⟨said, course, guarded, same' [], asked⟩

end UniqueField
end Docbase
