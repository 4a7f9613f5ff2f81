import Docbase.Proofs.Memory.Backend
import Docbase.Proofs.Memory.Bulk
import Docbase.Proofs.Memory.WholeUpdate

/-!
# What failed writes leave

A write that fails leaves all documents and indexes as they were, with two exceptions. A bulk insert
keeps the documents that it has added, and tells which they are if all that it has refused were
duplicates; if something else was wrong with one of them, it does not tell. An update keeps what it
has made of the documents ahead of the one that it has failed at.

* `Write.LeavesPart`: the exceptions.
* `Write.change_fails`: on contents whose collections are tables.
* `Write.perform_fails`: after any run.
* `Write.perform_fails_halfway`: an update and a bulk insert that fail and leave what they do not
  tell.
-/

namespace Docbase.Memory
open Docbase.Action (Preserves)

open Contents

/-- What a write that fails leaves of its work. The number is that of the first key that may be
generated. -/
def Write.LeavesPart (number : Nat) (failure : Failure) (before after : Contents) : Write → Prop
  | .insertAll name documents _ => ∃ added, Appends name added before after ∧
      ((∃ errors, added.Sublist (recordsOf number documents) ∧
          failure = .bulkInsert name (documents.length - added.length)
            (added.map fun r => .str r.1.text) errors) ∨
        ∃ taken document rest, documents = taken ++ document :: rest ∧
          added.Sublist (recordsOf number taken) ∧
          failure.kind ≠ .duplicateKey ∧ failure.kind ≠ .bulkInsert ∧
          (insertKeyed name (number + taken.length) document after).1 = .error failure)
  | .update name filter patch => ∃ fields ahead r behind, patch = .doc fields ∧
      Collection.StopsAt name filter fields ahead r behind failure (before.collection name)
        (after.collection name) ∧
      ∀ other, other ≠ name → after.collection other = before.collection other
  | _ => False

namespace Contents

variable {name other : String} {number : Nat} {ordered : Bool} {documents : List Value}
  {filter patch : Value} {failure : Failure} {contents after : Contents}

theorem insertAll_fails
    (run : insertAll name number documents ordered contents = (.error failure, after)) :
    (Write.insertAll name documents ordered).LeavesPart number failure contents after := by
  rcases Action.bind_fails.1 run with bulk | ⟨outcome, between, bulk, told⟩
  · obtain ⟨added, taken, document, rest, split, appends, part, kind, stop⟩ := insertFrom_fails bulk
    have other := (insertKeyed_fails stop).2
    refine ⟨added, appends, .inr ⟨taken, document, rest, split, part, kind, other, ?_⟩⟩
    exact congrArg Prod.fst stop
  · obtain ⟨added, appends, part, ids⟩ := insertFrom_returns bulk
    split at told
    · cases told
    · cases told
      refine ⟨added, appends, .inl ⟨outcome.errors, part, ?_⟩⟩
      rw [ids, List.length_map, List.map_map]
      rfl

theorem update_of_no_doc (noDoc : ∀ fields, patch ≠ .doc fields) (name : String) (filter : Value)
    (contents : Contents) : (update name filter patch contents).2 = contents :=
  update_of_records (P := fun after => after = contents) rfl fun _ _ =>
    preserves_updateRecord fun _ fields doc => absurd doc (noDoc fields)

theorem update_fails (table : (contents.collection name).IsTable)
    (run : update name filter patch contents = (.error failure, after)) :
    after = contents ∨
      (Write.update name filter patch).LeavesPart number failure contents after := by
  -- Of a patch that is no document nothing can be written.
  by_cases noDoc : ∀ fields, patch ≠ .doc fields
  · left
    have kept := update_of_no_doc noDoc name filter contents
    rwa [run] at kept
  · obtain ⟨fields, rfl⟩ : ∃ fields, patch = .doc fields := by simpa using noDoc
    rcases update_cases filter fields table with named | reaches
    · rw [run] at named
      exact .inl (Prod.mk.inj named).2
    · right
      rw [run] at reaches
      rcases reaches with ⟨failure', ahead, r, behind, failed, stopped⟩ | ⟨returned, -⟩
      · obtain rfl := Except.error.inj failed
        refine ⟨fields, ahead, r, behind, rfl, stopped, fun other ne => ?_⟩
        have kept := collection_update_of_ne ne filter (.doc fields) contents
        rwa [run] at kept
      · cases returned

theorem change_fails {α : Type} {f : Collection → Except Failure (α × Collection)}
    (run : change name f contents = (.error failure, after)) : after = contents := by
  rw [change_apply] at run
  cases result : f (contents.collection name) with
  | error failure' =>
    rw [result] at run
    exact (Prod.mk.inj run).2.symm
  | ok found =>
    rw [result] at run
    cases run

end Contents

namespace Write

theorem change_fails {op : Write} {number : Nat} {failure : Failure} {contents after : Contents}
    (tables : contents.HasTables) (run : op.change number contents = (.error failure, after)) :
    after = contents ∨ op.LeavesPart number failure contents after := by
  have failed {α : Type} {f : α → Value} {a : Action Contents α}
      (run : (f <$> a) contents = (.error failure, after)) :
      a contents = (.error failure, after) := by
    rw [Action.map_apply] at run
    rcases made : a contents with ⟨failure' | result, left⟩ <;> rw [made] at run
    · cases run
      rfl
    · cases run
  cases op with
  | insert name document =>
    rcases Action.bind_fails.1 (failed run) with refused | ⟨key, _, -, returned⟩
    · exact .inl (insertKeyed_fails refused).1
    · cases returned
  | insertAll name documents ordered => exact .inr (insertAll_fails (failed run))
  | update name filter patch => exact update_fails (tables name) (failed run)
  | delete name filter => exact .inl (Contents.change_fails (failed run))
  | createIndex name keys unique =>
    have made := failed run
    rw [Contents.createIndex] at made
    cases texts : keyTexts keys with
    | some names =>
      rw [texts] at made
      exact .inl (Contents.change_fails made)
    | none =>
      rw [texts] at made
      exact .inl (Prod.mk.inj made).2.symm
  | clear name => cases run
  | clearAll => cases run

/-- Whatever has happened before, a write that fails has changed nothing, or it is one of those that
leave a part of their work. -/
theorem perform_fails (connected : Bool) (events : List Event) {store : String} {op : Write}
    {caller : Option SessionId} {failure : Failure} {v : World}
    (run : op.perform store caller ((World.empty connected).replay events) = (.error failure, v)) :
    let w := (World.empty connected).replay events
    (∀ other, other ≠ store → v.contents other = w.contents other) ∧
      (v.contents store = w.contents store ∨
        op.LeavesPart w.generated failure (w.contents store) (v.contents store)) := by
  intro w
  have tables := (World.tables_replay connected events).contents store
  constructor
  · intro other ne
    have kept := contents_perform_of_ne ne caller op w
    rwa [run] at kept
  · rcases perform_cases run with ⟨_, -, -, rfl⟩ | ⟨-, changed, -⟩
    · exact .inl rfl
    · exact change_fails tables changed

/-- The first guest has moved to the second row when the third one cannot. -/
theorem perform_fails_seating :
    let move : Document := [("place.row", .int 2)]
    let op : Write := .update "guests" (.doc []) (.doc move)
    let run := op.perform "main" none World.seating
    ∃ failure, run.1 = .error failure ∧
      (run.2.contents "main" = World.seating.contents "main" ∨
        op.LeavesPart World.seating.generated failure (World.seating.contents "main")
          (run.2.contents "main")) := by
  intro move op run
  have failed : run.1.isOk = false := by decide +kernel
  have made : op.perform "main" none World.seating = run := rfl
  clear_value run
  rcases run with ⟨failure | result, v⟩
  · exact ⟨failure, rfl, (perform_fails true _ made).2⟩
  · cases failed

/-- Two writes that fail and leave a part of their work. The first guest moves to the second row,
where the third one finds no place. A guest is added ahead of one whose identifier cannot be a key,
and the failure does not tell. -/
theorem perform_fails_halfway :
    let guests (w : World) : List Value := ((w.contents "main").documents "guests").map .doc
    let kind (outcome : Except Failure Value) : Option FailureKind :=
      match outcome with
      | .error failure => some failure.kind
      | .ok _ => none
    let move : Write := .update "guests" (.doc []) (.doc [("place.row", .int 2)])
    let moved := move.perform "main" none World.seating
    let invite : Write := .insertAll "guests"
      [.doc [("_id", .str "g4")], .doc [("_id", .list [.str "g5"])]] true
    let invited := invite.perform "main" none World.seating
    kind moved.1 = some .duplicateKey ∧
      Value.sameItems (guests moved.2) (guests World.seating) = false ∧
      kind invited.1 = some .store ∧
      (guests World.seating).length = 3 ∧ (guests invited.2).length = 4 := by
  decide +kernel

end Write
end Docbase.Memory
