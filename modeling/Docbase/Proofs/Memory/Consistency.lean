import Docbase.Proofs.Memory.Everywhere

/-!
# Unique indexes over whole runs

Every world that a run leads to is consistent, whatever calls fail in it and however transactions
are interleaved: the contents that sessions hold for an abort are consistent as well.
-/

namespace Docbase.Memory
open Docbase.Action (Preserves)

def Write.isProper (op : Write) : Bool := op.handed.all Value.isProper

def Event.isProper : Event → Bool
  | write _ op _ => op.isProper
  | _ => true

theorem Write.preserves_change {op : Write} (proper : op.isProper = true) (number : Nat) :
    Preserves Contents.Consistent (op.change number) := by
  have handed : ∀ v ∈ op.handed, v.isProper = true := List.all_eq_true.1 proper
  exact preserves_of
    (fun name number document mem =>
      Contents.preserves_insertKeyed name number (handed document mem))
    (fun _ _ patch mem => Contents.preserves_update (handed patch mem))
    Contents.preserves_delete (fun name keys unique _ => Contents.preserves_createIndex name keys unique)
    (fun name _ before => before.clear name) (fun _ => Contents.consistent_empty) number

namespace World

structure Consistent (w : World) : Prop where
  contents : ∀ store, (w.contents store).Consistent
  snapshots : ∀ s ∈ w.sessions, ∀ c, s.snapshot = some c → c.Consistent

theorem consistent_empty (connected : Bool) : (empty connected).Consistent :=
  ⟨fun _ => Contents.consistent_empty, fun _ mem => absurd mem List.not_mem_nil⟩

variable {w : World}

theorem Consistent.after (h : w.Consistent) {e : Event} (proper : e.isProper = true) :
    (e.after w).Consistent := by
  have everywhere : w.Everywhere Contents.Consistent := ⟨h.contents, h.snapshots⟩
  have kept : (e.after w).Everywhere Contents.Consistent := by
    refine everywhere.after fun store op caller written => ?_
    subst written
    exact Write.preserves_change proper
  exact ⟨kept.contents, kept.snapshots⟩

/-- In every collection that a run leads to, keys differ, and documents under different keys have
different entries in every unique index. -/
theorem entries_differ_of_replay (connected : Bool) {events : List Event}
    (proper : ∀ e ∈ events, e.isProper = true) (store name : String) :
    let c := (((empty connected).replay events).contents store).collection name
    (c.records.Pairwise fun r s => Value.same r.1 s.1 = false) ∧
      ∀ i ∈ c.indexes, i.2.unique = true → ∀ r ∈ c.records, ∀ s ∈ c.records,
        Value.same r.1 s.1 = false → ∃ x y, Index.entryOf i.2.keys r.2 = .ok x ∧
          Index.entryOf i.2.keys s.2 = .ok y ∧ Value.sameItems x y = false := by
  intro c
  have world : ((empty connected).replay events).Consistent :=
    replay_preserves (fun _ _ proper h => h.after proper) proper (consistent_empty connected)
  have consistent : c.Consistent := world.contents store name
  refine ⟨consistent.keys, fun i mem unique r hr s hs keys => ?_⟩
  obtain ⟨x, hx⟩ := (consistent.enforced i mem unique).indexed r hr
  obtain ⟨y, hy⟩ := (consistent.enforced i mem unique).indexed s hs
  exact ⟨x, y, hx, hy, consistent.apart mem unique hr hs keys x y hx hy⟩

/-- Two users get addresses of their own. One more with an address that is taken is refused, and an
update that would give all users one address stops at the second. -/
def sharedAddress : List Event :=
  let user (id mail : String) : Value := .doc [("_id", .str id), ("mail", .str mail)]
  [.write "main" (.createIndex "users" [.str "mail"] true) none,
    .write "main" (.insert "users" (user "u1" "a@x")) none,
    .startSession "main",
    .call 0 .startTransaction,
    .write "main" (.insertAll "users" [user "u2" "b@x", user "u3" "a@x"] false) (some 0),
    .write "main" (.update "users" (.doc []) (.doc [("mail", .str "c@x")])) none,
    .call 0 .commitTransaction]

theorem entries_differ_of_sharedAddress :
    (∀ e ∈ sharedAddress, e.isProper = true) ∧
      let c := (((empty true).replay sharedAddress).contents "main").collection "users"
      c.records.length = 2 ∧ c.indexes.length = 1 ∧
      (c.records.Pairwise fun r s => Value.same r.1 s.1 = false) ∧
      ∀ i ∈ c.indexes, i.2.unique = true → ∀ r ∈ c.records, ∀ s ∈ c.records,
        Value.same r.1 s.1 = false → ∃ x y, Index.entryOf i.2.keys r.2 = .ok x ∧
          Index.entryOf i.2.keys s.2 = .ok y ∧ Value.sameItems x y = false :=
  ⟨by decide, by decide +kernel, by decide +kernel,
    entries_differ_of_replay true (by decide) "main" "users"⟩

end World

end Docbase.Memory
