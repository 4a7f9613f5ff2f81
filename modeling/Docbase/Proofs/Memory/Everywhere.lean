import Docbase.Proofs.Memory.Contents
import Docbase.Proofs.Memory.Run

namespace Docbase.Memory
open Docbase.Action (Preserves)

/-! ## Writes -/

namespace Write

def handed : Write → List Value
  | insert _ document => [document]
  | insertAll _ documents _ => documents
  | update _ _ patch => [patch]
  | _ => []

theorem preserves_of {P : Contents → Prop} {op : Write}
    (inserts : ∀ name number, ∀ document ∈ op.handed,
      Preserves P (Contents.insertKeyed name number document))
    (updates : ∀ name filter, ∀ patch ∈ op.handed, Preserves P (Contents.update name filter patch))
    (deletes : ∀ name filter, Preserves P (Contents.delete name filter))
    (indexes : ∀ name keys unique, op = .createIndex name keys unique →
      Preserves P (Contents.createIndex name keys unique))
    (clears : ∀ name contents, P contents → P (contents.clear name))
    (empties : op = .clearAll → P {}) (number : Nat) : Preserves P (op.change number) := by
  cases op with
  | insert name document =>
    have keyed := inserts name number document List.mem_cons_self
    exact (keyed.bind fun _ => Action.preserves_pure _).map _
  | insertAll name documents ordered =>
    refine (Contents.preserves_insertAll ordered fun x mem => ?_).map _
    exact inserts name _ x.1 (List.fst_mem_of_mem_zipIdx mem)
  | update name filter patch => exact (updates name filter patch List.mem_cons_self).map _
  | delete name filter => exact (deletes name filter).map _
  | createIndex name keys unique => exact (indexes name keys unique rfl).map _
  | clear name => exact (Action.preserves_modify (clears name)).map _
  | clearAll => exact (Action.preserves_modify fun _ _ => empties rfl).map _

end Write

/-! ## Worlds -/

namespace World

structure Everywhere (P : Contents → Prop) (w : World) : Prop where
  contents : ∀ store, P (w.contents store)
  snapshots : ∀ s ∈ w.sessions, ∀ c, s.snapshot = some c → P c

variable {P : Contents → Prop} {w : World}

theorem everywhere_empty (h : P {}) (connected : Bool) : (empty connected).Everywhere P :=
  ⟨fun _ => h, fun _ mem => absurd mem List.not_mem_nil⟩

theorem Everywhere.of_same {v : World} (h : w.Everywhere P)
    (contents : ∀ store, v.contents store = w.contents store) (sessions : v.sessions = w.sessions) :
    v.Everywhere P := by
  refine ⟨fun store => ?_, ?_⟩
  · rw [contents store]
    exact h.contents store
  · rw [sessions]
    exact h.snapshots

theorem Everywhere.snapshot (h : w.Everywhere P) {id : SessionId} {c : Contents}
    (held : (w.session id).snapshot = some c) : P c := by
  unfold session at held
  rw [List.getD_eq_getElem?_getD] at held
  cases found : w.sessions[id]? with
  | none =>
    rw [found] at held
    cases held
  | some s =>
    rw [found] at held
    exact h.snapshots s (List.mem_of_getElem? found) c held

theorem Everywhere.setContents (h : w.Everywhere P) (store : String) {c : Contents} (hc : P c) :
    (w.setContents store c).Everywhere P := by
  refine ⟨fun other => ?_, h.snapshots⟩
  by_cases same : other = store
  · subst same
    rwa [contents_setContents_self]
  · rw [contents_setContents_of_ne same]
    exact h.contents other

theorem Everywhere.setSession (h : w.Everywhere P) (id : SessionId) {s : Session}
    (hs : ∀ c, s.snapshot = some c → P c) : (w.setSession id s).Everywhere P := by
  refine ⟨h.contents, fun t mem => ?_⟩
  rcases List.mem_or_eq_of_mem_set mem with mem | rfl
  · exact h.snapshots t mem
  · exact hs

theorem Everywhere.rollback (h : w.Everywhere P) (id : SessionId) :
    (w.rollback id).Everywhere P := by
  unfold World.rollback
  split
  · exact h
  · rename_i c held
    exact (h.setContents _ (h.snapshot held)).setSession id nofun

theorem Everywhere.call (h : w.Everywhere P) (id : SessionId) (c : SessionCall) :
    (c.perform id w).2.Everywhere P := by
  rw [SessionCall.perform_snd]
  split
  · cases c with
    | startTransaction =>
      refine h.setSession id fun c held => ?_
      obtain rfl := Option.some.inj held
      exact h.contents _
    | commitTransaction => exact h.setSession id nofun
    | abortTransaction => exact h.rollback id
    | finish => exact (h.rollback id).setSession id fun c held => (h.rollback id).snapshot held
  · exact h

theorem Everywhere.after (h : w.Everywhere P) {e : Event}
    (writes : ∀ store op caller, e = .write store op caller →
      ∀ number, Preserves P (op.change number)) : (e.after w).Everywhere P := by
  cases e with
  | connect store =>
    exact ⟨fun other => contents_connect store other w ▸ h.contents other, h.snapshots⟩
  | disconnect store =>
    exact ⟨fun other => contents_disconnect store other w ▸ h.contents other, h.snapshots⟩
  | startSession store =>
    rw [Event.after, startSession_apply]
    split
    · exact h
    · refine ⟨h.contents, fun s mem => ?_⟩
      rcases List.mem_append.1 mem with mem | mem
      · exact h.snapshots s mem
      · obtain rfl := List.mem_singleton.1 mem
        intro c held
        cases held
  | write store op caller =>
    rw [Event.after, Write.perform_apply]
    split
    · exact h
    · have changed := h.setContents store
        (writes store op caller rfl w.generated _ (h.contents store))
      exact ⟨changed.contents, changed.snapshots⟩
  | call id c => exact h.call id c

/-! ## Operations -/

theorem preserves_everywhere_reserve (count : Nat) : Preserves (Everywhere P) (reserve count) :=
  fun _ h => ⟨h.contents, h.snapshots⟩

theorem preserves_everywhere_onContents {α : Type} {a : Action Contents α} (h : Preserves P a)
    (store : String) : Preserves (Everywhere P) (onContents store a) := fun _ before =>
  before.setContents store (h _ (before.contents store))

end World
end Docbase.Memory
