import Docbase.Proofs.Memory.Contents
import Docbase.Proofs.Memory.Run
import Docbase.Proofs.Repository.Frame

namespace Docbase.Memory
open Docbase.Action (Preserves)

variable {P : World → Prop} {store collection : String} {session : Option SessionId}

theorem World.preserves_check (store : String) (caller : Option SessionId) :
    Preserves P (World.check store caller) := by
  intro w h
  rw [World.check_apply]
  split
  · exact h
  · exact h

theorem preserves_backend_insert {d : Document} (reserve : Preserves P (World.reserve 1))
    (write : ∀ number,
      Preserves P (World.onContents store (Contents.insert collection number (.doc d)))) :
    Preserves P ((backend store).insert collection d session) := by
  refine Preserves.bind ?_ fun key => Action.preserves_pure _
  refine (World.preserves_check store session).bind fun _ => ?_
  exact reserve.bind fun number => write number

theorem preserves_backend_insertEach {ds : List Document}
    (reserve : ∀ count, Preserves P (World.reserve count))
    (write : ∀ number, Preserves P
      (World.onContents store (Contents.insertAll collection number (ds.map .doc) false))) :
    Preserves P ((backend store).insertEach collection ds session) := by
  refine Preserves.bind ?_ fun keys => Action.preserves_pure _
  refine (World.preserves_check store session).bind fun _ => ?_
  exact (reserve _).bind fun number => write number

theorem preserves_backend_update {filter patch : Document}
    (write : Preserves P
      (World.onContents store (Contents.update collection (.doc filter) (.doc patch)))) :
    Preserves P ((backend store).update collection filter patch session) := by
  refine Preserves.bind ?_ fun count => Action.preserves_pure _
  exact (World.preserves_check store session).bind fun _ => write

theorem preserves_backend_delete {filter : Document}
    (write : Preserves P (World.onContents store (Contents.delete collection (.doc filter)))) :
    Preserves P ((backend store).delete collection filter session) := by
  refine Preserves.bind ?_ fun count => Action.preserves_pure _
  exact (World.preserves_check store session).bind fun _ => write

theorem preserves_backend_hasUnique (collection : String) (keys : List Value) :
    Preserves P ((backend store).hasUnique collection keys) := by
  refine Preserves.bind ?_ fun present => Action.preserves_pure _
  refine (World.preserves_check store none).bind fun _ => Action.preserves_get.bind fun w => ?_
  exact Action.preserves_lift _

theorem preserves_backend_createUnique {keys : List Value}
    (write : Preserves P (World.onContents store (Contents.createIndex collection keys true))) :
    Preserves P ((backend store).createUnique collection keys) := by
  refine Preserves.bind ?_ fun name => Action.preserves_pure _
  exact (World.preserves_check store none).bind fun _ => write

theorem preservesIndexing_backend
    (write : ∀ collection keys,
      Preserves P (World.onContents store (Contents.createIndex collection keys true))) :
    (backend store).PreservesIndexing P :=
  ⟨preserves_backend_hasUnique, fun collection keys =>
    preserves_backend_createUnique (write collection keys)⟩

/-! ## Indexes over texts -/

theorem Contents.keyTexts_map (keys : List String) :
    Contents.keyTexts (keys.map .str) = some keys := by
  induction keys with
  | nil => rfl
  | cons key rest ih =>
    rw [Contents.keyTexts] at ih ⊢
    rw [List.map_cons, List.mapM_cons, ih]
    rfl

theorem World.setContents_self (store : String) (w : World) :
    w.setContents store (w.contents store) = w := by
  have same : (w.setContents store (w.contents store)).stores = w.stores := by
    funext other
    by_cases here : other = store
    · subst here
      simp [World.setContents, World.contents]
    · simp [World.setContents, World.stores_setStore_of_ne here]
  cases w
  simp only [World.setContents, World.setStore] at same ⊢
  rw [same]

theorem backend_hasUnique_apply (store collection : String) (keys : List String) (w : World) :
    (backend store).hasUnique collection (keys.map .str) w = match w.refusal store none with
      | some failure => (.error failure, w)
      | none => (.ok (.bool (((w.contents store).collection collection).hasIndex keys true)), w) := by
  simp only [backend, World.indexExists, Action.bind_apply, World.check_apply]
  cases w.refusal store none with
  | some failure => rfl
  | none =>
    simp [World.reading, Contents.indexExists, Contents.keyTexts_map, Action.bind_apply]

theorem backend_createUnique_apply (store collection : String) (keys : List String) (w : World) :
    (backend store).createUnique collection (keys.map .str) w =
      match w.refusal store none with
      | some failure => (.error failure, w)
      | none =>
        match ((w.contents store).collection collection).addIndex collection keys true with
        | .error failure => (.error failure, w)
        | .ok (_, c) => (.ok (), w.setContents store ((w.contents store).put collection c)) := by
  simp only [backend, World.createIndex, Action.bind_apply, World.check_apply]
  cases w.refusal store none with
  | some failure => rfl
  | none =>
    simp only [World.onContents, Action.within, Contents.createIndex, Contents.keyTexts_map,
      Contents.change_apply]
    cases ((w.contents store).collection collection).addIndex collection keys true with
    | error failure => simp [World.setContents_self]
    | ok added => rfl

end Docbase.Memory
