import Docbase.Proofs.Repository.Lifetime

namespace Docbase.Memory
open Docbase.Action (Preserves)

def KeySource.SparesStores (keys : KeySource) : Prop :=
  ∀ w : World, (∀ store, (keys.draw w).2.contents store = w.contents store) ∧
    (keys.draw w).2.sessions = w.sessions

def Request.SparesStores : Request → Prop
  | insert h _ _ _ | insertMany h _ _ _ => h.keys.SparesStores
  | write _ _ | update _ _ _ _ _ | delete _ _ _ => True

def Step.SparesStores : Step → Prop
  | request _ r => r.SparesStores
  | event _ => True

variable {P : Contents → Prop}

theorem World.preserves_everywhere_draw {keys : KeySource} (spares : keys.SparesStores) :
    Preserves (World.Everywhere P) keys.draw := fun w before =>
  before.of_same (spares w).1 (spares w).2

theorem preserves_everywhere_backend
    (writes : ∀ (op : Write) number, Preserves P (op.change number)) (store : String) :
    (backend store).Preserves (World.Everywhere P) := by
  have onContents {α : Type} {f : α → Value} {a : Action Contents α}
      (h : Preserves P (f <$> a)) : Preserves (World.Everywhere P) (World.onContents store a) :=
    World.preserves_everywhere_onContents (Action.preserves_of_map h) store
  have indexing : (backend store).PreservesIndexing (World.Everywhere P) :=
    preservesIndexing_backend fun collection keys =>
      onContents (writes (.createIndex collection keys true) 0)
  refine ⟨?_, ?_, ?_, ?_, indexing.hasUnique, indexing.createUnique⟩
  · intro collection d session
    exact preserves_backend_insert (World.preserves_everywhere_reserve 1) fun number =>
      onContents (writes (.insert collection (.doc d)) number)
  · intro collection ds session
    exact preserves_backend_insertEach World.preserves_everywhere_reserve fun number =>
      onContents (writes (.insertAll collection (ds.map .doc) false) number)
  · intro collection filter patch session
    exact preserves_backend_update
      (onContents (writes (.update collection (.doc filter) (.doc patch)) 0))
  · intro collection filter session
    exact preserves_backend_delete (onContents (writes (.delete collection (.doc filter)) 0))

theorem Request.preserves_everywhere
    (writes : ∀ (op : Write) number, Preserves P (op.change number)) {r : Request}
    (spares : r.SparesStores) (store : String) :
    Preserves (World.Everywhere P) (r.perform store) := by
  have backend := preserves_everywhere_backend writes store
  cases r with
  | write op caller =>
    intro w before
    refine before.after (e := .write store op caller) fun store' op' caller' written => ?_
    obtain ⟨rfl, rfl, rfl⟩ := Event.write.inj written
    exact writes op
  | insert h data declared caller =>
    exact (Repository.preserves_insert backend (World.preserves_everywhere_draw spares)
      data declared caller).map _
  | insertMany h datas declared caller =>
    exact (Repository.preserves_insertMany backend (World.preserves_everywhere_draw spares)
      datas declared caller).map _
  | update h clause data declared caller =>
    exact Repository.preserves_update backend clause data declared caller
  | delete h clause caller => exact Repository.preserves_delete backend clause caller

namespace World

theorem Everywhere.step (writes : ∀ (op : Write) number, Preserves P (op.change number)) {s : Step}
    (spares : s.SparesStores) {w : World} (h : w.Everywhere P) : (s.after w).Everywhere P := by
  cases s with
  | request store r => exact r.preserves_everywhere writes spares store w h
  | event e => exact h.after fun _ op _ _ => writes op

/-- What holds of the contents of a store at first, and is kept by every write, holds of them after
any run. -/
theorem Everywhere.runSteps (writes : ∀ (op : Write) number, Preserves P (op.change number))
    {steps : List Step} (spares : ∀ s ∈ steps, s.SparesStores) {w : World} (h : w.Everywhere P) :
    (w.runSteps steps).Everywhere P := by
  induction steps generalizing w with
  | nil => exact h
  | cons s rest ih =>
    obtain ⟨here, there⟩ := List.forall_mem_cons.1 spares
    exact ih there (h.step writes here)

end World
end Docbase.Memory
