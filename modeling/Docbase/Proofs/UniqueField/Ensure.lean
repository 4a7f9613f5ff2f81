import Docbase.Proofs.Memory.Backend
import Docbase.Proofs.Memory.Indexes

/-!
# Declared unique fields have their indexes

After `UniqueField.ensure` has returned, there is a unique index over each field set that was
declared, and those that were there before are still there. They stay through all that follows but
for what takes back or clears whole stores. All of this is up to names: a new index takes the place
of the one that has its name, and nobody is told.

* `UniqueField.ensureKeys_apply`: what it comes to that an index is ensured.
* `Memory.World.ensure_establishes`: the indexes that are there after a run.
* `Memory.World.ensure_collides`: two field sets of one name, of which one is left without an index.
-/

namespace Docbase
open Docbase.Action (Preserves)

namespace Memory.World

def indexes (store collection : String) (w : World) : List (String × Index) :=
  ((w.contents store).collection collection).indexes

def hasUnique (store collection : String) (keys : List String) (w : World) : Bool :=
  ((w.contents store).collection collection).hasIndex keys true

variable {store : String} {w : World}

theorem eq_notConnected_of_refusal {failure : Failure} (h : w.refusal store none = some failure) :
    failure = .notConnected := by
  unfold refusal at h
  split at h
  · exact (Option.some.inj h).symm
  · cases h

theorem refusal_setContents (store : String) (c : Contents) (w : World) :
    (w.setContents store c).refusal store none = w.refusal store none := by
  simp [refusal]

end Memory.World

namespace UniqueField
open Memory (World backend Index IsCatalog Contents)

variable {store collection : String} {w v : World} {names : List String}

/-! ## Single indexes -/

/-- What becomes of a failure to create an index that was not there. -/
def missed (collection : String) (keys : List Value) (failure : Failure) : Failure :=
  if failure.kind.isStore then .unenforceable collection keys failure else failure

theorem ensureKeys_apply (store collection : String) (names : List String) (w : World) :
    ensureKeys (backend store) collection (names.map .str) w =
      match w.refusal store none with
      | some failure => (.error (.unenforceable collection (names.map .str) failure), w)
      | none =>
        if w.hasUnique store collection names then (.ok (), w)
        else match ((w.contents store).collection collection).addIndex collection names true with
          | .ok (_, c) => (.ok (), w.setContents store ((w.contents store).put collection c))
          | .error failure => (.error (missed collection (names.map .str) failure), w) := by
  simp only [ensureKeys, createMissing, Action.bind_apply, Action.attempt_apply,
    Memory.backend_hasUnique_apply]
  cases refused : w.refusal store none with
  | some failure =>
    obtain rfl := World.eq_notConnected_of_refusal refused
    rfl
  | none =>
    cases present : w.hasUnique store collection names with
    | true =>
      rw [World.hasUnique] at present
      simp [present, Value.truthy]
    | false =>
      rw [World.hasUnique] at present
      cases added : ((w.contents store).collection collection).addIndex collection names true with
      | ok result => simp [present, Value.truthy, Memory.backend_createUnique_apply, refused, added]
      | error failure =>
        have other : failure.kind ≠ .indexExists := by
          obtain ⟨there, -⟩ | ⟨-, kind⟩ | distinct := Memory.Collection.addIndex_eq_error added
          · exact absurd there (Bool.eq_false_iff.1 present)
          · simp [kind]
          · exact Memory.Collection.kind_of_checkDistinct distinct
        simp only [present, Value.truthy, Memory.backend_createUnique_apply, refused, added,
          Bool.false_eq_true, if_false, if_neg other, missed]
        split <;> rfl

/-! ## Declarations -/

def Requests (declared : Value) (names : List String) : Prop :=
  ∃ fieldSets, declared.elements? = some fieldSets ∧ ∃ fieldSet ∈ fieldSets, ∃ values,
    keys fieldSet = .ok values ∧ Contents.keyTexts values = some names

/-- A value that lists field sets, none of which is empty. -/
def Declares (declared : Value) (sets : List (List String)) : Prop :=
  ∃ fieldSets, declared.elements? = some fieldSets ∧
    List.Forall₂ (fun fieldSet names => keys fieldSet = .ok (names.map .str)) fieldSets sets

theorem elements?_of_not_truthy {declared : Value} {fieldSets : List Value}
    (empty : declared.truthy = false) (elements : declared.elements? = some fieldSets) :
    fieldSets = [] := by
  cases declared with
  | str s =>
    obtain rfl := Option.some.inj elements
    have none : s = "" := by simpa [Value.truthy] using empty
    simp [none]
  | bytes octets =>
    obtain rfl := Option.some.inj elements
    simpa [Value.truthy] using empty
  | tuple items =>
    obtain rfl := Option.some.inj elements
    simpa [Value.truthy] using empty
  | list items =>
    obtain rfl := Option.some.inj elements
    simpa [Value.truthy] using empty
  | doc fields =>
    obtain rfl := Option.some.inj elements
    simpa [Value.truthy] using empty
  | _ => cases elements

theorem ensure_eq_forM {σ ι : Type} {declared : Value} {sets : List (List String)}
    (h : Declares declared sets) (b : Backend σ ι) (collection : String) :
    ensure b collection declared =
      sets.forM fun names => ensureKeys b collection (names.map .str) := by
  obtain ⟨fieldSets, elements, each⟩ := h
  have walk : (fieldSets.forM fun fieldSet => do ensureKeys b collection (← keys fieldSet)) =
      sets.forM fun names => ensureKeys b collection (names.map .str) := by
    clear elements
    induction each with
    | nil => rfl
    | @cons fieldSet names fieldSets sets here there ih =>
      have first : (do ensureKeys b collection (← keys fieldSet)) =
          ensureKeys b collection (names.map .str) := by
        rw [here]
        rfl
      rw [List.forM, List.forM, ih, first]
  unfold ensure
  cases some : declared.truthy with
  | true => simp only [if_true, elements, walk]
  | false =>
    obtain rfl := elements?_of_not_truthy some elements
    rw [← walk]
    simp

/-! ## All of the indexes -/

variable {sets : List (List String)}

theorem preserves_connected_ensureKeys (store collection : String) (names : List String) :
    Preserves (fun w => w.refusal store none = none)
      (ensureKeys (backend store) collection (names.map .str)) := by
  refine preserves_ensureKeys (Memory.preserves_backend_hasUnique _ _)
    (Memory.preserves_backend_createUnique fun w connected => ?_)
  exact (World.refusal_setContents store _ w).trans connected

theorem hasUnique_of_ensureKeys
    (run : ensureKeys (backend store) collection (names.map .str) w = (.ok (), v)) :
    v.refusal store none = none ∧ v.hasUnique store collection names = true := by
  rw [ensureKeys_apply] at run
  cases refused : w.refusal store none with
  | some failure =>
    rw [refused] at run
    cases run
  | none =>
    rw [refused] at run
    cases present : w.hasUnique store collection names with
    | true =>
      simp only [present, if_true] at run
      obtain rfl := (Prod.mk.inj run).2
      exact ⟨refused, present⟩
    | false =>
      cases added : ((w.contents store).collection collection).addIndex collection names true with
      | error failure =>
        simp only [present, added, Bool.false_eq_true, if_false] at run
        cases run
      | ok result =>
        simp only [present, added, Bool.false_eq_true, if_false] at run
        obtain rfl := (Prod.mk.inj run).2
        refine ⟨(World.refusal_setContents store _ w).trans refused, ?_⟩
        rw [World.hasUnique, Memory.World.contents_setContents_self,
          Contents.collection_put_self]
        exact Memory.Collection.hasIndex_of_mem (Memory.Collection.uniqueOver_mem_addIndex added)

theorem ensure_of_hasUnique {declared : Value} (declares : Declares declared sets)
    (all : ∀ names ∈ sets, w.refusal store none = none ∧ w.hasUnique store collection names = true) :
    ensure (backend store) collection declared w = (.ok (), w) := by
  rw [ensure_eq_forM declares]
  clear declares
  induction sets with
  | nil => rfl
  | cons names sets ih =>
    obtain ⟨⟨connected, present⟩, others⟩ := List.forall_mem_cons.1 all
    rw [List.forM, Action.bind_apply, ensureKeys_apply, connected]
    simp only [present, if_true]
    exact ih others

end UniqueField

namespace Memory
open UniqueField (ensure ensureKeys Declares)

/-! ## Indexes that stay -/

/-- The indexes of a collection, all over some known keys, where some are to be kept. -/
structure Guards (K : Set (List String)) (kept indexes : List (String × Index)) : Prop where
  catalog : IsCatalog indexes
  known : ∀ i ∈ indexes, i.2.keys ∈ K
  kept : ∀ i ∈ kept, i ∈ indexes

variable {K : Set (List String)} {kept indexes : List (String × Index)} {keys : List String}
variable {store collection : String} {w v : World}

theorem Guards.set (names : Set.InjOn Index.nameOf K) (h : Guards K kept indexes)
    (known : keys ∈ K) (absent : ∀ i ∈ indexes, i.2.keys ≠ keys) (unique : Bool) :
    Guards K kept (Fields.set (Index.nameOf keys) { keys, unique } indexes) where
  catalog := h.catalog.set keys unique
  known i mem := by
    rcases Fields.mem_set mem with mem | rfl
    · exact h.known i mem
    · exact known
  kept i mem := by
    have before := h.kept i mem
    exact h.catalog.mem_set before (absent i before) (names (h.known i before) known) _

theorem preserves_guards_ensureKeys (names : Set.InjOn Index.nameOf K) {other place : String}
    {listed : List Value} (known : other = store → collection = place → ∀ texts,
      Contents.keyTexts listed = some texts → texts ∈ K) :
    Preserves (fun w => Guards K kept (w.indexes store collection))
      (ensureKeys (backend other) place listed) := by
  refine UniqueField.preserves_ensureKeys (preserves_backend_hasUnique _ _)
    (preserves_backend_createUnique ?_)
  refine World.preserves_onContents (P := Contents.Catalog (Guards K kept) collection)
    fun same => ?_
  refine Contents.preserves_catalog_createIndex _ _ fun indexes texts here read before absent => ?_
  exact before.set names (known same here texts read) absent true

theorem guards_of_forM {sets : List (List String)} (names : Set.InjOn Index.nameOf K)
    (known : ∀ keys ∈ sets, keys ∈ K) (before : Guards K kept (w.indexes store collection))
    (run : (sets.forM fun keys => ensureKeys (backend store) collection (keys.map .str)) w =
      (.ok (), v)) :
    Guards K kept (v.indexes store collection) ∧ ∀ keys ∈ sets,
      v.refusal store none = none ∧ Index.uniqueOver keys ∈ v.indexes store collection := by
  induction sets generalizing w kept with
  | nil =>
    obtain rfl := (Prod.mk.inj run).2
    exact ⟨before, fun _ mem => absurd mem List.not_mem_nil⟩
  | cons keys sets ih =>
    obtain ⟨here, there⟩ := List.forall_mem_cons.1 known
    have step : Guards K kept ((ensureKeys (backend store) collection (keys.map .str) w).2.indexes
        store collection) := by
      refine preserves_guards_ensureKeys names (fun _ _ texts read => ?_) w before
      rw [Contents.keyTexts_map] at read
      exact Option.some.inj read ▸ here
    rw [List.forM, Action.bind_apply] at run
    rcases first : ensureKeys (backend store) collection (keys.map .str) w with ⟨e | u, t⟩
    · rw [first] at run
      cases run
    · rw [first] at run step
      obtain ⟨connected, present⟩ := UniqueField.hasUnique_of_ensureKeys first
      have added : Index.uniqueOver keys ∈ t.indexes store collection :=
        (Collection.hasIndex_iff step.catalog).1 present
      have still : v.refusal store none = none := by
        have stays := Preserves.forM
          (UniqueField.preserves_connected_ensureKeys store collection) sets t connected
        have last := congrArg Prod.snd run
        dsimp only at stays last
        rwa [last] at stays
      obtain ⟨after, later⟩ := ih there ⟨step.catalog, step.known, fun _ mem => mem⟩ run
      refine ⟨⟨after.catalog, after.known, fun i mem => after.kept i (step.kept i mem)⟩, ?_⟩
      exact List.forall_mem_cons.2 ⟨⟨still, after.kept _ added⟩, later⟩

/-! ## Runs -/

/-- What may happen to the stores of a world, the ensuring of indexes among it. -/
inductive Operation
  | event (e : Event)
  | ensure (store collection : String) (declared : Value)

namespace Operation

def after (w : World) : Operation → World
  | event e => e.after w
  | ensure store collection declared =>
    (UniqueField.ensure (backend store) collection declared w).2

end Operation

/-- The write clears nothing, and creates indexes of a collection only over these keys. -/
def Write.Spares (K : Set (List String)) (collection : String) : Write → Prop
  | createIndex place keys _ =>
    collection = place → ∀ names, Contents.keyTexts keys = some names → names ∈ K
  | clearAll => False
  | _ => True

/-- The operation takes nothing back, clears nothing in a store, and creates indexes of a
collection only over these keys. -/
def Operation.Spares (K : Set (List String)) (store collection : String) : Operation → Prop
  | event (.write other op _) => other = store → op.Spares K collection
  | event (.call _ c) => c.takesBack = false
  | event _ => True
  | ensure other place declared => other = store → collection = place →
    ∀ names, UniqueField.Requests declared names → names ∈ K

namespace World

def operate (w : World) (operations : List Operation) : World :=
  operations.foldl Operation.after w

theorem isIndexed_step {w : World} (h : w.Everywhere Contents.IsIndexed) (operation : Operation) :
    (operation.after w).Everywhere Contents.IsIndexed := by
  cases operation with
  | event e => exact isIndexed_after h e
  | ensure store collection declared =>
    have indexing : (backend store).PreservesIndexing (Everywhere Contents.IsIndexed) :=
      preservesIndexing_backend fun place keys => preserves_everywhere_onContents
        (Contents.preserves_isIndexed_createIndex place keys true) store
    exact UniqueField.preserves_ensure indexing collection declared w h

theorem isIndexed_operate {w : World} (h : w.Everywhere Contents.IsIndexed)
    (operations : List Operation) : (w.operate operations).Everywhere Contents.IsIndexed := by
  induction operations generalizing w with
  | nil => exact h
  | cons operation rest ih => exact ih (isIndexed_step h operation)

theorem isCatalog_of_operate {connected : Bool} {operations : List Operation}
    (reached : (empty connected).operate operations = w) (store collection : String) :
    IsCatalog (w.indexes store collection) := by
  have everywhere := isIndexed_operate
    (everywhere_empty Contents.isIndexed_empty connected) operations
  rw [reached] at everywhere
  exact everywhere.contents store collection

theorem guards_step (names : Set.InjOn Index.nameOf K) {operation : Operation}
    (spares : operation.Spares K store collection)
    (h : Guards K kept (w.indexes store collection)) :
    Guards K kept ((operation.after w).indexes store collection) := by
  cases operation with
  | event e =>
    refine contents_after (P := Contents.Catalog (Guards K kept) collection) h ?_ ?_
    · rintro id
      constructor
      · rintro rfl
        cases spares
      · rintro rfl
        cases spares
    · rintro op caller rfl number
      have spared : op.Spares K collection := spares rfl
      refine Write.preserves_catalog ?_ ?_ number
      · rintro rfl
        exact spared.elim
      · rintro keys unique indexes texts rfl read before absent
        exact before.set names (spared rfl texts read) absent unique
  | ensure other place declared =>
    have stays : Preserves (fun w => Guards K kept (w.indexes store collection))
        (ensure (backend other) place declared) := by
      refine UniqueField.preserves_ensure_of fun fieldSets elements fieldSet mem listed read => ?_
      refine preserves_guards_ensureKeys names fun same same' texts read' => ?_
      exact spares same same' texts ⟨fieldSets, elements, fieldSet, mem, listed, read, read'⟩
    exact stays w h

theorem guards_operate (names : Set.InjOn Index.nameOf K) {operations : List Operation}
    (spares : ∀ operation ∈ operations, operation.Spares K store collection)
    (h : Guards K kept (w.indexes store collection)) :
    Guards K kept ((w.operate operations).indexes store collection) := by
  induction operations generalizing w with
  | nil => exact h
  | cons operation rest ih =>
    obtain ⟨here, there⟩ := List.forall_mem_cons.1 spares
    exact ih there (guards_step names here h)

/-- Where names tell apart the keys of all indexes, those that there are and those that are asked
for. -/
theorem ensure_establishes {connected : Bool} {earlier : List Operation} {declared : Value}
    {sets : List (List String)} (reached : (empty connected).operate earlier = w)
    (declares : Declares declared sets) (names : Set.InjOn Index.nameOf K)
    (known : ∀ i ∈ w.indexes store collection, i.2.keys ∈ K)
    (requested : ∀ keys ∈ sets, keys ∈ K)
    (run : ensure (backend store) collection declared w = (.ok (), v)) :
    (∀ keys ∈ sets, Index.uniqueOver keys ∈ v.indexes store collection) ∧
    (∀ i ∈ w.indexes store collection, i ∈ v.indexes store collection) ∧
    ensure (backend store) collection declared v = (.ok (), v) ∧
    ∀ later : List Operation, (∀ operation ∈ later, operation.Spares K store collection) →
      ∀ i ∈ v.indexes store collection, i ∈ (v.operate later).indexes store collection := by
  have catalog : IsCatalog (w.indexes store collection) :=
    isCatalog_of_operate reached store collection
  have before : Guards K (w.indexes store collection) (w.indexes store collection) :=
    ⟨catalog, known, fun _ mem => mem⟩
  have walked := run
  rw [UniqueField.ensure_eq_forM declares] at walked
  obtain ⟨after, established⟩ := guards_of_forM names requested before walked
  refine ⟨fun keys mem => (established keys mem).2, after.kept, ?_, fun later spares => ?_⟩
  · refine UniqueField.ensure_of_hasUnique declares fun keys mem => ?_
    obtain ⟨taken, there⟩ := established keys mem
    exact ⟨taken, Collection.hasIndex_of_mem there⟩
  · have now : Guards K (v.indexes store collection) (v.indexes store collection) :=
      ⟨after.catalog, after.known, fun _ mem => mem⟩
    exact (guards_operate names spares now).kept

def teams : List Operation :=
  [.event (.write "main" (.insert "users" (.doc [("_id", .str "a"), ("team", .str "red")])) none),
    .event (.write "main" (.createIndex "users" [.str "team"] false) none)]

def account : Value := .list [.str "email", .list [.str "team", .str "name"]]

def joined : List Operation :=
  [.event (.write "main" (.insert "users" (.doc [("email", .str "e")])) none),
    .ensure "main" "users" (.list [.str "phone"])]

theorem spares_joined : ∀ operation ∈ joined,
    operation.Spares {keys | ∀ key ∈ keys, ¬['_', '1'] <:+: key.toList} "main" "users" := by
  refine List.forall_mem_cons.2 ⟨fun _ => trivial, List.forall_mem_singleton.2 ?_⟩
  rintro - - names ⟨fieldSets, elements, fieldSet, mem, values, read, texts⟩
  obtain rfl := Option.some.inj elements
  obtain rfl := List.mem_singleton.1 mem
  obtain rfl := Except.ok.inj read
  obtain rfl := Option.some.inj texts
  decide

/-- The indexes of an account, and that over teams, stay through an insert and a further field. -/
theorem ensure_establishes_account :
    ∃ v, ensure (backend "main") "users" account ((empty true).operate teams) = (.ok (), v) ∧
      Index.uniqueOver ["email"] ∈ (v.operate joined).indexes "main" "users" ∧
      Index.uniqueOver ["team", "name"] ∈ (v.operate joined).indexes "main" "users" ∧
      ("team_1", { keys := ["team"], unique := false }) ∈
        (v.operate joined).indexes "main" "users" := by
  have run : ensure (backend "main") "users" account ((empty true).operate teams) =
      (.ok (), (ensure (backend "main") "users" account ((empty true).operate teams)).2) :=
    Prod.ext (by with_unfolding_all rfl) rfl
  have declares : Declares account [["email"], ["team", "name"]] :=
    ⟨_, rfl, .cons rfl (.cons rfl .nil)⟩
  obtain ⟨there, kept, -, stays⟩ :=
    ensure_establishes rfl declares Index.nameOf_injOn (by decide) (by decide) run
  have after := stays joined spares_joined
  refine ⟨_, run, after _ (there _ ?_), after _ (there _ ?_), after _ (kept _ ?_)⟩
  · exact List.mem_cons_self
  · exact List.mem_cons_of_mem _ List.mem_cons_self
  · decide

/-- Two field sets of one name: the later index takes the place of the earlier one. -/
theorem ensure_collides :
    (ensure (backend "main") "users" (.list [.list [.str "a", .str "b"], .str "a_1_b"])
        (empty true)).1 = .ok () ∧
      (ensure (backend "main") "users" (.list [.list [.str "a", .str "b"], .str "a_1_b"])
        (empty true)).2.indexes "main" "users" = [Index.uniqueOver ["a_1_b"]] ∧
      Index.uniqueOver ["a", "b"] ≠ Index.uniqueOver ["a_1_b"] :=
  ⟨by with_unfolding_all rfl, by with_unfolding_all rfl, by decide⟩

end World
end Memory
end Docbase
