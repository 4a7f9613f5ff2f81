import Docbase.Proofs.Memory.Identified
import Docbase.Proofs.Transaction.AllOrNothing

/-!
# Identifiers last

Repositories that draw texts as keys, and know a document by one external name, keep every document
of a store under the text that it has as `_id`. An update keeps the identifiers too, if its data
name no field inside of an identifier: `_id` itself is passed over, but a path such as `_id.x` is
not.

* `Memory.Step` and `World.runSteps`: requests to repositories, and calls of sessions in between.
* `World.identifiers_of_runSteps`: after any run, and through any update that follows.
* `World.identifier_replaced`: what comes of an update that does name such a field.
-/

namespace Docbase

theorem Repository.stripped_eq_ok {σ ι : Type} {r : Repository σ ι} {data : Value} {d : Document}
    (h : r.stripped data = .ok d) : ∃ fields, data = .doc fields ∧ d = r.identity.strip fields := by
  cases data with
  | doc fields => exact ⟨fields, rfl, (Except.ok.inj h).symm⟩
  | _ => cases h

namespace Identity

variable {identity : Identity} {d : Document} {name : String}

theorem mem_keys_strip (h : name ∈ Fields.keys (identity.strip d)) :
    name ∈ Fields.keys d ∧ name ≠ identity.external ∧ name ≠ identity.internal := by
  obtain ⟨field, mem, rfl⟩ := List.mem_map.1 h
  obtain ⟨mem, other⟩ := List.mem_filter.1 mem
  simp only [Bool.and_eq_true, bne_iff_ne] at other
  exact ⟨List.mem_map_of_mem mem, other⟩

theorem lookup_external_strip (identity : Identity) (d : Document) :
    (identity.strip d).lookup identity.external = none :=
  Fields.lookup_eq_none_iff.2 fun mem => (mem_keys_strip mem).2.1 rfl

end Identity

namespace Memory
open Docbase.Action (Preserves)

variable {external : String}

/-! ## Requests -/

/-- The source draws texts, and changes neither contents nor sessions. -/
def KeySource.DrawsTexts (keys : KeySource) : Prop :=
  ∀ w : World, (∀ store, (keys.draw w).2.contents store = w.contents store) ∧
    (keys.draw w).2.sessions = w.sessions ∧ ∀ key, (keys.draw w).1 = .ok key → ∃ s, key = .str s

structure Handle.IsKnownBy (external : String) (h : Handle) : Prop where
  external_eq : h.identity.external = external
  internal_eq : h.identity.internal = "_id"
  keys : h.keys.DrawsTexts

def SparesIdentifiers (external : String) (data : Value) : Prop :=
  ∀ fields, data = .doc fields → ∀ path ∈ Fields.keys fields,
    ¬Path.IsInside external path ∧ ¬Path.IsInside "_id" path

def Request.IsPlain (external : String) : Request → Prop
  | write _ _ => False
  | insert h _ _ _ | insertMany h _ _ _ | delete h _ _ => h.IsKnownBy external
  | update h _ data _ _ => h.IsKnownBy external ∧ SparesIdentifiers external data

theorem Handle.IsKnownBy.named {h : Handle} (known : h.IsKnownBy external) {store : String}
    {data key : Value} {d : Document} (stripped : (h.repository store).stripped data = .ok d)
    (text : ∃ s, key = .str s) :
    Named external (((h.repository store).identity.internal, key) :: d) := by
  obtain ⟨fields, rfl, rfl⟩ := Repository.stripped_eq_ok stripped
  obtain ⟨s, rfl⟩ := text
  have identity : (h.repository store).identity = h.identity := rfl
  have other : external ≠ "_id" := by
    rw [← known.external_eq, ← known.internal_eq]
    exact h.identity.distinct
  have hidden := Identity.lookup_external_strip h.identity fields
  rw [known.external_eq] at hidden
  rw [identity, known.internal_eq]
  refine ⟨⟨s, List.lookup_cons_self⟩, ?_⟩
  rw [List.lookup_cons, beq_false_of_ne other, hidden]

theorem Handle.IsKnownBy.avoids {h : Handle} (known : h.IsKnownBy external) {store : String}
    {data : Value} (spares : SparesIdentifiers external data) {patch : Document}
    (stripped : (h.repository store).stripped data = .ok patch) :
    Avoids "_id" patch ∧ Avoids external patch := by
  obtain ⟨fields, rfl, rfl⟩ := Repository.stripped_eq_ok stripped
  have apart (path) (mem : path ∈ Fields.keys (h.identity.strip fields)) :
      ¬Path.IsWithin "_id" path ∧ ¬Path.IsWithin external path := by
    obtain ⟨mem, notExternal, notInternal⟩ := Identity.mem_keys_strip mem
    rw [known.external_eq] at notExternal
    rw [known.internal_eq] at notInternal
    obtain ⟨outside, outside'⟩ := spares fields rfl path mem
    exact ⟨not_or.2 ⟨notInternal, outside'⟩, not_or.2 ⟨notExternal, outside⟩⟩
  exact ⟨fun path mem first => (apart path mem).1 (Path.isWithin_of_first_eq first),
    fun path mem first => (apart path mem).2 (Path.isWithin_of_first_eq first)⟩

/-! ## What requests preserve -/

namespace World

variable {P : World → Prop} {w : World}

theorem yields_draw {h : Handle} (known : h.IsKnownBy external) :
    h.keys.draw.Yields (Everywhere (Contents.Identified external)) (fun key => ∃ s, key = .str s) := by
  intro w before
  obtain ⟨contents, sessions, texts⟩ := known.keys w
  exact ⟨before.of_same contents sessions, texts⟩

theorem identified_indexing (store : String) :
    (backend store).PreservesIndexing (Everywhere (Contents.Identified external)) :=
  preservesIndexing_backend fun _ keys =>
    preserves_everywhere_onContents (Contents.preserves_identified_createIndex keys true) store

end World

theorem Request.preserves_identified {r : Request} (plain : r.IsPlain external) (store : String) :
    Preserves (World.Everywhere (Contents.Identified external)) (r.perform store) := by
  have indexing : (backend store).PreservesIndexing
      (World.Everywhere (Contents.Identified external)) := World.identified_indexing store
  cases r with
  | write op caller => exact plain.elim
  | insert h data declared caller =>
    refine Preserves.map (Repository.preserves_insert_of indexing (World.yields_draw plain)
      (fun d key stripped text => ?_) declared) _
    refine preserves_backend_insert (World.preserves_everywhere_reserve 1) fun number => ?_
    refine World.preserves_everywhere_onContents (Preserves.bind ?_ fun _ => Action.preserves_pure _) _
    exact Contents.preserves_identified_insertKeyed (plain.named stripped text) _ _
  | insertMany h datas declared caller =>
    refine Preserves.map (Repository.preserves_insertMany_of indexing (World.yields_draw plain)
      (fun documents known => ?_) datas declared) _
    refine preserves_backend_insertEach World.preserves_everywhere_reserve fun number => ?_
    refine World.preserves_everywhere_onContents (Contents.preserves_insertAll false fun x mem => ?_) _
    obtain ⟨d, mem, document⟩ := List.mem_map.1 (List.fst_mem_of_mem_zipIdx mem)
    obtain ⟨key, data, stripped, text, h, rfl⟩ := known d mem
    rw [← document]
    exact Contents.preserves_identified_insertKeyed (plain.named h text) _ _
  | update h clause data declared caller =>
    obtain ⟨known, spares⟩ := plain
    refine Repository.preserves_update_of indexing (fun filter patch stripped => ?_) clause declared
    obtain ⟨stored, hidden⟩ := known.avoids spares stripped
    exact preserves_backend_update (World.preserves_everywhere_onContents
      (fun _ before => Contents.identified_update before stored hidden) _)
  | delete h clause caller =>
    refine Repository.preserves_delete_of (fun filter => ?_) clause
    exact preserves_backend_delete (World.preserves_everywhere_onContents
      (Contents.preserves_identified_delete _ _) _)

def World.SameKeys (w v : World) : Prop :=
  ∀ store, (v.contents store).HasKeys fun name => (w.contents store).keys name

theorem World.preserves_sameKeys_onContents (w : World) {α : Type} {a : Action Contents α}
    (h : ∀ known, Preserves (Contents.HasKeys known) a) (store : String) :
    Preserves w.SameKeys (onContents store a) := by
  intro v before other
  by_cases same : other = store
  · subst same
    have after := h _ (v.contents other) (before other)
    rw [← contents_setContents_self other (a (v.contents other)).2 v] at after
    exact after
  · have kept := before other
    rw [← contents_setContents_of_ne same (a (v.contents store)).2 v] at kept
    exact kept

theorem preserves_sameKeys_update (w : World) (store : String) (h : Handle)
    (clause data declared : Value) (caller : Option SessionId) :
    Preserves w.SameKeys ((Request.update h clause data declared caller).perform store) := by
  have indexing : (backend store).PreservesIndexing w.SameKeys :=
    preservesIndexing_backend fun _ keys => w.preserves_sameKeys_onContents
      (fun known => Contents.preserves_keys_createIndex known keys true) store
  refine Repository.preserves_update_of indexing (fun filter patch _ => ?_) clause declared
  exact preserves_backend_update (w.preserves_sameKeys_onContents
    (fun known => Contents.preserves_keys_update known _ _) store)

/-! ## Runs -/

inductive Step
  | request (store : String) (r : Request)
  | event (e : Event)

namespace Step

def after (w : World) : Step → World
  | request store r => (r.perform store w).2
  | event e => e.after w

/-- Documents are only written through repositories that are known by one name. -/
def IsPlain (external : String) : Step → Prop
  | request _ r => r.IsPlain external
  | event (.write _ _ _) => False
  | event _ => True

theorem identified_after {s : Step} (plain : s.IsPlain external) {w : World}
    (h : w.Everywhere (Contents.Identified external)) :
    (s.after w).Everywhere (Contents.Identified external) := by
  cases s with
  | request store r => exact r.preserves_identified plain store w h
  | event e =>
    refine h.after fun store op caller written => ?_
    subst written
    exact plain.elim

end Step

namespace World

def runSteps (w : World) (steps : List Step) : World := steps.foldl Step.after w

theorem identified_runSteps {steps : List Step} (plain : ∀ s ∈ steps, s.IsPlain external)
    {w : World} (h : w.Everywhere (Contents.Identified external)) :
    (w.runSteps steps).Everywhere (Contents.Identified external) := by
  induction steps generalizing w with
  | nil => exact h
  | cons s rest ih =>
    obtain ⟨here, there⟩ := List.forall_mem_cons.1 plain
    exact ih there (Step.identified_after here h)

/-- After a run, every document is stored under the text that is its `_id`, without the name that
callers know it by, and a further update leaves every document its identifier. -/
theorem identifiers_of_runSteps (connected : Bool) {steps : List Step}
    (plain : ∀ s ∈ steps, s.IsPlain external) :
    let w := (empty connected).runSteps steps
    (∀ store name, ∀ r ∈ ((w.contents store).collection name).records,
      (∃ s, r.1 = .str s) ∧ r.2.lookup "_id" = some r.1 ∧ r.2.lookup external = none) ∧
    ∀ store h clause data declared caller,
      (Request.update h clause data declared caller).IsPlain external →
      let v := ((Request.update h clause data declared caller).perform store w).2
      ∀ store name, ((v.contents store).documents name).map (fun d => d.lookup "_id") =
        ((w.contents store).documents name).map fun d => d.lookup "_id" := by
  intro w
  have identified : w.Everywhere (Contents.Identified external) :=
    identified_runSteps plain (everywhere_empty Contents.identified_empty connected)
  refine ⟨fun store name r mem => ?_, ?_⟩
  · have record := identified.contents store name r mem
    exact ⟨record.text, record.stored, record.hidden⟩
  · intro store h clause data declared caller plain v other name
    have after := Request.preserves_identified plain store w identified
    have keys := preserves_sameKeys_update w store h clause data declared caller w
      (fun _ _ => rfl) other name
    rw [(after.contents other).map_lookup, (identified.contents other).map_lookup, keys]

def users : Handle where
  name := "users"
  keys := { draw := return .str "k1", keeps := Keeps.refl }

theorem users_isKnownBy : users.IsKnownBy "id" :=
  ⟨rfl, rfl, fun _ => ⟨fun _ => rfl, rfl, fun _ drawn => ⟨"k1", (Except.ok.inj drawn).symm⟩⟩⟩

def addAnn : Step := .request "main" (.insert users (.doc [("name", .str "Ann")]) .null none)

def renamed : Value := .doc [("_id", .str "k2"), ("name", .str "Bea")]

theorem identifiers_of_runSteps_addAnn :
    (∀ s ∈ [addAnn], s.IsPlain "id") ∧
      (Request.update users .null renamed .null none).IsPlain "id" ∧
      let w := (empty true).runSteps [addAnn]
      let v := ((Request.update users .null renamed .null none).perform "main" w).2
      ((v.contents "main").documents "users").map (fun d => d.lookup "name") =
          [some (.str "Bea")] ∧
        ((v.contents "main").documents "users").map (fun d => d.lookup "_id") =
          ((w.contents "main").documents "users").map fun d => d.lookup "_id" := by
  have plain : ∀ s ∈ [addAnn], s.IsPlain "id" := List.forall_mem_singleton.2 users_isKnownBy
  have spares : SparesIdentifiers "id" renamed := by
    intro fields same path mem
    obtain rfl := Value.doc.inj same
    rcases List.mem_cons.1 mem with rfl | mem
    · decide
    · obtain rfl := List.mem_singleton.1 mem
      decide
  have update : (Request.update users .null renamed .null none).IsPlain "id" :=
    ⟨users_isKnownBy, spares⟩
  obtain ⟨-, kept⟩ := identifiers_of_runSteps true plain
  exact ⟨plain, update, by with_unfolding_all rfl,
    kept "main" users .null renamed .null none update "main" "users"⟩

/-- Data that name a field inside of both identifiers. Neither name is passed over. -/
def replacing : Value :=
  .doc [("_id.x", .int 1), ("id.y", .int 2), ("name", .str "Bea")]

/-- Such an update leaves a document under a key that is no longer its identifier, with a field of
the name that callers know it by. -/
theorem identifier_replaced :
    users.IsKnownBy "id" ∧
      let w := (empty true).runSteps [addAnn]
      let v := w.runSteps [.request "main" (.update users .null replacing .null none)]
      ((w.contents "main").collection "users").records =
          [(.str "k1", [("_id", .str "k1"), ("name", .str "Ann")])] ∧
        ((v.contents "main").collection "users").records =
          [(.str "k1", [("_id", .doc [("x", .int 1)]), ("name", .str "Bea"),
            ("id", .doc [("y", .int 2)])])] :=
  ⟨users_isKnownBy, by with_unfolding_all rfl, by with_unfolding_all rfl⟩

end World
end Memory
end Docbase
