import Docbase.Proofs.Memory.Records
import Docbase.Proofs.Memory.Everywhere
import Docbase.Proofs.Path

/-!
# Records under the identifiers of their documents

Records whose documents have their keys as `_id`, and no field of the name that callers know the
key by. Documents that come with both are refused nothing, so this is up to those who insert them;
the store keeps it up as long as no patch names a path inside of either.
-/

namespace Docbase.Memory
open Docbase.Action (Preserves)

variable {external : String}

/-- A record under a text that its document has as `_id`, and has nothing under the external name. -/
structure Identified (external : String) (r : Value × Document) : Prop where
  text : ∃ s, r.1 = .str s
  stored : r.2.lookup "_id" = some r.1
  hidden : r.2.lookup external = none

structure Named (external : String) (d : Document) : Prop where
  stored : ∃ s, d.lookup "_id" = some (.str s)
  hidden : d.lookup external = none

theorem Named.recordOf {d : Document} (h : Named external d) (fallback : Value) :
    Identified external (Collection.recordOf fallback d) := by
  obtain ⟨s, stored⟩ := h.stored
  have has : Fields.has "_id" d = true := by rw [Fields.has, stored, Option.isSome_some]
  rw [Collection.recordOf, has, stored]
  exact ⟨⟨s, rfl⟩, stored, h.hidden⟩

def Avoids (name : String) (patch : Document) : Prop :=
  ∀ path ∈ Fields.keys patch, Path.first path ≠ name

theorem lookup_patched {name : String} {patch : Document} (avoids : Avoids name patch)
    (d : Document) : (Contents.patched d patch).lookup name = d.lookup name := by
  rw [Contents.patched]
  induction patch generalizing d with
  | nil => rfl
  | cons field rest ih =>
    obtain ⟨here, there⟩ := List.forall_mem_cons.1 avoids
    rw [List.foldl_cons, ih there]
    exact Document.lookup_set_of_first_ne here _

theorem eq_of_same_str {v : Value} {s : String} (h : Value.same v (.str s) = true) :
    v = .str s := by
  cases v with
  | str t => rw [(eq_of_beq h : t = s)]
  | double x => simp [Value.same, Value.sameScalar, Value.numeral?] at h
  | _ => cases h

theorem Identified.patch {key : Value} {d patch : Document} (h : Identified external (key, d))
    (stored : Avoids "_id" patch) (hidden : Avoids external patch) :
    Identified external (key, Contents.patched d patch) :=
  ⟨h.text, (lookup_patched stored d).trans h.stored, (lookup_patched hidden d).trans h.hidden⟩

namespace Contents

def Identified (external : String) (contents : Contents) : Prop :=
  ∀ name, ∀ r ∈ (contents.collection name).records, Memory.Identified external r

variable {name : String} {contents : Contents}

theorem identified_empty : Identified external {} := eachRecord_empty

theorem preserves_identified_insertKeyed {d : Document} (named : Named external d)
    (name : String) (number : Nat) :
    Preserves (Identified external) (insertKeyed name number (.doc d)) :=
  preserves_each_insertKeyed (fun fallback _ => named.recordOf fallback) name number

theorem identified_update {filter : Value} {patch : Document} (h : contents.Identified external)
    (stored : Avoids "_id" patch) (hidden : Avoids external patch) :
    (update name filter (.doc patch) contents).2.Identified external := by
  refine each_update h fun fields same _ r mem key old _ same' => ?_
  obtain rfl := Value.doc.inj same
  have listed := h name r mem
  obtain ⟨s, text⟩ := listed.text
  have key_eq : key = r.1 := by
    rw [text] at same' ⊢
    exact eq_of_same_str same'
  rw [key_eq]
  exact listed.patch stored hidden

theorem preserves_identified_delete (name : String) (filter : Value) :
    Preserves (Identified external) (delete name filter) := preserves_each_delete name filter

/-! ## Keys -/

def keys (name : String) (contents : Contents) : List Value :=
  (contents.collection name).records.map (·.1)

theorem Identified.map_lookup (h : contents.Identified external) (name : String) :
    (contents.documents name).map (fun d => d.lookup "_id") = (contents.keys name).map some := by
  rw [documents, Collection.documents, keys, List.map_map, List.map_map]
  exact List.map_congr_left fun r mem => (h name r mem).stored

def HasKeys (known : String → List Value) (contents : Contents) : Prop :=
  ∀ name, contents.keys name = known name

theorem HasKeys.put {known : String → List Value} (h : contents.HasKeys known) {c : Collection}
    (same : c.records.map (·.1) = contents.keys name) : (contents.put name c).HasKeys known := by
  intro other
  rw [← h other]
  by_cases there : other = name
  · subst there
    rw [keys, collection_put_self, same]
  · rw [keys, collection_put_of_ne there, keys]

/-- An update leaves every record under its key, also if it fails halfway. -/
theorem preserves_keys_update (known : String → List Value) (filter patch : Value) :
    Preserves (HasKeys known) (update name filter patch) := by
  intro contents before
  refine update_of_records before fun r _ => preserves_updateRecord ?_
  intro contents' fields _ same _
  exact same.put (Collection.keys_replaceIn r.1 _ _)

/-! ## Indexes -/

theorem preserves_identified_createIndex (keys : List Value) (unique : Bool) :
    Preserves (Identified external) (createIndex name keys unique) :=
  preserves_each_createIndex name keys unique

theorem preserves_keys_createIndex (known : String → List Value) (keys : List Value)
    (unique : Bool) : Preserves (HasKeys known) (createIndex name keys unique) :=
  preserves_createIndex_of (fun _ _ before same => before.put (congrArg (List.map (·.1)) same))
    keys unique

/-! ## Some identifier -/

theorem has_patched {d : Document} (h : Fields.has name d = true) (patch : Document) :
    Fields.has name (patched d patch) = true := by
  rw [patched]
  induction patch generalizing d with
  | nil => exact h
  | cons field rest ih => exact ih (Document.has_set h _ _)

/-- Every record keeps a document with an `_id`, whatever was inserted and whatever became of it. -/
def EachNamed : Contents → Prop := EachRecord fun r => Fields.has "_id" r.2 = true

theorem preserves_eachNamed_insertKeyed (name : String) (number : Nat) (document : Value) :
    Preserves EachNamed (insertKeyed name number document) := by
  cases document with
  | doc d =>
    refine preserves_each_insertKeyed (fun fallback _ => ?_) name number
    rw [Collection.recordOf]
    split
    · assumption
    · rw [Fields.has_iff, Fields.keys, List.map_append]
      exact List.mem_append_right _ List.mem_cons_self
  | _ => exact Action.preserves_throw _

theorem preserves_eachNamed_update (name : String) (filter patch : Value) :
    Preserves EachNamed (update name filter patch) := fun _ before =>
  each_update before fun fields _ _ r mem _ _ _ _ => has_patched (before name r mem) fields

end Contents

theorem Write.preserves_eachNamed (op : Write) (number : Nat) :
    Preserves Contents.EachNamed (op.change number) :=
  preserves_of (fun name number document _ =>
      Contents.preserves_eachNamed_insertKeyed name number document)
    (fun name filter patch _ => Contents.preserves_eachNamed_update name filter patch)
    Contents.preserves_each_delete
    (fun name keys unique _ => Contents.preserves_each_createIndex name keys unique)
    (fun _ _ before => before.put nofun) (fun _ => Contents.eachRecord_empty) number

/-- All documents that a run leads to have an `_id`. -/
theorem World.has_identifier_of_replay (connected : Bool) (events : List Event)
    (store name : String) :
    ∀ d ∈ (((World.empty connected).replay events).contents store).documents name,
      Fields.has "_id" d = true := by
  have everywhere : ((World.empty connected).replay events).Everywhere Contents.EachNamed :=
    replay_preserves
      (fun _ _ (_ : True) h => h.after fun _ op _ _ => op.preserves_eachNamed)
      (fun _ _ => trivial) (everywhere_empty Contents.eachRecord_empty connected)
  intro d mem
  obtain ⟨r, there, rfl⟩ := List.mem_map.1 mem
  exact everywhere.contents store name r there

end Docbase.Memory
