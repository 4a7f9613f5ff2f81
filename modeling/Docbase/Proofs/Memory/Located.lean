import Docbase.Proofs.Memory.Identified
import Docbase.Proofs.Pipeline.Lookup

/-!
# Documents found by their identifiers

A document that matches a text as its `_id` is stored under that text, whatever was done to it: a
patch may write inside of the identifier, and then the document matches no text at all, but none
can write another text to it. So nobody is found by the key of somebody else.
-/

namespace Docbase

theorem Filter.eq_of_isEqual_str {v : Value} {s : String} (hashable : v.hashable = true)
    (h : isEqual v (.str s) = true) : v = .str s := by
  cases v with
  | str t =>
    rw [Pipeline.isEqual_str, Pipeline.isKey, beq_iff_eq] at h
    rw [h]
  | list items => cases hashable
  | _ => cases h

theorem Document.isEqual_set {d : Document} {name path s : String} (other : path ≠ name)
    {v : Value} (h : Filter.isEqual (Value.field name (Document.set (Path.parts path) v d))
      (.str s) = true) : Filter.isEqual (Value.field name d) (.str s) = true := by
  by_cases inside : Path.first path = name
  · -- What was under the name is a document now.
    obtain ⟨next, rest, parts⟩ := Path.exists_parts_of_ne inside other
    rw [parts, Document.set, Value.field, Fields.lookup_set_self] at h
    · cases h
    · exact List.cons_ne_nil next rest
  · rwa [Value.field, Document.lookup_set_of_first_ne inside] at h

namespace Memory
open Docbase.Action (Preserves)

theorem Contents.isEqual_patched {name s : String} {patch : Document}
    (unnamed : name ∉ Fields.keys patch) (d : Document)
    (h : Filter.isEqual (Value.field name (patched d patch)) (.str s) = true) :
    Filter.isEqual (Value.field name d) (.str s) = true := by
  rw [patched] at h
  induction patch generalizing d with
  | nil => exact h
  | cons field rest ih =>
    obtain ⟨here, there⟩ := not_or.1 (mt List.mem_cons.2 unnamed)
    exact Document.isEqual_set (Ne.symm here) (ih there _ h)

def Located (r : Value × Document) : Prop :=
  ∀ s, Filter.isEqual (Value.field "_id" r.2) (.str s) = true → r.1 = .str s

namespace Collection

theorem field_recordOf (fallback : Value) (d : Document) :
    Value.field "_id" (recordOf fallback d).2 = (recordOf fallback d).1 := by
  cases found : d.lookup "_id" with
  | some key => simp [recordOf, Value.field, Fields.has, found]
  | none => simp [recordOf, Value.field, Fields.has, List.lookup_append, found]

theorem located_recordOf {fallback : Value} {d : Document}
    (hashable : (recordOf fallback d).1.hashable = true) : Located (recordOf fallback d) := by
  intro s matched
  rw [field_recordOf] at matched
  exact Filter.eq_of_isEqual_str hashable matched

end Collection

namespace Contents

theorem unnamed_of_foundIn {name : String} {patch : Document}
    (h : (Value.str name).foundIn (.doc patch) = .ok false) : name ∉ Fields.keys patch := by
  intro mem
  have absent : ((Fields.keys patch).any fun key => Value.same (.str key) (.str name)) = false :=
    Except.ok.inj h
  have self : Value.same (.str name) (.str name) = true := Value.same_self rfl
  rw [List.any_eq_false] at absent
  exact absent name mem self

theorem preserves_located_insertKeyed (name : String) (number : Nat) (document : Value) :
    Preserves (EachRecord Located) (insertKeyed name number document) := by
  cases document with
  | doc d =>
    exact preserves_each_insertKeyed (fun _ => Collection.located_recordOf) name number
  | _ => exact Action.preserves_throw _

theorem preserves_located_update (name : String) (filter patch : Value) :
    Preserves (EachRecord Located) (update name filter patch) := by
  intro contents before
  refine each_update before fun fields patch_eq unnamed r mem key _ _ same s matched => ?_
  subst patch_eq
  have located : r.1 = .str s := before name r mem s
    (isEqual_patched (unnamed_of_foundIn unnamed) r.2 matched)
  rw [located] at same
  exact eq_of_same_str same

end Contents

open Contents

theorem Write.preserves_located (op : Write) (number : Nat) :
    Preserves (EachRecord Located) (op.change number) :=
  preserves_of (fun name number document _ => preserves_located_insertKeyed name number document)
    (fun name filter patch _ => preserves_located_update name filter patch)
    preserves_each_delete (fun name keys unique _ => preserves_each_createIndex name keys unique)
    (fun _ _ before => before.put nofun) (fun _ => eachRecord_empty) number

end Memory
end Docbase
