import Docbase.Memory.Collection
import Docbase.Proofs.Action
import Docbase.Proofs.Value.Proper
import Mathlib.Data.List.Pairwise

/-!
# Consistent collections

A collection is consistent if its keys differ and no unique index has two documents with one entry.
-/

namespace Docbase.Memory

/-! ## Entries -/

namespace Index

def Apart (keys : List String) (d e : Document) : Prop :=
  ∀ x y, entryOf keys d = .ok x → entryOf keys e = .ok y → Value.sameItems x y = false

theorem entryOf_areProper {keys : List String} {d : Document} {entry : List Value}
    (h : d.Proper) (run : entryOf keys d = .ok entry) : Value.areProper entry = true := by
  rw [Value.areProper_iff]
  intro v mem
  obtain ⟨key, -, read⟩ := Except.mem_of_mapM_ok run v mem
  rw [Except.bind_eq_ok] at read
  obtain ⟨w, found, read⟩ := read
  obtain rfl := Except.pure_eq_ok.1 read
  exact Value.entry_isProper (Value.follow_isProper (Value.isProper_doc.2 h) found)

theorem Apart.symm {keys : List String} {d e : Document} (hd : d.Proper) (he : e.Proper)
    (h : Apart keys d e) : Apart keys e d := by
  intro x y hx hy
  rw [Value.sameItems_comm (entryOf_areProper he hx) (entryOf_areProper hd hy)]
  exact h y x hy hx

end Index

/-- Every record has an entry under some keys, and no two have the same. -/
structure Enforced (keys : List String) (records : List (Value × Document)) : Prop where
  indexed : ∀ r ∈ records, ∃ entry, Index.entryOf keys r.2 = .ok entry
  apart : records.Pairwise fun r s => Index.Apart keys r.2 s.2

theorem Enforced.concat {keys : List String} {records : List (Value × Document)}
    {r : Value × Document} {entry : List Value} (h : Enforced keys records)
    (read : Index.entryOf keys r.2 = .ok entry)
    (differs : ∀ s ∈ records, ∃ e, Index.entryOf keys s.2 = .ok e ∧
      Value.sameItems e entry = false) : Enforced keys (records ++ [r]) where
  indexed s mem := by
    rcases List.mem_append.1 mem with mem | mem
    · exact h.indexed s mem
    · obtain rfl := List.mem_singleton.1 mem
      exact ⟨entry, read⟩
  apart := by
    refine List.pairwise_append.2 ⟨h.apart, List.pairwise_singleton _ _, ?_⟩
    intro s mem t mem' x y hx hy
    obtain rfl := List.mem_singleton.1 mem'
    obtain ⟨e, there, differs⟩ := differs s mem
    obtain rfl := Except.ok.inj (there.symm.trans hx)
    obtain rfl := Except.ok.inj (read.symm.trans hy)
    exact differs

theorem Enforced.replace {keys : List String} {key : Value} {old new : Document}
    {before after : List (Value × Document)} {entry : List Value}
    (h : Enforced keys (before ++ (key, old) :: after))
    (proper : ∀ r ∈ after, Document.Proper r.2) (hn : new.Proper)
    (read : Index.entryOf keys new = .ok entry)
    (differs : ∀ s ∈ before ++ after, ∃ e, Index.entryOf keys s.2 = .ok e ∧
      Value.sameItems e entry = false) :
    Enforced keys (before ++ (key, new) :: after) := by
  have apart : ∀ s ∈ before ++ after, Index.Apart keys s.2 new := by
    intro s mem x y hx hy
    obtain ⟨e, there, differs⟩ := differs s mem
    obtain rfl := Except.ok.inj (there.symm.trans hx)
    obtain rfl := Except.ok.inj (read.symm.trans hy)
    exact differs
  obtain ⟨indexed, pairs⟩ := h
  rw [List.pairwise_append, List.pairwise_cons] at pairs
  obtain ⟨left, ⟨-, right⟩, across⟩ := pairs
  constructor
  · intro r mem
    rcases List.mem_append.1 mem with mem | mem
    · exact indexed r (List.mem_append_left _ mem)
    · rcases List.mem_cons.1 mem with rfl | mem
      · exact ⟨entry, read⟩
      · exact indexed r (List.mem_append_right _ (List.mem_cons_of_mem _ mem))
  · rw [List.pairwise_append, List.pairwise_cons]
    refine ⟨left, ⟨?_, right⟩, ?_⟩
    · intro r mem
      exact (apart r (List.mem_append_right _ mem)).symm (proper r mem) hn
    · intro r mem s mem'
      rcases List.mem_cons.1 mem' with rfl | mem'
      · exact apart r (List.mem_append_left _ mem)
      · exact across r mem s (List.mem_cons_of_mem _ mem')

namespace Collection

structure IsTable (c : Collection) : Prop where
  keys : c.records.Pairwise fun r s => Value.same r.1 s.1 = false
  hashable : ∀ r ∈ c.records, r.1.hashable = true

/-- The keys of the records differ, the documents are proper, and the unique indexes are enforced. -/
structure Consistent (c : Collection) : Prop where
  keys : c.records.Pairwise fun r s => Value.same r.1 s.1 = false
  hashable : ∀ r ∈ c.records, r.1.hashable = true
  proper : ∀ r ∈ c.records, Document.Proper r.2
  enforced : ∀ i ∈ c.indexes, i.2.unique = true → Enforced i.2.keys c.records

theorem Consistent.isTable {c : Collection} (h : c.Consistent) : c.IsTable := ⟨h.keys, h.hashable⟩

theorem Consistent.apart {c : Collection} (h : c.Consistent) {i : String × Index}
    (mem : i ∈ c.indexes) (unique : i.2.unique = true) {r s : Value × Document}
    (hr : r ∈ c.records) (hs : s ∈ c.records) (keys : Value.same r.1 s.1 = false) :
    Index.Apart i.2.keys r.2 s.2 := by
  have differ : r ≠ s := by
    rintro rfl
    rw [Value.same_self (h.hashable r hr)] at keys
    cases keys
  let R (r s : Value × Document) : Prop :=
    Index.Apart i.2.keys r.2 s.2 ∧ Index.Apart i.2.keys s.2 r.2
  have symm : Std.Symm R := ⟨fun _ _ h => ⟨h.2, h.1⟩⟩
  have apart : c.records.Pairwise R :=
    (h.enforced i mem unique).apart.imp_of_mem fun hr hs apart =>
      ⟨apart, apart.symm (h.proper _ hr) (h.proper _ hs)⟩
  exact (apart.forall hr hs differ).1

theorem consistent_empty : Consistent {} where
  keys := List.Pairwise.nil
  hashable _ mem := absurd mem List.not_mem_nil
  proper _ mem := absurd mem List.not_mem_nil
  enforced _ mem := absurd mem List.not_mem_nil

/-! ## What the checks have checked -/

theorem checkEntry_eq_ok {name index : String} {keys : List String} {entry : List Value}
    {ignored : Option Value} {records : List (Value × Document)} :
    checkEntry name index keys entry ignored records = .ok () ↔
      ∀ r ∈ records, ignored.any (Value.equals r.1) = false →
        ∃ e, Index.entryOf keys r.2 = .ok e ∧ Value.sameItems e entry = false := by
  induction records with
  | nil => exact ⟨fun _ _ mem => absurd mem List.not_mem_nil, fun _ => rfl⟩
  | cons r rest ih =>
    rw [List.forall_mem_cons, ← ih, checkEntry]
    cases skip : ignored.any (Value.equals r.1) with
    | true => simp only [if_true, Bool.true_eq_false, false_imp_iff, true_and]
    | false =>
      rw [if_neg Bool.false_ne_true, Except.bind_eq_ok]
      simp only [Except.liftMisuse_eq_ok, Except.if_throw_eq_ok, Bool.not_eq_true, true_imp_iff]
      constructor
      · rintro ⟨e, read, differs, others⟩
        exact ⟨⟨e, read, differs⟩, others⟩
      · rintro ⟨⟨e, read, differs⟩, others⟩
        exact ⟨e, read, differs, others⟩

/-- A document passes if it has an entry in each unique index that is not the entry of any other
document. -/
theorem checkUnique_eq_ok {name : String} {d : Document} {ignored : Option Value}
    {c : Collection} :
    c.checkUnique name d ignored = .ok () ↔
      ∀ i ∈ c.indexes, i.2.unique = true → ∃ entry, Index.entryOf i.2.keys d = .ok entry ∧
        ∀ r ∈ c.records, ignored.any (Value.equals r.1) = false →
          ∃ e, Index.entryOf i.2.keys r.2 = .ok e ∧ Value.sameItems e entry = false := by
  unfold checkUnique
  rw [Except.forM_eq_ok]
  refine forall_congr' fun ⟨indexName, index⟩ => forall_congr' fun _ => ?_
  cases unique : index.unique with
  | true =>
    simp only [unique, if_true, Except.bind_eq_ok, Except.liftMisuse_eq_ok, checkEntry_eq_ok,
      true_imp_iff]
  | false =>
    simp only [unique, Bool.false_eq_true, if_false, false_imp_iff, iff_true]
    rfl

/-! ## Inserting -/

/-- The record that an inserted document becomes: its key and, if it came without one, the key in
its field. -/
def recordOf (fallback : Value) (d : Document) : Value × Document :=
  let key := (d.lookup "_id").getD fallback
  (key, if Fields.has "_id" d then d else d ++ [("_id", key)])

theorem insert_eq_ok {name : String} {fallback key : Value} {d : Document} {c c' : Collection} :
    c.insert name fallback d = .ok (key, c') ↔
      (recordOf fallback d).1.hashable = true ∧ c.hasKey (recordOf fallback d).1 = false ∧
        c.checkUnique name (recordOf fallback d).2 none = .ok () ∧ key = (recordOf fallback d).1 ∧
        c' = { c with records := c.records ++ [recordOf fallback d] } := by
  unfold insert
  simp only [Except.unless_throw_eq_ok, Except.if_throw_eq_ok, Except.bind_eq_ok,
    Except.pure_eq_ok, Bool.not_eq_true, Prod.mk.injEq]
  refine and_congr_right fun _ => and_congr_right fun _ => ?_
  constructor
  · rintro ⟨_, checked, rfl, rfl⟩
    exact ⟨checked, rfl, rfl⟩
  · rintro ⟨checked, rfl, rfl⟩
    exact ⟨(), checked, rfl, rfl⟩

theorem recordOf_proper {fallback : Value} {d : Document} (hf : fallback.isProper = true)
    (hd : d.Proper) : (recordOf fallback d).2.Proper := by
  simp only [recordOf]
  split
  · exact hd
  · rename_i absent
    rw [Fields.has_iff] at absent
    have none : d.lookup "_id" = none := Fields.lookup_eq_none_iff.2 absent
    rw [none, Option.getD_none]
    constructor
    · rw [Fields.keys, List.map_append]
      refine List.nodup_append.2 ⟨hd.nodup, List.nodup_singleton _, ?_⟩
      intro a ha b hb eq
      have name : a = "_id" := eq.trans (List.mem_singleton.1 hb)
      exact absent (name ▸ ha)
    · intro f mem
      rcases List.mem_append.1 mem with mem | mem
      · exact hd.values f mem
      · obtain rfl := List.mem_singleton.1 mem
        exact hf

theorem IsTable.insert {name : String} {fallback key : Value} {d : Document} {c c' : Collection}
    (h : c.IsTable) (run : c.insert name fallback d = .ok (key, c')) : c'.IsTable := by
  obtain ⟨hashable, fresh, -, rfl, rfl⟩ := insert_eq_ok.1 run
  constructor
  · refine List.pairwise_append.2 ⟨h.keys, List.pairwise_singleton _ _, ?_⟩
    intro r mem s mem'
    obtain rfl := List.mem_singleton.1 mem'
    exact Bool.eq_false_iff.2 (List.any_eq_false.1 fresh r mem)
  · intro r mem
    rcases List.mem_append.1 mem with mem | mem
    · exact h.hashable r mem
    · obtain rfl := List.mem_singleton.1 mem
      exact hashable

theorem Consistent.insert {name : String} {fallback key : Value} {d : Document}
    {c c' : Collection} (h : c.Consistent) (hf : fallback.isProper = true) (hd : d.Proper)
    (run : c.insert name fallback d = .ok (key, c')) : c'.Consistent := by
  have table := h.isTable.insert run
  obtain ⟨hashable, fresh, checked, rfl, rfl⟩ := insert_eq_ok.1 run
  refine ⟨table.keys, table.hashable, ?_, ?_⟩
  · intro r mem
    rcases List.mem_append.1 mem with mem | mem
    · exact h.proper r mem
    · obtain rfl := List.mem_singleton.1 mem
      exact recordOf_proper hf hd
  · intro i mem unique
    obtain ⟨entry, read, others⟩ := checkUnique_eq_ok.1 checked i mem unique
    exact (h.enforced i mem unique).concat read fun s mem => others s mem rfl

/-! ## Replacing -/

theorem keys_replaceIn (key : Value) (d : Document) (records : List (Value × Document)) :
    (replaceIn key d records).map (·.1) = records.map (·.1) := by
  induction records with
  | nil => rfl
  | cons r rest ih =>
    obtain ⟨k, old⟩ := r
    rw [replaceIn]
    split
    · rfl
    · rw [List.map_cons, List.map_cons, ih]

theorem replaceIn_append {key : Value} {old new : Document}
    {before after : List (Value × Document)}
    (others : ∀ r ∈ before, Value.same r.1 key = false) (self : Value.same key key = true) :
    replaceIn key new (before ++ (key, old) :: after) = before ++ (key, new) :: after := by
  induction before with
  | nil => rw [List.nil_append, List.nil_append, replaceIn, if_pos self]
  | cons r rest ih =>
    obtain ⟨k, d⟩ := r
    obtain ⟨here, there⟩ := List.forall_mem_cons.1 others
    rw [List.cons_append, List.cons_append, replaceIn, if_neg (Bool.eq_false_iff.1 here),
      ih there]

theorem Consistent.replace {name : String} {key : Value} {new : Document} {c : Collection}
    (h : c.Consistent) (mem : key ∈ c.records.map (·.1)) (hn : new.Proper)
    (checked : c.checkUnique name new (some key) = .ok ()) : (c.replace key new).Consistent := by
  obtain ⟨old, there⟩ : ∃ old, (key, old) ∈ c.records := by
    obtain ⟨⟨_, old⟩, there, rfl⟩ := List.mem_map.1 mem
    exact ⟨old, there⟩
  obtain ⟨before, after, split⟩ := List.append_of_mem there
  have hashable := h.hashable _ there
  have keys := h.keys
  rw [split, List.pairwise_append, List.pairwise_cons] at keys
  obtain ⟨-, ⟨behind, -⟩, across⟩ := keys
  have ahead : ∀ r ∈ before, Value.same r.1 key = false := fun r mem =>
    across r mem _ List.mem_cons_self
  have others : ∀ r ∈ before ++ after, r ∈ c.records := by
    intro r mem
    rw [split]
    exact (List.mem_append.1 mem).elim (List.mem_append_left _)
      fun mem => List.mem_append_right _ (List.mem_cons_of_mem _ mem)
  -- The records that the check has skipped are those with the key, which is but one.
  have compared : ∀ r ∈ before ++ after, (some key).any (Value.equals r.1) = false := by
    intro r mem
    have differs : Value.same r.1 key = false := by
      rcases List.mem_append.1 mem with inFront | mem'
      · exact ahead r inFront
      · rw [Value.same_comm (Value.isProper_of_hashable (h.hashable r (others r mem)))
          (Value.isProper_of_hashable hashable)]
        exact behind r mem'
    rw [Option.any_some, Value.equals, differs, Bool.and_false]
  have records : (c.replace key new).records = before ++ (key, new) :: after := by
    rw [Collection.replace, split]
    exact replaceIn_append ahead (Value.same_self hashable)
  have cases : ∀ r ∈ (c.replace key new).records, r ∈ c.records ∨ r = (key, new) := by
    intro r mem
    rw [records] at mem
    rcases List.mem_append.1 mem with mem | mem
    · exact .inl (others r (List.mem_append_left _ mem))
    · rcases List.mem_cons.1 mem with rfl | mem
      · exact .inr rfl
      · exact .inl (others r (List.mem_append_right _ mem))
  constructor
  · have differ := h.keys
    rw [← List.pairwise_map (f := Prod.fst) (R := fun k l => Value.same k l = false)] at differ ⊢
    rwa [Collection.replace, keys_replaceIn]
  · intro r mem
    rcases cases r mem with mem | rfl
    · exact h.hashable r mem
    · exact hashable
  · intro r mem
    rcases cases r mem with mem | rfl
    · exact h.proper r mem
    · exact hn
  · intro i mem unique
    obtain ⟨entry, read, differs⟩ := checkUnique_eq_ok.1 checked i mem unique
    rw [records]
    have enforced := h.enforced i mem unique
    rw [split] at enforced
    refine enforced.replace ?_ hn read ?_
    · exact fun r mem => h.proper r (others r (List.mem_append_right _ mem))
    · exact fun r mem => differs r (others r mem) (compared r mem)

/-! ## Removing -/

theorem Consistent.sublist {c : Collection} {records : List (Value × Document)}
    (h : c.Consistent) (kept : records.Sublist c.records) :
    Consistent { c with records } where
  keys := h.keys.sublist kept
  hashable r mem := h.hashable r (kept.subset mem)
  proper r mem := h.proper r (kept.subset mem)
  enforced i mem unique :=
    ⟨fun r mem' => (h.enforced i mem unique).indexed r (kept.subset mem'),
      (h.enforced i mem unique).apart.sublist kept⟩

theorem Consistent.remove {c : Collection} (h : c.Consistent) (keys : List Value) :
    (c.remove keys).Consistent := h.sublist List.filter_sublist

/-! ## Adding an index -/

theorem checkDistinct_eq_ok {name index : String} {keys : List String}
    {seen : List (List Value)} {docs : List Document}
    (run : checkDistinct name index keys seen docs = .ok ()) :
    (∀ d ∈ docs, ∃ entry, Index.entryOf keys d = .ok entry ∧
      ∀ e ∈ seen, Value.sameItems entry e = false) ∧
    docs.Pairwise fun d e => Index.Apart keys e d := by
  induction docs generalizing seen with
  | nil => exact ⟨fun _ mem => absurd mem List.not_mem_nil, List.Pairwise.nil⟩
  | cons d rest ih =>
    simp only [checkDistinct, Except.bind_eq_ok, Except.liftMisuse_eq_ok,
      Except.unless_throw_eq_ok, Except.if_throw_eq_ok, Bool.not_eq_true] at run
    obtain ⟨entry, read, -, fresh, run⟩ := run
    obtain ⟨others, pairs⟩ := ih run
    refine ⟨List.forall_mem_cons.2 ⟨⟨entry, read, ?_⟩, ?_⟩, List.pairwise_cons.2 ⟨?_, pairs⟩⟩
    · exact fun e mem => Bool.eq_false_iff.2 (List.any_eq_false.1 fresh e mem)
    · intro d' mem
      obtain ⟨entry', read', differs⟩ := others d' mem
      exact ⟨entry', read', fun e mem => differs e (List.mem_cons_of_mem _ mem)⟩
    · intro d' mem x y hx hy
      obtain ⟨entry', read', differs⟩ := others d' mem
      obtain rfl := Except.ok.inj (read'.symm.trans hx)
      obtain rfl := Except.ok.inj (read.symm.trans hy)
      exact differs entry List.mem_cons_self

theorem checkDistinct_of_apart {name index : String} {keys : List String}
    {seen : List (List Value)} {docs : List Document}
    (each : ∀ d ∈ docs, ∃ entry, Index.entryOf keys d = .ok entry ∧
      Value.hashableItems entry = true ∧ ∀ e ∈ seen, Value.sameItems entry e = false)
    (apart : docs.Pairwise fun d e => Index.Apart keys e d) :
    checkDistinct name index keys seen docs = .ok () := by
  induction docs generalizing seen with
  | nil => rfl
  | cons d rest ih =>
    obtain ⟨⟨entry, read, hashable, fresh⟩, others⟩ := List.forall_mem_cons.1 each
    obtain ⟨behind, apart⟩ := List.pairwise_cons.1 apart
    have unseen : seen.any (Value.sameItems entry) = false := by simpa using fresh
    have later : checkDistinct name index keys (entry :: seen) rest = .ok () := by
      refine ih (fun d' mem => ?_) apart
      obtain ⟨entry', read', hashable', fresh'⟩ := others d' mem
      have new := behind d' mem entry' entry read' read
      exact ⟨entry', read', hashable', List.forall_mem_cons.2 ⟨new, fresh'⟩⟩
    simp only [checkDistinct, Except.bind_eq_ok, Except.liftMisuse_eq_ok,
      Except.unless_throw_eq_ok, Except.if_throw_eq_ok, Bool.not_eq_true]
    exact ⟨entry, read, hashable, unseen, later⟩

theorem addIndex_eq_ok {name indexName : String} {keys : List String} {unique : Bool}
    {c c' : Collection} :
    c.addIndex name keys unique = .ok (indexName, c') ↔
      c.indexOver keys = none ∧
        (unique = true → checkDistinct name (Index.nameOf keys) keys [] c.documents = .ok ()) ∧
        indexName = Index.nameOf keys ∧
        c' = { c with indexes := Fields.set (Index.nameOf keys) { keys, unique } c.indexes } := by
  unfold addIndex
  cases c.indexOver keys with
  | some index =>
    simp only [reduceCtorEq, false_and, iff_false]
    split <;> exact nofun
  | none =>
    cases unique with
    | true =>
      simp only [if_true, Except.bind_eq_ok, Except.pure_eq_ok, Prod.mk.injEq, true_and,
        true_imp_iff]
      constructor
      · rintro ⟨_, checked, rfl, rfl⟩
        exact ⟨checked, rfl, rfl⟩
      · rintro ⟨checked, rfl, rfl⟩
        exact ⟨(), checked, rfl, rfl⟩
    | false =>
      simp only [Bool.false_eq_true, if_false, Except.pure_eq_ok, Prod.mk.injEq, true_and,
        false_imp_iff]
      exact ⟨fun ⟨h, h'⟩ => ⟨h.symm, h'.symm⟩, fun ⟨h, h'⟩ => ⟨h.symm, h'.symm⟩⟩

theorem Consistent.addIndex {name indexName : String} {keys : List String} {unique : Bool}
    {c c' : Collection} (h : c.Consistent)
    (run : c.addIndex name keys unique = .ok (indexName, c')) : c'.Consistent := by
  obtain ⟨-, checked, rfl, rfl⟩ := addIndex_eq_ok.1 run
  refine ⟨h.keys, h.hashable, h.proper, ?_⟩
  intro i mem isUnique
  rcases Fields.mem_set mem with mem | rfl
  · exact h.enforced i mem isUnique
  · obtain ⟨indexed, apart⟩ := checkDistinct_eq_ok (checked isUnique)
    constructor
    · intro r mem
      obtain ⟨entry, read, -⟩ := indexed r.2 (List.mem_map_of_mem mem)
      exact ⟨entry, read⟩
    · rw [documents, List.pairwise_map] at apart
      exact apart.imp_of_mem fun mem mem' apart => apart.symm (h.proper _ mem') (h.proper _ mem)

end Collection
end Docbase.Memory
