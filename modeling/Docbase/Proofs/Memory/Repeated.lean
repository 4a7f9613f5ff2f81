import Docbase.Proofs.Memory.Backend
import Docbase.Proofs.Memory.WholeUpdate
import Mathlib.Algebra.Order.BigOperators.Group.List
import Mathlib.Algebra.Order.Group.Nat

/-!
# Updates made twice

The paths of a patch may go on from each other, so a write may take back what one before it has
written. Written once more from the first to the last, they still come to the same document: behind
each field there are shorter paths, of which the same is true, unless the field is written itself,
and then nothing that it held before matters.

* `Document.writeAll_writeAll`: writes at paths, made a second time.
* `Contents.changes_revised`: what an update leaves, the same update does not change.
* `World.update_again`: a second update replaces nothing.
-/

namespace Docbase

open Memory.Contents (patched)

namespace Fields

variable {α : Type _} {fields others : List (String × α)}

theorem ext_lookup (nodup : (keys fields).Nodup) (names : keys fields = keys others)
    (values : ∀ key, fields.lookup key = others.lookup key) : fields = others := by
  have pairs (fields : List (String × α)) (nodup : (keys fields).Nodup) :
      fields.map (fun field => (field.1, some field.2)) =
        (keys fields).map fun key => (key, fields.lookup key) := by
    rw [keys, List.map_map]
    refine List.map_congr_left fun field mem => ?_
    rw [Function.comp_apply, lookup_of_mem nodup mem]
  have injective : Function.Injective fun field : String × α => (field.1, some field.2) := by
    rintro ⟨k, v⟩ ⟨l, w⟩ same
    simpa using same
  apply injective.list_map
  rw [pairs fields nodup, pairs others (names ▸ nodup), names]
  simp only [values]

end Fields

namespace Document

abbrev Writes := List (List String × Value)

variable {writes : Writes} {d e : Document} {key : String} {u : Option Value}

def writeAll (writes : Writes) (d : Document) : Document :=
  writes.foldl (fun d write => Document.set write.1 write.2 d) d

def behind (key : String) (writes : Writes) : Writes :=
  writes.filterMap fun
    | (first :: rest, v) => if first = key then some (rest, v) else none
    | ([], _) => none

def fieldsOf : Option Value → Document
  | some (.doc fields) => fields
  | _ => []

def overwrite (u : Option Value) : List String × Value → Option Value
  | ([], v) => some v
  | (next :: rest, v) => some (.doc (Document.set (next :: rest) v (fieldsOf u)))

/-! ## One field -/

theorem lookup_set_self (rest : List String) (v : Value) (d : Document) :
    (Document.set (key :: rest) v d).lookup key = overwrite (d.lookup key) (rest, v) := by
  cases rest with
  | nil => exact Fields.lookup_set_self key v d
  | cons next rest =>
    rw [set_cons_cons, Fields.lookup_set_self]
    rfl

theorem lookup_writeAll (key : String) (writes : Writes) (d : Document) :
    (writeAll writes d).lookup key = (behind key writes).foldl overwrite (d.lookup key) := by
  induction writes generalizing d with
  | nil => rfl
  | cons write rest ih =>
    rw [writeAll, List.foldl_cons]
    refine (ih _).trans ?_
    rcases write with ⟨_ | ⟨first, parts⟩, v⟩
    · rfl
    · by_cases same : first = key
      · subst same
        rw [lookup_set_self, behind, behind, List.filterMap_cons]
        simp
      · rw [lookup_set_of_ne (Ne.symm same), behind, behind, List.filterMap_cons]
        simp [same]

theorem overwrite_of_replaced (replaced : ∃ v, ([], v) ∈ writes) (t u : Option Value) :
    writes.foldl overwrite t = writes.foldl overwrite u := by
  induction writes generalizing t u with
  | nil =>
    obtain ⟨v, mem⟩ := replaced
    cases mem
  | cons write rest ih =>
    rcases write with ⟨_ | ⟨next, parts⟩, v⟩
    · rfl
    · obtain ⟨w, mem⟩ := replaced
      have later : ([], w) ∈ rest := by simpa using mem
      exact ih ⟨w, later⟩ _ _

theorem overwrite_of_kept (kept : ∀ write ∈ writes, write.1 ≠ []) (written : writes ≠ [])
    (u : Option Value) : writes.foldl overwrite u = some (.doc (writeAll writes (fieldsOf u))) := by
  induction writes generalizing u with
  | nil => exact absurd rfl written
  | cons write rest ih =>
    obtain ⟨here, there⟩ := List.forall_mem_cons.1 kept
    rcases write with ⟨_ | ⟨next, parts⟩, v⟩
    · exact absurd rfl here
    · cases rest with
      | nil => rfl
      | cons second rest => exact ih there (List.cons_ne_nil _ _) _

/-! ## All fields -/

theorem keys_set_cons (first : String) (rest : List String) (v : Value) (d : Document) :
    Fields.keys (Document.set (first :: rest) v d) =
      if first ∈ Fields.keys d then Fields.keys d else Fields.keys d ++ [first] := by
  cases rest with
  | nil => exact Fields.keys_set first v d
  | cons next rest =>
    rw [set_cons_cons]
    exact Fields.keys_set first _ d

def Covers (writes : Writes) (d : Document) : Prop :=
  ∀ write ∈ writes, ∀ first ∈ write.1.head?, first ∈ Fields.keys d

theorem keys_writeAll (covered : Covers writes d) :
    Fields.keys (writeAll writes d) = Fields.keys d := by
  induction writes generalizing d with
  | nil => rfl
  | cons write rest ih =>
    obtain ⟨here, there⟩ := List.forall_mem_cons.1 covered
    have same : Fields.keys (Document.set write.1 write.2 d) = Fields.keys d := by
      rcases write with ⟨_ | ⟨first, parts⟩, v⟩
      · rfl
      · rw [keys_set_cons, if_pos (here first rfl)]
    have still : Covers rest (Document.set write.1 write.2 d) := by
      intro write mem first head
      rw [same]
      exact there write mem first head
    exact (ih still).trans same

theorem covers_writeAll (writes : Writes) (d : Document) : Covers writes (writeAll writes d) := by
  have kept (name : String) (writes : Writes) {d : Document} (h : Fields.has name d = true) :
      Fields.has name (writeAll writes d) = true :=
    List.foldlRecOn (motive := fun d => Fields.has name d = true) writes _ h
      fun _ h write _ => has_set h write.1 write.2
  induction writes generalizing d with
  | nil => exact fun write mem => absurd mem List.not_mem_nil
  | cons write rest ih =>
    refine List.forall_mem_cons.2 ⟨?_, ih _⟩
    intro first head
    have written : Fields.has first (Document.set write.1 write.2 d) = true := by
      obtain ⟨parts, split⟩ := List.head?_eq_some_iff.1 head
      rw [Fields.has_iff, split, keys_set_cons]
      by_cases there : first ∈ Fields.keys d
      · rwa [if_pos there]
      · rw [if_neg there]
        exact List.mem_append_right _ List.mem_cons_self
    exact Fields.has_iff.1 (kept first rest written)

/-! ## Writing again -/

theorem Proper.writeAll (values : ∀ write ∈ writes, write.2.isProper = true) (h : d.Proper) :
    (writeAll writes d).Proper :=
  List.foldlRecOn (motive := Document.Proper) writes _ h
    fun _ h write mem => h.set (values write mem)

theorem Proper.fieldsOf (h : d.Proper) (key : String) : (fieldsOf (d.lookup key)).Proper := by
  cases found : d.lookup key with
  | none => exact ⟨List.nodup_nil, nofun⟩
  | some v =>
    have proper : v.isProper = true := h.values _ (Fields.mem_of_lookup found)
    cases v with
    | doc fields => exact Value.isProper_doc.1 proper
    | _ => exact ⟨List.nodup_nil, nofun⟩

theorem mem_behind {write : List String × Value} (mem : write ∈ behind key writes) :
    (key :: write.1, write.2) ∈ writes := by
  obtain ⟨⟨_ | ⟨first, rest⟩, v⟩, there, shortened⟩ := List.mem_filterMap.1 mem
  · cases shortened
  · by_cases same : first = key
    · simp only [same, if_true, Option.some_inj] at shortened
      rwa [← shortened, ← same]
    · simp only [same, if_false, reduceCtorEq] at shortened

/-- Writes at paths come to the same when they are made once more. -/
theorem writeAll_writeAll (values : ∀ write ∈ writes, write.2.isProper = true) (h : d.Proper) :
    writeAll writes (writeAll writes d) = writeAll writes d := by
  -- By induction on a bound for the lengths of the paths: those behind a field are shorter.
  have within (n : Nat) : ∀ {writes : Writes} {d : Document},
      (∀ write ∈ writes, write.1.length < n) → (∀ write ∈ writes, write.2.isProper = true) →
        d.Proper → writeAll writes (writeAll writes d) = writeAll writes d := by
    induction n with
    | zero =>
      intro writes d short _ _
      cases writes with
      | nil => rfl
      | cons write rest => exact absurd (short write List.mem_cons_self) (Nat.not_lt_zero _)
    | succ n ih =>
      intro writes d short values proper
      have names := keys_writeAll (covers_writeAll writes d)
      apply Fields.ext_lookup (names ▸ (proper.writeAll values).nodup) names
      intro key
      rw [lookup_writeAll, lookup_writeAll]
      -- Either the field itself is written, whatever it holds by then, or what is behind it.
      by_cases replaced : ∃ v, ([], v) ∈ behind key writes
      · exact overwrite_of_replaced replaced _ _
      · have kept : ∀ write ∈ behind key writes, write.1 ≠ [] := by
          rintro ⟨parts, v⟩ mem rfl
          exact replaced ⟨v, mem⟩
        cases none : behind key writes with
        | nil => rfl
        | cons first rest =>
          rw [← none]
          have written : behind key writes ≠ [] := by simp [none]
          rw [overwrite_of_kept kept written, overwrite_of_kept kept written]
          have shorter : ∀ write ∈ behind key writes, write.1.length < n := fun write mem =>
            Nat.lt_of_succ_lt_succ (short _ (mem_behind mem))
          have proper' : ∀ write ∈ behind key writes, write.2.isProper = true :=
            fun write mem => values (key :: write.1, write.2) (mem_behind mem)
          have inner := ih shorter proper' (proper.fieldsOf key)
          rw [fieldsOf, inner]
  have short : ∀ write ∈ writes, write.1.length < (writes.map (·.1.length)).sum + 1 :=
    fun write mem => Nat.lt_succ_of_le (List.le_sum_of_mem (List.mem_map_of_mem mem))
  exact within _ short values h

end Document

namespace Memory

theorem Contents.patched_patched {d patch : Document} (proper : patch.Proper) (h : d.Proper) :
    patched (patched d patch) patch = patched d patch := by
  have writes (d : Document) : patched d patch =
      Document.writeAll (patch.map fun f => (Path.parts f.1, f.2)) d := by
    rw [patched, Document.writeAll, List.foldl_map]
  rw [writes, writes]
  apply Document.writeAll_writeAll _ h
  exact List.forall_mem_map.2 fun f mem => proper.values f mem

namespace Collection

variable {name : String} {filter : Value} {patch : Document} {r : Value × Document}

theorem changes_revised (proper : patch.Proper) (h : r.2.Proper) :
    changes filter patch (revised filter patch r).2 = false := by
  cases change : changes filter patch r.2 with
  | false => rwa [revised_of_unchanged change]
  | true =>
    have again : Value.same (.doc (patched r.2 patch)) (.doc (patched r.2 patch)) = true :=
      Value.same_refl (Value.isProper_doc.2 (Contents.patched_proper proper h))
    rw [revised, if_pos change, changes, Contents.patched_patched proper h, again, Bool.not_true,
      Bool.and_false]

end Collection

namespace World

/-- If an update has returned, and the same update is made at once and returns, then the second one
has replaced no document. -/
theorem update_again {w v u : World} {store name : String} {filter : Value}
    {patch : Document} {caller : Option SessionId} {n m : Nat}
    (table : ((w.contents store).collection name).IsTable)
    (documents : ∀ r ∈ ((w.contents store).collection name).records, Document.Proper r.2)
    (proper : patch.Proper) (first : update store name filter (.doc patch) caller w = (.ok n, v))
    (second : update store name filter (.doc patch) caller v = (.ok m, u)) : m = 0 ∧ u = v := by
  obtain ⟨after, here, rfl⟩ := update_returns first
  obtain ⟨last, again, rfl⟩ := update_returns second
  rw [contents_setContents_self] at again
  have revised := Contents.update_returns table here
  have unchanged : ∀ r ∈ (after.collection name).records,
      Collection.changes filter patch r.2 = false := by
    rw [revised]
    exact List.forall_mem_map.2 fun r mem => Collection.changes_revised proper (documents r mem)
  obtain ⟨none, rfl⟩ := Contents.update_of_unchanged unchanged again
  have same := setContents_self store (w.setContents store last)
  rw [contents_setContents_self] at same
  exact ⟨none, same⟩

/-- A guest moves to another table. A place that is a list comes and goes on the way, and the filter
does not find the guest again. -/
theorem update_again_seating :
    let c := (seating.contents "main").collection "guests"
    let filter : Value := .doc [("table", .str "a")]
    let move : Document :=
      [("place", .list [.int 1]), ("place.row.no", .int 5), ("table", .str "c")]
    let first := update "main" "guests" filter (.doc move) none seating
    let second := update "main" "guests" filter (.doc move) none first.2
    c.IsTable ∧ (∀ r ∈ c.records, Document.Proper r.2) ∧ move.Proper ∧
      first.1.toOption = some 1 ∧ second.1.toOption = some 0 ∧ second.2 = first.2 := by
  intro c filter move first second
  have consistent : c.Consistent := seating_consistent.contents "main" "guests"
  have proper : move.Proper := Value.isProper_doc.1 (by decide)
  have moved : first.1.toOption = some 1 := by decide +kernel
  have again : second.1.toOption = some 0 := by decide +kernel
  refine ⟨consistent.isTable, consistent.proper, proper, moved, again, ?_⟩
  have run : update "main" "guests" filter (.doc move) none seating = first := rfl
  have run' : update "main" "guests" filter (.doc move) none first.2 = second := rfl
  clear_value second first
  rcases first with ⟨_ | n, v⟩
  · cases moved
  · rcases second with ⟨_ | m, u⟩
    · cases again
    · exact (update_again consistent.isTable consistent.proper proper run run').2

end World
end Memory
end Docbase
