import Docbase.Fields
import Mathlib.Data.List.Induction
import Mathlib.Data.List.Nodup

namespace Docbase.Fields

variable {α : Type _} {key other : String} {value : α} {fields : List (String × α)}

theorem mem_of_lookup (h : fields.lookup key = some value) : (key, value) ∈ fields := by
  obtain ⟨before, after, rfl, -⟩ := List.lookup_eq_some_iff.1 h
  simp

theorem mem_keys_of_mem (h : (key, value) ∈ fields) : key ∈ keys fields :=
  List.mem_map.2 ⟨(key, value), h, rfl⟩

theorem lookup_of_mem (nodup : (keys fields).Nodup) (h : (key, value) ∈ fields) :
    fields.lookup key = some value := by
  obtain ⟨before, after, rfl⟩ := List.append_of_mem h
  refine List.lookup_eq_some_iff.2 ⟨before, after, rfl, ?_⟩
  intro f hf
  simp only [keys, List.map_append, List.map_cons] at nodup
  have absent : key ∉ before.map (·.1) := fun mem =>
    (List.nodup_middle.1 nodup).notMem (List.mem_append_left _ mem)
  have ne : f.1 ≠ key := fun eq => absent (eq ▸ List.mem_map_of_mem hf)
  simpa using ne.symm

theorem lookup_eq_none_iff : fields.lookup key = none ↔ key ∉ keys fields := by
  rw [List.lookup_eq_none_iff, keys, List.mem_map]
  simp only [bne_iff_ne, ne_eq, not_exists, not_and]
  exact ⟨fun h f hf eq => h f hf eq.symm, fun h f hf eq => h f hf eq.symm⟩

theorem has_iff : has key fields = true ↔ key ∈ keys fields := by
  rw [has, Option.isSome_iff_ne_none, ne_eq, lookup_eq_none_iff, not_not]

theorem mem_set {field : String × α} (h : field ∈ set key value fields) :
    field ∈ fields ∨ field = (key, value) := by
  induction fields with
  | nil => simpa [set] using h
  | cons head rest ih =>
    obtain ⟨k, v⟩ := head
    by_cases hk : k = key
    · simp only [set, hk, if_true, List.mem_cons] at h ⊢
      tauto
    · simp only [set, hk, if_false, List.mem_cons] at h ⊢
      rcases h with h | h
      · exact .inl (.inl h)
      · exact (ih h).imp_left .inr

theorem forall_mem_ofWrites {P : String × α → Prop} {writes : List (String × α)}
    (h : ∀ write ∈ writes, P write) : ∀ field ∈ ofWrites writes, P field := by
  let Known (fields : List (String × α)) : Prop := ∀ field ∈ fields, P field
  refine List.foldlRecOn (motive := Known) writes _ ?_ ?_
  · exact fun field mem => absurd mem List.not_mem_nil
  · intro fields written write mem' field mem
    rcases mem_set mem with mem | rfl
    · exact written field mem
    · exact h write mem'

theorem set_of_notMem (absent : key ∉ keys fields) (value : α) :
    set key value fields = fields ++ [(key, value)] := by
  induction fields with
  | nil => rfl
  | cons field rest ih =>
    obtain ⟨k, v⟩ := field
    obtain ⟨here, there⟩ := List.ne_and_not_mem_of_not_mem_cons absent
    rw [set, if_neg (Ne.symm here), ih there]
    rfl

theorem foldl_set_of_nodup {writes : List (String × α)} (nodup : (keys (fields ++ writes)).Nodup) :
    writes.foldl (fun fields (key, value) => set key value fields) fields = fields ++ writes := by
  induction writes generalizing fields with
  | nil => simp
  | cons write rest ih =>
    obtain ⟨k, v⟩ := write
    have absent : k ∉ keys fields := by
      intro mem
      simp only [keys, List.map_append, List.map_cons] at nodup mem
      exact (List.nodup_middle.1 nodup).notMem (List.mem_append_left _ mem)
    have next : (keys ((fields ++ [(k, v)]) ++ rest)).Nodup := by
      rwa [List.append_assoc, List.singleton_append]
    have step : rest.foldl (fun fields (key, value) => set key value fields)
        (set k v fields) = (fields ++ [(k, v)]) ++ rest := by
      rw [set_of_notMem absent, ih next]
    rwa [List.append_assoc, List.singleton_append] at step

theorem ofWrites_of_nodup {writes : List (String × α)} (nodup : (keys writes).Nodup) :
    ofWrites writes = writes := foldl_set_of_nodup nodup

theorem set_lookup_self (h : fields.lookup key = some value) : set key value fields = fields := by
  induction fields with
  | nil => cases h
  | cons field rest ih =>
    obtain ⟨k, v⟩ := field
    rw [List.lookup_cons] at h
    by_cases same : k = key
    · subst same
      rw [beq_self_eq_true] at h
      obtain rfl := Option.some.inj h
      rw [set, if_pos rfl]
    · rw [beq_false_of_ne (Ne.symm same)] at h
      rw [set, if_neg same, ih h]

theorem foldl_set_same {names : List String} (new : ∀ name ∈ names, name ∉ keys fields) (v : α) :
    (names.map fun name => (name, v)).foldl (fun fields (key, value) => set key value fields)
      fields = fields ++ names.eraseDups.map fun name => (name, v) := by
  induction names using List.reverseRecOn with
  | nil => simp
  | append_singleton names name ih =>
    have earlier := ih fun n mem => new n (List.mem_append_left _ mem)
    have before := new name (List.mem_append_right _ List.mem_cons_self)
    rw [List.map_append, List.foldl_append, earlier, List.eraseDups_append]
    by_cases again : name ∈ names
    · have there : (fields ++ names.eraseDups.map fun name => (name, v)).lookup name =
          some v := by
        rw [List.lookup_append, lookup_eq_none_iff.2 before, Option.none_or]
        exact List.lookup_graph (fun _ => v) (List.mem_eraseDups.2 again)
      have nothing : [name].removeAll names = [] := by simp [List.removeAll, again]
      rw [nothing]
      simp [set_lookup_self there]
    · have absent : name ∉ keys (fields ++ names.eraseDups.map fun name => (name, v)) := by
        simp only [keys, List.map_append, List.mem_append, not_or]
        exact ⟨before, by simpa using again⟩
      have one : [name].removeAll names = [name] := by simp [List.removeAll, again]
      simp only [one, List.map_singleton, List.foldl_cons, List.foldl_nil, set_of_notMem absent,
        List.append_assoc, List.map_append]
      rfl

theorem ofWrites_same (names : List String) (v : α) :
    ofWrites (names.map fun name => (name, v)) = names.eraseDups.map fun name => (name, v) :=
  foldl_set_same (fun _ _ => List.not_mem_nil) v

theorem nodup_foldl_set {writes : List (String × α)} (nodup : (keys fields).Nodup) :
    (keys (writes.foldl (fun fields (key, value) => set key value fields) fields)).Nodup := by
  induction writes generalizing fields with
  | nil => exact nodup
  | cons write rest ih => exact ih (nodup_set _ _ nodup)

theorem nodup_eraseDups (names : List String) : names.eraseDups.Nodup := by
  have nodup : (keys (ofWrites (names.map fun name => (name, ())))).Nodup :=
    nodup_foldl_set List.nodup_nil
  rwa [ofWrites_same, keys, List.map_map, List.map_id''] at nodup
  intro name
  rfl

theorem lookup_map {β : Type _} (f : α → β) (key : String) (fields : List (String × α)) :
    (fields.map fun field => (field.1, f field.2)).lookup key = (fields.lookup key).map f := by
  induction fields with
  | nil => rfl
  | cons field rest ih =>
    obtain ⟨k, v⟩ := field
    simp only [List.map_cons, List.lookup_cons, ih]
    cases key == k with
    | true => rfl
    | false => rfl

theorem lookup_filter_self (key : String) (fields : List (String × α)) :
    (fields.filter fun field => field.1 == key).lookup key = fields.lookup key := by
  induction fields with
  | nil => rfl
  | cons field rest ih =>
    obtain ⟨k, v⟩ := field
    by_cases same : k = key
    · subst same
      simp
    · simp [List.lookup_cons, same, beq_false_of_ne (Ne.symm same), ih]

end Docbase.Fields
