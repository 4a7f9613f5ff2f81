/-!
# Fields

The fields of a document: names with their values, in the order in which the names were first
written. Reading a name is `List.lookup`; `set` keeps the place of a name that is there and puts a
new one at the end.
-/

namespace Docbase.Fields

variable {α : Type _}

/-- Writes a field, in its old place or at the end. -/
def set (key : String) (value : α) : List (String × α) → List (String × α)
  | [] => [(key, value)]
  | (k, v) :: rest => if k = key then (k, value) :: rest else (k, v) :: set key value rest

def erase (key : String) (fields : List (String × α)) : List (String × α) :=
  fields.filter fun field => field.1 != key

def keys (fields : List (String × α)) : List String := fields.map (·.1)

def has (key : String) (fields : List (String × α)) : Bool := (fields.lookup key).isSome

/-- Fields from a list of writes, of which the last one to a name counts. -/
def ofWrites (writes : List (String × α)) : List (String × α) :=
  writes.foldl (fun fields (key, value) => set key value fields) []

@[simp] theorem lookup_set_self (key : String) (value : α) (fields : List (String × α)) :
    (set key value fields).lookup key = some value := by
  induction fields with
  | nil => simp [set]
  | cons field rest ih =>
    obtain ⟨k, v⟩ := field
    by_cases h : k = key
    · simp [set, h]
    · simp [set, h, List.lookup_cons, beq_false_of_ne (Ne.symm h), ih]

theorem lookup_set_of_ne {key other : String} (h : other ≠ key) (value : α)
    (fields : List (String × α)) : (set key value fields).lookup other = fields.lookup other := by
  induction fields with
  | nil => simp [set, List.lookup_cons, beq_false_of_ne h]
  | cons field rest ih =>
    obtain ⟨k, v⟩ := field
    by_cases hk : k = key
    · subst hk
      simp [set, List.lookup_cons, beq_false_of_ne h]
    · simp only [set, if_neg hk, List.lookup_cons, ih]

theorem keys_set (key : String) (value : α) (fields : List (String × α)) :
    keys (set key value fields) =
      if key ∈ keys fields then keys fields else keys fields ++ [key] := by
  induction fields with
  | nil => simp [set, keys]
  | cons field rest ih =>
    obtain ⟨k, v⟩ := field
    by_cases h : k = key
    · subst h
      simp [set, keys]
    · have step : keys (set key value ((k, v) :: rest)) = k :: keys (set key value rest) := by
        simp [set, keys, h]
      rw [step, ih]
      by_cases mem : key ∈ keys rest
      · simp only [keys] at mem ⊢
        simp [mem]
      · simp only [keys] at mem ⊢
        simp [mem, Ne.symm h]

theorem nodup_set (key : String) (value : α) {fields : List (String × α)}
    (nodup : (keys fields).Nodup) :
    (keys (set key value fields)).Nodup := by
  rw [keys_set]
  split
  · exact nodup
  · rename_i absent
    exact List.nodup_append.2 ⟨nodup, by simp, by
      intro a ha b hb
      rw [List.mem_singleton.1 hb]
      exact fun eq => absent (eq ▸ ha)⟩

theorem lookup_erase_self (key : String) (fields : List (String × α)) :
    (erase key fields).lookup key = none := by
  induction fields with
  | nil => rfl
  | cons field rest ih =>
    obtain ⟨k, v⟩ := field
    by_cases h : k = key
    · simpa [erase, h] using ih
    · simpa [erase, h, List.lookup_cons, beq_false_of_ne (Ne.symm h)] using ih

theorem lookup_erase_of_ne {key other : String} (h : other ≠ key) (fields : List (String × α)) :
    (erase key fields).lookup other = fields.lookup other := by
  induction fields with
  | nil => rfl
  | cons field rest ih =>
    obtain ⟨k, v⟩ := field
    by_cases hk : k = key
    · subst hk
      simpa [erase, List.lookup_cons, beq_false_of_ne h] using ih
    · simp only [erase, List.filter_cons, bne_iff_ne, ne_eq, hk, not_false_eq_true, ite_true,
        List.lookup_cons]
      rw [← ih]
      rfl

end Docbase.Fields
