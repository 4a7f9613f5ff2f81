import Docbase.Memory.Index
import Docbase.Proofs.Fields
import Mathlib.Data.List.Perm.Subperm

/-!
# Proper values

A document has each of its fields once. The type of values does not say so; `Value.isProper` does,
for a value and all that it holds.
-/

namespace Docbase

namespace Value

mutual

def isProper : Value → Bool
  | .tuple items | .list items | .anyOf items | .allOf items => areProper items
  | .doc fields | .flat fields => decide (Fields.keys fields).Nodup && areProperFields fields
  | .joinTo collection select => isProper collection && isProper select
  | _ => true

def areProper : List Value → Bool
  | [] => true
  | v :: rest => isProper v && areProper rest

def areProperFields : List (String × Value) → Bool
  | [] => true
  | (_, v) :: rest => isProper v && areProperFields rest

end

theorem areProper_iff {items : List Value} :
    areProper items = true ↔ ∀ v ∈ items, v.isProper = true := by
  induction items with
  | nil => simp [areProper]
  | cons v rest ih => simp [areProper, ih]

theorem areProperFields_iff {fields : List (String × Value)} :
    areProperFields fields = true ↔ ∀ f ∈ fields, f.2.isProper = true := by
  induction fields with
  | nil => simp [areProperFields]
  | cons f rest ih => simp [areProperFields, ih]

end Value

structure Document.Proper (d : Document) : Prop where
  nodup : (Fields.keys d).Nodup
  values : ∀ f ∈ d, f.2.isProper = true

theorem Value.isProper_doc {d : Document} : (Value.doc d).isProper = true ↔ Document.Proper d := by
  simp only [Value.isProper, Bool.and_eq_true, decide_eq_true_eq, areProperFields_iff]
  exact ⟨fun h => ⟨h.1, h.2⟩, fun h => ⟨h.nodup, h.values⟩⟩

/-! ## Equality -/

theorem Timestamp.compare?_comm (a b : Timestamp) :
    (a.compare? b == some .eq) = (b.compare? a == some .eq) := by
  have flip (m n : Int) : (some (Ord.compare m n) == some Ordering.eq) =
      (some (Ord.compare n m) == some Ordering.eq) := by
    rw [Bool.eq_iff_iff, beq_iff_eq, beq_iff_eq, Option.some_inj, Option.some_inj,
      Std.compare_eq_iff_eq, Std.compare_eq_iff_eq]
    exact eq_comm
  unfold Timestamp.compare?
  cases a.offset with
  | none => cases b.offset with
    | none => exact flip _ _
    | some y => rfl
  | some x => cases b.offset with
    | none => rfl
    | some y => exact flip _ _

namespace Value

def sameNumeral : Option Numeral → Option Numeral → Bool
  | some m, some n => m == n
  | _, _ => false

theorem sameNumeral_comm (x y : Option Numeral) : sameNumeral x y = sameNumeral y x := by
  cases x with
  | none => cases y <;> rfl
  | some m =>
    cases y with
    | none => rfl
    | some n => exact Bool.beq_comm

theorem sameScalar_comm (a b : Value) : sameScalar a b = sameScalar b a := by
  have numerals := sameNumeral_comm a.numeral? b.numeral?
  cases a <;> cases b <;>
    first
    | rfl
    | exact numerals
    | exact Timestamp.compare?_comm _ _
    | simp only [sameScalar, Bool.beq_comm]

theorem sameFields_iff {as bs : List (String × Value)} :
    sameFields as bs = true ↔
      ∀ key a, (key, a) ∈ as → ∃ b, bs.lookup key = some b ∧ same a b = true := by
  induction as with
  | nil => simp [sameFields]
  | cons f rest ih =>
    obtain ⟨k, v⟩ := f
    rw [sameFields, Bool.and_eq_true, ih]
    constructor
    · rintro ⟨here, there⟩ key a mem
      rcases List.mem_cons.1 mem with eq | mem
      · obtain ⟨rfl, rfl⟩ := Prod.mk.inj eq
        cases found : bs.lookup key with
        | none => simp [found] at here
        | some b => exact ⟨b, rfl, by simpa [found] using here⟩
      · exact there key a mem
    · intro h
      obtain ⟨b, found, same⟩ := h k v List.mem_cons_self
      exact ⟨by simpa [found] using same, fun key a mem => h key a (List.mem_cons_of_mem _ mem)⟩

theorem sameFields_swap {as bs : List (String × Value)} (ha : (Fields.keys as).Nodup)
    (hb : (Fields.keys bs).Nodup) (length : as.length = bs.length)
    (comm : ∀ key a b, (key, a) ∈ as → (key, b) ∈ bs → same a b = true → same b a = true)
    (h : sameFields as bs = true) : sameFields bs as = true := by
  rw [sameFields_iff] at h ⊢
  have subset : Fields.keys as ⊆ Fields.keys bs := by
    intro key mem
    obtain ⟨⟨k, a⟩, there, rfl⟩ := List.mem_map.1 mem
    obtain ⟨b, found, -⟩ := h k a there
    exact Fields.mem_keys_of_mem (Fields.mem_of_lookup found)
  have perm : (Fields.keys as).Perm (Fields.keys bs) :=
    (ha.subperm subset).perm_of_length_le (by simp [Fields.keys, length])
  intro key b mem
  obtain ⟨⟨k, a⟩, there, rfl⟩ := List.mem_map.1 (perm.mem_iff.2 (Fields.mem_keys_of_mem mem))
  obtain ⟨b', found, same⟩ := h k a there
  obtain rfl : b' = b := Option.some.inj (found.symm.trans (Fields.lookup_of_mem hb mem))
  exact ⟨a, Fields.lookup_of_mem ha there, comm k a b' there mem same⟩

mutual

theorem same_comm : ∀ {a b : Value}, a.isProper = true → b.isProper = true → same a b = same b a
  | .tuple _, b, ha, hb | .list _, b, ha, hb | .anyOf _, b, ha, hb | .allOf _, b, ha, hb => by
    cases b with
    | tuple | list | anyOf | allOf => first | exact sameItems_comm ha hb | rfl
    | _ => exact sameScalar_comm _ _
  | .doc as, b, ha, hb | .flat as, b, ha, hb => by
    cases b with
    | doc bs | flat bs =>
      first
      | rfl
      | simp only [isProper, Bool.and_eq_true, decide_eq_true_eq] at ha hb
        have comm (key : String) (a b : Value) (mem : (key, a) ∈ as) (mem' : (key, b) ∈ bs) :
            same a b = same b a :=
          same_comm_of_mem ha.2 key a mem (areProperFields_iff.1 hb.2 (key, b) mem')
        simp only [same]
        rw [Bool.beq_comm, Bool.eq_iff_iff, Bool.and_eq_true, Bool.and_eq_true]
        refine and_congr_right fun length => ⟨?_, ?_⟩
        · exact sameFields_swap ha.1 hb.1 (beq_iff_eq.1 length).symm
            fun key a b mem mem' h => comm key a b mem mem' ▸ h
        · exact sameFields_swap hb.1 ha.1 (beq_iff_eq.1 length)
            fun key b a mem mem' h => comm key a b mem' mem ▸ h
    | _ => exact sameScalar_comm _ _
  | .joinTo a c, b, ha, hb => by
    cases b with
    | joinTo a' c' =>
      simp only [isProper, Bool.and_eq_true] at ha hb
      simp only [same]
      rw [same_comm ha.1 hb.1, same_comm ha.2 hb.2]
    | _ => exact sameScalar_comm _ _
  | .null, b, _, _ | .missing, b, _, _ | .bool _, b, _, _ | .int _, b, _, _ | .double _, b, _, _
  | .str _, b, _, _ | .bytes _, b, _, _ | .timestamp _, b, _, _ | .objectId _, b, _, _
  | .pattern _, b, _, _ => by cases b <;> exact sameScalar_comm _ _

theorem sameItems_comm : ∀ {as bs : List Value}, areProper as = true → areProper bs = true →
    sameItems as bs = sameItems bs as
  | [], [], _, _ => rfl
  | [], _ :: _, _, _ => rfl
  | _ :: _, [], _, _ => rfl
  | a :: as, b :: bs, ha, hb => by
    simp only [areProper, Bool.and_eq_true] at ha hb
    rw [sameItems, sameItems, same_comm ha.1 hb.1, sameItems_comm ha.2 hb.2]

theorem same_comm_of_mem : ∀ {as : List (String × Value)}, areProperFields as = true →
    ∀ key a, (key, a) ∈ as → ∀ {b}, b.isProper = true → same a b = same b a
  | [], _, _, _, mem, _, _ => absurd mem List.not_mem_nil
  | (k, v) :: rest, h, key, a, mem, b, hb => by
    simp only [areProperFields, Bool.and_eq_true] at h
    rcases List.mem_cons.1 mem with eq | mem
    · obtain ⟨rfl, rfl⟩ := Prod.mk.inj eq
      exact same_comm h.1 hb
    · exact same_comm_of_mem h.2 key a mem hb

end

mutual

theorem same_refl : ∀ {v : Value}, v.isProper = true → same v v = true
  | .tuple _, h | .list _, h | .anyOf _, h | .allOf _, h => sameItems_refl h
  | .doc fields, h | .flat fields, h => by
    simp only [isProper, Bool.and_eq_true, decide_eq_true_eq] at h
    simp only [same, beq_self_eq_true, Bool.true_and]
    rw [sameFields_iff]
    intro key v mem
    exact ⟨v, Fields.lookup_of_mem h.1 mem, same_refl_of_mem h.2 key v mem⟩
  | .joinTo _ _, h => by
    simp only [isProper, Bool.and_eq_true] at h
    simp only [same, same_refl h.1, same_refl h.2, Bool.and_self]
  | .null, _ | .missing, _ => rfl
  | .str _, _ | .bytes _, _ | .objectId _, _ | .pattern _, _ | .bool _, _ | .int _, _ =>
    beq_self_eq_true _
  | .timestamp t, _ => by
    simp only [same, sameScalar, Timestamp.compare?]
    cases t.offset <;> simp
  | .double x, _ => by
    cases x <;> simp [same, sameScalar, numeral?, Double.place?]

theorem sameItems_refl : ∀ {as : List Value}, areProper as = true → sameItems as as = true
  | [], _ => rfl
  | a :: as, h => by
    simp only [areProper, Bool.and_eq_true] at h
    rw [sameItems, same_refl h.1, sameItems_refl h.2, Bool.and_self]

theorem same_refl_of_mem : ∀ {as : List (String × Value)}, areProperFields as = true →
    ∀ key a, (key, a) ∈ as → same a a = true
  | [], _, _, _, mem => absurd mem List.not_mem_nil
  | (k, v) :: rest, h, key, a, mem => by
    simp only [areProperFields, Bool.and_eq_true] at h
    rcases List.mem_cons.1 mem with eq | mem
    · obtain ⟨rfl, rfl⟩ := Prod.mk.inj eq
      exact same_refl h.1
    · exact same_refl_of_mem h.2 key a mem

end

mutual

theorem isProper_of_hashable : ∀ {v : Value}, v.hashable = true → v.isProper = true
  | .tuple _, h | .anyOf _, h | .allOf _, h => areProper_of_hashable h
  | .joinTo _ _, h => by
    simp only [hashable, Bool.and_eq_true] at h
    simp only [isProper, isProper_of_hashable h.1, isProper_of_hashable h.2, Bool.and_self]
  | .null, _ | .missing, _ | .bool _, _ | .int _, _ | .double _, _ | .str _, _ | .bytes _, _
  | .timestamp _, _ | .objectId _, _ | .pattern _, _ => rfl

theorem areProper_of_hashable : ∀ {items : List Value}, hashableItems items = true →
    areProper items = true
  | [], _ => rfl
  | v :: rest, h => by
    simp only [hashableItems, Bool.and_eq_true] at h
    simp only [areProper, isProper_of_hashable h.1, areProper_of_hashable h.2, Bool.and_self]

end

theorem same_self {v : Value} (h : v.hashable = true) : same v v = true :=
  same_refl (isProper_of_hashable h)

/-! ## What paths lead to -/

theorem step_cases {v w : Value} {part : String} (run : v.step part = .ok w) :
    w = .missing ∨ (∃ fields, v = .doc fields ∧ ∃ key, (key, w) ∈ fields) ∨
      ∃ items, v = .list items ∧ w ∈ items := by
  cases v with
  | doc fields =>
    obtain rfl := Except.ok.inj run
    rw [field]
    cases found : fields.lookup part with
    | none => exact .inl rfl
    | some v => exact .inr (.inl ⟨fields, rfl, part, Fields.mem_of_lookup found⟩)
  | list items =>
    simp only [step] at run
    split at run
    · split at run
      · rename_i n _
        obtain rfl := Except.ok.inj run
        cases found : items[n]? with
        | none => exact .inl rfl
        | some item => exact .inr (.inr ⟨items, rfl, List.mem_of_getElem? found⟩)
      · cases run
    · exact .inl (Except.ok.inj run).symm
  | _ => exact .inl (Except.ok.inj run).symm

/-- What is known of a value and of all that documents and lists hold is known of what a path leads
to. -/
theorem follow_induction {P : Value → Prop} {v w : Value} (missing : P .missing)
    (fields : ∀ fields, P (.doc fields) → ∀ f ∈ fields, P f.2)
    (items : ∀ items, P (.list items) → ∀ v ∈ items, P v) {parts : List String} (h : P v)
    (run : follow parts v = .ok w) : P w := by
  induction parts generalizing v with
  | nil =>
    obtain rfl := Except.ok.inj run
    exact h
  | cons part rest ih =>
    rw [follow] at run
    cases first : v.step part with
    | error m =>
      rw [first] at run
      cases run
    | ok u =>
      rw [first] at run
      refine ih ?_ run
      obtain rfl | ⟨fs, rfl, key, mem⟩ | ⟨vs, rfl, mem⟩ := step_cases first
      · exact missing
      · exact fields fs h (key, u) mem
      · exact items vs h u mem

/-! ## What is made of proper values -/

mutual

theorem entry_isProper : ∀ {v : Value}, v.isProper = true → v.entry.isProper = true
  | .doc fields, h => by
    simp only [isProper, Bool.and_eq_true] at h
    exact fieldEntries_isProper h.2
  | .list _, h => itemEntries_isProper h
  | .missing, _ => rfl
  | .null, h | .bool _, h | .int _, h | .double _, h | .str _, h | .bytes _, h | .timestamp _, h
  | .objectId _, h | .pattern _, h | .tuple _, h | .flat _, h | .anyOf _, h | .allOf _, h
  | .joinTo _ _, h => h

theorem itemEntries_isProper : ∀ {items : List Value}, areProper items = true →
    areProper (itemEntries items) = true
  | [], _ => rfl
  | v :: rest, h => by
    simp only [areProper, Bool.and_eq_true] at h
    simp only [itemEntries, areProper, entry_isProper h.1, itemEntries_isProper h.2,
      Bool.and_self]

theorem fieldEntries_isProper : ∀ {fields : List (String × Value)},
    areProperFields fields = true → areProper (fieldEntries fields) = true
  | [], _ => rfl
  | (key, v) :: rest, h => by
    simp only [areProperFields, Bool.and_eq_true] at h
    simp only [fieldEntries, areProper, isProper, entry_isProper h.1, fieldEntries_isProper h.2,
      Bool.and_self]

end

theorem follow_isProper {parts : List String} {v w : Value} (h : v.isProper = true)
    (run : follow parts v = .ok w) : w.isProper = true := by
  refine follow_induction (P := fun v => v.isProper = true) rfl ?_ ?_ h run
  · exact fun fields h => (isProper_doc.1 h).values
  · exact fun items h => areProper_iff.1 h

end Value

namespace Document

theorem Proper.set_field {d : Document} (h : d.Proper) (key : String) {v : Value}
    (hv : v.isProper = true) : Document.Proper (Fields.set key v d) where
  nodup := Fields.nodup_set key v h.nodup
  values f mem := by
    rcases Fields.mem_set mem with mem | rfl
    · exact h.values f mem
    · exact hv

/-- What is known of documents as values, and is kept by writes to their fields, is kept by writes
to paths. -/
theorem set_induction {P : Value → Prop} (empty : P (.doc []))
    (field : ∀ d key v, P (.doc d) → P v → P (.doc (Fields.set key v d)))
    (inner : ∀ d key v, P (.doc d) → d.lookup key = some v → P v)
    {parts : List String} {v : Value} (hv : P v) {d : Document}
    (h : P (.doc d)) : P (.doc (Document.set parts v d)) := by
  induction parts generalizing d with
  | nil => exact h
  | cons key rest ih =>
    cases rest with
    | nil => exact field d key v h hv
    | cons next rest =>
      rw [Document.set]
      · refine field d key _ h (ih ?_)
        split
        · rename_i fields found
          exact inner d key _ h found
        · exact empty
      · simp

theorem Proper.set {parts : List String} {v : Value} (hv : v.isProper = true) {d : Document}
    (h : d.Proper) : (Document.set parts v d).Proper := by
  rw [← Value.isProper_doc] at h ⊢
  refine set_induction (P := fun v => v.isProper = true) rfl ?_ ?_ hv h
  · exact fun d key v h hv => Value.isProper_doc.2 ((Value.isProper_doc.1 h).set_field key hv)
  · exact fun d key v h found => (Value.isProper_doc.1 h).values _ (Fields.mem_of_lookup found)

end Document
end Docbase
