import Docbase.Proofs.Value.Fieldwise
import Docbase.Proofs.Value.Shown

/-!
# Entries and the order of stores

A unique index compares entries for equality, and conditions compare ranks and the order of stores.
For values that are no lists the two agree, but for three things that entries do not tell, or
conditions do not: a truth value and the number that it counts as, the order of the fields of an
embedded document, and a list and a document of the same contents within a value.
-/

namespace Docbase.Value

open Text

variable {a b : Value} {as bs : Document}

/-! ## The plain order -/

theorem isNaN_of_isLegible (legible : a.isLegible = true) : a.isNaN = false := by
  cases a with
  | double x => cases x <;> first | rfl | cases legible
  | _ => rfl

theorem same_of_order_scalar (scalar : a.isScalar = true) (left : a.isLegible = true)
    (right : b.isLegible = true) (level : order? a b = some .eq) : same a b = true := by
  rw [order?_of_isScalar scalar] at level
  rw [same_of_isScalar scalar]
  exact sameScalar_of_level level (isNaN_of_isLegible left) (isNaN_of_isLegible right)

mutual

/-- What is level in the plain order is equal. -/
theorem same_of_order : ∀ {a b : Value}, a.isLegible = true → b.isLegible = true →
    order? a b = some .eq → same a b = true
  | .list as, b, left, right, level => by
    cases b with
    | list bs => exact sameItems_of_order left right level
    | _ => cases level
  | .doc as, b, _, _, level => by cases b <;> cases level
  | .null, b, left, right, level | .bool _, b, left, right, level | .int _, b, left, right, level
  | .double _, b, left, right, level | .str _, b, left, right, level
  | .bytes _, b, left, right, level | .timestamp _, b, left, right, level
  | .objectId _, b, left, right, level => same_of_order_scalar rfl left right level

theorem sameItems_of_order : ∀ {as bs : List Value}, areLegible as = true →
    areLegible bs = true → orderItems? as bs = some .eq → sameItems as bs = true
  | [], [], _, _, _ => rfl
  | [], _ :: _, _, _, level => by cases level
  | _ :: _, [], _, _, level => by cases level
  | a :: as, b :: bs, left, right, level => by
    rw [areLegible, Bool.and_eq_true] at left right
    rw [orderItems?] at level
    cases equal : same a b with
    | true =>
      rw [equal, if_pos rfl] at level
      rw [sameItems, equal, sameItems_of_order left.2 right.2 level]
      rfl
    | false =>
      rw [equal, if_neg Bool.false_ne_true] at level
      rw [same_of_order left.1 right.1 level] at equal
      cases equal

end

/-! ## Fields -/

theorem eq_of_shown_pair {k : String} (left : a.isLegible = true) (right : b.isLegible = true)
    (h : shown (.tuple [.str k, a]) = shown (.tuple [.str k, b])) : a = b := by
  have chars := congrArg String.toList h
  simp only [shown_tuple, shownItems_cons, shown_str, shownItems_nil, parenthesized,
    String.intercalate_cons_cons, String.intercalate_singleton, String.toList_append,
    List.append_assoc] at chars
  have values := List.append_cancel_left (List.append_cancel_left (List.append_cancel_left chars))
  exact (shown_append_inj left _ _ _ right (endsRun_cons.2 rfl) (endsRun_cons.2 rfl) values).1

theorem compareField_eq_iff {k l : String} (left : a.isLegible = true)
    (right : b.isLegible = true) (proper : a.isProper = true) :
    compareField (k, a) (l, b) = .eq ↔ k = l ∧ same a b = true := by
  constructor
  · intro level
    unfold compareField at level
    dsimp only at level
    split_ifs at level with names equal
    · exact absurd (Std.LawfulEqCmp.eq_of_compare level) names
    · exact ⟨not_not.1 names, equal⟩
    · -- Where the plain order is not defined, the texts are equal, and so are the values.
      obtain rfl := not_not.1 names
      cases order : order? a b with
      | some o =>
        rw [order] at level
        obtain rfl : o = .eq := level
        exact absurd (same_of_order left right order) equal
      | none =>
        simp only [order] at level
        have texts := Std.LawfulEqCmp.eq_of_compare level
        obtain rfl := eq_of_shown_pair left right texts
        exact ⟨rfl, same_refl proper⟩
  · rintro ⟨rfl, equal⟩
    simp [compareField, equal]

/-- Documents are level if their fields are equal one by one. -/
theorem compareFields_eq_iff : ∀ {as bs : Document}, areLegibleFields as = true →
    areLegibleFields bs = true → areProperFields as = true →
    (compareFields as bs = .eq ↔ Alike as bs)
  | [], [], _, _, _ => ⟨fun _ => .nil, fun _ => rfl⟩
  | [], _ :: _, _, _, _ => ⟨nofun, nofun⟩
  | _ :: _, [], _, _, _ => ⟨nofun, nofun⟩
  | (k, a) :: as, (l, b) :: bs, left, right, proper => by
    rw [areLegibleFields, Bool.and_eq_true] at left right
    rw [areProperFields, Bool.and_eq_true] at proper
    rw [compareFields, Ordering.then_eq_eq, compareField_eq_iff left.1 right.1 proper.1,
      compareFields_eq_iff left.2 right.2 proper.2, Alike, Alike, List.forall₂_cons]

/-! ## Entries -/

mutual

/-- Whether what is embedded in two values is equal exactly if it has the same entries: equal
documents have their fields in one order, and no list has the contents of a document. -/
def isOrderly : Value → Value → Bool
  | .list as, .list bs => areOrderly as bs
  | .doc as, .doc bs =>
    if Fields.keys as = Fields.keys bs then areOrderlyFields as bs else !same (.doc as) (.doc bs)
  | .list as, .doc bs => !sameItems (itemEntries as) (fieldEntries bs)
  | .doc as, .list bs => !sameItems (fieldEntries as) (itemEntries bs)
  | _, _ => true

def areOrderly : List Value → List Value → Bool
  | a :: as, b :: bs => isOrderly a b && areOrderly as bs
  | _, _ => true

def areOrderlyFields : Document → Document → Bool
  | (_, a) :: as, (_, b) :: bs => isOrderly a b && areOrderlyFields as bs
  | _, _ => true

end

def Matching (as bs : Document) : Prop :=
  List.Forall₂ (fun f g => f.1 = g.1 ∧ same f.2.entry g.2.entry = true) as bs

theorem sameItems_fieldEntries : ∀ {as bs : Document},
    sameItems (fieldEntries as) (fieldEntries bs) = true ↔ Matching as bs
  | [], [] => ⟨fun _ => .nil, fun _ => rfl⟩
  | [], _ :: _ => ⟨nofun, nofun⟩
  | _ :: _, [] => ⟨nofun, nofun⟩
  | (k, a) :: as, (l, b) :: bs => by
    rw [fieldEntries, fieldEntries, sameItems, Bool.and_eq_true, sameItems_fieldEntries, same,
      sameItems, sameItems, sameItems, Matching, Matching, List.forall₂_cons]
    simp [same, sameScalar]

theorem Matching.keys (h : Matching as bs) : Fields.keys as = Fields.keys bs := by
  induction h with
  | nil => rfl
  | cons first _ ih => simp_all [Fields.keys]

theorem alike_of_values : ∀ {as bs : Document}, Fields.keys as = Fields.keys bs →
    (∀ f ∈ as, ∀ g ∈ bs, f.1 = g.1 → same f.2 g.2 = true) → Alike as bs
  | [], [], _, _ => .nil
  | [], _ :: _, names, _ => nomatch names
  | _ :: _, [], names, _ => nomatch names
  | f :: as, g :: bs, names, values => by
    obtain ⟨first, rest⟩ := List.cons.inj names
    refine .cons ⟨first, values f List.mem_cons_self g List.mem_cons_self first⟩ ?_
    exact alike_of_values rest fun f mem g mem' =>
      values f (List.mem_cons_of_mem _ mem) g (List.mem_cons_of_mem _ mem')

theorem same_doc_iff (names : Fields.keys as = Fields.keys bs)
    (distinct : (Fields.keys bs).Nodup) : same (.doc as) (.doc bs) = true ↔ Alike as bs := by
  refine ⟨fun equal => ?_, fun alike => alike.same distinct⟩
  rw [same, Bool.and_eq_true, sameFields_iff] at equal
  refine alike_of_values names fun f mem g mem' name => ?_
  obtain ⟨b, found, same⟩ := equal.2 f.1 f.2 mem
  have there : bs.lookup f.1 = some g.2 := name ▸ Fields.lookup_of_mem distinct mem'
  obtain rfl := Option.some.inj (found.symm.trans there)
  exact same

theorem entry_of_isScalar (scalar : a.isScalar = true) (here : a.isMissing = false) :
    a.entry = a := by
  cases a <;> first | rfl | exact absurd here (by decide) | cases scalar

theorem same_entry_of_scalar (scalar : a.isScalar = true) (here : a.isMissing = false)
    (right : b.isLegible = true) : same a.entry b.entry = same a b := by
  rw [entry_of_isScalar scalar here, same_of_isScalar scalar, same_of_isScalar scalar]
  cases b with
  | list | doc => cases a <;> rfl
  | missing => cases right
  | _ => rfl

mutual

theorem same_entry : ∀ {a b : Value}, a.isLegible = true → b.isLegible = true →
    b.isProper = true → isOrderly a b = true → same a.entry b.entry = same a b
  | .list as, b, left, right, proper, orderly => by
    cases b with
    | list bs => exact sameItems_entries left right proper orderly
    | doc bs => exact Bool.not_eq_true' _ ▸ orderly
    | missing | tuple => cases right
    | _ => rfl
  | .doc as, b, left, right, proper, orderly => by
    cases b with
    | list bs => exact Bool.not_eq_true' _ ▸ orderly
    | doc bs =>
      rw [isProper, Bool.and_eq_true, decide_eq_true_eq] at proper
      rw [isOrderly] at orderly
      rw [Bool.eq_iff_iff, entry, entry, same, sameItems_fieldEntries]
      split_ifs at orderly with names
      · rw [same_doc_iff names proper.1]
        exact matching_iff names left right proper.2 orderly
      · rw [Bool.not_eq_true'] at orderly
        rw [orderly]
        exact ⟨fun matching => absurd matching.keys names, nofun⟩
    | missing | tuple => cases right
    | _ => rfl
  | .null, b, left, right, _, _ | .bool _, b, left, right, _, _ | .int _, b, left, right, _, _
  | .double _, b, left, right, _, _ | .str _, b, left, right, _, _
  | .bytes _, b, left, right, _, _ | .timestamp _, b, left, right, _, _
  | .objectId _, b, left, right, _, _ => same_entry_of_scalar rfl rfl right

theorem sameItems_entries : ∀ {as bs : List Value}, areLegible as = true →
    areLegible bs = true → areProper bs = true → areOrderly as bs = true →
    sameItems (itemEntries as) (itemEntries bs) = sameItems as bs
  | [], [], _, _, _, _ => rfl
  | [], _ :: _, _, _, _, _ => rfl
  | _ :: _, [], _, _, _, _ => rfl
  | a :: as, b :: bs, left, right, proper, orderly => by
    rw [areLegible, Bool.and_eq_true] at left right
    rw [areProper, Bool.and_eq_true] at proper
    rw [areOrderly, Bool.and_eq_true] at orderly
    rw [itemEntries, itemEntries, sameItems, sameItems,
      same_entry left.1 right.1 proper.1 orderly.1,
      sameItems_entries left.2 right.2 proper.2 orderly.2]

theorem matching_iff : ∀ {as bs : Document}, Fields.keys as = Fields.keys bs →
    areLegibleFields as = true → areLegibleFields bs = true → areProperFields bs = true →
    areOrderlyFields as bs = true → (Matching as bs ↔ Alike as bs)
  | [], [], _, _, _, _, _ => ⟨fun _ => .nil, fun _ => .nil⟩
  | [], _ :: _, names, _, _, _, _ => nomatch names
  | _ :: _, [], names, _, _, _, _ => nomatch names
  | (k, a) :: as, (l, b) :: bs, names, left, right, proper, orderly => by
    rw [areLegibleFields, Bool.and_eq_true] at left right
    rw [areProperFields, Bool.and_eq_true] at proper
    rw [areOrderlyFields, Bool.and_eq_true] at orderly
    rw [Matching, Alike, List.forall₂_cons, List.forall₂_cons,
      same_entry left.1 right.1 proper.1 orderly.1]
    exact and_congr_right fun _ =>
      matching_iff (List.cons.inj names).2 left.2 right.2 proper.2 orderly.2

end

/-! ## The values of a field -/

/-- A value that a field can have, if it is no list: data, or nothing. -/
def isUnlisted (v : Value) : Bool := v.isMissing || v.isLegible && v.isProper && v.rank != 5

/-- Whether equality and the order of stores agree on two values, and so do their entries: they are
not a truth value and the number it counts as, and what documents embed is orderly. -/
def areConcordant : Value → Value → Bool
  | .doc as, .doc bs => Fields.keys as != Fields.keys bs || areOrderlyFields as bs
  | a, b => a.rank == b.rank || !same a b

theorem isScalar_of_isUnlisted (unlisted : a.isUnlisted = true) (flat : a.rank ≠ 4) :
    a.isScalar = true := by
  cases a <;> first | rfl | simp [isUnlisted, isMissing, isLegible, rank] at unlisted flat

theorem exists_doc_of_rank (rank : a.rank = 4) : ∃ fields, a = .doc fields := by
  cases a with
  | doc fields => exact ⟨fields, rfl⟩
  | _ => cases rank

theorem areConcordant_of_isScalar (scalar : a.isScalar = true) (concordant : areConcordant a b) :
    a.rank = b.rank ∨ same a b = false := by
  have unfolded : areConcordant a b = (a.rank == b.rank || !same a b) := by
    cases a <;> first | rfl | cases scalar
  simpa [unfolded] using concordant

theorem order_cases (left : a.isLegible = true) (right : b.isLegible = true)
    (level : a.rank = b.rank) (known : b.rank ≠ 1) (scalar : b.isScalar = true) :
    (∃ o, orderScalar? a b = some o) ∨
      orderScalar? a b = none ∧ sameScalar a b = false ∧ a.text ≠ b.text := by
  cases b with
  | bool | int | double | str =>
    obtain ⟨o, order, -⟩ := exists_order rfl level
    exact .inl ⟨o, order⟩
  | bytes others =>
    cases a with
    | bytes octets => exact .inl ⟨_, rfl⟩
    | _ => cases level
  | objectId j =>
    cases a with
    | objectId i => exact .inl ⟨_, rfl⟩
    | pattern | tuple | flat | anyOf | allOf | joinTo => cases left
    | _ => cases level
  | timestamp u =>
    cases a with
    | timestamp t =>
      have order : orderScalar? (.timestamp t) (.timestamp u) = t.compare? u := rfl
      have equal : sameScalar (.timestamp t) (.timestamp u) = (t.compare? u == some .eq) := rfl
      rw [order, equal, Timestamp.compare?]
      cases here : t.offset <;> cases there : u.offset
      · exact .inl ⟨_, rfl⟩
      · exact .inr ⟨rfl, rfl, Timestamp.text_ne_of_offset here there⟩
      · exact .inr ⟨rfl, rfl, (Timestamp.text_ne_of_offset there here).symm⟩
      · exact .inl ⟨_, rfl⟩
    | _ => cases level
  | null | missing => exact absurd rfl known
  | pattern => cases right
  | _ => cases scalar

theorem compare_eq_iff_of_level (left : a.isLegible = true) (right : b.isLegible = true)
    (level : a.rank = b.rank) (known : b.rank ≠ 1) (scalar : a.isScalar = true)
    (scalar' : b.isScalar = true) : compare a b = .eq ↔ sameScalar a b = true := by
  rcases order_cases left right level known scalar' with ⟨o, order⟩ | ⟨order, differ, texts⟩
  · rw [compare_of_order scalar level (level ▸ known) order, sameScalar_iff_of_order order
      (isNaN_of_isLegible left) (isNaN_of_isLegible right)]
  · rw [compare_of_rank scalar level (level ▸ known), order, Option.getD_none, differ]
    exact ⟨fun same => absurd (Std.LawfulEqCmp.eq_of_compare same) texts, nofun⟩

theorem isLegible_of_isUnlisted (unlisted : a.isUnlisted = true) (here : a.isMissing = false) :
    a.isLegible = true := by
  rw [isUnlisted, here, Bool.false_or, Bool.and_eq_true, Bool.and_eq_true] at unlisted
  exact unlisted.1.1

theorem isMissing_of_rank (known : a.rank ≠ 1) : a.isMissing = false := by
  cases a <;> first | rfl | exact absurd rfl known

theorem entry_of_rank_one (empty : a.rank = 1) : a.entry = .null := by
  cases a <;> first | rfl | cases empty

theorem rank_of_same_null (scalar : a.isScalar = true)
    (equal : same .null a = true ∨ same a .null = true) : a.rank = 1 := by
  rw [same_of_isScalar rfl, same_of_isScalar scalar, sameScalar_comm a, or_self] at equal
  cases a <;> first | rfl | cases equal

theorem rank_of_same_entry (scalar : a.isScalar = true) (scalar' : b.isScalar = true)
    (concordant : areConcordant a b = true) (equal : same a.entry b.entry = true) :
    a.rank = b.rank := by
  by_cases empty : a.rank = 1 <;> by_cases empty' : b.rank = 1
  · rw [empty, empty']
  · rw [entry_of_rank_one empty, entry_of_isScalar scalar' (isMissing_of_rank empty')] at equal
    exact absurd (rank_of_same_null scalar' (.inl equal)) empty'
  · rw [entry_of_rank_one empty', entry_of_isScalar scalar (isMissing_of_rank empty)] at equal
    exact absurd (rank_of_same_null scalar (.inr equal)) empty
  · rw [entry_of_isScalar scalar (isMissing_of_rank empty),
      entry_of_isScalar scalar' (isMissing_of_rank empty')] at equal
    exact (areConcordant_of_isScalar scalar concordant).resolve_right fun h => by simp [h] at equal

theorem compare_of_rank_one (left : a.rank = 1) (right : b.rank = 1) : compare a b = .eq := by
  cases a with
  | null | missing =>
    cases b with
    | null | missing => rfl
    | _ => cases right
  | _ => cases left

theorem same_entry_iff_of_scalars (left : a.isUnlisted = true) (right : b.isUnlisted = true)
    (scalar : a.isScalar = true) (scalar' : b.isScalar = true)
    (concordant : areConcordant a b = true) :
    same a.entry b.entry = true ↔ a.rank = b.rank ∧ compare a b = .eq := by
  by_cases level : a.rank = b.rank
  · rw [and_iff_right level]
    by_cases empty : b.rank = 1
    · rw [entry_of_rank_one (level.trans empty), entry_of_rank_one empty,
        compare_of_rank_one (level.trans empty) empty]
      exact ⟨fun _ => rfl, fun _ => rfl⟩
    · have here := isMissing_of_rank (level ▸ empty)
      have there := isMissing_of_rank empty
      rw [entry_of_isScalar scalar here, entry_of_isScalar scalar' there, same_of_isScalar scalar,
        compare_eq_iff_of_level (isLegible_of_isUnlisted left here)
          (isLegible_of_isUnlisted right there) level empty scalar scalar']
  · exact ⟨fun equal => absurd (rank_of_same_entry scalar scalar' concordant equal) level,
      fun both => absurd both.1 level⟩

theorem same_entry_iff_of_docs (left : (doc as).isUnlisted = true)
    (right : (doc bs).isUnlisted = true) (concordant : areConcordant (.doc as) (.doc bs) = true) :
    same (entry (.doc as)) (entry (.doc bs)) = true ↔ compare (.doc as) (.doc bs) = .eq := by
  have data {fields : Document} (unlisted : (doc fields).isUnlisted = true) :
      areLegibleFields fields = true ∧ areProperFields fields = true := by
    simp only [isUnlisted, isMissing, isLegible, isProper, Bool.false_or, Bool.and_eq_true]
      at unlisted
    exact ⟨unlisted.1.1, unlisted.1.2.2⟩
  have unfolded : compare (.doc as) (.doc bs) = compareFields as bs := by
    simp [compare, compareFlat, rank]
  rw [unfolded, compareFields_eq_iff (data left).1 (data right).1 (data left).2, entry, entry, same,
    sameItems_fieldEntries]
  by_cases names : Fields.keys as = Fields.keys bs
  · have orderly : areOrderlyFields as bs = true := by
      simpa [areConcordant, names] using concordant
    exact matching_iff names (data left).1 (data right).1 (data right).2 orderly
  · exact ⟨fun matching => absurd matching.keys names, fun alike => absurd alike.keys names⟩

theorem same_entry_of_doc (scalar : a.isScalar = true) (fields : Document) :
    same (entry (.doc fields)) a.entry = false ∧ same a.entry (entry (.doc fields)) = false := by
  have scalar' : a.entry.isScalar = true := by
    cases a <;> first | rfl | cases scalar
  have differ (v : Value) (items : List Value) : sameScalar (.tuple items) v = false := by
    cases v <;> rfl
  rw [same_of_isScalar scalar', sameScalar_comm, entry, differ, and_iff_left rfl]
  cases a <;> first | rfl | cases scalar

/-- Values have the same entry exactly if they are of one rank and level. -/
theorem same_entry_iff (left : a.isUnlisted = true) (right : b.isUnlisted = true)
    (concordant : areConcordant a b = true) :
    same a.entry b.entry = true ↔ a.rank = b.rank ∧ compare a b = .eq := by
  by_cases here : a.rank = 4 <;> by_cases there : b.rank = 4
  · obtain ⟨as, rfl⟩ := exists_doc_of_rank here
    obtain ⟨bs, rfl⟩ := exists_doc_of_rank there
    rw [same_entry_iff_of_docs left right concordant]
    exact (and_iff_right rfl).symm
  · obtain ⟨as, rfl⟩ := exists_doc_of_rank here
    obtain ⟨differ, -⟩ := same_entry_of_doc (isScalar_of_isUnlisted right there) as
    simp [differ, here, Ne.symm there]
  · obtain ⟨bs, rfl⟩ := exists_doc_of_rank there
    obtain ⟨-, differ⟩ := same_entry_of_doc (isScalar_of_isUnlisted left here) bs
    simp [differ, here, there]
  · exact same_entry_iff_of_scalars left right (isScalar_of_isUnlisted left here)
      (isScalar_of_isUnlisted right there) concordant

end Docbase.Value
