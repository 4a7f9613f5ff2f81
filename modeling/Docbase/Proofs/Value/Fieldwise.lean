import Docbase.Proofs.Value.Scalar

/-!
# Documents field by field

The order of stores is one of kinds at every depth where documents are spelled out as lists of their
fields. Documents themselves are compared with the plain order of their fields, which says the same
as long as two fields of one name hold values of one kind, and no documents but level ones.

* `Value.compareDeeply` is the order at every depth, and `Document.compareByField` compares names
  and then values.
* `Value.order_of_isAkin` and `Value.compareDeeply_of_isAkin`: where the orders agree.
* `Document.compare_fieldwise` puts it together for documents.
* `Document.unlike_fields`: documents that are ordered in a circle.
-/

namespace Docbase

namespace Value

variable {a b c : Value}

mutual

def isComposed : Value → Bool
  | .list items => areComposed items
  | .doc fields => decide (Fields.keys fields).Nodup && areComposedFields fields
  | .missing => false
  | v => v.isOrdinary

def areComposed : List Value → Bool
  | [] => true
  | v :: rest => v.isComposed && areComposed rest

def areComposedFields : List (String × Value) → Bool
  | [] => true
  | (_, v) :: rest => v.isComposed && areComposedFields rest

end

mutual

/-- A value with lists in the place of its documents: a mark of the kind, then the fields. -/
def spread : Value → Value
  | .list items => .list (.int 5 :: spreadItems items)
  | .doc fields => .list (.int 4 :: spreadFields fields)
  | v => v

def spreadItems : List Value → List Value
  | [] => []
  | v :: rest => spread v :: spreadItems rest

def spreadFields : List (String × Value) → List Value
  | [] => []
  | (key, v) :: rest => .list [.str key, spread v] :: spreadFields rest

end

def compareDeeply (a b : Value) : Ordering := compare (spread a) (spread b)

mutual

theorem isOrdinary_spread : ∀ {v : Value}, v.isComposed = true → v.spread.isOrdinary = true
  | .list _, h => areOrdinary_spreadItems h
  | .doc _, h => areOrdinary_spreadFields (Bool.and_eq_true _ _ ▸ h).2
  | .null, _ | .bool _, _ | .int _, _ | .str _, _ | .bytes _, _ | .objectId _, _ => rfl
  | .double _, h | .timestamp _, h => h

theorem areOrdinary_spreadItems : ∀ {items : List Value}, areComposed items = true →
    areOrdinary (spreadItems items) = true
  | [], _ => rfl
  | v :: rest, h => by
    rw [areComposed, Bool.and_eq_true] at h
    rw [spreadItems, areOrdinary, isOrdinary_spread h.1, areOrdinary_spreadItems h.2]
    rfl

theorem areOrdinary_spreadFields : ∀ {fields : List (String × Value)},
    areComposedFields fields = true → areOrdinary (spreadFields fields) = true
  | [], _ => rfl
  | (key, v) :: rest, h => by
    rw [areComposedFields, Bool.and_eq_true] at h
    simp [spreadFields, areOrdinary, isOrdinary, isOrdinary_spread h.1,
      areOrdinary_spreadFields h.2]

end

/-! ## Scalars -/

theorem isScalar_of_isOrdinary (ordinary : a.isOrdinary = true) (flat : a.rank ≠ 5) :
    a.isScalar = true := by
  cases a <;> first | rfl | cases ordinary | exact absurd rfl flat

theorem isNaN_of_isOrdinary (ordinary : a.isOrdinary = true) : a.isNaN = false := by
  cases a with
  | double x => simpa [isOrdinary, isNaN] using ordinary
  | _ => rfl

theorem order_of_isOrdinary (left : a.isOrdinary = true) (right : b.isOrdinary = true)
    (level : a.rank = b.rank) (flat : a.rank ≠ 5) (known : a.rank ≠ 1) :
    order? a b = some (compare a b) ∧ (same a b = true ↔ compare a b = .eq) := by
  have order := order?_of_isOrdinary left right level known flat
  rw [← compare_of_flat left right fun lists => flat lists.1] at order
  have scalar := isScalar_of_isOrdinary left flat
  refine ⟨order, ?_⟩
  rw [order?_of_isScalar scalar] at order
  rw [same_of_isScalar scalar]
  exact sameScalar_iff_of_order order (isNaN_of_isOrdinary left) (isNaN_of_isOrdinary right)

/-! ## Level at every depth -/

theorem then_of_ne {first second : Ordering} (apart : first ≠ .eq) :
    first.then second = first := by
  cases first <;> first | rfl | exact absurd rfl apart

theorem compare_int_self (n : Int) : compare (.int n) (.int n) = .eq := by
  simp [compare, compareFlat, order?, orderScalar?, numeral?, rank]

theorem compare_texts (s t : String) : compare (.str s) (.str t) = Ord.compare s t := by
  simp [compare, compareFlat, order?, orderScalar?, rank]

theorem compareDeeply_lists (as bs : List Value) :
    compareDeeply (.list as) (.list bs) = compareItems (spreadItems as) (spreadItems bs) := by
  rw [compareDeeply, spread, spread, compare, compareItems, compare_int_self, Ordering.eq_then]

theorem compareDeeply_documents (as bs : Document) :
    compareDeeply (.doc as) (.doc bs) = compareItems (spreadFields as) (spreadFields bs) := by
  rw [compareDeeply, spread, spread, compare, compareItems, compare_int_self, Ordering.eq_then]

theorem compareItems_spreadFields_cons (k l : String) (a b : Value) (as bs : Document) :
    compareItems (spreadFields ((k, a) :: as)) (spreadFields ((l, b) :: bs)) =
      ((Ord.compare k l).then (compareDeeply a b)).then
        (compareItems (spreadFields as) (spreadFields bs)) := by
  change ((compare (.str k) (.str l)).then ((compareDeeply a b).then .eq)).then _ = _
  rw [compare_texts, Ordering.then_eq]

theorem rank_of_level (left : a.isOrdinary = true) (right : b.isOrdinary = true)
    (level : compare a b = .eq) : a.rank = b.rank := by
  have below : (compare a b).isLE = true := by simp [level]
  have above : (compare b a).isLE = true := by simp [compare_swap right left, level]
  exact Nat.le_antisymm (rank_le_of_isLE (compareScalar_isLE left right below))
    (rank_le_of_isLE (compareScalar_isLE right left above))

theorem isOrdinary_of_isComposed (scalar : a.isScalar = true) (composed : a.isComposed = true) :
    a.isOrdinary = true := by
  cases a <;> first | (cases composed; done) | (cases scalar; done) | rfl | exact composed

theorem composed_cases (composed : a.isComposed = true) :
    a.isScalar = true ∨ (∃ items, a = .list items) ∨ ∃ fields, a = .doc fields := by
  cases a with
  | list items => exact .inr (.inl ⟨items, rfl⟩)
  | doc fields => exact .inr (.inr ⟨fields, rfl⟩)
  | tuple | flat | anyOf | allOf | joinTo => cases composed
  | _ => exact .inl rfl

theorem spread_of_isScalar (scalar : a.isScalar = true) : a.spread = a := by
  cases a <;> first | rfl | cases scalar

theorem flat_of_isScalar (scalar : a.isScalar = true) : a.rank ≠ 4 ∧ a.rank ≠ 5 := by
  cases a <;> first | (cases scalar; done) | simp [rank]

theorem isScalar_of_isComposed (composed : a.isComposed = true) (fields : a.rank ≠ 4)
    (items : a.rank ≠ 5) : a.isScalar = true := by
  cases a with
  | doc => exact absurd rfl fields
  | list => exact absurd rfl items
  | tuple | flat | anyOf | allOf | joinTo => cases composed
  | _ => rfl

theorem order_of_scalars (scalar : a.isScalar = true) (left : a.isComposed = true)
    (right : b.isComposed = true) (level : a.rank = b.rank) :
    (same a b = true ↔ compare a b = .eq) ∧
      (same a b = false → order? a b = some (compare a b)) := by
  have flat := flat_of_isScalar scalar
  have other := isScalar_of_isComposed right (level ▸ flat.1) (level ▸ flat.2)
  by_cases empty : a.rank = 1
  · cases a with
    | null =>
      cases b with
      | null => exact ⟨⟨fun _ => rfl, fun _ => rfl⟩, nofun⟩
      | missing => cases right
      | _ => cases level
    | missing => cases left
    | _ => cases empty
  · have plain := order_of_isOrdinary (isOrdinary_of_isComposed scalar left)
      (isOrdinary_of_isComposed other right) level flat.2 empty
    exact ⟨plain.2, fun _ => plain.1⟩

theorem rank_of_compareDeeply (left : a.isComposed = true) (right : b.isComposed = true)
    (level : compareDeeply a b = .eq) : a.rank = b.rank := by
  have ranks := rank_of_level (isOrdinary_spread left) (isOrdinary_spread right) level
  have marks : compare (.int 5) (.int 4) ≠ .eq ∧ compare (.int 4) (.int 5) ≠ .eq := by
    decide +kernel
  rcases composed_cases left with here | ⟨as, rfl⟩ | ⟨as, rfl⟩ <;>
    rcases composed_cases right with there | ⟨bs, rfl⟩ | ⟨bs, rfl⟩
  · rwa [spread_of_isScalar here, spread_of_isScalar there] at ranks
  · exact absurd (spread_of_isScalar here ▸ ranks) (flat_of_isScalar here).2
  · exact absurd (spread_of_isScalar here ▸ ranks) (flat_of_isScalar here).2
  · exact absurd (spread_of_isScalar there ▸ ranks).symm (flat_of_isScalar there).2
  · rfl
  · rw [compareDeeply, spread, spread, compare, compareItems, Ordering.then_eq_eq] at level
    exact absurd level.1 marks.1
  · exact absurd (spread_of_isScalar there ▸ ranks).symm (flat_of_isScalar there).2
  · rw [compareDeeply, spread, spread, compare, compareItems, Ordering.then_eq_eq] at level
    exact absurd level.1 marks.2
  · rfl

theorem same_of_level_scalar (scalar : a.isScalar = true) (left : a.isComposed = true)
    (right : b.isComposed = true) (level : compareDeeply a b = .eq) : same a b = true := by
  have ranks := rank_of_compareDeeply left right level
  have flat := flat_of_isScalar scalar
  have other := isScalar_of_isComposed right (ranks ▸ flat.1) (ranks ▸ flat.2)
  rw [compareDeeply, spread_of_isScalar scalar, spread_of_isScalar other] at level
  exact (order_of_scalars scalar left right ranks).1.2 level

def Alike (as bs : Document) : Prop :=
  List.Forall₂ (fun f g => f.1 = g.1 ∧ same f.2 g.2 = true) as bs

theorem Alike.keys {as bs : Document} (h : Alike as bs) : Fields.keys as = Fields.keys bs := by
  induction h with
  | nil => rfl
  | cons first _ ih => simp_all [Fields.keys]

theorem Alike.compareFields {as bs : Document} (h : Alike as bs) :
    compareFields as bs = .eq := by
  induction h with
  | nil => rfl
  | cons first _ ih => simp [Value.compareFields, compareField, first.1, first.2, ih]

theorem Alike.exists_mem {as bs : Document} (h : Alike as bs) {key : String} {a : Value}
    (mem : (key, a) ∈ as) : ∃ b, (key, b) ∈ bs ∧ same a b = true := by
  induction h with
  | nil => cases mem
  | @cons f g _ _ first _ ih =>
    rcases List.mem_cons.1 mem with rfl | later
    · exact ⟨g.2, by simp [show key = g.1 from first.1], first.2⟩
    · obtain ⟨b, found, equal⟩ := ih later
      exact ⟨b, List.mem_cons_of_mem _ found, equal⟩

theorem Alike.same {as bs : Document} (h : Alike as bs) (distinct : (Fields.keys bs).Nodup) :
    same (.doc as) (.doc bs) = true := by
  rw [Value.same, Bool.and_eq_true, beq_iff_eq, sameFields_iff]
  refine ⟨h.length_eq, fun key a mem => ?_⟩
  obtain ⟨b, found, equal⟩ := h.exists_mem mem
  exact ⟨b, Fields.lookup_of_mem distinct found, equal⟩

mutual

theorem same_of_level : ∀ {a b : Value}, a.isComposed = true → b.isComposed = true →
    compareDeeply a b = .eq → same a b = true
  | .list as, b, left, right, level => by
    have ranks := rank_of_compareDeeply left right level
    cases b with
    | list bs => exact sameItems_of_level left right (compareDeeply_lists as bs ▸ level)
    | _ => cases ranks
  | .doc as, b, left, right, level => by
    have ranks := rank_of_compareDeeply left right level
    cases b with
    | doc bs =>
      rw [isComposed, Bool.and_eq_true, decide_eq_true_eq] at left right
      rw [compareDeeply_documents] at level
      exact (alike_of_level left.2 right.2 level).same right.1
    | _ => cases ranks
  | .null, b, left, right, level | .bool _, b, left, right, level | .int _, b, left, right, level
  | .double _, b, left, right, level | .str _, b, left, right, level
  | .bytes _, b, left, right, level | .timestamp _, b, left, right, level
  | .objectId _, b, left, right, level => same_of_level_scalar rfl left right level

theorem sameItems_of_level : ∀ {as bs : List Value}, areComposed as = true →
    areComposed bs = true → compareItems (spreadItems as) (spreadItems bs) = .eq →
    sameItems as bs = true
  | [], [], _, _, _ => rfl
  | [], _ :: _, _, _, level => by cases level
  | _ :: _, [], _, _, level => by cases level
  | a :: as, b :: bs, left, right, level => by
    rw [areComposed, Bool.and_eq_true] at left right
    rw [spreadItems, spreadItems, compareItems, Ordering.then_eq_eq] at level
    rw [sameItems, same_of_level left.1 right.1 level.1, sameItems_of_level left.2 right.2 level.2]
    rfl

theorem alike_of_level : ∀ {as bs : Document}, areComposedFields as = true →
    areComposedFields bs = true → compareItems (spreadFields as) (spreadFields bs) = .eq →
    Alike as bs
  | [], [], _, _, _ => .nil
  | [], _ :: _, _, _, level => by cases level
  | _ :: _, [], _, _, level => by cases level
  | (k, a) :: as, (l, b) :: bs, left, right, level => by
    rw [areComposedFields, Bool.and_eq_true] at left right
    rw [compareItems_spreadFields_cons, Ordering.then_eq_eq, Ordering.then_eq_eq] at level
    obtain ⟨⟨names, values⟩, rest⟩ := level
    exact .cons ⟨Std.LawfulEqCmp.eq_of_compare names, same_of_level left.1 right.1 values⟩
      (alike_of_level left.2 right.2 rest)

end

/-! ## Where the orders agree -/

mutual

/-- Whether two values are of one kind and, if they are documents, level at every depth. Of lists
the items are compared up to the first that differ. -/
def isAkin : Value → Value → Bool
  | .list as, .list bs => areAkin as bs
  | .doc as, .doc bs => compareDeeply (.doc as) (.doc bs) == .eq
  | a, b => a.rank == b.rank

def areAkin : List Value → List Value → Bool
  | a :: as, b :: bs => isAkin a b && (compare a b != .eq || areAkin as bs)
  | _, _ => true

end

/-- Whether fields of one name hold values of one kind, up to the first fields that differ. -/
def areAkinFields : Document → Document → Bool
  | (k, a) :: as, (l, b) :: bs =>
    k != l || isAkin a b && (compare a b != .eq || areAkinFields as bs)
  | _, _ => true

theorem compare_of_level {as bs : Document} (left : (Value.doc as).isComposed = true)
    (right : (Value.doc bs).isComposed = true)
    (level : compareDeeply (.doc as) (.doc bs) = .eq) : compare (.doc as) (.doc bs) = .eq := by
  rw [isComposed, Bool.and_eq_true] at left right
  rw [compareDeeply_documents] at level
  exact (alike_of_level left.2 right.2 level).compareFields

mutual

/-- Values that are akin are equal if they are level, and else in plain order. -/
theorem order_of_isAkin : ∀ {a b : Value}, a.isComposed = true → b.isComposed = true →
    isAkin a b = true → (same a b = true ↔ compare a b = .eq) ∧
      (same a b = false → order? a b = some (compare a b))
  | .list as, b, left, right, akin => by
    cases b with
    | list bs => exact orderItems_of_areAkin left right akin
    | _ => cases akin
  | .doc as, b, left, right, akin => by
    cases b with
    | doc bs =>
      have level := eq_of_beq akin
      have equal := same_of_level left right level
      rw [equal, compare_of_level left right level]
      exact ⟨by simp, nofun⟩
    | _ => cases akin
  | .null, b, left, right, akin | .bool _, b, left, right, akin | .int _, b, left, right, akin
  | .double _, b, left, right, akin | .str _, b, left, right, akin
  | .bytes _, b, left, right, akin | .timestamp _, b, left, right, akin
  | .objectId _, b, left, right, akin => order_of_scalars rfl left right (eq_of_beq akin)

theorem orderItems_of_areAkin : ∀ {as bs : List Value}, areComposed as = true →
    areComposed bs = true → areAkin as bs = true →
    (sameItems as bs = true ↔ compareItems as bs = .eq) ∧
      (sameItems as bs = false → orderItems? as bs = some (compareItems as bs))
  | [], [], _, _, _ => ⟨by simp [sameItems, compareItems], nofun⟩
  | [], _ :: _, _, _, _ => ⟨by simp [sameItems, compareItems], fun _ => rfl⟩
  | _ :: _, [], _, _, _ => ⟨by simp [sameItems, compareItems], fun _ => rfl⟩
  | a :: as, b :: bs, left, right, akin => by
    rw [areComposed, Bool.and_eq_true] at left right
    rw [areAkin, Bool.and_eq_true, Bool.or_eq_true, bne_iff_ne] at akin
    obtain ⟨level, order⟩ := order_of_isAkin left.1 right.1 akin.1
    rw [sameItems, orderItems?, compareItems]
    cases equal : same a b with
    | false =>
      have apart : compare a b ≠ .eq := fun h => by simp [level.2 h] at equal
      rw [order equal, then_of_ne apart]
      exact ⟨by simp [apart], fun _ => rfl⟩
    | true =>
      have heads := level.1 equal
      have rest := orderItems_of_areAkin left.2 right.2 (akin.2.resolve_left (not_not.2 heads))
      simpa [heads] using rest

end

theorem compareDeeply_of_scalar (scalar : a.isScalar = true) (right : b.isComposed = true)
    (level : a.rank = b.rank) : compareDeeply a b = compare a b := by
  have flat := flat_of_isScalar scalar
  have other := isScalar_of_isComposed right (level ▸ flat.1) (level ▸ flat.2)
  rw [compareDeeply, spread_of_isScalar scalar, spread_of_isScalar other]

mutual

theorem compareDeeply_of_isAkin : ∀ {a b : Value}, a.isComposed = true → b.isComposed = true →
    isAkin a b = true → compareDeeply a b = compare a b
  | .list as, b, left, right, akin => by
    cases b with
    | list bs =>
      rw [compareDeeply_lists]
      exact compareDeeply_of_areAkin left right akin
    | _ => cases akin
  | .doc as, b, left, right, akin => by
    cases b with
    | doc bs =>
      have level := eq_of_beq akin
      rw [level, compare_of_level left right level]
    | _ => cases akin
  | .null, b, left, right, akin | .bool _, b, left, right, akin | .int _, b, left, right, akin
  | .double _, b, left, right, akin | .str _, b, left, right, akin
  | .bytes _, b, left, right, akin | .timestamp _, b, left, right, akin
  | .objectId _, b, left, right, akin => compareDeeply_of_scalar rfl right (eq_of_beq akin)

theorem compareDeeply_of_areAkin : ∀ {as bs : List Value}, areComposed as = true →
    areComposed bs = true → areAkin as bs = true →
    compareItems (spreadItems as) (spreadItems bs) = compareItems as bs
  | [], [], _, _, _ => rfl
  | [], _ :: _, _, _, _ => rfl
  | _ :: _, [], _, _, _ => rfl
  | a :: as, b :: bs, left, right, akin => by
    rw [areComposed, Bool.and_eq_true] at left right
    rw [areAkin, Bool.and_eq_true, Bool.or_eq_true, bne_iff_ne] at akin
    have heads := compareDeeply_of_isAkin left.1 right.1 akin.1
    rw [spreadItems, spreadItems, compareItems, compareItems]
    change (compareDeeply a b).then _ = _
    rw [heads]
    rcases akin.2 with apart | later
    · rw [then_of_ne apart, then_of_ne apart]
    · rw [compareDeeply_of_areAkin left.2 right.2 later]

end

end Value

namespace Document

open Value (compareDeeply areAkinFields)

def compareByField : Document → Document → Ordering
  | [], [] => .eq
  | [], _ :: _ => .lt
  | _ :: _, [] => .gt
  | (k, a) :: as, (l, b) :: bs =>
    ((Ord.compare k l).then (Value.compare a b)).then (compareByField as bs)

theorem compareField_of_isAkin {k : String} {a b : Value} (left : a.isComposed = true)
    (right : b.isComposed = true) (akin : Value.isAkin a b = true) :
    Value.compareField (k, a) (k, b) = Value.compare a b := by
  obtain ⟨level, order⟩ := Value.order_of_isAkin left right akin
  unfold Value.compareField
  rw [if_neg (not_not.2 rfl)]
  cases equal : Value.same a b with
  | false => simp [order equal]
  | true => simp [level.1 equal]

theorem compareFields_of_areAkin : ∀ {as bs : Document}, Value.areComposedFields as = true →
    Value.areComposedFields bs = true → areAkinFields as bs = true →
    Value.compareFields as bs = compareByField as bs ∧
      Value.compareItems (Value.spreadFields as) (Value.spreadFields bs) = compareByField as bs
  | [], [], _, _, _ => ⟨rfl, rfl⟩
  | [], _ :: _, _, _, _ => ⟨rfl, rfl⟩
  | _ :: _, [], _, _, _ => ⟨rfl, rfl⟩
  | (k, a) :: as, (l, b) :: bs, left, right, akin => by
    rw [Value.areComposedFields, Bool.and_eq_true] at left right
    rw [areAkinFields, Bool.or_eq_true, bne_iff_ne, Bool.and_eq_true, Bool.or_eq_true,
      bne_iff_ne] at akin
    rw [Value.compareItems_spreadFields_cons, Value.compareFields, compareByField]
    by_cases names : k = l
    · subst names
      obtain ⟨kind, rest⟩ := akin.resolve_left (not_not.2 rfl)
      have level : Ord.compare k k = .eq := Std.ReflCmp.compare_self
      rw [compareField_of_isAkin left.1 right.1 kind,
        Value.compareDeeply_of_isAkin left.1 right.1 kind, level, Ordering.eq_then]
      rcases rest with apart | later
      · simp only [Value.then_of_ne apart, and_self]
      · obtain ⟨here, deep⟩ := compareFields_of_areAkin left.2 right.2 later
        rw [here, deep]
        exact ⟨rfl, rfl⟩
    · have apart : Ord.compare k l ≠ .eq := fun h => names (Std.LawfulEqCmp.eq_of_compare h)
      have first : Value.compareField (k, a) (l, b) = Ord.compare k l := if_pos names
      simp only [first, Value.then_of_ne apart, and_self]

/-- Documents whose fields of one name hold values of one kind are ordered field by field, which is
the order at every depth, and in one line. -/
theorem compare_fieldwise {c d e : Document} (first : (Value.doc c).isComposed = true)
    (left : (Value.doc d).isComposed = true) (right : (Value.doc e).isComposed = true)
    (akin : areAkinFields d e = true) :
    Value.compare (.doc d) (.doc e) = compareByField d e ∧
      compareByField d e = compareDeeply (.doc d) (.doc e) ∧
      (areAkinFields c d = true → areAkinFields c e = true →
        (Value.compare (.doc c) (.doc d)).isLE = true →
        (Value.compare (.doc d) (.doc e)).isLE = true →
        (Value.compare (.doc c) (.doc e)).isLE = true) := by
  have deep {d e : Document} (left : (Value.doc d).isComposed = true)
      (right : (Value.doc e).isComposed = true) (akin : areAkinFields d e = true) :
      Value.compare (.doc d) (.doc e) = compareByField d e ∧
        compareByField d e = compareDeeply (.doc d) (.doc e) := by
    rw [Value.isComposed, Bool.and_eq_true] at left right
    obtain ⟨plain, deep⟩ := compareFields_of_areAkin left.2 right.2 akin
    exact ⟨plain, deep.symm.trans (Value.compareDeeply_documents d e).symm⟩
  obtain ⟨plain, spelled⟩ := deep left right akin
  refine ⟨plain, spelled, fun before across below above => ?_⟩
  obtain ⟨plain', spelled'⟩ := deep first left before
  obtain ⟨plain'', spelled''⟩ := deep first right across
  rw [plain', spelled'] at below
  rw [plain, spelled] at above
  rw [plain'', spelled'']
  exact Value.compare_trans (Value.isOrdinary_spread first) (Value.isOrdinary_spread left)
    (Value.isOrdinary_spread right) below above

/-- Three documents, each with more to it than the one before. -/
theorem compare_fieldwise_ascending :
    let c : Document := [("a", .int 1)]
    let d : Document := [("a", .int 1), ("b", .list [.null, .doc [("x", .str "y")]])]
    let e : Document := [("a", .int 1), ("b", .list [.null, .doc [("x", .str "y")], .bool true])]
    (Value.doc c).isComposed = true ∧ (Value.doc d).isComposed = true ∧
      (Value.doc e).isComposed = true ∧ areAkinFields d e = true ∧
      Value.compare (.doc d) (.doc e) = compareByField d e ∧ compareByField d e = .lt ∧
      (Value.compare (.doc c) (.doc e)).isLE = true := by
  intro c d e
  have akin : areAkinFields d e = true := by decide +kernel
  have before : areAkinFields c d = true := by decide +kernel
  have across : areAkinFields c e = true := by decide +kernel
  have below : (Value.compare (.doc c) (.doc d)).isLE = true := by decide +kernel
  have above : compareByField d e = .lt := by decide +kernel
  obtain ⟨plain, -, through⟩ :=
    compare_fieldwise (c := c) (d := d) (e := e) (by decide) (by decide) (by decide) akin
  exact ⟨by decide, by decide, by decide, akin, plain, above,
    through before across below (by rw [plain, above]; rfl)⟩

/-- A number is below null here, and the documents with a truth value, a number and null in this
place go in a circle. -/
theorem unlike_fields :
    let with_ (v : Value) : Document := [("a", v)]
    let d := with_ (.int 2)
    let e := with_ .null
    let c := with_ (.bool true)
    Value.compare (.doc d) (.doc e) = .lt ∧ compareByField d e = .gt ∧
      Value.compare (.doc c) (.doc d) = .lt ∧ Value.compare (.doc e) (.doc c) = .lt := by
  decide +kernel

end Document
end Docbase
