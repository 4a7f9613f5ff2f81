import Docbase.Proofs.Value.Order

/-!
# The order of ordinary values

The order of stores is no order on all values: nothing is above or below a NaN, and values of unlike
types are told apart by their texts. Ordinary values have none of this, and the order ranks them all
in one line, with ties.

* `Value.compare_of_flat`: values that are not both lists are ordered by what they hold.
* `Value.compare_swap` and `Value.compare_trans` say the rest, with lists item by item.
* `Value.compare_total` puts the laws together.
-/

namespace Docbase

namespace Place

def side : Place → Nat
  | .bottom => 0
  | .units _ => 1
  | .top => 2

def amount : Place → Int
  | .units n => n
  | _ => 0

theorem compare_eq : compare = compareLex (compareOn side) (compareOn amount) := by
  funext p q
  cases p <;> cases q <;> rfl

instance : Std.TransCmp compare := by
  rw [compare_eq]
  infer_instance

@[simp]
theorem compare_self (p : Place) : p.compare p = .eq := by
  show compare p p = .eq
  exact Std.ReflCmp.compare_self

end Place

namespace Value

variable {a b c : Value}

mutual

/-- Whether a value is null, missing, a truth value, a number other than a NaN, a text, a byte
string, a timestamp without an offset, an object identifier, or a list of such values. -/
def isOrdinary : Value → Bool
  | .null | .missing | .bool _ | .int _ | .str _ | .bytes _ | .objectId _ => true
  | .double x => !x.isNaN
  | .timestamp t => t.offset.isNone
  | .list items => areOrdinary items
  | _ => false

def areOrdinary : List Value → Bool
  | [] => true
  | v :: rest => v.isOrdinary && areOrdinary rest

end

/-! ## Scalars -/

def place (v : Value) : Place :=
  match v.numeral? with
  | some (.at p) => p
  | _ => .bottom

def letters : Value → String
  | .str s => s
  | _ => ""

def octets : Value → List UInt8
  | .bytes octets => octets
  | _ => []

def clock : Value → Int
  | .timestamp t => t.clock
  | _ => 0

def serial : Value → Nat
  | .objectId id => id.number
  | _ => 0

/-- The order of kinds, and among values of one kind the order of what they hold. Lists are all
alike to it. -/
def compareScalar : Value → Value → Ordering :=
  compareLex (compareOn rank) <| compareLex (fun a b => a.place.compare b.place) <|
    compareLex (compareOn letters) <| compareLex (compareOn octets) <|
      compareLex (compareOn clock) (compareOn serial)

instance : Std.TransCmp fun a b : Value => a.place.compare b.place where
  eq_swap {a b} := @Std.OrientedCmp.eq_swap _ Place.compare _ a.place b.place
  isLE_trans {a b c} := @Std.TransCmp.isLE_trans _ Place.compare _ a.place b.place c.place

instance : Std.TransCmp compareScalar := by
  unfold compareScalar
  infer_instance

theorem compareScalar_of_rank_ne (differ : a.rank ≠ b.rank) :
    compareScalar a b = Ord.compare a.rank b.rank := by
  have apart : Ord.compare a.rank b.rank ≠ .eq := fun level => differ (Nat.compare_eq_eq.1 level)
  unfold compareScalar compareLex compareOn
  cases order : Ord.compare a.rank b.rank with
  | eq => exact absurd order apart
  | lt => rfl
  | gt => rfl

theorem rank_le_of_isLE (h : (compareScalar a b).isLE = true) : a.rank ≤ b.rank := by
  unfold compareScalar compareLex compareOn at h
  rcases Ordering.isLE_then_iff_or.1 h with below | ⟨level, -⟩
  · exact Nat.le_of_lt (Nat.compare_eq_lt.1 below)
  · exact Nat.le_of_eq (Nat.compare_eq_eq.1 level)

theorem numeral?_of_isOrdinary (ordinary : a.isOrdinary = true) (rank : a.rank = 2 ∨ a.rank = 8) :
    a.numeral? = some (.at a.place) := by
  cases a with
  | bool x => rfl
  | int n => rfl
  | double x =>
    cases x with
    | nan mark => cases ordinary
    | finite | infinite => rfl
  | _ => rcases rank with rank | rank <;> cases rank

theorem order?_of_numbers (left : a.isOrdinary = true) (right : b.isOrdinary = true)
    (level : a.rank = b.rank) (number : a.rank = 2 ∨ a.rank = 8) :
    order? a b = some (compareScalar a b) := by
  have leftPlace := numeral?_of_isOrdinary left number
  have rightPlace := numeral?_of_isOrdinary right (level ▸ number)
  obtain ⟨x, rfl⟩ | ⟨x, rfl⟩ | ⟨x, rfl⟩ := numeral?_cases leftPlace <;>
    obtain ⟨y, rfl⟩ | ⟨y, rfl⟩ | ⟨y, rfl⟩ := numeral?_cases rightPlace <;> cases level <;>
      simp [order?, orderScalar?, leftPlace, rightPlace, compareScalar, compareLex, compareOn, rank,
        letters, octets, clock, serial]

theorem order?_of_isOrdinary (left : a.isOrdinary = true) (right : b.isOrdinary = true)
    (level : a.rank = b.rank) (known : a.rank ≠ 1) (flat : a.rank ≠ 5) :
    order? a b = some (compareScalar a b) := by
  cases a with
  | null | missing => exact absurd rfl known
  | list items => exact absurd rfl flat
  | bool x => exact order?_of_numbers left right level (.inr rfl)
  | int n | double x => exact order?_of_numbers left right level (.inl rfl)
  | str s =>
    cases b with
    | str t =>
      simp [order?, orderScalar?, compareScalar, compareLex, compareOn, rank, place, numeral?,
        letters, octets, clock, serial]
    | _ => cases level
  | bytes s =>
    cases b with
    | bytes t =>
      simp [order?, orderScalar?, compareScalar, compareLex, compareOn, rank, place, numeral?,
        letters, octets, clock, serial]
    | _ => cases level
  | timestamp s =>
    cases b with
    | timestamp t =>
      rw [isOrdinary, Option.isNone_iff_eq_none] at left right
      simp [order?, orderScalar?, Timestamp.compare?, left, right, compareScalar, compareLex,
        compareOn, rank, place, numeral?, letters, octets, clock, serial]
    | _ => cases level
  | objectId s =>
    cases b with
    | objectId t =>
      simp [order?, orderScalar?, compareScalar, compareLex, compareOn, rank, place, numeral?,
        letters, octets, clock, serial]
    | pattern | tuple | flat | anyOf | allOf | joinTo => cases right
    | _ => cases level
  | _ => cases left

theorem compareScalar_of_rank_one (left : a.rank = 1) (right : b.rank = 1) :
    compareScalar a b = .eq := by
  cases a <;> cases left <;> cases b <;> cases right <;> rfl

theorem compare_of_flat (left : a.isOrdinary = true) (right : b.isOrdinary = true)
    (flat : ¬ (a.rank = 5 ∧ b.rank = 5)) : compare a b = compareScalar a b := by
  have unfolded : compare a b = compareFlat a b := by
    cases a <;> cases b <;> first | rfl | exact absurd ⟨rfl, rfl⟩ flat
  rw [unfolded]
  unfold compareFlat
  by_cases level : a.rank = b.rank
  · rw [if_neg (not_not.2 level)]
    split
    · cases left
    · by_cases empty : a.rank = 1
      · rw [if_pos empty, compareScalar_of_rank_one empty (level ▸ empty)]
      · have plain := order?_of_isOrdinary left right level empty fun list =>
          flat ⟨list, level ▸ list⟩
        rw [if_neg empty, plain]
  · rw [if_pos level, compareScalar_of_rank_ne level]

/-! ## Lists -/

theorem exists_list_of_rank (rank : a.rank = 5) : ∃ items, a = .list items := by
  cases a with
  | list items => exact ⟨items, rfl⟩
  | _ => cases rank

theorem compareScalar_isLE (left : a.isOrdinary = true) (right : b.isOrdinary = true)
    (h : (compare a b).isLE = true) : (compareScalar a b).isLE = true := by
  by_cases lists : a.rank = 5 ∧ b.rank = 5
  · obtain ⟨as, rfl⟩ := exists_list_of_rank lists.1
    obtain ⟨bs, rfl⟩ := exists_list_of_rank lists.2
    rfl
  · rwa [← compare_of_flat left right lists]

mutual

theorem compare_swap {a b : Value} (left : a.isOrdinary = true) (right : b.isOrdinary = true) :
    compare a b = (compare b a).swap := by
  by_cases lists : a.rank = 5 ∧ b.rank = 5
  · obtain ⟨as, rfl⟩ := exists_list_of_rank lists.1
    obtain ⟨bs, rfl⟩ := exists_list_of_rank lists.2
    exact compareItems_swap left right
  · rw [compare_of_flat left right lists, compare_of_flat right left (lists ∘ And.symm)]
    exact Std.OrientedCmp.eq_swap
termination_by sizeOf a

theorem compareItems_swap : ∀ {as bs : List Value}, areOrdinary as = true →
    areOrdinary bs = true → compareItems as bs = (compareItems bs as).swap
  | [], [], _, _ => rfl
  | [], _ :: _, _, _ => rfl
  | _ :: _, [], _, _ => rfl
  | a :: as, b :: bs, left, right => by
    rw [areOrdinary, Bool.and_eq_true] at left right
    rw [compareItems, compareItems, Ordering.swap_then, ← compare_swap left.1 right.1,
      ← compareItems_swap left.2 right.2]
termination_by as => sizeOf as

end

theorem compare_eq_of_isLE (left : a.isOrdinary = true) (right : b.isOrdinary = true)
    (below : (compare a b).isLE = true) (above : (compare b a).isLE = true) :
    compare a b = .eq := by
  rw [compare_swap right left] at above
  exact Ordering.eq_eq_of_isLE_of_isLE_swap below above

mutual

theorem compare_trans {a b c : Value} (left : a.isOrdinary = true) (middle : b.isOrdinary = true)
    (right : c.isOrdinary = true) (below : (compare a b).isLE = true)
    (above : (compare b c).isLE = true) : (compare a c).isLE = true := by
  have first := compareScalar_isLE left middle below
  have second := compareScalar_isLE middle right above
  by_cases lists : a.rank = 5 ∧ c.rank = 5
  · -- What stands between two lists is a list.
    have between : b.rank = 5 :=
      Nat.le_antisymm (lists.2 ▸ rank_le_of_isLE second) (lists.1 ▸ rank_le_of_isLE first)
    obtain ⟨as, rfl⟩ := exists_list_of_rank lists.1
    obtain ⟨bs, rfl⟩ := exists_list_of_rank between
    obtain ⟨cs, rfl⟩ := exists_list_of_rank lists.2
    exact compareItems_trans left middle right below above
  · rw [compare_of_flat left right lists]
    exact Std.TransCmp.isLE_trans first second
termination_by sizeOf a + sizeOf b + sizeOf c

theorem compareItems_trans : ∀ {as bs cs : List Value}, areOrdinary as = true →
    areOrdinary bs = true → areOrdinary cs = true → (compareItems as bs).isLE = true →
    (compareItems bs cs).isLE = true → (compareItems as cs).isLE = true
  | [], _, [], _, _, _, _, _ => rfl
  | [], _, _ :: _, _, _, _, _, _ => rfl
  | _ :: _, [], _, _, _, _, below, _ => by cases below
  | _ :: _, _ :: _, [], _, _, _, _, above => by cases above
  | a :: as, b :: bs, c :: cs, left, middle, right, below, above => by
    rw [areOrdinary, Bool.and_eq_true] at left middle right
    rw [compareItems, Ordering.isLE_then_iff_and] at below above ⊢
    have heads := compare_trans left.1 middle.1 right.1 below.1 above.1
    refine ⟨heads, ?_⟩
    rcases Ordering.isLE_iff_eq_lt_or_eq_eq.1 heads with apart | level
    · exact .inl apart
    · -- Heads that are level leave no room for the one between them.
      have back : (compare c a).isLE = true := by
        rw [compare_swap right.1 left.1, level]
        rfl
      have up := compare_trans middle.1 right.1 left.1 above.1 back
      have down := compare_trans right.1 left.1 middle.1 back below.1
      have first := compare_eq_of_isLE left.1 middle.1 below.1 up
      have second := compare_eq_of_isLE middle.1 right.1 above.1 down
      have below' := below.2.resolve_left (first ▸ nofun)
      have above' := above.2.resolve_left (second ▸ nofun)
      exact .inr (compareItems_trans left.2 middle.2 right.2 below' above')
termination_by as bs cs => sizeOf as + sizeOf bs + sizeOf cs

end

/-- Ordinary values are ordered in one line, with ties. -/
theorem compare_total (left : a.isOrdinary = true) (middle : b.isOrdinary = true)
    (right : c.isOrdinary = true) :
    compare a a = .eq ∧ compare a b = (compare b a).swap ∧
      ((compare a b).isLE = true → (compare b c).isLE = true → (compare a c).isLE = true) := by
  refine ⟨?_, compare_swap left middle, compare_trans left middle right⟩
  have turned := compare_swap left left
  cases order : compare a a with
  | eq => rfl
  | lt | gt =>
    rw [order] at turned
    cases turned

/-- Lists with unlike items, one of them shorter. -/
theorem compare_total_lists :
    let a : Value := .list [.double (.finite true 1), .missing]
    let b : Value := .list [.int 0, .bool true]
    let c : Value := .list [.int 0, .bool true, .list []]
    a.isOrdinary = true ∧ b.isOrdinary = true ∧ c.isOrdinary = true ∧
      compare a b = .lt ∧ compare b c = .lt ∧ (compare a c).isLE = true := by
  intro a b c
  have below : compare a b = .lt := by decide +kernel
  have above : compare b c = .lt := by decide +kernel
  obtain ⟨-, -, through⟩ := compare_total (a := a) (b := b) (c := c) rfl rfl rfl
  exact ⟨rfl, rfl, rfl, below, above, through (by rw [below]; rfl) (by rw [above]; rfl)⟩

end Value
end Docbase
