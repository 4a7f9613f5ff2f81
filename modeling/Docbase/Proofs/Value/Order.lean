import Docbase.Proofs.Filter
import Docbase.Proofs.Value.Proper

/-!
# Equality and order

Values can be equal and still differ in the order of stores, which keeps truth values apart from
numbers and goes by the order of the fields of a document. `Value.kindred` says of equal values that
they do not differ in these ways, and then a filter takes the one for the other.
-/

namespace Docbase

namespace Value

variable {a b : Value}

mutual

/-- Whether two values are of one kind: of one rank and, if they are documents, with their fields in
one order. -/
def kindred : Value → Value → Bool
  | .list as, .list bs => kindredItems as bs
  | .doc as, .doc bs => Fields.keys as == Fields.keys bs
  | .flat as, b => text (.flat as) == b.text
  | .anyOf as, b => text (.anyOf as) == b.text
  | .allOf as, b => text (.allOf as) == b.text
  | .joinTo a c, b => text (.joinTo a c) == b.text
  | a, b => a.rank == b.rank

def kindredItems : List Value → List Value → Bool
  | a :: as, b :: bs => kindred a b && kindredItems as bs
  | _, _ => true

end

mutual

theorem kindred_self : ∀ v : Value, kindred v v = true
  | .list items => kindredItems_self items
  | .doc _ | .flat _ | .anyOf _ | .allOf _ | .joinTo _ _ => beq_self_eq_true _
  | .null | .missing | .bool _ | .int _ | .double _ | .str _ | .bytes _ | .timestamp _
  | .objectId _ | .pattern _ | .tuple _ => rfl

theorem kindredItems_self : ∀ items : List Value, kindredItems items items = true
  | [] => rfl
  | v :: rest => by rw [kindredItems, kindred_self v, kindredItems_self rest, Bool.and_self]

end

/-! ## Scalars -/

theorem numeral?_cases {m : Numeral} (h : a.numeral? = some m) :
    (∃ x, a = .bool x) ∨ (∃ n, a = .int n) ∨ ∃ x, a = .double x := by
  cases a with
  | bool x => exact .inl ⟨x, rfl⟩
  | int n => exact .inr (.inl ⟨n, rfl⟩)
  | double x => exact .inr (.inr ⟨x, rfl⟩)
  | _ => cases h

theorem orderScalar?_of_numeral {m : Numeral} (left : a.numeral? = some m)
    (right : b.numeral? = some m) : orderScalar? a b = some .eq := by
  have place (p : Place) : p.compare p = .eq := by
    cases p <;> simp [Place.compare]
  obtain ⟨x, rfl⟩ | ⟨n, rfl⟩ | ⟨x, rfl⟩ := numeral?_cases left <;>
    obtain ⟨y, rfl⟩ | ⟨k, rfl⟩ | ⟨y, rfl⟩ := numeral?_cases right <;>
      cases m <;> simp [orderScalar?, left, right, place]

theorem orderScalar?_of_same (h : sameScalar a b = true) :
    orderScalar? a b = some .eq ∨ orderScalar? a b = none ∧ a = b := by
  unfold sameScalar at h
  split at h
  · exact .inr ⟨rfl, rfl⟩
  · exact .inr ⟨rfl, rfl⟩
  · obtain rfl := eq_of_beq h
    exact .inl (congrArg some Std.ReflCmp.compare_self)
  · obtain rfl := eq_of_beq h
    exact .inl (congrArg some Std.ReflCmp.compare_self)
  · exact .inl (eq_of_beq h)
  · obtain rfl := eq_of_beq h
    exact .inl (congrArg some Std.ReflCmp.compare_self)
  · obtain rfl := eq_of_beq h
    exact .inr ⟨rfl, rfl⟩
  · split at h
    · rename_i left right
      obtain rfl := eq_of_beq h
      exact .inl (orderScalar?_of_numeral left right)
    · cases h

def isScalar : Value → Bool
  | .tuple _ | .list _ | .doc _ | .flat _ | .anyOf _ | .allOf _ | .joinTo _ _ => false
  | _ => true

theorem same_of_isScalar (scalar : a.isScalar = true) (b : Value) :
    same a b = sameScalar a b := by
  cases a <;> cases b <;> first | rfl | cases scalar

theorem order?_of_isScalar (scalar : a.isScalar = true) (b : Value) :
    order? a b = orderScalar? a b := by
  cases a <;> cases b <;> first | rfl | cases scalar

/-! ## Containers -/

theorem orderItems?_of_same {as bs : List Value} (h : sameItems as bs = true) :
    orderItems? as bs = some .eq := by
  induction as generalizing bs with
  | nil =>
    cases bs with
    | nil => rfl
    | cons b bs => cases h
  | cons a as ih =>
    cases bs with
    | nil => cases h
    | cons b bs =>
      rw [sameItems, Bool.and_eq_true] at h
      rw [orderItems?, if_pos h.1]
      exact ih h.2

theorem compareFields_of_same {as bs : List (String × Value)}
    (names : Fields.keys as = Fields.keys bs)
    (values : ∀ key a b, (key, a) ∈ as → (key, b) ∈ bs → same a b = true) :
    compareFields as bs = .eq := by
  induction as generalizing bs with
  | nil =>
    cases bs with
    | nil => rfl
    | cons g bs => cases names
  | cons f as ih =>
    cases bs with
    | nil => cases names
    | cons g bs =>
      obtain ⟨k, a⟩ := f
      obtain ⟨l, b⟩ := g
      simp only [Fields.keys, List.map_cons, List.cons.injEq] at names
      obtain ⟨rfl, others⟩ := names
      have here : same a b = true := values k a b List.mem_cons_self List.mem_cons_self
      have later : compareFields as bs = .eq := ih others fun key a b mem mem' =>
        values key a b (List.mem_cons_of_mem _ mem) (List.mem_cons_of_mem _ mem')
      simp [compareFields, compareField, here, later]

theorem compareFlat_of_order (rank : a.rank = b.rank) (plain : ∀ fields, a ≠ .doc fields)
    (h : order? a b = some .eq ∨ order? a b = none ∧ a.text = b.text) :
    compareFlat a b = .eq := by
  unfold compareFlat
  rw [if_neg (not_not.2 rank)]
  split
  · exact absurd rfl (plain _)
  · split
    · rfl
    · rcases h with order | ⟨order, texts⟩
      · rw [order]
      · rw [order, texts]
        exact (Std.ReflCmp.compare_self : Ord.compare b.text b.text = .eq)

mutual

/-- Equal values of one kind have one rank, and one place in the order. -/
theorem compare_of_same : ∀ {a b : Value}, b.isProper = true → kindred a b = true →
    same a b = true → a.rank = b.rank ∧ compare a b = .eq
  | .list as, b, proper, kind, h => by
    cases b with
    | list bs => exact ⟨rfl, compareItems_of_same proper kind h⟩
    | _ => cases h
  | .doc as, b, proper, kind, h => by
    cases b with
    | doc bs =>
      have distinct := (isProper_doc.1 proper).nodup
      have fields := sameFields_iff.1 (Bool.and_eq_true _ _ ▸ h).2
      -- Equality finds a field by its key, the order by its place; of distinct keys there is one.
      refine ⟨rfl, compareFields_of_same (eq_of_beq kind) ?_⟩
      intro key a b mem mem'
      obtain ⟨b', found, same⟩ := fields key a mem
      obtain rfl : b' = b := Option.some.inj (found.symm.trans (Fields.lookup_of_mem distinct mem'))
      exact same
    | _ => cases h
  | .tuple as, b, _, kind, h => by
    cases b with
    | tuple bs =>
      exact ⟨rfl, compareFlat_of_order rfl nofun (.inl (orderItems?_of_same h))⟩
    | _ => cases h
  | .flat _, b, _, kind, h | .anyOf _, b, _, kind, h | .allOf _, b, _, kind, h
  | .joinTo _ _, b, _, kind, h => by
    cases b with
    | flat | anyOf | allOf | joinTo =>
      exact ⟨rfl, compareFlat_of_order rfl nofun (.inr ⟨rfl, eq_of_beq kind⟩)⟩
    | _ => cases h
  | .null, b, _, kind, h | .missing, b, _, kind, h | .bool _, b, _, kind, h
  | .int _, b, _, kind, h | .double _, b, _, kind, h | .str _, b, _, kind, h
  | .bytes _, b, _, kind, h | .timestamp _, b, _, kind, h | .objectId _, b, _, kind, h
  | .pattern _, b, _, kind, h => by
    have rank := eq_of_beq kind
    refine ⟨rank, compareFlat_of_order rank nofun ?_⟩
    rw [same_of_isScalar rfl] at h
    rw [order?_of_isScalar rfl]
    exact (orderScalar?_of_same h).imp_right fun ⟨undefined, same⟩ =>
      ⟨undefined, congrArg text same⟩

theorem compareItems_of_same : ∀ {as bs : List Value}, areProper bs = true →
    kindredItems as bs = true → sameItems as bs = true → compareItems as bs = .eq
  | [], [], _, _, _ => rfl
  | [], _ :: _, _, _, h => by cases h
  | _ :: _, [], _, _, h => by cases h
  | a :: as, b :: bs, proper, kind, h => by
    rw [areProper, Bool.and_eq_true] at proper
    rw [kindredItems, Bool.and_eq_true] at kind
    rw [sameItems, Bool.and_eq_true] at h
    rw [compareItems, (compare_of_same proper.1 kind.1 h.1).2]
    exact compareItems_of_same proper.2 kind.2 h.2

end

end Value

namespace Filter

open Value (kindred same)

variable {v expected : Value}

theorem isEqual_of_same (proper : expected.isProper = true) (kind : kindred v expected = true)
    (h : same v expected = true) : isEqual v expected = true := by
  obtain ⟨rank, order⟩ := Value.compare_of_same proper kind h
  have accepted : (candidates v).any
      (fun c => c.rank == expected.rank && c.compare expected == .eq) = true := by
    rw [List.any_eq_true]
    refine ⟨v, ?_, by simp [rank, order]⟩
    cases v <;> simp [candidates]
  cases expected with
  | null =>
    cases v with
    | null => rfl
    | double x => cases x <;> cases h
    | _ => cases h
  | _ => exact accepted

theorem isEqual_self (proper : v.isProper = true) : isEqual v v = true :=
  isEqual_of_same proper (Value.kindred_self v) (Value.same_refl proper)

end Filter
end Docbase
