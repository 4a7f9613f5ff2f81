import Docbase.Proofs.Value.Ordinary

namespace Docbase

theorem Place.eq_of_compare {p q : Place} (level : p.compare q = .eq) : p = q := by
  cases p <;> cases q <;> simp_all [Place.compare]

namespace Value

variable {a b c v : Value} {o : Ordering}

theorem isNaN_of_numeral {mark : Nat} (h : a.numeral? = some (.nan mark)) : a.isNaN = true := by
  obtain ⟨x, rfl⟩ | ⟨n, rfl⟩ | ⟨x, rfl⟩ := numeral?_cases h
  · cases h
  · cases h
  · cases x <;> first | rfl | cases h

theorem exists_mark (h : a.isNaN = true) : ∃ mark, a = .double (.nan mark) := by
  cases a with
  | double x =>
    cases x with
    | nan mark => exact ⟨mark, rfl⟩
    | _ => cases h
  | _ => cases h

theorem exists_numeral (number : a.rank = 2 ∨ a.rank = 8) : ∃ m, a.numeral? = some m := by
  cases a with
  | bool x => exact ⟨_, rfl⟩
  | int n => exact ⟨_, rfl⟩
  | double x => cases x <;> exact ⟨_, rfl⟩
  | _ => rcases number with number | number <;> cases number

theorem orderScalar?_of_numerals {m n : Numeral} (left : a.numeral? = some m)
    (right : b.numeral? = some n) : orderScalar? a b = some (match m, n with
      | .at p, .at q => p.compare q
      | _, _ => .eq) := by
  obtain ⟨x, rfl⟩ | ⟨x, rfl⟩ | ⟨x, rfl⟩ := numeral?_cases left <;>
    obtain ⟨y, rfl⟩ | ⟨y, rfl⟩ | ⟨y, rfl⟩ := numeral?_cases right <;>
      cases m <;> cases n <;> simp [orderScalar?, left, right]

theorem sameScalar_of_numerals {m n : Numeral} (left : a.numeral? = some m)
    (right : b.numeral? = some n) : sameScalar a b = (m == n) := by
  obtain ⟨x, rfl⟩ | ⟨x, rfl⟩ | ⟨x, rfl⟩ := numeral?_cases left <;>
    obtain ⟨y, rfl⟩ | ⟨y, rfl⟩ | ⟨y, rfl⟩ := numeral?_cases right <;>
      simp [sameScalar, left, right]

theorem sameScalar_of_level (level : orderScalar? a b = some .eq) (left : a.isNaN = false)
    (right : b.isNaN = false) : sameScalar a b = true := by
  unfold orderScalar? at level
  split at level
  · rename_i s t
    have equal : s = t := Std.LawfulEqCmp.eq_of_compare (Option.some.inj level)
    simp [sameScalar, equal]
  · rename_i s t
    have equal : s = t := Std.LawfulEqCmp.eq_of_compare (Option.some.inj level)
    simp [sameScalar, equal]
  · simp [sameScalar, level]
  · rename_i s t
    have equal : s.number = t.number := Std.LawfulEqCmp.eq_of_compare (Option.some.inj level)
    cases s
    cases t
    simp_all [sameScalar]
  · split at level
    · rename_i p q here there
      rw [sameScalar_of_numerals here there, Place.eq_of_compare (Option.some.inj level)]
      exact beq_self_eq_true _
    · rename_i m n other here there
      cases m with
      | nan mark => simp [isNaN_of_numeral here] at left
      | «at» p =>
        cases n with
        | nan mark => simp [isNaN_of_numeral there] at right
        | «at» q => exact (other p q rfl rfl).elim
    · cases level

theorem sameScalar_iff_of_order (order : orderScalar? a b = some o) (left : a.isNaN = false)
    (right : b.isNaN = false) : sameScalar a b = true ↔ o = .eq := by
  constructor
  · intro same
    rcases orderScalar?_of_same same with level | ⟨undefined, -⟩
    · rw [level] at order
      exact (Option.some.inj order).symm
    · rw [undefined] at order
      cases order
  · rintro rfl
    exact sameScalar_of_level order left right

theorem compare_of_rank (scalar : a.isScalar = true) (level : a.rank = b.rank)
    (known : a.rank ≠ 1) :
    compare a b = (orderScalar? a b).getD (Ord.compare a.text b.text) := by
  have unfolded : compare a b = compareFlat a b := by
    cases a <;> first | rfl | cases scalar
  have plain (fields : List (String × Value)) : a ≠ .doc fields := by
    rintro rfl
    cases scalar
  rw [unfolded]
  unfold compareFlat
  rw [if_neg (not_not.2 level)]
  split
  · exact absurd rfl (plain _)
  · rw [if_neg known, order?_of_isScalar scalar]
    cases orderScalar? a b <;> rfl

theorem compare_of_order (scalar : a.isScalar = true) (level : a.rank = b.rank)
    (known : a.rank ≠ 1) (order : orderScalar? a b = some o) : compare a b = o := by
  rw [compare_of_rank scalar level known, order, Option.getD_some]

/-! ## Truth values, numbers and texts -/

def isBasic : Value → Bool
  | .bool _ | .int _ | .double _ | .str _ => true
  | _ => false

theorem rank_of_isBasic (basic : v.isBasic = true) : v.rank = 2 ∨ v.rank = 3 ∨ v.rank = 8 := by
  cases v <;> simp_all [isBasic, rank]

theorem isScalar_of_rank (known : c.rank = 2 ∨ c.rank = 3 ∨ c.rank = 8) : c.isScalar = true := by
  cases c <;> first | rfl | simp [rank] at known

theorem exists_order (basic : v.isBasic = true) (level : c.rank = v.rank) :
    ∃ o, orderScalar? c v = some o ∧ (c.isNaN = true ∨ v.isNaN = true → o = .eq) := by
  by_cases number : v.rank = 2 ∨ v.rank = 8
  · obtain ⟨m, left⟩ := exists_numeral (level ▸ number)
    obtain ⟨n, right⟩ := exists_numeral number
    refine ⟨_, orderScalar?_of_numerals left right, ?_⟩
    rintro (marked | marked)
    · obtain ⟨mark, rfl⟩ := exists_mark marked
      obtain rfl := Option.some.inj left
      rfl
    · obtain ⟨mark, rfl⟩ := exists_mark marked
      obtain rfl := Option.some.inj right
      cases m <;> rfl
  · cases v with
    | str s =>
      cases c with
      | str t => exact ⟨_, rfl, nofun⟩
      | _ => cases level
    | bool | int | double => simp [rank] at number
    | _ => cases basic

theorem compare_eq_iff (basic : v.isBasic = true) (level : c.rank = v.rank) :
    compare c v = .eq ↔ c.equals v = true ∨ c.isNaN = true ∨ v.isNaN = true := by
  have ranks := rank_of_isBasic basic
  have scalar : c.isScalar = true := isScalar_of_rank (level ▸ ranks)
  have known : c.rank ≠ 1 := by omega
  obtain ⟨o, order, level_of_nan⟩ := exists_order basic level
  rw [compare_of_order scalar level known order, equals, same_of_isScalar scalar]
  cases left : c.isNaN with
  | true => simp [level_of_nan (.inl left)]
  | false =>
    cases right : v.isNaN with
    | true => simp [level_of_nan (.inr right)]
    | false => simp [sameScalar_iff_of_order order left right]

end Value
end Docbase
