import Docbase.Double.Shortest
import Mathlib.Algebra.Order.Field.Power
import Mathlib.Data.Rat.Cast.Order
import Mathlib.Tactic.Linarith
import Mathlib.Tactic.NormNum
import Mathlib.Tactic.Positivity
import Mathlib.Tactic.Ring

/-!
# Shortest decimals tell doubles apart

The reals that round to a double are an interval around it, and the intervals of two doubles do not
meet. The shortest decimal of a double is in its interval, so no two doubles have it in common.
-/

namespace Docbase.Double

variable {units other n : Nat} {d : Decimal} {i : Interval} {v : ℚ}

/-! ## Decimals and intervals -/

def Decimal.value (d : Decimal) : ℚ := d.digits * 10 ^ d.exponent

def Decimal.scaled (d : Decimal) : ℚ := d.value * (4 * unitsPerOne)

def Interval.Holds (i : Interval) (v : ℚ) : Prop :=
  if i.closed then (i.low : ℚ) ≤ v ∧ v ≤ i.high else (i.low : ℚ) < v ∧ v < i.high

theorem unitsPerOne_pos : (0 : ℚ) < unitsPerOne := by
  have positive : 0 < unitsPerOne := by decide +kernel
  exact Nat.cast_pos.2 positive

namespace Decimal

theorem quarters_snd_pos (d : Decimal) : (0 : ℚ) < d.quarters.2 := by
  unfold quarters
  split
  · norm_num
  · have positive (e : Nat) : 0 < Nat.pow 10 e := Nat.pow_pos (by decide)
    exact_mod_cast positive _

theorem quarters_eq_scaled (d : Decimal) : (d.quarters.1 : ℚ) / d.quarters.2 = d.scaled := by
  unfold quarters scaled value
  split
  · rename_i e exponent
    rw [exponent]
    simp only [Nat.pow_eq, zpow_natCast, Int.ofNat_eq_natCast]
    push_cast
    ring
  · rename_i e exponent
    rw [exponent]
    simp only [Nat.pow_eq, zpow_negSucc]
    push_cast
    ring

theorem inside_iff : d.inside i = true ↔ i.Holds d.scaled := by
  have positive := d.quarters_snd_pos
  rw [← quarters_eq_scaled]
  unfold inside Interval.Holds
  simp only [le_div_iff₀ positive, div_le_iff₀ positive, lt_div_iff₀ positive,
    div_lt_iff₀ positive]
  norm_cast
  split <;> simp

end Decimal

/-! ## Intervals -/

def ulp (units : Nat) : Nat := 2 ^ (Nat.log2 units - 52)

def significand (units : Nat) : Nat := units / ulp units

/-- Whether so many units take no more than 53 binary digits, with zeros after them. -/
def IsRepresentable (units : Nat) : Prop := ulp units ∣ units

instance : Decidable (IsRepresentable units) := inferInstanceAs (Decidable (_ ∣ _))

def reach (units : Nat) : Nat :=
  if significand units = 2 ^ 52 ∧ 1 < ulp units then ulp units else 2 * ulp units

theorem ulp_pos (units : Nat) : 0 < ulp units := Nat.pow_pos (by decide)

theorem interval_eq (units : Nat) : interval units =
    { low := 4 * units - reach units, high := 4 * units + 2 * ulp units,
      closed := significand units % 2 == 0 } := by
  have coarse : 0 < Nat.log2 units - 52 ↔ 1 < ulp units := by
    rw [ulp, Nat.one_lt_two_pow_iff, Nat.pos_iff_ne_zero]
  unfold interval reach
  simp only [coarse]
  rfl

theorem lt_of_ulp (units : Nat) : units < 2 ^ 53 * ulp units := by
  have bound : units < 2 ^ (Nat.log2 units + 1) := Nat.lt_log2_self
  refine lt_of_lt_of_le bound ?_
  rw [ulp, ← Nat.pow_add]
  exact Nat.pow_le_pow_right (by decide) (by omega)

theorem le_of_one_lt_ulp (coarse : 1 < ulp units) : 2 ^ 52 * ulp units ≤ units := by
  rw [ulp, Nat.one_lt_two_pow_iff] at coarse
  have nonzero : units ≠ 0 := by
    rintro rfl
    simp at coarse
  refine le_trans ?_ (Nat.log2_self_le nonzero)
  rw [ulp, ← Nat.pow_add]
  exact Nat.pow_le_pow_right (by decide) (by omega)

theorem ulp_le (nonzero : units ≠ 0) : ulp units ≤ units := by
  by_cases coarse : 1 < ulp units
  · have := le_of_one_lt_ulp coarse
    omega
  · omega

theorem reach_le (nonzero : units ≠ 0) : reach units ≤ 4 * units := by
  have := ulp_le nonzero
  unfold reach
  split <;> omega

theorem ulp_cases (le : units ≤ other) :
    ulp units = ulp other ∨ 2 * ulp units ≤ ulp other := by
  have logs : Nat.log2 units ≤ Nat.log2 other := by
    by_cases zero : units = 0
    · simp [zero]
    · exact (Nat.le_log2 (by omega)).2 ((Nat.log2_self_le zero).trans le)
  rcases Nat.eq_or_lt_of_le (Nat.sub_le_sub_right logs 52) with same | more
  · exact .inl (congrArg (2 ^ ·) same)
  · refine .inr ?_
    rw [ulp, ← Nat.pow_succ']
    exact Nat.pow_le_pow_right (by decide) more

theorem significand_mul (representable : IsRepresentable units) :
    significand units * ulp units = units :=
  Nat.div_mul_cancel representable

theorem significand_lt (units : Nat) : significand units < 2 ^ 53 :=
  Nat.div_lt_of_lt_mul (Nat.mul_comm _ _ ▸ lt_of_ulp units)

theorem le_significand (coarse : 1 < ulp units) : 2 ^ 52 ≤ significand units :=
  (Nat.le_div_iff_mul_le (ulp_pos units)).2 (le_of_one_lt_ulp coarse)

theorem high_le_low (representable : IsRepresentable units) (representable' : IsRepresentable other)
    (lt : units < other) :
    4 * units + 2 * ulp units + reach other < 4 * other ∨
      4 * units + 2 * ulp units + reach other = 4 * other ∧
        significand units % 2 + significand other % 2 = 1 := by
  have fine := ulp_pos units
  have split := significand_mul representable
  have split' := significand_mul representable'
  rcases ulp_cases (Nat.le_of_lt lt) with same | more
  · -- Doubles with one unit of the last place are apart by some of these.
    rw [← same] at split'
    have less : significand units < significand other := by
      refine Nat.lt_of_mul_lt_mul_right (a := ulp units) ?_
      rwa [split, split']
    have whole : reach other = 2 * ulp units := by
      rw [reach, ← same]
      refine if_neg fun ⟨least, coarse⟩ => ?_
      have := le_significand coarse
      omega
    rw [whole]
    rcases Nat.eq_or_lt_of_le (Nat.succ_le_of_lt less) with next | later
    · rw [← next, Nat.succ_mul, split] at split'
      exact .inr ⟨by omega, by omega⟩
    · have apart := Nat.mul_le_mul_right (ulp units) later
      rw [split', Nat.succ_mul, Nat.succ_mul, split] at apart
      exact .inl (by omega)
  · -- The greater one has a greater unit, and takes all of its digits.
    have low : 2 ^ 52 ≤ significand other := le_significand (by omega)
    have high := significand_lt units
    have below := Nat.mul_le_mul_right (ulp units) (Nat.le_sub_one_of_lt high)
    rw [split] at below
    by_cases least : significand other = 2 ^ 52
    · have reached : reach other = ulp other := if_pos ⟨least, by omega⟩
      rw [least] at split'
      by_cases last : significand units = 2 ^ 53 - 1
      · omega
      · have few : significand units ≤ 2 ^ 53 - 2 := by omega
        have below' := Nat.mul_le_mul_right (ulp units) few
        rw [split] at below'
        omega
    · have reached : reach other = 2 * ulp other := if_neg fun h => least h.1
      have more' : 2 ^ 52 + 1 ≤ significand other := by omega
      have above := Nat.mul_le_mul_right (ulp other) more'
      rw [split'] at above
      omega

theorem interval_disjoint_of_lt (representable : IsRepresentable units)
    (representable' : IsRepresentable other) (lt : units < other)
    (here : (interval units).Holds v) : ¬(interval other).Holds v := by
  intro there
  have bound : reach other ≤ 4 * other := reach_le (by omega)
  rw [interval_eq] at here there
  simp only [Interval.Holds, beq_iff_eq] at here there
  have upper : v ≤ (4 * units + 2 * ulp units : Nat) := by
    split at here
    · exact here.2
    · exact here.2.le
  have lower : ((4 * other - reach other : Nat) : ℚ) ≤ v := by
    split at there
    · exact there.1
    · exact there.1.le
  have meet : ((4 * other - reach other : Nat) : ℚ) ≤ (4 * units + 2 * ulp units : Nat) :=
    lower.trans upper
  rw [Nat.cast_le] at meet
  rcases high_le_low representable representable' lt with apart | ⟨same, odd⟩
  · omega
  · -- The one number that is left is an end of both, and one of the ends is left out.
    have ends : 4 * other - reach other = 4 * units + 2 * ulp units := by omega
    rw [ends] at there lower
    have only : v = (4 * units + 2 * ulp units : Nat) := le_antisymm upper lower
    rw [only] at here there
    split at here
    · rw [if_neg (by omega)] at there
      exact lt_irrefl _ there.1
    · exact lt_irrefl _ here.2

/-- No number rounds to two doubles. -/
theorem interval_disjoint (representable : IsRepresentable units)
    (representable' : IsRepresentable other) (here : (interval units).Holds v)
    (there : (interval other).Holds v) : units = other := by
  rcases Nat.lt_trichotomy units other with lt | same | gt
  · exact absurd there (interval_disjoint_of_lt representable representable' lt here)
  · exact same
  · exact absurd here (interval_disjoint_of_lt representable' representable gt there)

/-! ## Seventeen digits -/

theorem length_toDigits_bounds (positive : 0 < n) :
    10 ^ ((Nat.toDigits 10 n).length - 1) ≤ n ∧ n < 10 ^ (Nat.toDigits 10 n).length := by
  have some_digit : 0 < (Nat.toDigits 10 n).length := Nat.length_toDigits_pos
  refine ⟨?_, (Nat.length_toDigits_le_iff (by decide) some_digit).1 le_rfl⟩
  rcases Nat.eq_zero_or_pos ((Nat.toDigits 10 n).length - 1) with one | more
  · rwa [one]
  · by_contra less
    have fewer := (Nat.length_toDigits_le_iff (by decide) more).2 (Nat.lt_of_not_le less)
    omega

theorem leadingExponent_bounds (nonzero : units ≠ 0) :
    10 ^ leadingExponent units * (unitsPerOne : ℚ) ≤ units ∧
      (units : ℚ) < 10 ^ (leadingExponent units + 1) * unitsPerOne := by
  have positive : 0 < unitsPerOne := by decide +kernel
  have small : unitsPerOne ≤ Nat.pow 10 400 := by decide +kernel
  obtain ⟨shift, shifted⟩ : ∃ shift, shift = Nat.pow 10 400 := ⟨_, rfl⟩
  rw [← shifted] at small
  have power (k : Nat) : ((Nat.pow 10 k : Nat) : ℚ) = 10 ^ (k : Int) := by
    rw [Nat.pow_eq, Nat.cast_pow, Nat.cast_ofNat, zpow_natCast]
  have unit : (shift : ℚ) = 10 ^ ((400 : Nat) : Int) := shifted ▸ power 400
  have shift_pos : (0 : ℚ) < shift := unit ▸ zpow_pos (by norm_num) _
  obtain ⟨whole, found⟩ : ∃ whole, whole = units * shift / unitsPerOne := ⟨_, rfl⟩
  have whole_pos : 0 < whole := by
    rw [found]
    refine Nat.div_pos (small.trans ?_) positive
    exact Nat.le_mul_of_pos_left _ (Nat.pos_of_ne_zero nonzero)
  obtain ⟨length, counted⟩ : ∃ length, length = (Nat.toDigits 10 whole).length := ⟨_, rfl⟩
  have some_digit : 0 < length := counted ▸ Nat.length_toDigits_pos
  obtain ⟨low, high⟩ := length_toDigits_bounds whole_pos
  rw [← counted] at low high
  have leading : leadingExponent units = (length : Int) - 401 := by
    rw [counted, found, shifted]
    rfl
  have scale (e : Int) (k : Nat) (same : e + (400 : Nat) = k) :
      (10 : ℚ) ^ e * shift = (10 ^ k : Nat) := by
    rw [unit, ← zpow_add₀ (by norm_num), same, zpow_natCast, Nat.cast_pow]
    rfl
  have below : 10 ^ (length - 1) * unitsPerOne ≤ units * shift :=
    (Nat.mul_le_mul_right _ low).trans (found ▸ Nat.div_mul_le_self _ _)
  have above : units * shift < 10 ^ length * unitsPerOne :=
    (Nat.div_lt_iff_lt_mul positive).1 (found ▸ high)
  rw [leading]
  constructor
  · refine le_of_mul_le_mul_right ?_ shift_pos
    rw [mul_right_comm, scale _ (length - 1) (by omega)]
    exact_mod_cast below
  · refine lt_of_mul_lt_mul_right ?_ shift_pos.le
    rw [mul_right_comm, scale _ length (by omega)]
    exact_mod_cast above

theorem gridFloor_bounds (units : Nat) (e : Int) :
    gridFloor units e * (10 ^ e * (unitsPerOne : ℚ)) ≤ units ∧
      (units : ℚ) < (gridFloor units e + 1) * (10 ^ e * unitsPerOne) := by
  have positive : 0 < unitsPerOne := by decide +kernel
  cases e with
  | ofNat e =>
    obtain ⟨step, stepped⟩ : ∃ step, step = Nat.pow 10 e * unitsPerOne := ⟨_, rfl⟩
    have step_pos : 0 < step := stepped ▸ Nat.mul_pos (Nat.pow_pos (by decide)) positive
    have unit : (10 : ℚ) ^ Int.ofNat e * unitsPerOne = step := by
      rw [stepped, Int.ofNat_eq_natCast, zpow_natCast, Nat.pow_eq]
      push_cast
      rfl
    rw [unit, gridFloor, ← stepped]
    exact ⟨by exact_mod_cast Nat.div_mul_le_self units step,
      by exact_mod_cast Nat.lt_mul_of_div_lt (Nat.lt_succ_self _) step_pos⟩
  | negSucc e =>
    obtain ⟨scale, scaled⟩ : ∃ scale, scale = Nat.pow 10 (e + 1) := ⟨_, rfl⟩
    have scale_pos : (0 : ℚ) < scale := by
      rw [scaled]
      exact_mod_cast Nat.pow_pos (by decide)
    have unit : (10 : ℚ) ^ Int.negSucc e * unitsPerOne = unitsPerOne / scale := by
      rw [scaled, zpow_negSucc, Nat.pow_eq, Nat.cast_pow, Nat.cast_ofNat]
      ring
    rw [unit, gridFloor, ← scaled, ← mul_div_assoc, ← mul_div_assoc, div_le_iff₀ scale_pos,
      lt_div_iff₀ scale_pos]
    exact ⟨by exact_mod_cast Nat.div_mul_le_self (units * scale) unitsPerOne,
      by exact_mod_cast Nat.lt_mul_of_div_lt (Nat.lt_succ_self _) positive⟩

theorem inside_ite {c : Prop} [Decidable c] {e : Decimal} (here : d.inside i = true)
    (there : e.inside i = true) : (if c then d else e).inside i = true := by
  split
  · exact here
  · exact there

theorem neighbour?_cases (units : Nat) (e : Int) :
    let below : Decimal := ⟨gridFloor units e, e⟩
    let above : Decimal := ⟨gridFloor units e + 1, e⟩
    (∃ d, neighbour? units e = some d ∧ d.inside (interval units) = true) ∨
      neighbour? units e = none ∧ below.inside (interval units) = false ∧
        above.inside (interval units) = false := by
  intro below above
  unfold neighbour?
  cases low : below.inside (interval units) <;> cases high : above.inside (interval units) <;>
    simp only [below, above] at low high ⊢ <;> simp only [low, high]
  · exact .inr ⟨trivial, trivial, trivial⟩
  · exact .inl ⟨_, rfl, high⟩
  · exact .inl ⟨_, rfl, low⟩
  · exact .inl ⟨_, rfl, inside_ite low (inside_ite high (inside_ite low high))⟩

theorem Interval.holds_of_lt (low : (i.low : ℚ) < v) (high : v < i.high) : i.Holds v := by
  unfold Holds
  split
  · exact ⟨low.le, high.le⟩
  · exact ⟨low, high⟩

theorem grid_lt {g : ℚ} (fine : g * 10 ^ 16 ≤ units) : 4 * g < reach units + 2 * ulp units := by
  by_cases least : significand units = 2 ^ 52 ∧ 1 < ulp units
  · have reached : reach units = ulp units := if_pos least
    have bound : units < (2 ^ 52 + 1) * ulp units := by
      rw [← least.1]
      exact Nat.lt_mul_of_div_lt (Nat.lt_succ_self _) (ulp_pos units)
    have bound' : (units : ℚ) < (2 ^ 52 + 1) * ulp units := by exact_mod_cast bound
    have positive : (0 : ℚ) < ulp units := by exact_mod_cast ulp_pos units
    rw [reached]
    linarith
  · have reached : reach units = 2 * ulp units := if_neg least
    have bound : (units : ℚ) < 2 ^ 53 * ulp units := by exact_mod_cast lt_of_ulp units
    have positive : (0 : ℚ) < ulp units := by exact_mod_cast ulp_pos units
    rw [reached]
    push_cast
    linarith

/-- Below and above the double there is a decimal of seventeen digits, and one of them is near
enough. -/
theorem decimalOf?_seventeen (nonzero : units ≠ 0) :
    ∃ d, decimalOf? units 17 = some d ∧ d.inside (interval units) = true := by
  obtain ⟨e, grid⟩ : ∃ e, e = leadingExponent units - ((17 : Nat) - 1) := ⟨_, rfl⟩
  rw [decimalOf?, ← grid]
  refine (neighbour?_cases units e).resolve_right fun ⟨_, low, high⟩ => ?_
  obtain ⟨below, above⟩ := gridFloor_bounds units e
  obtain ⟨leading, -⟩ := leadingExponent_bounds nonzero
  have depth : leadingExponent units = e + (16 : Nat) := by omega
  have fine : 10 ^ e * (unitsPerOne : ℚ) * 10 ^ 16 ≤ units := by
    rw [depth, zpow_add₀ (by norm_num), zpow_natCast] at leading
    linarith
  have short := grid_lt fine
  have positive : (0 : ℚ) < ulp units := by exact_mod_cast ulp_pos units
  have bottom : ((interval units).low : ℚ) = 4 * units - reach units := by
    rw [interval_eq, Nat.cast_sub (reach_le nonzero)]
    push_cast
    rfl
  have top : ((interval units).high : ℚ) = 4 * units + 2 * ulp units := by
    rw [interval_eq]
    push_cast
    rfl
  rw [Bool.eq_false_iff, ne_eq, Decimal.inside_iff, Decimal.scaled, Decimal.value] at low high
  push_cast at low high
  by_cases near : (4 * units - reach units : ℚ) <
      gridFloor units e * 10 ^ e * (4 * unitsPerOne)
  · exact low (Interval.holds_of_lt (by linarith) (by linarith))
  · exact high (Interval.holds_of_lt (by linarith) (by linarith))

theorem inside_of_decimalOf? (found : decimalOf? units n = some d) :
    d.inside (interval units) = true := by
  rw [decimalOf?] at found
  rcases neighbour?_cases units (leadingExponent units - (n - 1)) with
    ⟨d', found', inside⟩ | ⟨none, -⟩
  · rw [found'] at found
    exact Option.some.inj found ▸ inside
  · rw [none] at found
    cases found

/-! ## The shortest decimal -/

theorem Decimal.value_trim (d : Decimal) (fuel : Nat) : (d.trim fuel).value = d.value := by
  induction fuel generalizing d with
  | zero => rfl
  | succ fuel ih =>
    rw [trim]
    split
    · rename_i zero
      have whole : (d.digits : ℚ) = (d.digits / 10 : Nat) * 10 := by
        exact_mod_cast (Nat.div_mul_cancel (Nat.dvd_of_mod_eq_zero zero.2)).symm
      rw [ih, value, value, whole, zpow_add_one₀ (by norm_num)]
      ring
    · rfl

theorem shortest_holds (nonzero : units ≠ 0) : (interval units).Holds (shortest units).scaled := by
  obtain ⟨last, found, -⟩ := decimalOf?_seventeen nonzero
  have some_digits : ((List.range 17).findSome? fun n => decimalOf? units (n + 1)) ≠ none := by
    intro none
    rw [List.findSome?_eq_none_iff] at none
    rw [none 16 (by decide)] at found
    cases found
  obtain ⟨d, first⟩ := Option.ne_none_iff_exists'.1 some_digits
  obtain ⟨n, -, found⟩ := List.exists_of_findSome?_eq_some first
  have inside := Decimal.inside_iff.1 (inside_of_decimalOf? found)
  have short : (shortest units).value = d.value := by
    rw [shortest, first, Decimal.value_trim]
    rfl
  rwa [Decimal.scaled, short]

/-- Doubles with one shortest decimal are the same. -/
theorem eq_of_value_eq (representable : IsRepresentable units)
    (representable' : IsRepresentable other) (nonzero : units ≠ 0) (nonzero' : other ≠ 0)
    (same : (shortest units).value = (shortest other).value) : units = other := by
  have there := shortest_holds nonzero'
  rw [Decimal.scaled, ← same] at there
  exact interval_disjoint representable representable' (shortest_holds nonzero) there

theorem shortest_pos (nonzero : units ≠ 0) : 0 < (shortest units).value := by
  have held := shortest_holds nonzero
  have far : 0 < 4 * units - reach units := by
    have := ulp_le nonzero
    unfold reach
    split <;> omega
  have positive : (0 : ℚ) < (interval units).low := by
    rw [interval_eq]
    exact_mod_cast far
  have scaled : 0 < (shortest units).scaled := by
    unfold Interval.Holds at held
    split at held
    · exact positive.trans_le held.1
    · exact positive.trans held.1
  have unit : (0 : ℚ) < 4 * unitsPerOne := mul_pos (by norm_num) unitsPerOne_pos
  exact pos_of_mul_pos_left scaled unit.le

end Docbase.Double
