import Docbase.Double.Reading
import Docbase.Double.Text
import Docbase.Proofs.Double.Shortest
import Docbase.Proofs.Text.Words

/-!
# The texts of doubles tell them apart

The text of a double is a numeral, and reading it as one gives the shortest decimal back.
-/

namespace Docbase

variable {cs whole fraction : List Char} {n : Nat}

namespace Text

theorem ne_of_isDigit {c : Char} (digit : c.isDigit = true) : c ≠ '.' ∧ c ≠ 'e' ∧ c ≠ 'E' := by
  refine ⟨?_, ?_, ?_⟩ <;> rintro rfl <;> cases digit

theorem AreDigits.no_exponent (digits : AreDigits cs) :
    ∀ c ∈ cs, (c != 'e' && c != 'E') = true := by
  intro c mem
  obtain ⟨-, lower, upper⟩ := ne_of_isDigit (digits c mem)
  simp [lower, upper]

theorem AreDigits.no_exponent_point (digits : AreDigits (whole ++ fraction)) :
    ∀ c ∈ whole ++ '.' :: fraction, (c != 'e' && c != 'E') = true := by
  intro c mem
  rcases List.mem_append.1 mem with mem | mem
  · exact digits.no_exponent c (List.mem_append_left _ mem)
  · rcases List.mem_cons.1 mem with rfl | mem
    · rfl
    · exact digits.no_exponent c (List.mem_append_right _ mem)

theorem AreDigits.no_point (digits : AreDigits cs) : ∀ c ∈ cs, (c != '.') = true := by
  intro c mem
  simp [(ne_of_isDigit (digits c mem)).1]

theorem takeWhile_point (digits : AreDigits (whole ++ fraction)) :
    (whole ++ '.' :: fraction).takeWhile (· != '.') = whole :=
  takeWhile_run (areDigits_append.1 digits).1.no_point (endsRun_cons.2 rfl)

end Text

namespace Double

open Text

variable {v w : ℚ}

/-! ## Numerals -/

def Decimal.read (cs : List Char) : Decimal :=
  let mantissa := cs.takeWhile fun c => c != 'e' && c != 'E'
  let exponent := exponentValue (cs.drop (mantissa.length + 1))
  let whole := mantissa.takeWhile (· != '.')
  let fraction := mantissa.drop (whole.length + 1)
  ⟨digitsValue (whole ++ fraction), exponent - fraction.length⟩

theorem digitsValue_eq (cs : List Char) : digitsValue cs = Nat.ofDigitChars 10 cs 0 := by
  simp only [digitsValue, Nat.ofDigitChars, Nat.mul_comm 10]

theorem digitsValue_padded (width n : Nat) :
    digitsValue (DoubleFormat.padded width n).toList = n := by
  simp [digitsValue_eq, DoubleFormat.padded, Nat.ofDigitChars_append]

def exponentChars (negative : Bool) (n : Nat) : List Char :=
  (if negative then '-' else '+') :: (DoubleFormat.padded 2 n).toList

theorem exponentValue_exponentChars (negative : Bool) (n : Nat) :
    exponentValue (exponentChars negative n) = if negative then -(n : Int) else n := by
  cases negative <;> simp [exponentChars, exponentValue, digitsValue_padded]

/-- The forms of a numeral: with a point, with a point and an exponent, with an exponent. -/
inductive IsNumeral : List Char → ℚ → Prop
  | positional {whole fraction : List Char} (first : whole ≠ [])
    (digits : AreDigits (whole ++ fraction)) :
    IsNumeral (whole ++ '.' :: fraction)
      (Decimal.value ⟨digitsValue (whole ++ fraction), -fraction.length⟩)
  | scientific {whole fraction : List Char} (first : whole ≠ [])
    (digits : AreDigits (whole ++ fraction)) (negative : Bool) (n : Nat) :
    IsNumeral (whole ++ '.' :: fraction ++ 'e' :: exponentChars negative n)
      (Decimal.value ⟨digitsValue (whole ++ fraction),
        (if negative then -(n : Int) else n) - fraction.length⟩)
  | round {whole : List Char} (first : whole ≠ []) (digits : AreDigits whole)
    (negative : Bool) (n : Nat) :
    IsNumeral (whole ++ 'e' :: exponentChars negative n)
      (Decimal.value ⟨digitsValue whole, if negative then -(n : Int) else n⟩)

theorem drop_stop (cs : List Char) (c : Char) (rest : List Char) :
    (cs ++ c :: rest).drop (cs.length + 1) = rest := by
  rw [← List.drop_drop, List.drop_left]
  rfl

theorem read_eq {mantissa exponent : List Char}
    (mark : cs.takeWhile (fun c => c != 'e' && c != 'E') = mantissa)
    (after : cs.drop (mantissa.length + 1) = exponent)
    (point : mantissa.takeWhile (· != '.') = whole)
    (rest : mantissa.drop (whole.length + 1) = fraction) :
    Decimal.read cs =
      ⟨digitsValue (whole ++ fraction), exponentValue exponent - fraction.length⟩ := by
  subst mark after point rest
  rfl

theorem IsNumeral.value_read (h : IsNumeral cs v) : (Decimal.read cs).value = v := by
  cases h with
  | @positional whole fraction first digits =>
    rw [read_eq (List.takeWhile_eq_self_iff.2 digits.no_exponent_point)
      (List.drop_eq_nil_of_le (Nat.le_succ _)) (takeWhile_point digits)
      (drop_stop whole '.' fraction)]
    simp [exponentValue, digitsValue_eq]
  | @scientific whole fraction first digits negative n =>
    rw [read_eq (takeWhile_run digits.no_exponent_point (endsRun_cons.2 rfl)) (drop_stop _ 'e' _)
      (takeWhile_point digits) (drop_stop whole '.' fraction), exponentValue_exponentChars]
  | @round whole first digits negative n =>
    rw [read_eq (takeWhile_run digits.no_exponent (endsRun_cons.2 rfl)) (drop_stop _ 'e' _)
      (List.takeWhile_eq_self_iff.2 digits.no_point) (List.drop_eq_nil_of_le (Nat.le_succ _)),
      exponentValue_exponentChars]
    simp

theorem IsNumeral.unique (h : IsNumeral cs v) (h' : IsNumeral cs w) : v = w :=
  h.value_read.symm.trans h'.value_read

theorem IsNumeral.cons (h : IsNumeral cs v) : ∃ c rest, cs = c :: rest ∧ c.isDigit = true := by
  have front {whole rest : List Char} (first : whole ≠ []) (digits : AreDigits whole) :
      ∃ c tail, whole ++ rest = c :: tail ∧ c.isDigit = true := by
    cases whole with
    | nil => exact absurd rfl first
    | cons c tail => exact ⟨c, tail ++ rest, rfl, digits c List.mem_cons_self⟩
  cases h with
  | positional first digits => exact front first (areDigits_append.1 digits).1
  | scientific first digits negative n =>
    rw [List.append_assoc]
    exact front first (areDigits_append.1 digits).1
  | round first digits negative n => exact front first digits

def IsNumeralChar (c : Char) : Prop := c.isDigit = true ∨ c ∈ ['.', 'e', '+', '-', 'i', 'n', 'f']

theorem areDigits_padded (width n : Nat) : AreDigits (DoubleFormat.padded width n).toList := by
  rw [DoubleFormat.padded, String.toList_ofList]
  exact areDigits_append.2 ⟨areDigits_zeros _, areDigits_toDigits n⟩

theorem mem_exponentChars {negative : Bool} {c : Char} (mem : c ∈ exponentChars negative n) :
    IsNumeralChar c := by
  rcases List.mem_cons.1 mem with rfl | mem
  · cases negative <;> simp [IsNumeralChar]
  · exact .inl (areDigits_padded 2 n c mem)

theorem IsNumeral.mem (h : IsNumeral cs v) {c : Char} (mem : c ∈ cs) : IsNumeralChar c := by
  have mark : IsNumeralChar '.' ∧ IsNumeralChar 'e' := by simp [IsNumeralChar]
  cases h with
  | positional first digits =>
    obtain ⟨left, right⟩ := areDigits_append.1 digits
    simp only [List.mem_append, List.mem_cons] at mem
    rcases mem with mem | rfl | mem
    · exact .inl (left c mem)
    · exact mark.1
    · exact .inl (right c mem)
  | scientific first digits negative n =>
    obtain ⟨left, right⟩ := areDigits_append.1 digits
    simp only [List.mem_append, List.mem_cons] at mem
    rcases mem with (mem | rfl | mem) | rfl | mem
    · exact .inl (left c mem)
    · exact mark.1
    · exact .inl (right c mem)
    · exact mark.2
    · exact mem_exponentChars mem
  | round first digits negative n =>
    simp only [List.mem_append, List.mem_cons] at mem
    rcases mem with mem | rfl | mem
    · exact .inl (digits c mem)
    · exact mark.2
    · exact mem_exponentChars mem

theorem IsNumeral.exists_mark (h : IsNumeral cs v) : '.' ∈ cs ∨ 'e' ∈ cs := by
  cases h <;> simp

end Double

namespace DoubleFormat

open Double Text

variable {units : Nat} {v : ℚ}

theorem digitsValue_toDigits (n : Nat) : digitsValue (Nat.toDigits 10 n) = n := by
  rw [digitsValue_eq, Nat.ofDigitChars_ten_toDigits]

theorem value_zeros (n k : Nat) : Decimal.value ⟨n * 10 ^ k * 10, -1⟩ = Decimal.value ⟨n, k⟩ := by
  simp only [Decimal.value, Nat.cast_mul, Nat.cast_pow, Nat.cast_ofNat, zpow_natCast, zpow_neg_one]
  rw [mul_assoc, mul_inv_cancel₀ (by norm_num), mul_one]

theorem isNumeral_positional (n : Nat) (exponent : Int) :
    IsNumeral (standard.positional (Nat.toDigits 10 n) exponent).toList
      (Decimal.value ⟨n, exponent⟩) := by
  have digits := areDigits_toDigits n
  have some_digit : Nat.toDigits 10 n ≠ [] := Nat.toDigits_ne_nil
  unfold positional
  dsimp only
  split_ifs with whole inside
  · obtain ⟨k, rfl⟩ := Int.eq_ofNat_of_zero_le whole
    have form := @IsNumeral.positional (Nat.toDigits 10 n ++ List.replicate k '0') ['0']
      (by simp [some_digit])
      (areDigits_append.2 ⟨areDigits_append.2 ⟨digits, areDigits_zeros k⟩, areDigits_zeros 1⟩)
    have value : digitsValue (Nat.toDigits 10 n ++ List.replicate k '0' ++ ['0']) =
        n * 10 ^ k * 10 := by
      simp [digitsValue_eq, Nat.ofDigitChars_append, Nat.ofDigitChars_cons]
      ring
    rw [value] at form
    rw [← value_zeros]
    simpa [zeros, standard] using form
  · obtain ⟨k, place⟩ : ∃ k : Nat, ((Nat.toDigits 10 n).length : Int) + exponent = k :=
      ⟨_, (Int.toNat_of_nonneg inside.le).symm⟩
    rw [place, Int.toNat_natCast]
    have form := @IsNumeral.positional ((Nat.toDigits 10 n).take k)
      ((Nat.toDigits 10 n).drop k) (by simp [some_digit]; omega)
      (by rwa [List.take_append_drop])
    rw [List.take_append_drop, digitsValue_toDigits, List.length_drop] at form
    have places : -(((Nat.toDigits 10 n).length - k : Nat) : Int) = exponent := by omega
    rw [places] at form
    simpa using form
  · obtain ⟨k, place⟩ : ∃ k : Nat, -(((Nat.toDigits 10 n).length : Int) + exponent) = k :=
      ⟨_, (Int.toNat_of_nonneg (by omega)).symm⟩
    rw [place, Int.toNat_natCast]
    have form := @IsNumeral.positional ['0'] (List.replicate k '0' ++ Nat.toDigits 10 n)
      (by simp)
      (areDigits_append.2 ⟨areDigits_zeros 1, areDigits_append.2 ⟨areDigits_zeros k, digits⟩⟩)
    have value : digitsValue (['0'] ++ (List.replicate k '0' ++ Nat.toDigits 10 n)) = n := by
      simp [digitsValue_eq, Nat.ofDigitChars_append, Nat.ofDigitChars_cons]
    have places : -((List.replicate k '0' ++ Nat.toDigits 10 n).length : Int) = exponent := by
      simp only [List.length_append, List.length_replicate]
      omega
    rw [value, places] at form
    simpa [zeros] using form

theorem signed_natAbs (e : Int) : (if decide (e < 0) then -(e.natAbs : Int) else e.natAbs) = e := by
  by_cases negative : e < 0
  · rw [decide_eq_true negative, if_pos rfl]
    omega
  · rw [decide_eq_false negative, if_neg Bool.false_ne_true]
    omega

theorem exponentChars_eq (e : Int) : exponentChars (decide (e < 0)) e.natAbs =
    (if e < 0 then "-" else "+").toList ++ (padded 2 e.natAbs).toList := by
  unfold exponentChars
  by_cases negative : e < 0 <;> simp [negative]

theorem isNumeral_scientific (n : Nat) (exponent leading : Int)
    (first : leading = (Nat.toDigits 10 n).length + exponent - 1) :
    IsNumeral (standard.scientific (Nat.toDigits 10 n) leading).toList
      (Decimal.value ⟨n, exponent⟩) := by
  have digits := areDigits_toDigits n
  have value := digitsValue_toDigits n
  have some_digit : Nat.toDigits 10 n ≠ [] := Nat.toDigits_ne_nil
  unfold scientific
  generalize Nat.toDigits 10 n = chars at *
  match chars with
  | [] => exact absurd rfl some_digit
  | [d] =>
    have form := IsNumeral.round some_digit digits (decide (leading < 0)) leading.natAbs
    have places : leading = exponent := by
      rw [first, List.length_singleton]
      omega
    rw [signed_natAbs, exponentChars_eq, value, places] at form
    rw [places]
    simpa [standard] using form
  | d :: next :: rest =>
    have form := @IsNumeral.scientific [d] (next :: rest) (by simp) digits
      (decide (leading < 0)) leading.natAbs
    have places : leading - ((next :: rest).length : Int) = exponent := by
      rw [first, List.length_cons]
      omega
    have whole : digitsValue ([d] ++ next :: rest) = n := value
    rw [signed_natAbs, exponentChars_eq, places, whole] at form
    simpa [standard] using form

theorem magnitude_cases (f : DoubleFormat) (nonzero : units ≠ 0) {d : Decimal}
    (short : shortest units = d) :
    f.magnitude units = f.positional (Nat.toDigits 10 d.digits) d.exponent ∨
      f.magnitude units = f.scientific (Nat.toDigits 10 d.digits)
        ((Nat.toDigits 10 d.digits).length + d.exponent - 1) := by
  unfold magnitude
  rw [if_neg nonzero, short]
  dsimp only
  split
  · exact .inl rfl
  · exact .inr rfl

/-- The digits of a double are a numeral for its shortest decimal. -/
theorem isNumeral_magnitude (units : Nat) : IsNumeral (standard.magnitude units).toList
    (if units = 0 then 0 else (shortest units).value) := by
  split_ifs with zero
  · have form := isNumeral_positional 0 0
    rw [Nat.toDigits_zero] at form
    simpa [zero, magnitude, Decimal.value] using form
  · obtain ⟨d, short⟩ : ∃ d, shortest units = d := ⟨_, rfl⟩
    rw [short]
    rcases magnitude_cases standard zero short with text | text
    · rw [text]
      exact isNumeral_positional _ _
    · rw [text]
      exact isNumeral_scientific _ _ _ rfl

theorem magnitude_injOn : Set.InjOn standard.magnitude {units | IsRepresentable units} := by
  intro units representable other representable' same
  have value := isNumeral_magnitude units
  rw [same] at value
  have values := value.unique (isNumeral_magnitude other)
  split_ifs at values with zero zero' zero'
  · rw [zero, zero']
  · exact absurd values (shortest_pos zero').ne
  · exact absurd values (shortest_pos zero).ne'
  · exact eq_of_value_eq representable representable' zero zero' values

end DoubleFormat

namespace Double

/-- Whether the double is a number, with no more digits than doubles have. -/
def isExact : Double → Bool
  | .finite _ units => decide (IsRepresentable units)
  | .infinite _ => true
  | .nan _ => false

end Double

namespace DoubleFormat

open Double Text

def unsigned : Double → String
  | .finite _ units => standard.magnitude units
  | .infinite _ => "inf"
  | .nan _ => "nan"

def isNegative : Double → Bool
  | .finite negative _ | .infinite negative => negative
  | .nan _ => false

theorem text_eq (x : Double) :
    standard.text x = (if isNegative x then "-" else "") ++ unsigned x := by
  cases x with
  | finite negative units | infinite negative => rfl
  | nan mark => simp [text, isNegative, unsigned, standard]

theorem unsigned_cons (x : Double) : ∃ c rest, (unsigned x).toList = c :: rest ∧ c ≠ '-' := by
  cases x with
  | finite negative units =>
    obtain ⟨c, rest, chars, digit⟩ := (isNumeral_magnitude units).cons
    refine ⟨c, rest, chars, ?_⟩
    rintro rfl
    cases digit
  | infinite negative => exact ⟨'i', ['n', 'f'], by simp [unsigned], by decide⟩
  | nan mark => exact ⟨'n', ['a', 'n'], by simp [unsigned], by decide⟩

/-- The sign and the rest of a text, which does not begin with another sign. -/
theorem text_inj {x y : Double} (same : standard.text x = standard.text y) :
    isNegative x = isNegative y ∧ unsigned x = unsigned y := by
  obtain ⟨c, rest, chars, plain⟩ := unsigned_cons x
  obtain ⟨d, rest', chars', plain'⟩ := unsigned_cons y
  have texts := congrArg String.toList same
  rw [text_eq, text_eq, String.toList_append, String.toList_append, chars, chars'] at texts
  rw [← String.toList_inj, chars, chars']
  cases here : isNegative x <;> cases there : isNegative y <;> rw [here, there] at texts
  · exact ⟨rfl, texts⟩
  · exact absurd (List.head_eq_of_cons_eq texts) plain
  · exact absurd (List.head_eq_of_cons_eq texts).symm plain'
  · exact ⟨rfl, List.tail_eq_of_cons_eq texts⟩

theorem magnitude_ne (units : Nat) : standard.magnitude units ≠ "inf" := by
  intro word
  obtain ⟨c, rest, chars, digit⟩ := (isNumeral_magnitude units).cons
  rw [word] at chars
  obtain ⟨rfl, -⟩ : 'i' = c ∧ ['n', 'f'] = rest := by simpa using chars
  cases digit

/-- Doubles that are numbers have texts of their own. -/
theorem text_injOn : Set.InjOn standard.text {x | x.isExact = true} := by
  intro x exact y exact' same
  obtain ⟨signs, digits⟩ := text_inj same
  cases x with
  | nan mark => cases exact
  | finite negative units =>
    cases y with
    | nan mark => cases exact'
    | finite negative' units' =>
      obtain rfl : negative = negative' := signs
      obtain rfl := magnitude_injOn (of_decide_eq_true exact) (of_decide_eq_true exact') digits
      rfl
    | infinite negative' => exact absurd digits (magnitude_ne units)
  | infinite negative =>
    cases y with
    | nan mark => cases exact'
    | finite negative' units' => exact absurd digits.symm (magnitude_ne units')
    | infinite negative' => exact congrArg Double.infinite signs

theorem mem_text {x : Double} (exact : x.isExact = true) {c : Char}
    (mem : c ∈ (standard.text x).toList) : IsNumeralChar c := by
  rw [text_eq, String.toList_append, List.mem_append] at mem
  rcases mem with sign | mem
  · cases negative : isNegative x <;> simp [negative] at sign
    simp [sign, IsNumeralChar]
  · cases x with
    | nan mark => cases exact
    | finite negative units => exact (isNumeral_magnitude units).mem mem
    | infinite negative =>
      have letter : c ∈ ['i', 'n', 'f'] := by simpa [unsigned] using mem
      refine .inr (List.mem_of_mem_drop (i := 4) ?_)
      exact letter

theorem exists_mark {x : Double} (exact : x.isExact = true) :
    ∃ c ∈ (standard.text x).toList, c = '.' ∨ c = 'e' ∨ c = 'i' := by
  have found : ∃ c ∈ (unsigned x).toList, c = '.' ∨ c = 'e' ∨ c = 'i' := by
    cases x with
    | nan mark => cases exact
    | finite negative units =>
      rcases (isNumeral_magnitude units).exists_mark with point | exponent
      · exact ⟨'.', point, .inl rfl⟩
      · exact ⟨'e', exponent, .inr (.inl rfl)⟩
    | infinite negative => exact ⟨'i', by simp [unsigned], .inr (.inr rfl)⟩
  obtain ⟨c, mem, mark⟩ := found
  refine ⟨c, ?_, mark⟩
  rw [text_eq, String.toList_append]
  exact List.mem_append_right _ mem

end DoubleFormat
end Docbase
