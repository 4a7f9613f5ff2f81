import Mathlib.Data.List.TakeWhile

namespace Docbase.Text

variable {r r' : List Char}

/-! ## Words -/

def EndsRun (p : Char → Bool) (r : List Char) : Prop := ∀ c ∈ r.head?, p c = false

theorem endsRun_cons {p : Char → Bool} {c : Char} : EndsRun p (c :: r) ↔ p c = false := by
  simp [EndsRun]

theorem takeWhile_run {p : Char → Bool} {w : List Char} (word : ∀ c ∈ w, p c = true)
    (ends : EndsRun p r) : (w ++ r).takeWhile p = w := by
  rw [List.takeWhile_append_of_pos word]
  cases r with
  | nil => exact List.append_nil w
  | cons c r => rw [List.takeWhile_cons_of_neg (by simp [endsRun_cons.1 ends]), List.append_nil]

theorem run_append_inj {p : Char → Bool} {w w' : List Char} (word : ∀ c ∈ w, p c = true)
    (word' : ∀ c ∈ w', p c = true) (ends : EndsRun p r) (ends' : EndsRun p r')
    (h : w ++ r = w' ++ r') : w = w' ∧ r = r' := by
  have words : w = w' := by
    rw [← takeWhile_run word ends, h, takeWhile_run word' ends']
  subst words
  exact ⟨rfl, List.append_cancel_left h⟩

/-! ## Numbers -/

def AreDigits (cs : List Char) : Prop := ∀ c ∈ cs, c.isDigit = true

theorem areDigits_append {cs ds : List Char} :
    AreDigits (cs ++ ds) ↔ AreDigits cs ∧ AreDigits ds := by
  simp only [AreDigits, List.mem_append, or_imp, forall_and]

theorem areDigits_toDigits (n : Nat) : AreDigits (Nat.toDigits 10 n) :=
  fun _ mem => Nat.isDigit_of_mem_toDigits (by decide) (by decide) mem

theorem areDigits_zeros (n : Nat) : AreDigits (List.replicate n '0') := by
  intro c mem
  rw [List.eq_of_mem_replicate mem]
  rfl

theorem toDigits_inj {m n : Nat} (h : Nat.toDigits 10 m = Nat.toDigits 10 n) : m = n := by
  rw [← Nat.ofDigitChars_ten_toDigits (n := m), h, Nat.ofDigitChars_ten_toDigits]

theorem natural_append_inj {m n : Nat} (ends : EndsRun Char.isDigit r)
    (ends' : EndsRun Char.isDigit r')
    (h : m.repr.toList ++ r = n.repr.toList ++ r') : m = n ∧ r = r' := by
  rw [Nat.toList_repr, Nat.toList_repr] at h
  obtain ⟨digits, rest⟩ :=
    run_append_inj (areDigits_toDigits m) (areDigits_toDigits n) ends ends' h
  exact ⟨toDigits_inj digits, rest⟩

theorem toList_integer (n : Int) : n.repr.toList =
    (if n < 0 then ['-'] else []) ++ Nat.toDigits 10 n.natAbs := by
  cases n with
  | ofNat n =>
    change n.repr.toList = _
    rw [Nat.toList_repr, if_neg (by simp)]
    rfl
  | negSucc n =>
    change ("-" ++ (n + 1).repr).toList = _
    rw [String.toList_append, Nat.toList_repr, if_pos (Int.negSucc_lt_zero n)]
    rfl

theorem toDigits_ne_sign (n : Nat) (cs : List Char) : Nat.toDigits 10 n ≠ '-' :: cs := by
  intro sign
  have digit := areDigits_toDigits n '-' (sign ▸ List.mem_cons_self)
  cases digit

theorem integer_inj {m n : Int} (h : m.repr = n.repr) : m = n := by
  have chars := congrArg String.toList h
  rw [toList_integer, toList_integer] at chars
  split_ifs at chars with left right right
  · have amounts := toDigits_inj (List.tail_eq_of_cons_eq chars)
    omega
  · exact absurd chars.symm (toDigits_ne_sign _ _)
  · exact absurd chars (toDigits_ne_sign _ _)
  · have amounts := toDigits_inj chars
    omega

def isIntegerChar (c : Char) : Bool := c.isDigit || c == '-'

theorem mem_integer {n : Int} : ∀ c ∈ n.repr.toList, isIntegerChar c = true := by
  intro c mem
  rw [toList_integer, List.mem_append] at mem
  rcases mem with sign | digit
  · have minus : c = '-' := by
      split_ifs at sign
      · exact List.mem_singleton.1 sign
      · cases sign
    rw [minus]
    rfl
  · rw [isIntegerChar, areDigits_toDigits _ c digit, Bool.true_or]

theorem integer_append_inj {m n : Int} (ends : EndsRun isIntegerChar r)
    (ends' : EndsRun isIntegerChar r')
    (h : m.repr.toList ++ r = n.repr.toList ++ r') : m = n ∧ r = r' := by
  obtain ⟨chars, rest⟩ := run_append_inj mem_integer mem_integer ends ends' h
  exact ⟨integer_inj (String.toList_inj.1 chars), rest⟩

/-! ## Rows -/

def followed (items : List String) : List Char :=
  items.flatMap fun item => ',' :: ' ' :: item.toList

@[simp]
theorem followed_nil : followed [] = [] := rfl

@[simp]
theorem followed_cons (item : String) (items : List String) :
    followed (item :: items) = ',' :: ' ' :: (item.toList ++ followed items) := rfl

theorem toList_intercalate_cons (item : String) (items : List String) :
    (", ".intercalate (item :: items)).toList = item.toList ++ followed items := by
  induction items generalizing item with
  | nil => simp
  | cons next items ih =>
    rw [String.intercalate_cons_cons, String.toList_append, ih, String.toList_append, followed_cons]
    simp

def EndsNumbers (r : List Char) : Prop :=
  EndsRun Char.isDigit r ∧ ∀ rest, r = ',' :: ' ' :: rest → EndsRun Char.isDigit rest

theorem endsRun_followed (items : List String) (ends : EndsRun Char.isDigit r) :
    EndsRun Char.isDigit (followed items ++ r) := by
  cases items with
  | nil => exact ends
  | cons item items => exact endsRun_cons.2 rfl

theorem not_endsRun_natural (n : Nat) (r : List Char) :
    ¬EndsRun Char.isDigit (n.repr.toList ++ r) := by
  rw [Nat.toList_repr]
  cases chars : Nat.toDigits 10 n with
  | nil => exact absurd chars Nat.toDigits_ne_nil
  | cons c cs =>
    have digit := areDigits_toDigits n c (chars ▸ List.mem_cons_self)
    rw [List.cons_append, endsRun_cons, digit]
    exact Bool.noConfusion

theorem not_endsNumbers (n : Nat) (ns : List Nat) (r : List Char) :
    ¬EndsNumbers (followed ((n :: ns).map Nat.repr) ++ r) := by
  intro ends
  simp only [List.map_cons, followed_cons, List.cons_append, List.append_assoc] at ends
  exact not_endsRun_natural n _ (ends.2 _ rfl)

theorem followed_append_inj {ms ns : List Nat} (ends : EndsNumbers r) (ends' : EndsNumbers r')
    (h : followed (ms.map Nat.repr) ++ r = followed (ns.map Nat.repr) ++ r') :
    ms = ns ∧ r = r' := by
  induction ms generalizing ns with
  | nil =>
    cases ns with
    | nil => exact ⟨rfl, h⟩
    | cons n ns => exact absurd (h ▸ ends) (not_endsNumbers n ns r')
  | cons m ms ih =>
    cases ns with
    | nil => exact absurd (h ▸ ends') (not_endsNumbers m ms r)
    | cons n ns =>
      simp only [List.map_cons, followed_cons, List.cons_append, List.cons.injEq, true_and,
        List.append_assoc] at h
      obtain ⟨rfl, later⟩ := natural_append_inj (endsRun_followed _ ends.1)
        (endsRun_followed _ ends'.1) h
      obtain ⟨rfl, rest⟩ := ih later
      exact ⟨rfl, rest⟩

end Docbase.Text
