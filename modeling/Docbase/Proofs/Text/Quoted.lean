import Docbase.Text.Quoted

/-!
# Reading quoted text

Every escape says which character it stands for and where it ends, so a quoted text or byte string
can be read off any row of characters that begins with it.
-/

namespace Docbase.Text

variable {quote c : Char} {r r' : List Char}

/-! ## Hexadecimal digits -/

def hexDigitValue (c : Char) : Nat := if c.isDigit then c.toNat - 48 else c.toNat - 87

def hexValue (cs : List Char) : Nat := cs.foldl (fun n c => 16 * n + hexDigitValue c) 0

theorem hexDigitValue_digitChar : ∀ {n : Nat}, n < 16 → hexDigitValue n.digitChar = n := by
  decide

theorem hexValue_toDigits (n : Nat) : hexValue (Nat.toDigits 16 n) = n := by
  induction n using Nat.strongRecOn with
  | ind n ih =>
    by_cases small : n < 16
    · rw [Nat.toDigits_of_lt_base small]
      simp [hexValue, hexDigitValue_digitChar small]
    · have last : n % 16 < 16 := Nat.mod_lt _ (by decide)
      have front := ih (n / 16) (by omega)
      rw [Nat.toDigits_of_base_le (by decide) (by omega), hexValue, List.foldl_append, ← hexValue,
        front]
      simp [hexDigitValue_digitChar last]
      omega

theorem hexValue_hex (width n : Nat) : hexValue (hex width n) = n := by
  have zeros (k : Nat) (cs : List Char) : hexValue (List.replicate k '0' ++ cs) = hexValue cs := by
    induction k with
    | zero => rfl
    | succ k ih => exact ih
  exact (zeros _ _).trans (hexValue_toDigits n)

theorem length_hex {width n : Nat} (positive : 0 < width) (bound : n < Nat.pow 16 width) :
    (hex width n).length = width := by
  have few := (Nat.length_toDigits_le_iff (by decide) positive).2 bound
  simp only [hex, List.length_append, List.length_replicate]
  omega

theorem read_hex {width n : Nat} (positive : 0 < width) (bound : n < Nat.pow 16 width)
    (r : List Char) :
    (Char.ofNat (hexValue ((hex width n ++ r).take width)), (hex width n ++ r).drop width) =
      (Char.ofNat n, r) := by
  have length := length_hex positive bound
  rw [List.take_left' length, List.drop_left' length, hexValue_hex]

/-! ## Escapes -/

def unescape : List Char → Char × List Char
  | '\\' :: 'n' :: rest => ('\n', rest)
  | '\\' :: 'r' :: rest => ('\r', rest)
  | '\\' :: 't' :: rest => ('\t', rest)
  | '\\' :: 'x' :: rest => (Char.ofNat (hexValue (rest.take 2)), rest.drop 2)
  | '\\' :: 'u' :: rest => (Char.ofNat (hexValue (rest.take 4)), rest.drop 4)
  | '\\' :: 'U' :: rest => (Char.ofNat (hexValue (rest.take 8)), rest.drop 8)
  | '\\' :: c :: rest => (c, rest)
  | c :: rest => (c, rest)
  | [] => ('\\', [])

def IsQuote (quote : Char) : Prop := quote = '\x27' ∨ quote = '\x22'

theorem isQuote_quoteFor (cs : List Char) : IsQuote (quoteFor cs) := by
  unfold quoteFor IsQuote
  split <;> simp

theorem unescape_plain (plain : c ≠ '\\') (r : List Char) : unescape (c :: r) = (c, r) := by
  unfold unescape
  split <;> simp_all

theorem unescape_commonEscape (marks : IsQuote quote) {cs : List Char}
    (h : commonEscape? quote c = some cs) (r : List Char) : unescape (cs ++ r) = (c, r) := by
  unfold commonEscape? at h
  split at h
  · rename_i itself
    rw [Bool.or_eq_true, beq_iff_eq, beq_iff_eq] at itself
    obtain rfl := Option.some.inj h
    rcases itself with rfl | rfl
    · rcases marks with rfl | rfl <;> rfl
    · rfl
  · -- What is left are the newline, the return and the tab.
    split at h
    · rename_i line
      obtain rfl := Option.some.inj h
      rw [eq_of_beq line]
      rfl
    · split at h
      · rename_i back
        obtain rfl := Option.some.inj h
        rw [eq_of_beq back]
        rfl
      · split at h
        · rename_i tab
          obtain rfl := Option.some.inj h
          rw [eq_of_beq tab]
          rfl
        · cases h

theorem ne_of_commonEscape (h : commonEscape? quote c = none) : c ≠ quote ∧ c ≠ '\\' := by
  unfold commonEscape? at h
  split at h
  · cases h
  · rename_i other
    simpa using other

theorem unescape_escape (marks : IsQuote quote) (c : Char) (r : List Char) :
    unescape (escape quote c ++ r) = (c, r) := by
  unfold escape
  cases common : commonEscape? quote c with
  | some cs => exact unescape_commonEscape marks common r
  | none =>
    have whole : (Char.ofNat c.toNat, r) = (c, r) := by rw [Char.ofNat_toNat]
    dsimp only
    split
    · exact unescape_plain (ne_of_commonEscape common).2 r
    · split
      · rename_i bound
        exact (read_hex (by decide : 0 < 2) bound r).trans whole
      · split
        · rename_i bound
          exact (read_hex (by decide : 0 < 4) bound r).trans whole
        · exact (read_hex (by decide : 0 < 8) c.val.toNat_lt r).trans whole

theorem unescape_escapeByte (marks : IsQuote quote) (b : UInt8) (r : List Char) :
    unescape (escapeByte quote b ++ r) = (Char.ofNat b.toNat, r) := by
  unfold escapeByte
  dsimp only
  cases common : commonEscape? quote (Char.ofNat b.toNat) with
  | some cs => exact unescape_commonEscape marks common r
  | none =>
    dsimp only
    split
    · exact read_hex (by decide : 0 < 2) b.toNat_lt r
    · exact unescape_plain (ne_of_commonEscape common).2 r

theorem cons_of_commonEscape {cs : List Char} (h : commonEscape? quote c = some cs) :
    ∃ rest, cs = '\\' :: rest := by
  unfold commonEscape? at h
  repeat' split at h
  all_goals first | exact ⟨_, (Option.some.inj h).symm⟩ | cases h

theorem ne_of_isQuote (marks : IsQuote quote) : '\\' ≠ quote := by
  rcases marks with rfl | rfl <;> decide

theorem escape_cons (marks : IsQuote quote) (c : Char) :
    ∃ first rest, escape quote c = first :: rest ∧ first ≠ quote := by
  unfold escape
  cases common : commonEscape? quote c with
  | some cs =>
    obtain ⟨rest, rfl⟩ := cons_of_commonEscape common
    exact ⟨_, rest, rfl, ne_of_isQuote marks⟩
  | none =>
    dsimp only
    split
    · exact ⟨c, [], rfl, (ne_of_commonEscape common).1⟩
    · repeat' split
      all_goals exact ⟨_, _, rfl, ne_of_isQuote marks⟩

theorem escapeByte_cons (marks : IsQuote quote) (b : UInt8) :
    ∃ first rest, escapeByte quote b = first :: rest ∧ first ≠ quote := by
  unfold escapeByte
  dsimp only
  cases common : commonEscape? quote (Char.ofNat b.toNat) with
  | some cs =>
    obtain ⟨rest, rfl⟩ := cons_of_commonEscape common
    exact ⟨_, rest, rfl, ne_of_isQuote marks⟩
  | none =>
    dsimp only
    split
    · exact ⟨_, _, rfl, ne_of_isQuote marks⟩
    · exact ⟨_, [], rfl, (ne_of_commonEscape common).1⟩

/-! ## Texts -/

theorem flatMap_append_inj {α : Type} {code : α → List Char}
    (inj : ∀ {a b r r'}, code a ++ r = code b ++ r' → a = b ∧ r = r')
    (going : ∀ a, ∃ first rest, code a = first :: rest ∧ first ≠ quote) {as bs : List α}
    (h : as.flatMap code ++ quote :: r = bs.flatMap code ++ quote :: r') : as = bs ∧ r = r' := by
  induction as generalizing bs with
  | nil =>
    cases bs with
    | nil => exact ⟨rfl, List.tail_eq_of_cons_eq h⟩
    | cons b bs =>
      obtain ⟨first, rest, code, other⟩ := going b
      rw [List.flatMap_cons, code] at h
      exact absurd (List.head_eq_of_cons_eq h).symm other
  | cons a as ih =>
    cases bs with
    | nil =>
      obtain ⟨first, rest, code, other⟩ := going a
      rw [List.flatMap_cons, code] at h
      exact absurd (List.head_eq_of_cons_eq h) other
    | cons b bs =>
      rw [List.flatMap_cons, List.flatMap_cons, List.append_assoc, List.append_assoc] at h
      obtain ⟨rfl, later⟩ := inj h
      obtain ⟨rfl, after⟩ := ih later
      exact ⟨rfl, after⟩

theorem escape_append_inj (marks : IsQuote quote) {c d : Char}
    (h : escape quote c ++ r = escape quote d ++ r') : c = d ∧ r = r' := by
  have read := congrArg unescape h
  rw [unescape_escape marks, unescape_escape marks] at read
  exact Prod.mk.inj read

theorem escapeByte_append_inj (marks : IsQuote quote) {a b : UInt8}
    (h : escapeByte quote a ++ r = escapeByte quote b ++ r') : a = b ∧ r = r' := by
  have read := congrArg unescape h
  rw [unescape_escapeByte marks, unescape_escapeByte marks] at read
  obtain ⟨chars, after⟩ := Prod.mk.inj read
  have code (b : UInt8) : (Char.ofNat b.toNat).toNat = b.toNat := by
    have valid : b.toNat.isValidChar := .inl (Nat.lt_trans b.toNat_lt (by decide))
    rw [Char.ofNat, dif_pos valid]
    rfl
  have codes := congrArg Char.toNat chars
  rw [code, code] at codes
  exact ⟨UInt8.toNat_inj.1 codes, after⟩

theorem quoted_append_inj {s t : String}
    (h : (quoted s).toList ++ r = (quoted t).toList ++ r') : s = t ∧ r = r' := by
  simp only [quoted, String.toList_ofList, List.cons_append, List.append_assoc, List.cons.injEq,
    List.nil_append] at h
  obtain ⟨quotes, body⟩ := h
  rw [← quotes] at body
  have marks := isQuote_quoteFor s.toList
  obtain ⟨texts, after⟩ := flatMap_append_inj (escape_append_inj marks) (escape_cons marks) body
  exact ⟨String.toList_inj.1 texts, after⟩

theorem quotedBytes_append_inj {bytes others : List UInt8}
    (h : (quotedBytes bytes).toList ++ r = (quotedBytes others).toList ++ r') :
    bytes = others ∧ r = r' := by
  simp only [quotedBytes, String.toList_ofList, List.cons_append, List.append_assoc,
    List.cons.injEq, List.nil_append, true_and] at h
  obtain ⟨quotes, body⟩ := h
  rw [← quotes] at body
  have marks := isQuote_quoteFor (bytes.map fun b => Char.ofNat b.toNat)
  exact flatMap_append_inj (escapeByte_append_inj marks) (escapeByte_cons marks) body

end Docbase.Text
