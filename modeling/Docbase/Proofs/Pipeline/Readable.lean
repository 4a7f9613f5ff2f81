import Docbase.Pipeline.Draft
import Docbase.Proofs.Failing
import Docbase.Proofs.Path

/-!
# Paths that can be read

Where a path meets a list, a part made of digits picks an item. Superscripts and other characters
that only look like digits form no numeral, and reading them as a position is the one way in which
reading a path fails.
-/

namespace Docbase

namespace Text

theorem digitsValue?_cons {c : Char} {digit : Nat} (decimal : decimalValue? c = some digit)
    (value : Nat) (started : Bool) (rest : List Char) :
    digitsValue? value started (c :: rest) = digitsValue? (10 * value + digit) true rest := by
  have digit_ne : c ≠ '_' := by
    rintro rfl
    have none : decimalValue? '_' = none := by decide
    rw [none] at decimal
    cases decimal
  rw [digitsValue?.eq_3 _ _ _ _ digit_ne, decimal]
  rfl

theorem exists_digitsValue {chars : List Char} (decimal : ∀ c ∈ chars, isDecimalDigit c = true)
    (value : Nat) : ∃ n, digitsValue? value true chars = some n := by
  induction chars generalizing value with
  | nil => exact ⟨value, rfl⟩
  | cons c rest ih =>
    obtain ⟨here, there⟩ := List.forall_mem_cons.1 decimal
    obtain ⟨digit, found⟩ := Option.isSome_iff_exists.1 here
    rw [digitsValue?_cons found]
    exact ih there _

end Text

namespace Path

def IsReadable (path : String) : Prop :=
  ∀ c ∈ path.toList, Text.isDigit c = true → Text.isDecimalDigit c = true

instance (path : String) : Decidable (IsReadable path) :=
  List.decidableBAll (fun c => Text.isDigit c = true → Text.isDecimalDigit c = true) path.toList

theorem subset_of_mem_cut {chars part : List Char} (mem : part ∈ cut chars) : part ⊆ chars := by
  induction chars generalizing part with
  | nil =>
    rw [List.mem_singleton.1 mem]
    exact List.nil_subset _
  | cons c chars ih =>
    by_cases dot : c = '.'
    · subst dot
      rw [cut_cons_dot] at mem
      rcases List.mem_cons.1 mem with rfl | mem
      · exact List.nil_subset _
      · exact List.Subset.trans (ih mem) (List.subset_cons_self _ _)
    · have nonempty : ∃ first others, cut chars = first :: others := by
        rcases cut_cases chars with whole | ⟨first, next, others, several, -⟩
        · exact ⟨chars, [], whole⟩
        · exact ⟨first, next :: others, several⟩
      obtain ⟨first, others, rest⟩ := nonempty
      rw [cut_cons_of_ne dot rest] at mem
      rw [rest] at ih
      rcases List.mem_cons.1 mem with rfl | mem
      · exact List.cons_subset_cons c (ih List.mem_cons_self)
      · exact List.Subset.trans (ih (List.mem_cons_of_mem _ mem)) (List.subset_cons_self _ _)

theorem IsReadable.part {path part : String} (readable : IsReadable path)
    (mem : part ∈ parts path) : IsReadable part := by
  obtain ⟨chars, there, rfl⟩ := List.mem_map.1 mem
  intro c inside
  rw [String.toList_ofList] at inside
  exact readable c (subset_of_mem_cut there inside)

theorem IsReadable.exists_position {part : String} (readable : IsReadable part)
    (position : isPosition part = true) : ∃ n, Text.digitsValue? 0 false part.toList = some n := by
  obtain ⟨filled, digits⟩ := Bool.and_eq_true_iff.1 position
  have decimal : ∀ c ∈ part.toList, Text.isDecimalDigit c = true := fun c mem =>
    readable c mem (List.all_eq_true.1 digits c mem)
  cases chars : part.toList with
  | nil =>
    rw [String.toList_eq_nil_iff] at chars
    rw [chars] at filled
    cases filled
  | cons c rest =>
    rw [chars] at decimal
    obtain ⟨here, there⟩ := List.forall_mem_cons.1 decimal
    obtain ⟨digit, found⟩ := Option.isSome_iff_exists.1 here
    rw [Text.digitsValue?_cons found]
    exact Text.exists_digitsValue there _

end Path

/-! ## Reading -/

variable {P : Misuse → Prop} {part path : String}

theorem Path.failsBy_item {α : Type} (h : ¬IsReadable part → P .badValue) (item : Nat → α)
    (other : α) :
    Except.FailsBy P (if isPosition part then
      match Text.digitsValue? 0 false part.toList with
      | some n => .ok (item n)
      | none => .error .badValue
      else .ok other) := by
  split
  · rename_i position
    split
    · exact Except.failsBy_ok _
    · rename_i missing
      refine Except.failsBy_error (h fun readable => ?_)
      obtain ⟨n, found⟩ := readable.exists_position position
      rw [found] at missing
      cases missing
  · exact Except.failsBy_ok _

/-- What follows the parts of a path one by one fails as its steps do. -/
theorem Path.failsBy_follow {α : Type} {step : α → String → Except Misuse α}
    {follow : List String → α → Except Misuse α} (nil : ∀ a, follow [] a = .ok a)
    (cons : ∀ part rest a, follow (part :: rest) a = (step a part >>= follow rest))
    (each : ∀ part, (¬IsReadable part → P .badValue) → ∀ a, Except.FailsBy P (step a part))
    (h : ¬IsReadable path → P .badValue) (a : α) : Except.FailsBy P (follow (parts path) a) := by
  have unreadable : ∀ part ∈ parts path, ¬IsReadable part → P .badValue :=
    fun part mem other => h fun readable => other (readable.part mem)
  generalize parts path = parts at unreadable ⊢
  induction parts generalizing a with
  | nil =>
    rw [nil]
    exact Except.failsBy_ok a
  | cons part rest ih =>
    obtain ⟨here, there⟩ := List.forall_mem_cons.1 unreadable
    rw [cons]
    exact Except.FailsBy.bind (each part here a) fun next _ => ih next there

theorem Value.failsBy_get (h : ¬Path.IsReadable path → P .badValue) (v : Value) :
    Except.FailsBy P (v.get path) := by
  refine Path.failsBy_follow (fun _ => rfl) (fun _ _ _ => rfl) (fun part here v => ?_) h v
  cases v with
  | list items => exact Path.failsBy_item here _ _
  | _ => exact Except.failsBy_ok _

theorem Node.failsBy_follow (h : ¬Path.IsReadable path → P .badValue) (node : Node) :
    Except.FailsBy P (follow (Path.parts path) node) := by
  refine Path.failsBy_follow (fun _ => rfl) (fun _ _ _ => rfl) (fun part here node => ?_) h node
  cases node with
  | list items => exact Path.failsBy_item here _ _
  | _ => exact Except.failsBy_ok _

end Docbase
