import Docbase.Proofs.Sorting
import Mathlib.Data.List.Basic

/-!
# Sorting is stable

A comparison that ranks elements in one line, with ties, has one stable sort for each list: in
order, and with tied elements as they stood. `Sorting.sortM` finds it, and so sorts by one
comparison and then by another have the effect of one sort by both, the later one first.
-/

namespace Docbase.Sorting

variable {ε α : Type} {cmp first second : α → α → Ordering} {xs ys zs : List α}

/-- A list is the stable sort of another: it has the same elements in the order of a comparison, and
those that tie with an element stand as they stood. -/
structure IsStableSort (cmp : α → α → Ordering) (xs sorted : List α) : Prop where
  perm : sorted.Perm xs
  ordered : sorted.Pairwise fun a b => (cmp a b).isLE = true
  ties : ∀ x, sorted.filter (cmp x · == .eq) = xs.filter (cmp x · == .eq)

namespace IsStableSort

theorem nil : IsStableSort cmp [] [] :=
  ⟨.nil, .nil, fun _ => rfl⟩

section
variable [Std.TransCmp cmp]

theorem eq_of_ties (perm : ys.Perm zs) (left : ys.Pairwise fun a b => (cmp a b).isLE = true)
    (right : zs.Pairwise fun a b => (cmp a b).isLE = true)
    (ties : ∀ x, ys.filter (cmp x · == .eq) = zs.filter (cmp x · == .eq)) : ys = zs := by
  induction ys generalizing zs with
  | nil => exact perm.nil_eq
  | cons y ys ih =>
    cases zs with
    | nil => exact absurd perm.symm.nil_eq (List.cons_ne_nil y ys).symm
    | cons z zs =>
      have below : (cmp y z).isLE = true := by
        rcases List.mem_cons.1 (perm.symm.subset List.mem_cons_self) with rfl | later
        · exact Std.ReflCmp.isLE_rfl
        · exact List.rel_of_pairwise_cons left later
      have above : (cmp z y).isLE = true := by
        rcases List.mem_cons.1 (perm.subset List.mem_cons_self) with rfl | later
        · exact Std.ReflCmp.isLE_rfl
        · exact List.rel_of_pairwise_cons right later
      have tied : cmp y z = .eq := Std.OrientedCmp.isLE_antisymm below above
      -- Both heads are the first that tie with the one.
      have heads : y = z := by
        have firsts := ties y
        have itself : cmp y y = .eq := Std.ReflCmp.compare_self
        rw [List.filter_cons_of_pos (by simp [itself]),
          List.filter_cons_of_pos (by simp [tied])] at firsts
        exact (List.cons.inj firsts).1
      subst heads
      have tails : ys = zs := by
        refine ih perm.cons_inv left.tail right.tail fun x => ?_
        have filtered := ties x
        rw [List.filter_cons, List.filter_cons] at filtered
        split at filtered
        · exact (List.cons.inj filtered).2
        · exact filtered
      rw [tails]

theorem unique (left : IsStableSort cmp xs ys) (right : IsStableSort cmp xs zs) : ys = zs :=
  eq_of_ties (left.perm.trans right.perm.symm) left.ordered right.ordered fun x =>
    (left.ties x).trans (right.ties x).symm

theorem insert {x : α} {lower upper : List α} (sorted : IsStableSort cmp xs (lower ++ upper))
    (below : ∀ l ∈ lower, (cmp l x).isLE = true) (above : ∀ u ∈ upper, cmp x u = .lt) :
    IsStableSort cmp (xs ++ [x]) (lower ++ x :: upper) where
  perm := by
    have moved : (lower ++ x :: upper).Perm (lower ++ upper ++ [x]) := by
      rw [List.append_assoc]
      exact List.Perm.append_left lower (List.perm_append_singleton x upper).symm
    exact moved.trans (sorted.perm.append_right [x])
  ordered := by
    obtain ⟨left, right, across⟩ := List.pairwise_append.1 sorted.ordered
    refine List.pairwise_append.2 ⟨left, List.pairwise_cons.2 ⟨?_, right⟩, ?_⟩
    · intro u mem
      rw [above u mem]
      rfl
    · intro l mem u mem'
      rcases List.mem_cons.1 mem' with rfl | later
      · exact below l mem
      · exact across l mem u later
  ties c := by
    have filtered := sorted.ties c
    rw [List.filter_append] at filtered
    rw [List.filter_append, List.filter_append, ← filtered]
    by_cases tied : cmp c x = .eq
    · have beyond : upper.filter (cmp c · == .eq) = [] := by
        rw [List.filter_eq_nil_iff]
        intro u mem
        rw [Std.TransCmp.congr_left tied, above u mem]
        exact Bool.false_ne_true
      rw [List.filter_cons_of_pos (by simp [tied]), beyond, List.append_nil,
        List.filter_cons_of_pos (by simp [tied]), List.filter_nil]
    · rw [List.filter_cons_of_neg (by simp [tied]), List.filter_cons_of_neg (by simp [tied]),
        List.filter_nil, List.append_nil]

end

theorem refl (ordered : xs.Pairwise fun a b => (cmp a b).isLE = true) : IsStableSort cmp xs xs :=
  ⟨.refl xs, ordered, fun _ => rfl⟩

theorem reverse [Std.TransCmp cmp] (falls : xs.Pairwise fun a b => cmp b a = .lt) :
    IsStableSort cmp xs xs.reverse where
  perm := List.reverse_perm xs
  ordered := List.pairwise_reverse.2 (falls.imp fun below => by rw [below]; rfl)
  ties x := by
    have falling := falls.filter (cmp x · == .eq)
    rw [List.filter_reverse]
    match tied : xs.filter (cmp x · == .eq) with
    | [] => rfl
    | [y] => rfl
    | y :: z :: rest =>
      rw [tied] at falling
      have below : cmp z y = .lt := List.rel_of_pairwise_cons falling List.mem_cons_self
      have ties : ∀ w ∈ y :: z :: rest, cmp x w = .eq := by
        rw [← tied]
        exact fun w mem => eq_of_beq (List.mem_filter.1 mem).2
      have level : cmp z y = .eq := by
        rw [← Std.TransCmp.congr_left (ties z (.tail _ (.head _)))]
        exact ties y (.head _)
      cases below.symm.trans level

/-- A stable sort by one comparison, sorted by another, is sorted by the other first. -/
theorem then_lex [Std.ReflCmp first] (inner : IsStableSort second xs ys)
    (outer : IsStableSort first ys zs) : IsStableSort (compareLex first second) xs zs where
  perm := outer.perm.trans inner.perm
  ordered := by
    rw [List.pairwise_iff_forall_sublist]
    intro a b pair
    have low : (first a b).isLE = true := List.pairwise_iff_forall_sublist.1 outer.ordered pair
    rcases Ordering.isLE_iff_eq_lt_or_eq_eq.1 low with apart | tied
    · exact Ordering.isLE_then_iff_or.2 (.inl apart)
    · -- Two that tie in the outer sort stand as the inner sort has put them.
      have itself : first a a = .eq := Std.ReflCmp.compare_self
      have kept : [a, b].filter (first a · == .eq) = [a, b] := by simp [itself, tied]
      have before : [a, b].Sublist ys := by
        have ties := pair.filter (first a · == .eq)
        rw [kept, outer.ties a] at ties
        exact ties.trans List.filter_sublist
      exact Ordering.isLE_then_iff_or.2
        (.inr ⟨tied, List.pairwise_iff_forall_sublist.1 inner.ordered before⟩)
  ties x := by
    have lex (list : List α) : list.filter (compareLex first second x · == .eq) =
        (list.filter (first x · == .eq)).filter (second x · == .eq) := by
      rw [List.filter_filter]
      refine List.filter_congr fun y _ => ?_
      unfold compareLex
      cases first x y <;> cases second x y <;> rfl
    rw [lex, lex, outer.ties x, List.filter_comm, inner.ties x, List.filter_comm]

end IsStableSort

/-! ## Runs -/

theorem exists_extendRunM {follows : α → α → Bool}
    (trans : ∀ a b c, follows a b = true → follows b c = true → follows a c = true) (last : α)
    (before rest : List α) (run : (last :: before).Pairwise fun a b => follows a b = true) :
    ∃ more left, rest = more ++ left ∧
      (more.reverse ++ last :: before).Pairwise (fun a b => follows a b = true) ∧
      extendRunM (fun a b => (pure (follows a b) : Except ε Bool)) last before rest =
        .ok (more.reverse ++ last :: before, left) := by
  induction rest generalizing last before with
  | nil => exact ⟨[], [], rfl, run, rfl⟩
  | cons x rest ih =>
    rw [extendRunM, pure_bind]
    cases goesOn : follows x last with
    | true =>
      have longer : (x :: last :: before).Pairwise fun a b => follows a b = true := by
        refine List.pairwise_cons.2 ⟨fun y mem => ?_, run⟩
        rcases List.mem_cons.1 mem with rfl | earlier
        · exact goesOn
        · exact trans x last y goesOn (List.rel_of_pairwise_cons run earlier)
      obtain ⟨more, left, rfl, whole, found⟩ := ih x (last :: before) longer
      refine ⟨x :: more, left, rfl, ?_, ?_⟩
      · rwa [List.reverse_cons, List.append_assoc]
      · rw [List.reverse_cons, List.append_assoc]
        exact found
    | false => exact ⟨[], x :: rest, rfl, run, rfl⟩

section
variable [Std.TransCmp cmp]

theorem not_below_iff {a b : α} : (!(cmp a b == .lt)) = true ↔ (cmp b a).isLE = true := by
  have swap : cmp b a = (cmp a b).swap := Std.OrientedCmp.eq_swap
  rw [swap]
  cases cmp a b <;> decide

theorem exists_firstRunM (xs : List α) :
    ∃ start left run, xs = start ++ left ∧ IsStableSort cmp start run ∧
      firstRunM (fun a b => (pure (cmp a b == .lt) : Except ε Bool)) xs = .ok (run, left) := by
  match xs with
  | [] => exact ⟨[], [], [], rfl, .nil, rfl⟩
  | [x] => exact ⟨[x], [], [x], rfl, .refl (List.pairwise_singleton _ x), rfl⟩
  | x :: y :: rest =>
    have turned (more : List α) : more.reverse ++ [y, x] = (x :: y :: more).reverse := by simp
    rw [firstRunM, pure_bind]
    cases falls : cmp y x == .lt with
    | true =>
      have trans (a b c : α) (below : (cmp a b == .lt) = true) (below' : (cmp b c == .lt) = true) :
          (cmp a c == .lt) = true := by
        rw [beq_iff_eq] at below below' ⊢
        exact Std.TransCmp.lt_trans below below'
      obtain ⟨more, left, rfl, run, found⟩ := @exists_extendRunM ε _ _ trans y [x] rest
        (List.pairwise_pair.2 falls)
      rw [turned] at run found
      have falling := (List.pairwise_reverse.1 run).imp fun below => eq_of_beq below
      exact ⟨x :: y :: more, left, _, rfl, .reverse falling, found⟩
    | false =>
      have trans (a b c : α) (above : (!(cmp a b == .lt)) = true)
          (above' : (!(cmp b c == .lt)) = true) : (!(cmp a c == .lt)) = true := by
        rw [not_below_iff] at above above' ⊢
        exact Std.TransCmp.isLE_trans above' above
      obtain ⟨more, left, rfl, run, found⟩ := @exists_extendRunM ε _ _ trans y [x] rest
        (List.pairwise_pair.2 (by rw [falls]; rfl))
      rw [turned] at run found
      have rising := (List.pairwise_reverse.1 run).imp fun above => not_below_iff.1 above
      refine ⟨x :: y :: more, left, x :: y :: more, rfl, .refl rising, ?_⟩
      simp only [pure_bind, found]
      exact congrArg (fun run => Except.ok (run, left)) (List.reverse_reverse (x :: y :: more))

theorem exists_insertM (x : α) (sorted : List α)
    (ordered : sorted.Pairwise fun a b => (cmp a b).isLE = true) :
    ∃ lower upper, sorted = lower ++ upper ∧ (∀ l ∈ lower, (cmp l x).isLE = true) ∧
      (∀ u ∈ upper, cmp x u = .lt) ∧
      insertM (fun a b => (pure (cmp a b == .lt) : Except ε Bool)) x sorted =
        .ok (lower ++ x :: upper) := by
  cases found : sorted[sorted.length / 2]? with
  | none =>
    rw [List.getElem?_eq_none_iff] at found
    obtain rfl := List.eq_nil_of_length_eq_zero (l := sorted) (by omega)
    exact ⟨[], [], rfl, nofun, nofun, insertM_nil x⟩
  | some middle =>
    have inside : sorted.length / 2 < sorted.length := (List.getElem?_eq_some_iff.1 found).1
    have found' : sorted[sorted.length / 2] = middle := (List.getElem?_eq_some_iff.1 found).2
    have upward : sorted.drop (sorted.length / 2) =
        middle :: sorted.drop (sorted.length / 2 + 1) := by
      rw [← found', List.getElem_cons_drop]
    have downward : sorted.take (sorted.length / 2 + 1) =
        sorted.take (sorted.length / 2) ++ [middle] := by
      rw [← found', List.take_append_getElem]
    have parted := ordered
    rw [← List.take_append_drop (sorted.length / 2) sorted, upward] at parted
    obtain ⟨lowest, highest, across⟩ := List.pairwise_append.1 parted
    rw [insertM_of_some found, pure_bind]
    cases falls : cmp x middle == .lt with
    | true =>
      obtain ⟨lower, upper, parts, below, above, inserted⟩ :=
        exists_insertM x (sorted.take (sorted.length / 2)) lowest
      refine ⟨lower, upper ++ sorted.drop (sorted.length / 2), ?_, below, ?_, ?_⟩
      · rw [← List.append_assoc, ← parts, List.take_append_drop]
      · rw [upward]
        intro u mem
        rcases List.mem_append.1 mem with early | late
        · exact above u early
        · rcases List.mem_cons.1 late with rfl | later
          · exact eq_of_beq falls
          · exact Std.TransCmp.lt_of_lt_of_isLE (eq_of_beq falls)
              (List.rel_of_pairwise_cons highest later)
      · rw [if_pos rfl, inserted]
        exact congrArg Except.ok (List.append_assoc lower (x :: upper) _)
    | false =>
      have level : (cmp middle x).isLE = true := not_below_iff.1 (by rw [falls]; rfl)
      obtain ⟨lower, upper, parts, below, above, inserted⟩ :=
        exists_insertM x (sorted.drop (sorted.length / 2 + 1)) highest.tail
      refine ⟨sorted.take (sorted.length / 2 + 1) ++ lower, upper, ?_, ?_, above, ?_⟩
      · rw [List.append_assoc, ← parts, List.take_append_drop]
      · rw [downward]
        intro l mem
        rcases List.mem_append.1 mem with early | late
        · rcases List.mem_append.1 early with earlier | last
          · exact Std.TransCmp.isLE_trans (across l earlier middle List.mem_cons_self) level
          · rwa [List.mem_singleton.1 last]
        · exact below l late
      · rw [if_neg Bool.false_ne_true, inserted, List.append_assoc]
        rfl
termination_by sorted.length
decreasing_by
  all_goals
    simp only [List.length_take, List.length_drop]
    omega

/-- A sort by a comparison finds the stable sort. -/
theorem exists_sortM (xs : List α) :
    ∃ sorted, sortM (fun a b => (pure (cmp a b == .lt) : Except ε Bool)) xs = .ok sorted ∧
      IsStableSort cmp xs sorted := by
  have folds (left : List α) : ∀ start sorted : List α, IsStableSort cmp start sorted →
      ∃ result, left.foldlM (fun sorted x =>
          insertM (fun a b => (pure (cmp a b == .lt) : Except ε Bool)) x sorted) sorted =
        .ok result ∧ IsStableSort cmp (start ++ left) result := by
    induction left with
    | nil => exact fun start sorted known => ⟨sorted, rfl, by rwa [List.append_nil]⟩
    | cons x left ih =>
      intro start sorted known
      obtain ⟨lower, upper, rfl, below, above, inserted⟩ :=
        @exists_insertM ε _ _ _ x _ known.ordered
      obtain ⟨result, run, stable⟩ := ih (start ++ [x]) _ (known.insert below above)
      rw [List.append_assoc] at stable
      refine ⟨result, ?_, stable⟩
      rw [List.foldlM_cons, inserted]
      exact run
  obtain ⟨start, left, run, rfl, known, found⟩ := @exists_firstRunM ε _ cmp _ xs
  obtain ⟨result, inserted, stable⟩ := folds left start run known
  refine ⟨result, ?_, stable⟩
  rw [sortM, found]
  exact inserted

end

end Docbase.Sorting
