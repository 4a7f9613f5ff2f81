import Docbase.Proofs.Failing
import Docbase.Sorting
import Mathlib.Data.List.Basic

/-!
# Sorting keeps the elements

Whatever the comparison answers, a sort that does not fail gives the elements that it was given, in
some order, and it fails only where the comparison does. It sees no more of the elements than the
comparison does.
-/

namespace Docbase.Sorting

variable {ε α β : Type} {less : α → α → Except ε Bool}

theorem insertM_perm {x : α} : ∀ {sorted result : List α}, insertM less x sorted = .ok result →
    result.Perm (x :: sorted)
  | sorted, result, run => by
    rw [insertM] at run
    split at run
    · obtain rfl := Except.pure_eq_ok.1 run
      exact List.Perm.refl _
    · rename_i middle found
      have inside : sorted.length / 2 < sorted.length := (List.getElem?_eq_some_iff.1 found).1
      obtain ⟨below, -, run⟩ := Except.bind_eq_ok.1 run
      cases below with
      | true =>
        obtain ⟨lower, inserted, run⟩ := Except.bind_eq_ok.1 run
        obtain rfl := Except.pure_eq_ok.1 run
        have perm := (insertM_perm inserted).append_right (sorted.drop (sorted.length / 2))
        rwa [List.cons_append, List.take_append_drop] at perm
      | false =>
        obtain ⟨upper, inserted, run⟩ := Except.bind_eq_ok.1 run
        obtain rfl := Except.pure_eq_ok.1 run
        have perm := (insertM_perm inserted).append_left (sorted.take (sorted.length / 2 + 1))
        have moved := perm.trans List.perm_middle
        rwa [List.take_append_drop] at moved
termination_by sorted => sorted.length
decreasing_by
  all_goals
    simp only [List.length_take, List.length_drop]
    omega

theorem extendRunM_perm {follows : α → α → Except ε Bool} {last : α}
    {before rest run left : List α}
    (extended : extendRunM follows last before rest = .ok (run, left)) :
    (run ++ left).Perm (last :: before ++ rest) := by
  induction rest generalizing last before with
  | nil =>
    obtain ⟨rfl, rfl⟩ := Prod.mk.inj (Except.pure_eq_ok.1 extended)
    exact List.Perm.refl _
  | cons x rest ih =>
    obtain ⟨goesOn, -, extended⟩ := Except.bind_eq_ok.1 extended
    cases goesOn with
    | true => exact (ih extended).trans List.perm_middle.symm
    | false =>
      obtain ⟨rfl, rfl⟩ := Prod.mk.inj (Except.pure_eq_ok.1 extended)
      exact List.Perm.refl _

theorem firstRunM_perm {xs run left : List α} (first : firstRunM less xs = .ok (run, left)) :
    (run ++ left).Perm xs := by
  match xs with
  | [] =>
    obtain ⟨rfl, rfl⟩ := Prod.mk.inj (Except.pure_eq_ok.1 first)
    exact List.Perm.refl _
  | [x] =>
    obtain ⟨rfl, rfl⟩ := Prod.mk.inj (Except.pure_eq_ok.1 first)
    exact List.Perm.refl _
  | x :: y :: rest =>
    obtain ⟨falls, -, first⟩ := Except.bind_eq_ok.1 first
    cases falls with
    | true => exact (extendRunM_perm first).trans (List.Perm.swap x y rest)
    | false =>
      obtain ⟨⟨run', left'⟩, extended, first⟩ := Except.bind_eq_ok.1 first
      obtain ⟨rfl, rfl⟩ := Prod.mk.inj (Except.pure_eq_ok.1 first)
      have perm := (extendRunM_perm extended).trans (List.Perm.swap x y rest)
      exact ((List.reverse_perm run').append_right left').trans perm

theorem foldlM_insertM_perm {xs sorted result : List α}
    (run : xs.foldlM (fun sorted x => insertM less x sorted) sorted = .ok result) :
    result.Perm (sorted ++ xs) := by
  induction xs generalizing sorted with
  | nil =>
    obtain rfl := Except.pure_eq_ok.1 run
    rw [List.append_nil]
  | cons x xs ih =>
    obtain ⟨next, inserted, run⟩ := Except.bind_eq_ok.1 run
    have perm := (ih run).trans ((insertM_perm inserted).append_right xs)
    exact perm.trans List.perm_middle.symm

theorem sortM_perm {xs sorted : List α} (run : sortM less xs = .ok sorted) : sorted.Perm xs := by
  obtain ⟨⟨first, left⟩, found, run⟩ := Except.bind_eq_ok.1 run
  exact (foldlM_insertM_perm run).trans (firstRunM_perm found)

/-! ## Failures -/

section
variable {P : ε → Prop} (fails : ∀ a b, Except.FailsBy P (less a b))
include fails

theorem failsBy_insertM (x : α) (sorted : List α) :
    Except.FailsBy P (insertM less x sorted) := by
  rw [insertM]
  split
  · exact Except.failsBy_ok _
  · rename_i middle found
    have inside : sorted.length / 2 < sorted.length := (List.getElem?_eq_some_iff.1 found).1
    refine Except.FailsBy.bind (fails x middle) fun below _ => ?_
    cases below with
    | true =>
      have lower := failsBy_insertM x (sorted.take (sorted.length / 2))
      exact Except.FailsBy.bind lower fun _ _ => Except.failsBy_ok _
    | false =>
      have upper := failsBy_insertM x (sorted.drop (sorted.length / 2 + 1))
      exact Except.FailsBy.bind upper fun _ _ => Except.failsBy_ok _
termination_by sorted.length
decreasing_by
  all_goals
    simp only [List.length_take, List.length_drop]
    omega

theorem failsBy_extendRunM (last : α) (before rest : List α) :
    Except.FailsBy P (extendRunM less last before rest) := by
  induction rest generalizing last before with
  | nil => exact Except.failsBy_ok _
  | cons x rest ih =>
    refine Except.FailsBy.bind (fails x last) fun goesOn _ => ?_
    cases goesOn with
    | true => exact ih x (last :: before)
    | false => exact Except.failsBy_ok _

theorem failsBy_firstRunM (xs : List α) : Except.FailsBy P (firstRunM less xs) := by
  match xs with
  | [] => exact Except.failsBy_ok _
  | [x] => exact Except.failsBy_ok _
  | x :: y :: rest =>
    refine Except.FailsBy.bind (fails y x) fun falls _ => ?_
    cases falls with
    | true => exact failsBy_extendRunM fails y [x] rest
    | false =>
      have rises (a b : α) : Except.FailsBy P (do return !(← less a b)) :=
        Except.FailsBy.bind (fails a b) fun _ _ => Except.failsBy_ok _
      exact Except.FailsBy.bind (failsBy_extendRunM rises y [x] rest) fun _ _ =>
        Except.failsBy_ok _

theorem failsBy_sortM (xs : List α) : Except.FailsBy P (sortM less xs) :=
  Except.FailsBy.bind (failsBy_firstRunM fails xs) fun found _ =>
    Except.failsBy_foldlM (fun sorted x => failsBy_insertM fails x sorted) found.2 found.1

end

/-! ## Maps -/

section
variable (f : β → α)

theorem insertM_nil (x : α) : insertM less x [] = pure [x] := by
  rw [insertM]
  rfl

theorem insertM_of_some {x middle : α} {sorted : List α}
    (h : sorted[sorted.length / 2]? = some middle) :
    insertM less x sorted = less x middle >>= fun below =>
      if below then
        (· ++ sorted.drop (sorted.length / 2)) <$>
          insertM less x (sorted.take (sorted.length / 2))
      else (sorted.take (sorted.length / 2 + 1) ++ ·) <$>
        insertM less x (sorted.drop (sorted.length / 2 + 1)) := by
  rw [insertM]
  split
  · rename_i nothing
    rw [nothing] at h
    cases h
  · rename_i found
    obtain rfl := Option.some.inj (found.symm.trans h)
    simp only [map_eq_pure_bind]

theorem insertM_map (x : β) (sorted : List β) :
    insertM less (f x) (sorted.map f) =
      List.map f <$> insertM (fun a b => less (f a) (f b)) x sorted := by
  cases found : sorted[sorted.length / 2]? with
  | none =>
    have empty : sorted = [] := by
      rw [List.getElem?_eq_none_iff] at found
      exact List.eq_nil_of_length_eq_zero (by omega)
    subst empty
    rw [List.map_nil, insertM_nil, insertM_nil]
    rfl
  | some middle =>
    have inside : sorted.length / 2 < sorted.length := (List.getElem?_eq_some_iff.1 found).1
    have mapped : (sorted.map f)[(sorted.map f).length / 2]? = some (f middle) := by
      rw [List.length_map, List.getElem?_map, found, Option.map_some]
    rw [insertM_of_some mapped, insertM_of_some found, List.length_map, map_bind]
    refine bind_congr fun below => ?_
    cases below with
    | true =>
      rw [if_pos rfl, if_pos rfl, ← List.map_take, ← List.map_drop, insertM_map, Functor.map_map,
        Functor.map_map]
      simp only [List.map_append]
    | false =>
      rw [if_neg Bool.false_ne_true, if_neg Bool.false_ne_true, ← List.map_take, ← List.map_drop,
        insertM_map, Functor.map_map, Functor.map_map]
      simp only [List.map_append]
termination_by sorted.length
decreasing_by
  all_goals
    simp only [List.length_take, List.length_drop]
    omega

theorem extendRunM_map (follows : α → α → Except ε Bool) (last : β) (before rest : List β) :
    extendRunM follows (f last) (before.map f) (rest.map f) =
      Prod.map (List.map f) (List.map f) <$>
        extendRunM (fun a b => follows (f a) (f b)) last before rest := by
  induction rest generalizing last before with
  | nil => rfl
  | cons x rest ih =>
    rw [List.map_cons, extendRunM, extendRunM, map_bind]
    refine bind_congr fun goesOn => ?_
    cases goesOn with
    | true => exact ih x (last :: before)
    | false => rfl

theorem firstRunM_map (xs : List β) :
    firstRunM less (xs.map f) =
      Prod.map (List.map f) (List.map f) <$> firstRunM (fun a b => less (f a) (f b)) xs := by
  match xs with
  | [] => rfl
  | [x] => rfl
  | x :: y :: rest =>
    rw [List.map_cons, List.map_cons, firstRunM, firstRunM, map_bind]
    refine bind_congr fun falls => ?_
    cases falls with
    | true => exact extendRunM_map f less y [x] rest
    | false =>
      rw [if_neg Bool.false_ne_true, if_neg Bool.false_ne_true]
      have run := extendRunM_map f (fun a b => do return !(← less a b)) y [x] rest
      rw [List.map_cons, List.map_nil] at run
      rw [run, bind_map_left, map_bind]
      refine bind_congr fun ⟨run, left⟩ => ?_
      rw [map_pure]
      exact congrArg (fun run => pure (run, left.map f)) List.map_reverse.symm

/-- To sort elements by something that they are mapped to is to sort that. -/
theorem sortM_map (xs : List β) :
    sortM less (xs.map f) = List.map f <$> sortM (fun a b => less (f a) (f b)) xs := by
  have folds (left sorted : List β) :
      (left.map f).foldlM (fun sorted x => insertM less x sorted) (sorted.map f) =
        List.map f <$> left.foldlM
          (fun sorted x => insertM (fun a b => less (f a) (f b)) x sorted) sorted := by
    induction left generalizing sorted with
    | nil => rfl
    | cons x left ih =>
      rw [List.map_cons, List.foldlM_cons, List.foldlM_cons, insertM_map, map_bind, bind_map_left]
      exact bind_congr fun sorted => ih sorted
  rw [sortM, sortM, firstRunM_map, map_bind, bind_map_left]
  exact bind_congr fun found => folds found.2 found.1

end

theorem exists_pairs {R : α → β → Prop} {xs : List α} {ys : List β}
    (related : List.Forall₂ R xs ys) :
    ∃ pairs : List {p : α × β // R p.1 p.2}, xs = pairs.map (·.1.1) ∧ ys = pairs.map (·.1.2) := by
  induction related with
  | nil => exact ⟨[], rfl, rfl⟩
  | @cons a b _ _ here _ ih =>
    obtain ⟨pairs, rfl, rfl⟩ := ih
    exact ⟨⟨(a, b), here⟩ :: pairs, rfl, rfl⟩

theorem sortM_pairs {less' : β → β → Except ε Bool} {R : α → β → Prop}
    (agree : ∀ a a' b b', R a a' → R b b' → less' a' b' = less a b)
    (pairs : List {p : α × β // R p.1 p.2}) :
    ∃ sorted : Except ε (List {p : α × β // R p.1 p.2}),
      sortM less (pairs.map (·.1.1)) = List.map (·.1.1) <$> sorted ∧
        sortM less' (pairs.map (·.1.2)) = List.map (·.1.2) <$> sorted := by
  have same : (fun p q : {p : α × β // R p.1 p.2} => less' p.1.2 q.1.2) =
      fun p q => less p.1.1 q.1.1 :=
    funext fun p => funext fun q => agree p.1.1 p.1.2 q.1.1 q.1.2 p.2 q.2
  refine ⟨sortM (fun p q => less p.1.1 q.1.1) pairs, sortM_map _ pairs, ?_⟩
  rw [sortM_map, same]

end Docbase.Sorting
