import Docbase.Proofs.StableSorting
import Docbase.Proofs.Value.Ordinary
import Docbase.Pipeline.Run

/-!
# The sort stage

A sort goes by its keys in turn: by the values that the drafts hold at the first path, among those
that are level there by the second, and so on, with the order of a key turned around where its
direction is below zero. Where the values at the paths are ordinary ones, the stage is the stable
sort by this order.

* `Pipeline.keyOrder` is the order, and `Pipeline.exists_sort` the stable sort by it.
* `Pipeline.sort_by_keys` puts it together, with sorts by one key after the other.
-/

namespace Docbase

namespace Draft

/-- What a path reads in a draft, or nothing where it cannot be followed. -/
def valueAt (d : Draft) (path : String) : Value :=
  ((d.get path).toOption.map Node.value).getD .missing

end Draft

namespace Pipeline

open Sorting

def isDescending (direction : Value) : Bool :=
  Value.order? direction (.int 0) == some .lt || direction.isNaN

def directed (direction : Value) (a b : Value) : Ordering :=
  if isDescending direction then (a.compare b).swap else a.compare b

/-- The order of drafts by the keys of a sort: by the first key that tells them apart. -/
def keyOrder (keys : Document) (a b : Draft) : Ordering :=
  keys.foldr (fun key later =>
    (directed key.2 (a.valueAt key.1) (b.valueAt key.1)).then later) .eq

/-- A draft can be sorted by keys if it holds ordinary values at their paths. -/
def Sortable (keys : Document) (d : Draft) : Prop :=
  ∀ key ∈ keys, (d.get key.1).toOption.any (·.value.isOrdinary) = true

instance (keys : Document) (d : Draft) : Decidable (Sortable keys d) :=
  inferInstanceAs (Decidable (∀ key ∈ keys, _))

def Directed (keys : Document) : Prop :=
  ∀ key ∈ keys, (Value.order? key.2 (.int 0)).isSome = true

instance (keys : Document) : Decidable (Directed keys) :=
  inferInstanceAs (Decidable (∀ key ∈ keys, _))

variable {keys first second : Document} {a b : Draft}

theorem keyOrder_append (first second : Document) (a b : Draft) :
    keyOrder (first ++ second) a b = (keyOrder first a b).then (keyOrder second a b) := by
  induction first with
  | nil => rfl
  | cons key first ih =>
    unfold keyOrder at ih ⊢
    rw [List.cons_append, List.foldr_cons, List.foldr_cons, ih, Ordering.then_assoc]

theorem Sortable.of_subset (sortable : Sortable keys a) (within : first ⊆ keys) :
    Sortable first a :=
  fun key mem => sortable key (within mem)

theorem Sortable.get {key : String × Value} (sortable : Sortable keys a) (mem : key ∈ keys) :
    ∃ node, a.get key.1 = .ok node ∧ node.value.isOrdinary = true ∧
      a.valueAt key.1 = node.value := by
  have read := sortable key mem
  unfold Draft.valueAt
  cases found : a.get key.1 with
  | error misuse =>
    rw [found] at read
    cases read
  | ok node =>
    rw [found] at read
    exact ⟨node, rfl, read, rfl⟩

theorem compareBy_eq (directions : Directed keys) (left : Sortable keys a)
    (right : Sortable keys b) : compareBy keys a b = .ok (keyOrder keys a b) := by
  induction keys with
  | nil => rfl
  | cons key rest ih =>
    obtain ⟨x, readLeft, -, valueLeft⟩ := left.get List.mem_cons_self
    obtain ⟨y, readRight, -, valueRight⟩ := right.get List.mem_cons_self
    have later := ih (fun key mem => directions key (.tail _ mem))
      (left.of_subset (List.subset_cons_self ..)) (right.of_subset (List.subset_cons_self ..))
    obtain ⟨sign, direction⟩ := Option.isSome_iff_exists.1 (directions key List.mem_cons_self)
    have order : keyOrder (key :: rest) a b =
        (directed key.2 x.value y.value).then (keyOrder rest a b) := by
      rw [keyOrder, List.foldr_cons, valueLeft, valueRight]
      rfl
    have turned : isDescending key.2 = (sign == Ordering.lt || key.2.isNaN) := by
      rw [isDescending, direction]
      rfl
    rw [order, directed, turned]
    refine Except.bind_eq_ok.2 ⟨x, Except.liftMisuse_eq_ok.2 readLeft, ?_⟩
    refine Except.bind_eq_ok.2 ⟨y, Except.liftMisuse_eq_ok.2 readRight, ?_⟩
    rw [later, direction]
    cases x.value.compare y.value <;> dsimp only <;>
      cases sign == Ordering.lt || key.2.isNaN <;> rfl

/-! ## Drafts with ordinary keys -/

abbrev Keyed (keys : Document) : Type := {d : Draft // Sortable keys d}

theorem transCmp_keyOrder (within : first ⊆ keys) :
    Std.TransCmp fun a b : Keyed keys => keyOrder first a.1 b.1 := by
  induction first with
  | nil =>
    exact { eq_swap := rfl, isLE_trans := fun _ _ => rfl }
  | cons key first ih =>
    have later := ih fun _ mem => within (.tail _ mem)
    have ordinary (d : Keyed keys) : (d.1.valueAt key.1).isOrdinary = true := by
      obtain ⟨node, -, ordinary, value⟩ := d.2.get (within List.mem_cons_self)
      rwa [value]
    have here : Std.TransCmp fun a b : Keyed keys =>
        directed key.2 (a.1.valueAt key.1) (b.1.valueAt key.1) := by
      unfold directed
      cases isDescending key.2 with
      | false =>
        exact {
          eq_swap := Value.compare_swap (ordinary _) (ordinary _)
          isLE_trans := Value.compare_trans (ordinary _) (ordinary _) (ordinary _) }
      | true =>
        have turned : (fun a b : Keyed keys => if true = true then
              ((a.1.valueAt key.1).compare (b.1.valueAt key.1)).swap
            else (a.1.valueAt key.1).compare (b.1.valueAt key.1)) =
            fun a b => (b.1.valueAt key.1).compare (a.1.valueAt key.1) := by
          funext a b
          rw [if_pos rfl, ← Value.compare_swap (ordinary b) (ordinary a)]
        rw [turned]
        exact {
          eq_swap := Value.compare_swap (ordinary _) (ordinary _)
          isLE_trans := fun below above =>
            Value.compare_trans (ordinary _) (ordinary _) (ordinary _) above below }
    exact inferInstanceAs (Std.TransCmp (compareLex
      (fun a b : Keyed keys => directed key.2 (a.1.valueAt key.1) (b.1.valueAt key.1))
      fun a b => keyOrder first a.1 b.1))

theorem exists_sort (directions : Directed keys) (within : first ⊆ keys)
    (xs : List (Keyed keys)) :
    ∃ sorted : List (Keyed keys), sort (.doc first) (xs.map Subtype.val) =
        .ok (sorted.map Subtype.val) ∧
      IsStableSort (fun a b => keyOrder first a.1 b.1) xs sorted := by
  have comparison := transCmp_keyOrder within
  obtain ⟨sorted, run, stable⟩ :=
    @exists_sortM Failure _ (fun a b : Keyed keys => keyOrder first a.1 b.1) _ xs
  refine ⟨sorted, ?_, stable⟩
  have compared (a b : Keyed keys) : (do return (← compareBy first a.1 b.1) == .lt) =
      (pure (keyOrder first a.1 b.1 == .lt) : Except Failure Bool) := by
    rw [compareBy_eq (fun key mem => directions key (within mem)) (a.2.of_subset within)
      (b.2.of_subset within)]
    rfl
  unfold sort
  rw [sortM_map]
  simp only [compared, run]
  rfl

/-- A sort of drafts whose values at the paths are ordinary ones gives the same
drafts in the order of the keys, and leaves those that no key tells apart as they stood. Keys that
come after others can as well be sorted by before them. -/
theorem sort_by_keys (keys : Document) (drafts : List Draft) (directions : Directed keys)
    (sortable : ∀ d ∈ drafts, Sortable keys d) :
    ∃ sorted, sort (.doc keys) drafts = .ok sorted ∧ sorted.Perm drafts ∧
      (sorted.Pairwise fun a b => (keyOrder keys a b).isLE = true) ∧
      (∀ d ∈ drafts, sorted.filter (keyOrder keys d · == .eq) =
        drafts.filter (keyOrder keys d · == .eq)) ∧
      ∀ first second, keys = first ++ second →
        (sort (.doc second) drafts >>= sort (.doc first)) = .ok sorted := by
  have attached : drafts = (drafts.attachWith _ sortable).map Subtype.val :=
    (List.attachWith_map_subtype_val sortable).symm
  generalize drafts.attachWith _ sortable = xs at attached
  subst attached
  obtain ⟨sorted, run, stable⟩ := exists_sort directions (List.Subset.refl keys) xs
  refine ⟨sorted.map Subtype.val, run, stable.perm.map _, List.pairwise_map.2 stable.ordered,
    ?_, ?_⟩
  · intro d mem
    obtain ⟨x, -, rfl⟩ := List.mem_map.1 mem
    rw [List.filter_map, List.filter_map]
    exact congrArg (List.map Subtype.val) (stable.ties x)
  · rintro first second rfl
    have comparison := transCmp_keyOrder (List.Subset.refl (first ++ second))
    have outer := transCmp_keyOrder (List.subset_append_left first second)
    obtain ⟨ys, later, inner⟩ := exists_sort directions (List.subset_append_right first second) xs
    obtain ⟨zs, earlier, both⟩ := exists_sort directions (List.subset_append_left first second) ys
    have lex : (fun a b : Keyed (first ++ second) => keyOrder (first ++ second) a.1 b.1) =
        compareLex (fun a b => keyOrder first a.1 b.1) fun a b => keyOrder second a.1 b.1 :=
      funext fun a => funext fun b => keyOrder_append first second a.1 b.1
    have whole := inner.then_lex both
    rw [← lex] at whole
    rw [stable.unique whole, later]
    exact earlier

def unlike : List Draft :=
  [[("_id", .str "u1"), ("rank", .list [.int 2, .null]), ("name", .str "b")],
    [("_id", .str "u2"), ("name", .str "a")],
    [("_id", .str "u3"), ("rank", .bool true), ("name", .str "b")],
    [("_id", .str "u4"), ("rank", .null), ("name", .objectId ⟨7⟩)]].map Draft.ofDocument

theorem sort_by_keys_unlike :
    Directed [("rank", .int (-1)), ("name", .int 1)] ∧
      (∀ d ∈ unlike, Sortable [("rank", .int (-1)), ("name", .int 1)] d) ∧
      ∃ sorted, sort (.doc [("rank", .int (-1)), ("name", .int 1)]) unlike = .ok sorted ∧
        sorted.Perm unlike ∧
        (sorted.Pairwise fun a b =>
          (keyOrder [("rank", .int (-1)), ("name", .int 1)] a b).isLE = true) ∧
        (sort (.doc [("name", .int 1)]) unlike >>= sort (.doc [("rank", .int (-1))])) =
          .ok sorted := by
  have directions : Directed [("rank", .int (-1)), ("name", .int 1)] := by decide
  have sortable : ∀ d ∈ unlike, Sortable [("rank", .int (-1)), ("name", .int 1)] d := by
    decide +kernel
  obtain ⟨sorted, run, perm, ordered, -, inTurn⟩ := sort_by_keys _ unlike directions sortable
  exact ⟨directions, sortable, sorted, run, perm, ordered,
    inTurn [("rank", .int (-1))] [("name", .int 1)] rfl⟩

end Pipeline
end Docbase
