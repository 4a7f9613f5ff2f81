/-!
# Stable sorting

Sorting by a comparison that may fail or depend on its arguments in odd ways, so the comparisons
that are made are part of what a sort does. The longest ordered run at the start is kept (or turned
around if it falls strictly), and every later element is inserted into what is sorted so far by
binary search, after its equals.
-/

namespace Docbase.Sorting

variable {m : Type → Type _} [Monad m] {α : Type}

/-- Inserts an element into a sorted list, after all that are not above it. -/
def insertM (less : α → α → m Bool) (x : α) (sorted : List α) : m (List α) :=
  match h : sorted[sorted.length / 2]? with
  | none => return x :: sorted
  | some middle => do
    have : sorted.length / 2 < sorted.length := (List.getElem?_eq_some_iff.1 h).1
    if ← less x middle then
      return (← insertM less x (sorted.take (sorted.length / 2)))
        ++ sorted.drop (sorted.length / 2)
    else
      return sorted.take (sorted.length / 2 + 1)
        ++ (← insertM less x (sorted.drop (sorted.length / 2 + 1)))
termination_by sorted.length
decreasing_by
  · simp only [List.length_take]; omega
  · simp only [List.length_drop]; omega

/-- Extends a run, given with its last element first, as long as each element compares as asked
with the one before it; also gives what is left. -/
def extendRunM (follows : α → α → m Bool) (last : α) (before : List α) :
    List α → m (List α × List α)
  | [] => return (last :: before, [])
  | x :: rest => do
    if ← follows x last then extendRunM follows x (last :: before) rest
    else return (last :: before, x :: rest)

def firstRunM (less : α → α → m Bool) : List α → m (List α × List α)
  | [] => return ([], [])
  | [x] => return ([x], [])
  | x :: y :: rest => do
    if ← less y x then extendRunM less y [x] rest
    else
      let (run, left) ← extendRunM (fun a b => do return !(← less a b)) y [x] rest
      return (run.reverse, left)

/-- The elements in order; those of which none is less than the other stay as they are. -/
def sortM (less : α → α → m Bool) (xs : List α) : m (List α) := do
  let (run, left) ← firstRunM less xs
  left.foldlM (fun sorted x => insertM less x sorted) run

end Docbase.Sorting
