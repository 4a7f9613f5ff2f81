import Docbase.Proofs.Memory.Tables

/-!
# How far an update gets

An update goes through the records as they were when it began, and replaces one document after the
other. If it fails at a record, those ahead of it keep what they have become.
-/

namespace Docbase.Memory
open Docbase.Action (Preserves Yields)

open Contents (patched)

namespace Collection

variable {name : String} {filter : Value} {patch : Document} {c : Collection}
  {before rest records : List (Value × Document)} {r : Value × Document}

def changes (filter : Value) (patch d : Document) : Bool :=
  Except.accepts (Filter.holds (.doc d) filter) &&
    !Value.same (.doc (patched d patch)) (.doc d)

def revised (filter : Value) (patch : Document) (r : Value × Document) : Value × Document :=
  if changes filter patch r.2 then (r.1, patched r.2 patch) else r

/-- Every document that is to be replaced is replaced at once. -/
def updated (filter : Value) (patch : Document) (c : Collection) : Collection :=
  { c with records := c.records.map (revised filter patch) }

theorem revised_fst (filter : Value) (patch : Document) (r : Value × Document) :
    (revised filter patch r).1 = r.1 := by
  rw [revised]
  split <;> rfl

theorem revised_of_unchanged (h : changes filter patch r.2 = false) :
    revised filter patch r = r := by
  rw [revised, h]
  rfl

/-- The collection on the way: the first records are revised, the others are still to come. -/
def halfway (filter : Value) (patch : Document) (before rest : List (Value × Document))
    (c : Collection) : Collection :=
  { c with records := before.map (revised filter patch) ++ rest }

theorem halfway_eq_updated (split : c.records = records) :
    c.halfway filter patch records [] = c.updated filter patch := by
  rw [halfway, updated, split, List.append_nil]

theorem replace_halfway {before rest : List (Value × Document)}
    (table : (c.halfway filter patch before (r :: rest)).IsTable)
    (change : changes filter patch r.2 = true) :
    (c.halfway filter patch before (r :: rest)).replace r.1 (patched r.2 patch) =
      c.halfway filter patch (before ++ [r]) rest := by
  obtain ⟨-, -, across⟩ := List.pairwise_append.1 table.keys
  have ahead : ∀ s ∈ before.map (revised filter patch), Value.same s.1 r.1 = false :=
    fun s mem => across s mem r List.mem_cons_self
  have self : Value.same r.1 r.1 = true := by
    apply Value.same_self
    exact table.hashable r (List.mem_append_right _ List.mem_cons_self)
  rw [replace, halfway, replaceIn_append ahead self, halfway]
  simp [revised, change]

theorem IsTable.halfway (h : c.IsTable) (split : c.records = before ++ rest) :
    (c.halfway filter patch before rest).IsTable := by
  have keys : (c.halfway filter patch before rest).records.map (·.1) = c.records.map (·.1) := by
    rw [Collection.halfway, split]
    simp [revised_fst]
  rw [isTable_iff] at h ⊢
  rwa [keys]

/-- A record that an update cannot get past: its document cannot be tested, or the document that is
to replace it fails the check. -/
def Blocks (name : String) (filter : Value) (patch : Document) (r : Value × Document)
    (failure : Failure) (c : Collection) : Prop :=
  Filter.holds (.doc r.2) filter = .error failure ∨
    changes filter patch r.2 = true ∧
      c.checkUnique name (patched r.2 patch) (some r.1) = .error failure

/-- An update that fails at one record leaves those ahead of it revised, and the others alone. -/
structure StopsAt (name : String) (filter : Value) (patch : Document)
    (ahead : List (Value × Document)) (r : Value × Document) (behind : List (Value × Document))
    (failure : Failure) (before after : Collection) : Prop where
  split : before.records = ahead ++ r :: behind
  left : after = before.halfway filter patch ahead (r :: behind)
  blocks : after.Blocks name filter patch r failure

end Collection

namespace Contents

open Collection

variable {name other : String} {filter : Value} {patch d : Document} {c : Collection}
  {contents : Contents} {key : Value}

def Reaches (name : String) (filter : Value) (patch : Document) (c : Collection) (changed : Nat)
    (run : Except Failure Nat × Contents) : Prop :=
  (∃ failure ahead r behind, run.1 = .error failure ∧
      StopsAt name filter patch ahead r behind failure c (run.2.collection name)) ∨
    run.1 = .ok changed ∧ run.2.collection name = c.updated filter patch

theorem Reaches.add {changed : Nat} {run : Except Failure Nat × Contents}
    (h : Reaches name filter patch c changed run) (before : Nat) :
    Reaches name filter patch c (before + changed) (run.1.map (before + ·), run.2) := by
  rcases h with ⟨failure, ahead, r, behind, failed, stopped⟩ | ⟨returned, done⟩
  · exact .inl ⟨failure, ahead, r, behind, by rw [failed]; rfl, stopped⟩
  · exact .inr ⟨by rw [returned]; rfl, done⟩

theorem updateRecord_apply (testable : (Filter.holds (.doc d) filter).isOk = true) :
    updateRecord name filter (.doc patch) key d contents =
      if changes filter patch d then
        match (contents.collection name).checkUnique name (patched d patch) (some key) with
        | .ok () => (.ok 1,
            contents.put name ((contents.collection name).replace key (patched d patch)))
        | .error failure => (.error failure, contents)
      else (.ok 0, contents) := by
  obtain ⟨answer, holds⟩ := Except.exists_ok testable
  rw [updateRecord, holds, changes, holds]
  cases answer with
  | false => rfl
  | true =>
    cases same : Value.same (.doc (patched d patch)) (.doc d) with
    | true =>
      show (if _ then pure 0 else _ : Action Contents Nat) contents = _
      rw [if_pos same]
      rfl
    | false =>
      show (if _ then pure 0 else _ : Action Contents Nat) contents = _
      rw [if_neg (Bool.eq_false_iff.1 same), change_apply]
      cases (contents.collection name).checkUnique name (patched d patch) (some key) <;> rfl

theorem updateRecords_cons {r : Value × Document} {rest : List (Value × Document)} {patch : Value}
    {changed : Nat} {after : Contents}
    (here : updateRecord name filter patch r.1 r.2 contents = (.ok changed, after)) :
    updateRecords name filter patch (r :: rest) contents =
      ((updateRecords name filter patch rest after).1.map (changed + ·),
        (updateRecords name filter patch rest after).2) := by
  rw [updateRecords, Action.bind_apply, here]
  exact Action.map_apply _ _ _

theorem updateRecord_of_untestable {patch : Value} {failure : Failure}
    (untestable : Filter.holds (.doc d) filter = .error failure) :
    updateRecord name filter patch key d contents = (.error failure, contents) := by
  rw [updateRecord, untestable]
  rfl

theorem updateRecords_reaches (table : c.IsTable) {before rest : List (Value × Document)}
    (split : c.records = before ++ rest)
    (now : contents.collection name = c.halfway filter patch before rest) :
    Reaches name filter patch c (rest.countP fun r => changes filter patch r.2)
      (updateRecords name filter (.doc patch) rest contents) := by
  -- The invariant is that the collection is halfway.
  induction rest generalizing before contents with
  | nil =>
    rw [List.append_nil] at split
    rw [halfway_eq_updated split] at now
    exact .inr ⟨rfl, now⟩
  | cons r rest ih =>
    have split' : c.records = (before ++ [r]) ++ rest := by rw [split, List.append_assoc]; rfl
    -- Nothing is written at the record that stops the update, so the collection is still halfway.
    have stop {failure : Failure}
        (failed : updateRecord name filter (.doc patch) r.1 r.2 contents =
          (.error failure, contents))
        (blocks : (c.halfway filter patch before (r :: rest)).Blocks name filter patch r failure)
        (changed : Nat) : Reaches name filter patch c changed
          (updateRecords name filter (.doc patch) (r :: rest) contents) := by
      refine .inl ⟨failure, before, r, rest, ?_, split, ?_, ?_⟩
      · rw [updateRecords, Action.bind_apply, failed]
      · rw [updateRecords, Action.bind_apply, failed]
        exact now
      · rw [updateRecords, Action.bind_apply, failed]
        exact now ▸ blocks
    cases tested : Filter.holds (.doc r.2) filter with
    | error failure => exact stop (updateRecord_of_untestable tested) (.inl tested) _
    | ok answer =>
      have here : updateRecord name filter (.doc patch) r.1 r.2 contents = _ :=
        updateRecord_apply (by rw [tested]; rfl)
      rw [List.countP_cons, Nat.add_comm]
      cases change : changes filter patch r.2 with
      | false =>
        rw [change] at here
        rw [updateRecords_cons here]
        have same : c.halfway filter patch (before ++ [r]) rest =
            c.halfway filter patch before (r :: rest) := by
          simp [halfway, revised_of_unchanged change]
        exact (ih split' (now.trans same.symm)).add 0
      | true =>
        rw [change, if_pos rfl, now] at here
        cases checked : (c.halfway filter patch before (r :: rest)).checkUnique name
            (patched r.2 patch) (some r.1) with
        | error failure =>
          rw [checked] at here
          exact stop here (.inr ⟨change, checked⟩) _
        | ok _ =>
          rw [checked, replace_halfway (table.halfway split) change] at here
          rw [updateRecords_cons here]
          exact (ih split' (collection_put_self _ _ _)).add 1

/-! ## Whole updates -/

theorem foundIn_of_unnamed {name : String} (h : name ∉ Fields.keys patch) :
    (Value.str name).foundIn (.doc patch) = .ok false := by
  have hashable : (Value.str name).hashable = true := rfl
  rw [Value.foundIn, if_pos hashable]
  apply congrArg
  rw [List.any_eq_false]
  intro key mem same
  obtain rfl : key = name := by simpa [Value.same, Value.sameScalar] using same
  exact h mem

theorem update_of_named (named : "_id" ∈ Fields.keys patch) :
    update name filter (.doc patch) contents = (.error .immutableIdentifier, contents) := by
  have found : (Value.str "_id").foundIn (.doc patch) = .ok true := by
    have hashable : (Value.str "_id").hashable = true := rfl
    rw [Value.foundIn, if_pos hashable]
    apply congrArg
    rw [List.any_eq_true]
    exact ⟨"_id", named, rfl⟩
  rw [update, found]
  rfl

theorem update_reaches (unnamed : "_id" ∉ Fields.keys patch)
    (table : (contents.collection name).IsTable) :
    Reaches name filter patch (contents.collection name)
      ((contents.collection name).records.countP fun r => changes filter patch r.2)
      (update name filter (.doc patch) contents) := by
  rw [update, foundIn_of_unnamed unnamed]
  have split : (contents.collection name).records = [] ++ (contents.collection name).records := rfl
  exact updateRecords_reaches table split rfl

theorem update_cases (filter : Value) (patch : Document)
    (table : (contents.collection name).IsTable) :
    update name filter (.doc patch) contents = (.error .immutableIdentifier, contents) ∨
      Reaches name filter patch (contents.collection name)
        ((contents.collection name).records.countP fun r => changes filter patch r.2)
        (update name filter (.doc patch) contents) := by
  by_cases named : "_id" ∈ Fields.keys patch
  · exact .inl (update_of_named named)
  · exact .inr (update_reaches named table)

theorem update_returns {n : Nat} {after : Contents}
    (table : (contents.collection name).IsTable)
    (run : update name filter (.doc patch) contents = (.ok n, after)) :
    after.collection name = (contents.collection name).updated filter patch := by
  rcases update_cases filter patch table with named | reaches
  · rw [run] at named
    cases named
  · rw [run] at reaches
    rcases reaches with ⟨failure, -, -, -, failed, -⟩ | ⟨-, done⟩
    · cases failed
    · exact done

/-! ## Updates that replace nothing -/

theorem yields_updateRecord_of_unchanged {r : Value × Document}
    (unchanged : changes filter patch r.2 = false) :
    Yields (· = contents) (· = 0) (updateRecord name filter (.doc patch) r.1 r.2) := by
  rintro _ rfl
  cases tested : Filter.holds (.doc r.2) filter with
  | error failure =>
    rw [updateRecord_of_untestable tested]
    exact ⟨rfl, nofun⟩
  | ok answer =>
    rw [updateRecord_apply (by rw [tested]; rfl), unchanged]
    exact ⟨rfl, fun n returned => (Except.ok.inj returned).symm⟩

theorem yields_updateRecords_of_unchanged {records : List (Value × Document)}
    (unchanged : ∀ r ∈ records, changes filter patch r.2 = false) :
    Yields (· = contents) (· = 0) (updateRecords name filter (.doc patch) records) := by
  induction records with
  | nil => exact Action.yields_pure rfl
  | cons r rest ih =>
    obtain ⟨here, there⟩ := List.forall_mem_cons.1 unchanged
    refine (yields_updateRecord_of_unchanged here).bind fun n none => ?_
    refine (ih there).bind fun m none' => Action.yields_pure ?_
    rw [none, none']

theorem update_of_unchanged {n : Nat} {after : Contents}
    (unchanged : ∀ r ∈ (contents.collection name).records, changes filter patch r.2 = false)
    (run : update name filter (.doc patch) contents = (.ok n, after)) :
    n = 0 ∧ after = contents := by
  by_cases named : "_id" ∈ Fields.keys patch
  · rw [update_of_named named] at run
    cases run
  · rw [update, foundIn_of_unnamed named] at run
    obtain ⟨left, none⟩ := (yields_updateRecords_of_unchanged unchanged).returned rfl run
    exact ⟨none, left⟩

end Contents

namespace World

theorem update_returns {store name : String} {filter patch : Value} {caller : Option SessionId}
    {w v : World} {n : Nat} (run : update store name filter patch caller w = (.ok n, v)) :
    ∃ after, Contents.update name filter patch (w.contents store) = (.ok n, after) ∧
      v = w.setContents store after := by
  rw [update, check_bind_apply] at run
  cases refused : w.refusal store caller with
  | some failure =>
    rw [refused] at run
    cases run
  | none =>
    rw [refused] at run
    obtain ⟨returned, left⟩ := Prod.mk.inj run
    exact ⟨_, Prod.ext returned rfl, left.symm⟩

end World
end Docbase.Memory
