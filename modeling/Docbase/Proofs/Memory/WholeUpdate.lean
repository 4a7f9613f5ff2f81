import Docbase.Proofs.Failing
import Docbase.Proofs.Memory.Patches
import Docbase.Proofs.Memory.Progress

/-!
# Updates as a whole

An update checks each new document against a collection of which some documents are new and some
are still to come. For patches that write no document into a list, it is refused exactly if the
collection that it aims at breaks a unique index.

* `Collection.violates_of_taken`: a conflict on the way is one in the end.
* `Contents.update_settles`: what an update comes to.
* `World.update_refused_iff`: when it is refused, and what it leaves if it is not.
-/

namespace Docbase.Memory

open Contents (patched)

namespace Index

variable {keys : List String} {d e : Document}

theorem not_apart_iff : ¬Apart keys d e ↔ ∃ x y, entryOf keys d = .ok x ∧ entryOf keys e = .ok y ∧
    Value.sameItems x y = true := by
  simp [Apart]

end Index

namespace Collection

variable {name : String} {filter : Value} {patch d : Document} {c : Collection}
  {records : List (Value × Document)} {ignored : Option Value} {r s : Value × Document}

/-! ## Whole updates -/

def Violates (c : Collection) : Prop :=
  ∃ i ∈ c.indexes, i.2.unique = true ∧
    ¬c.records.Pairwise fun r s => Index.Apart i.2.keys r.2 s.2

theorem Consistent.not_violates (h : c.Consistent) : ¬c.Violates := by
  intro ⟨i, mem, unique, conflict⟩
  exact conflict (h.enforced i mem unique).apart

/-- A patch of plain data, with a value for each of some paths that do not go on from each other. -/
structure IsPatch (patch : Document) : Prop where
  proper : patch.Proper
  data : (Value.doc patch).isData = true
  apart : Document.ApartPaths patch
  unnamed : "_id" ∉ Fields.keys patch

/-- A collection in which nothing but a unique index can be in the way of an update. -/
structure Fits (filter : Value) (patch : Document) (c : Collection) : Prop where
  keyed : ∀ r ∈ c.records, r.1.isNaN = false
  testable : ∀ r ∈ c.records, (Filter.holds (.doc r.2) filter).isOk = true
  data : ∀ r ∈ c.records, (Value.doc r.2).isData = true
  opened : ∀ r ∈ c.records, ∀ f ∈ patch, Document.Open (Path.parts f.1) r.2
  readable : ∀ i ∈ c.indexes, i.2.unique = true → ∀ r ∈ c.records,
    (Index.entryOf i.2.keys (revised filter patch r).2).isOk = true

/-! ## The check of one document -/

theorem checkEntry_failsBy {P : Failure → Prop} {index : String} {keys : List String}
    {entry : List Value} (indexed : ∀ r ∈ records, ∃ e, Index.entryOf keys r.2 = .ok e)
    (taken : ∀ r ∈ records, ignored.any (Value.equals r.1) = false → ∀ e,
      Index.entryOf keys r.2 = .ok e → Value.sameItems e entry = true →
        P (.duplicateIndexValue name index (Index.labelled keys entry))) :
    Except.FailsBy P (checkEntry name index keys entry ignored records) := by
  induction records with
  | nil => exact Except.failsBy_ok ()
  | cons r rest ih =>
    obtain ⟨⟨e, read⟩, others⟩ := List.forall_mem_cons.1 indexed
    obtain ⟨here, there⟩ := List.forall_mem_cons.1 taken
    have later := ih others there
    rw [checkEntry, read]
    cases skip : ignored.any (Value.equals r.1) with
    | true => exact later
    | false => exact Except.failsBy_guard (here skip e read) later

/-- Some record, but not the one to be ignored, has the entry of a document in a unique index. -/
def Taken (d : Document) (ignored : Option Value) (c : Collection) : Prop :=
  ∃ i ∈ c.indexes, i.2.unique = true ∧ ∃ r ∈ c.records,
    ignored.any (Value.equals r.1) = false ∧ ¬Index.Apart i.2.keys r.2 d

theorem checkUnique_failsBy
    (indexed : ∀ i ∈ c.indexes, i.2.unique = true → ∀ r ∈ c.records,
      ∃ e, Index.entryOf i.2.keys r.2 = .ok e)
    (readable : ∀ i ∈ c.indexes, i.2.unique = true → ∃ e, Index.entryOf i.2.keys d = .ok e) :
    Except.FailsBy (fun failure => failure.kind = .duplicateKey ∧ c.Taken d ignored)
      (c.checkUnique name d ignored) := by
  apply Except.failsBy_forM
  intro ⟨indexName, index⟩ mem
  cases unique : index.unique with
  | false =>
    simp only [unique, Bool.false_eq_true, if_false]
    exact Except.failsBy_ok ()
  | true =>
    obtain ⟨entry, read⟩ := readable _ mem unique
    simp only [unique, if_true]
    rw [read]
    refine checkEntry_failsBy (indexed _ mem unique) ?_
    intro r there compared e read' same
    exact ⟨rfl, _, mem, unique, r, there, compared,
      Index.not_apart_iff.2 ⟨e, entry, read', read, same⟩⟩

/-! ## Conflicts on the way -/

theorem revised_proper (h : IsPatch patch) (proper : r.2.Proper) :
    (revised filter patch r).2.Proper := by
  rw [revised]
  split
  · exact Contents.patched_proper h.proper proper
  · exact proper

theorem not_apart_revised {keys : List String} (h : IsPatch patch)
    (opened : ∀ f ∈ patch, Document.Open (Path.parts f.1) r.2)
    (data : (Value.doc r.2).isData = true) (data' : (Value.doc d).isData = true)
    (conflict : ¬Index.Apart keys r.2 (patched d patch)) :
    ¬Index.Apart keys (revised filter patch r).2 (patched d patch) := by
  rw [revised]
  split
  · rw [Index.not_apart_iff] at conflict ⊢
    obtain ⟨x, y, read, read', same⟩ := conflict
    obtain ⟨new, readNew, sameNew⟩ :=
      Index.sameItems_patched h.apart opened data data' h.data read read' same
    exact ⟨new, y, readNew, read', sameNew⟩
  · exact conflict

/-- A conflict on the way is one in the end. -/
theorem violates_of_taken {before rest : List (Value × Document)} (h : IsPatch patch)
    (fits : c.Fits filter patch) (consistent : c.Consistent)
    (split : c.records = before ++ r :: rest) (change : changes filter patch r.2 = true)
    (taken : (c.halfway filter patch before (r :: rest)).Taken (patched r.2 patch) (some r.1)) :
    (c.updated filter patch).Violates := by
  obtain ⟨i, mem, unique, s, there, compared, conflict⟩ := taken
  refine ⟨i, mem, unique, fun pairs => ?_⟩
  have new : revised filter patch r = (r.1, patched r.2 patch) := by rw [revised, if_pos change]
  have middle : r ∈ c.records := split ▸ List.mem_append_right _ List.mem_cons_self
  rw [updated, split, List.map_append, List.map_cons, new, List.pairwise_append,
    List.pairwise_cons] at pairs
  obtain ⟨-, ⟨behind, -⟩, ahead⟩ := pairs
  -- A record ahead is as it will be, the one to be replaced is not compared, and one that is still
  -- to come keeps its conflict.
  rcases List.mem_append.1 there with earlier | there
  · exact conflict (ahead s earlier _ List.mem_cons_self)
  · rcases List.mem_cons.1 there with rfl | later
    · have self : Value.equals s.1 s.1 = true := by
        rw [Value.equals, fits.keyed s middle, Value.same_self (consistent.hashable s middle)]
        rfl
      rw [Option.any_some, self] at compared
      cases compared
    · have mem : s ∈ c.records :=
        split ▸ List.mem_append_right _ (List.mem_cons_of_mem _ later)
      apply not_apart_revised h (fits.opened s mem) (fits.data s mem) (fits.data r middle) conflict
      apply (behind _ (List.mem_map_of_mem later)).symm
      · exact Contents.patched_proper h.proper (consistent.proper r middle)
      · exact revised_proper h (consistent.proper s mem)

end Collection

namespace Contents

open Collection

variable {name : String} {filter : Value} {patch d : Document} {c : Collection}
  {contents : Contents} {key : Value}

/-- An update has found a conflict that the whole one has, or has done what the whole one does. -/
def Settles (name : String) (filter : Value) (patch : Document) (c : Collection) (changed : Nat)
    (run : Except Failure Nat × Contents) : Prop :=
  (∃ failure, run.1 = .error failure ∧ failure.kind = .duplicateKey ∧
      (c.updated filter patch).Violates) ∨
    run.1 = .ok changed ∧ run.2.collection name = c.updated filter patch ∧
      (c.updated filter patch).Consistent

theorem update_settles (h : IsPatch patch)
    (fits : (contents.collection name).Fits filter patch)
    (consistent : (contents.collection name).Consistent) :
    Settles name filter patch (contents.collection name)
      ((contents.collection name).records.countP fun r => changes filter patch r.2)
      (update name filter (.doc patch) contents) := by
  have kept : ((update name filter (.doc patch) contents).2.collection name).Consistent :=
    consistent_update (Value.isProper_doc.2 h.proper) consistent
  rcases update_reaches h.unnamed consistent.isTable with
    ⟨failure, ahead, r, behind, failed, split, left, blocks⟩ | ⟨returned, done⟩
  · rw [left] at blocks kept
    have mem : r ∈ (contents.collection name).records :=
      split ▸ List.mem_append_right _ List.mem_cons_self
    rcases blocks with untestable | ⟨change, checked⟩
    · have testable := fits.testable r mem
      rw [untestable] at testable
      cases testable
    · have indexed (i) (there : i ∈ (contents.collection name).indexes)
          (unique : i.2.unique = true) := (kept.enforced i there unique).indexed
      have readable (i) (there : i ∈ (contents.collection name).indexes)
          (unique : i.2.unique = true) :
          ∃ e, Index.entryOf i.2.keys (patched r.2 patch) = .ok e := by
        have read := fits.readable i there unique r mem
        rw [revised, if_pos change] at read
        exact Except.exists_ok read
      obtain ⟨kind, taken⟩ :=
        checkUnique_failsBy
          (c := (contents.collection name).halfway filter patch ahead (r :: behind))
          indexed readable failure checked
      exact .inl ⟨failure, failed, kind,
        violates_of_taken h fits consistent split change taken⟩
  · rw [done] at kept
    exact .inr ⟨returned, done, kept⟩

end Contents

namespace World

open Collection

/-- An update raises a duplicate exactly if the collection it aims at breaks a unique index. If it
does not, this collection is what the update leaves. -/
theorem update_refused_iff {w : World} {store name : String} {caller : Option SessionId}
    {filter : Value} {patch : Document} (allowed : w.refusal store caller = none)
    (consistent : ((w.contents store).collection name).Consistent)
    (fits : ((w.contents store).collection name).Fits filter patch) (h : IsPatch patch) :
    let c := (w.contents store).collection name
    let run := update store name filter (.doc patch) caller w
    ((∃ failure, run.1 = .error failure ∧ failure.kind = .duplicateKey) ↔
        (c.updated filter patch).Violates) ∧
      (¬(c.updated filter patch).Violates →
        run.1 = .ok (c.records.countP fun r => changes filter patch r.2) ∧
        (run.2.contents store).collection name = c.updated filter patch) := by
  intro c run
  have there : run = ((Contents.update name filter (.doc patch) (w.contents store)).1,
      w.setContents store (Contents.update name filter (.doc patch) (w.contents store)).2) := by
    simp only [run, update, check_bind_apply, allowed]
    rfl
  rw [there]
  rcases Contents.update_settles h fits consistent with
    ⟨failure, failed, kind, conflict⟩ | ⟨returned, done, kept⟩
  · refine ⟨⟨fun _ => conflict, fun _ => ⟨failure, failed, kind⟩⟩, fun unbroken => ?_⟩
    exact absurd conflict unbroken
  · refine ⟨⟨?_, fun conflict => absurd conflict kept.not_violates⟩, fun _ => ⟨returned, ?_⟩⟩
    · rintro ⟨failure, failed, _⟩
      rw [returned] at failed
      cases failed
    · rw [contents_setContents_self]
      exact done

/-- Guests with places, no two of them in one row at one table. -/
def seating : World :=
  let guest (id table : String) (row : Int) : Value :=
    .doc [("_id", .str id), ("table", .str table), ("place", .doc [("row", .int row)])]
  (empty true).replay
    [.write "main" (.createIndex "guests" [.str "table", .str "place.row"] true) none,
      .write "main" (.insertAll "guests" [guest "g1" "a" 1, guest "g2" "b" 2, guest "g3" "b" 1]
        true) none]

theorem seating_consistent : seating.Consistent := by
  apply replay_preserves (fun _ _ proper h => h.after proper) _ (consistent_empty true)
  decide

/-- To move all guests to the second row is refused, as two of them would be at one table. -/
theorem update_refused_seating :
    let c := (seating.contents "main").collection "guests"
    let move : Document := [("place.row", .int 2)]
    let run := update "main" "guests" (.doc []) (.doc move) none seating
    seating.refusal "main" none = none ∧ c.Consistent ∧ c.Fits (.doc []) move ∧ IsPatch move ∧
      run.1.toOption = none ∧ (c.updated (.doc []) move).Violates ∧
      ∃ failure, run.1 = .error failure ∧ failure.kind = .duplicateKey := by
  intro c move run
  have allowed : seating.refusal "main" none = none := by decide +kernel
  have consistent : c.Consistent := seating_consistent.contents "main" "guests"
  have fits : c.Fits (.doc []) move := by constructor <;> decide +kernel
  have isPatch : IsPatch move := by
    constructor
    · exact Value.isProper_doc.1 (by decide)
    all_goals decide +kernel
  obtain ⟨refused, done⟩ := update_refused_iff allowed consistent fits isPatch
  have none : run.1.toOption = none := by decide +kernel
  have violates : (c.updated (.doc []) move).Violates := by
    by_contra unbroken
    have returned : run.1.toOption = _ := congrArg Except.toOption (done unbroken).1
    rw [none] at returned
    cases returned
  exact ⟨allowed, consistent, fits, isPatch, none, violates, refused.2 violates⟩

end World
end Docbase.Memory
