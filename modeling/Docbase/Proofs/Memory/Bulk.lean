import Docbase.Proofs.Failing
import Docbase.Proofs.Memory.Contents

namespace Docbase.Memory

theorem kind_misuse_ne (m : Misuse) : (Failure.misuse m).kind ≠ .bulkInsert := by
  intro same
  cases same

namespace Collection

variable {c : Collection}

theorem failsBy_checkEntry (collection index : String) (keys : List String) (entry : List Value)
    (ignored : Option Value) (records : List (Value × Document)) :
    Except.FailsBy (fun e => e.kind ≠ .bulkInsert)
      (checkEntry collection index keys entry ignored records) := by
  induction records with
  | nil => exact Except.failsBy_ok ()
  | cons r rest ih =>
    rw [checkEntry]
    split
    · exact ih
    · refine (Except.failsBy_liftMisuse fun m _ => kind_misuse_ne m).bind fun _ _ =>
        Except.failsBy_guard (fun _ same => ?_) ih
      cases same

theorem failsBy_insert (name : String) (fallback : Value) (d : Document) :
    Except.FailsBy (fun e => e.kind ≠ .bulkInsert) (c.insert name fallback d) := by
  refine Except.failsBy_unless (fun _ => nofun) (Except.failsBy_guard (fun _ => nofun) ?_)
  refine Except.FailsBy.bind (Except.failsBy_forM fun index _ => ?_) fun _ _ => Except.failsBy_ok _
  dsimp only
  split
  · exact (Except.failsBy_liftMisuse fun m _ => kind_misuse_ne m).bind fun entry _ =>
      failsBy_checkEntry name index.1 index.2.keys entry none c.records
  · exact Except.failsBy_ok ()

theorem recordOf_of_lookup {d : Document} {key : Value} (found : d.lookup "_id" = some key)
    (fallback : Value) : recordOf fallback d = (key, d) := by
  simp only [recordOf, Fields.has, found, Option.isSome_some, Option.getD_some, if_true]

end Collection

namespace Contents

open Collection (recordOf)

variable {name : String} {number position : Nat} {ordered : Bool} {document key : Value}
  {documents : List Value} {failure : Failure} {contents contents' last : Contents}
  {added more : List (Value × Document)}

structure Appends (name : String) (added : List (Value × Document))
    (contents contents' : Contents) : Prop where
  here : contents'.collection name = { contents.collection name with
    records := (contents.collection name).records ++ added }
  elsewhere : ∀ other, other ≠ name → contents'.collection other = contents.collection other

theorem appends_nil (name : String) (contents : Contents) : Appends name [] contents contents :=
  ⟨by rw [List.append_nil], fun _ _ => rfl⟩

theorem Appends.trans (h : Appends name added contents contents')
    (h' : Appends name more contents' last) : Appends name (added ++ more) contents last := by
  refine ⟨?_, fun other ne => (h'.elsewhere other ne).trans (h.elsewhere other ne)⟩
  rw [h'.here, h.here, List.append_assoc]

theorem Appends.records (h : Appends name added contents contents') :
    (contents'.collection name).records = (contents.collection name).records ++ added :=
  congrArg Collection.records h.here

/-! ## One document -/

theorem insertKeyed_returns
    (run : insertKeyed name number document contents = (.ok key, contents')) :
    ∃ d, document = .doc d ∧ key = (recordOf (.str (generatedKey number)) d).1 ∧
      (contents.collection name).hasKey key = false ∧
      Appends name [recordOf (.str (generatedKey number)) d] contents contents' := by
  cases document with
  | doc d =>
    rw [insertKeyed, change_apply] at run
    cases inserted : (contents.collection name).insert name (.str (generatedKey number)) d with
    | error failure =>
      rw [inserted] at run
      cases run
    | ok result =>
      obtain ⟨key', c⟩ := result
      rw [inserted] at run
      cases run
      obtain ⟨-, fresh, -, rfl, rfl⟩ := Collection.insert_eq_ok.1 inserted
      exact ⟨d, rfl, rfl, fresh, collection_put_self _ _ _,
        fun other ne => collection_put_of_ne ne _ _⟩
  | _ => cases run

theorem insertKeyed_fails
    (run : insertKeyed name number document contents = (.error failure, contents')) :
    contents' = contents ∧ failure.kind ≠ .bulkInsert := by
  cases document with
  | doc d =>
    rw [insertKeyed, change_apply] at run
    cases inserted : (contents.collection name).insert name (.str (generatedKey number)) d with
    | error failure' =>
      rw [inserted] at run
      cases run
      exact ⟨rfl, Collection.failsBy_insert name _ d _ inserted⟩
    | ok result =>
      rw [inserted] at run
      cases run
  | _ =>
    cases run
    exact ⟨rfl, kind_misuse_ne .noSuchPart⟩

/-! ## Several documents -/

def recordsOf : Nat → List Value → List (Value × Document)
  | _, [] => []
  | number, .doc d :: rest =>
    recordOf (.str (generatedKey number)) d :: recordsOf (number + 1) rest
  | number, _ :: rest => recordsOf (number + 1) rest

theorem recordsOf_sublist_cons (number : Nat) (document : Value) (documents : List Value) :
    (recordsOf (number + 1) documents).Sublist (recordsOf number (document :: documents)) := by
  cases document with
  | doc d => exact List.sublist_cons_self _ _
  | _ => exact List.Sublist.refl _

theorem insertFrom_returns {outcome : BulkOutcome}
    (run : insertFrom name number ordered position documents contents = (.ok outcome, contents')) :
    ∃ added, Appends name added contents contents' ∧
      added.Sublist (recordsOf (number + position) documents) ∧
      outcome.inserted = added.map (·.1.text) := by
  induction documents generalizing position outcome contents with
  | nil =>
    cases run
    exact ⟨[], appends_nil name _, List.Sublist.refl _, rfl⟩
  | cons document rest ih =>
    obtain ⟨attempted, between, first, onward⟩ := Action.bind_returns.1 run
    rw [Action.attempt_returns] at first
    cases attempted with
    | ok key =>
      obtain ⟨later, _, there, returned⟩ := Action.bind_returns.1 onward
      obtain ⟨rfl, rfl⟩ := Action.pure_returns.1 returned
      obtain ⟨d, rfl, rfl, -, one⟩ := insertKeyed_returns first
      obtain ⟨added, others, part, told⟩ := ih there
      refine ⟨_, one.trans others, part.cons_cons _, ?_⟩
      rw [List.singleton_append, List.map_cons, told]
    | error failure =>
      obtain ⟨rfl, -⟩ := insertKeyed_fails first
      have skip := recordsOf_sublist_cons (number + position) document rest
      dsimp only at onward
      split at onward
      · split at onward
        · obtain ⟨rfl, rfl⟩ := Action.pure_returns.1 onward
          exact ⟨[], appends_nil name between, List.nil_sublist _, rfl⟩
        · obtain ⟨later, _, there, returned⟩ := Action.bind_returns.1 onward
          obtain ⟨rfl, rfl⟩ := Action.pure_returns.1 returned
          obtain ⟨added, others, part, told⟩ := ih there
          exact ⟨added, others, part.trans skip, told⟩
      · cases onward

theorem insertFrom_fails
    (run : insertFrom name number ordered position documents contents =
      (.error failure, contents')) :
    ∃ added taken document rest, documents = taken ++ document :: rest ∧
      Appends name added contents contents' ∧
      added.Sublist (recordsOf (number + position) taken) ∧ failure.kind ≠ .duplicateKey ∧
      insertKeyed name (number + position + taken.length) document contents' =
        (.error failure, contents') := by
  induction documents generalizing position contents with
  | nil => cases run
  | cons document rest ih =>
    rcases Action.bind_fails.1 run with first | ⟨attempted, between, first, onward⟩
    · cases first
    rw [Action.attempt_returns] at first
    -- The number of the document that is refused, counted from the second one on.
    have further {taken : List Value} {last : Value}
        (stop : insertKeyed name (number + (position + 1) + taken.length) last contents' =
          (.error failure, contents')) :
        insertKeyed name (number + position + (document :: taken).length) last contents' =
          (.error failure, contents') := by
      rwa [List.length_cons, Nat.add_comm taken.length, ← Nat.add_assoc]
    cases attempted with
    | ok key =>
      rcases Action.bind_fails.1 onward with there | ⟨later, _, -, returned⟩
      · obtain ⟨d, rfl, rfl, -, one⟩ := insertKeyed_returns first
        obtain ⟨added, taken, last, behind, rfl, others, part, kind, stop⟩ := ih there
        exact ⟨_, _ :: taken, last, behind, rfl, one.trans others, part.cons_cons _, kind,
          further stop⟩
      · cases returned
    | error failure' =>
      dsimp only at onward
      split at onward
      · split at onward
        · cases onward
        · rcases Action.bind_fails.1 onward with there | ⟨later, _, -, returned⟩
          · obtain ⟨rfl, -⟩ := insertKeyed_fails first
            obtain ⟨added, taken, last, behind, rfl, others, part, kind, stop⟩ := ih there
            have skip := recordsOf_sublist_cons (number + position) document taken
            exact ⟨added, document :: taken, last, behind, rfl, others, part.trans skip, kind,
              further stop⟩
          · cases returned
      · rename_i kind
        cases onward
        obtain ⟨rfl, -⟩ := insertKeyed_fails first
        exact ⟨[], [], document, rest, rfl, appends_nil name _, List.Sublist.refl _, kind, first⟩

end Contents
end Docbase.Memory
