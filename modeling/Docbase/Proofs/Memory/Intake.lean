import Docbase.Proofs.Memory.Bulk
import Docbase.Proofs.Memory.Identified
import Docbase.Proofs.Memory.Rollback
import Docbase.Proofs.Memory.WholeUpdate

/-!
# Documents that are taken in

Documents that have texts as their keys are inserted one after the other. A document is taken, or it
clashes with a record that is there and that stays there.
-/

namespace Docbase.Memory

/-! ## Documents that are taken in -/

namespace Collection

variable {name : String} {c : Collection} {d : Document} {s : String}

def Covers (c : Collection) (d : Document) : Prop :=
  ∀ i ∈ c.indexes, i.2.unique = true → (Index.entryOf i.2.keys d).isOk = true

instance : Decidable (c.Covers d) :=
  inferInstanceAs (Decidable (∀ i ∈ c.indexes, i.2.unique = true → _))

/-- Some record has the key of a document, or its entry in a unique index. -/
def Clashes (c : Collection) (d : Document) : Prop :=
  ∃ r ∈ c.records, d.lookup "_id" = some r.1 ∨
    ∃ i ∈ c.indexes, i.2.unique = true ∧ ¬Index.Apart i.2.keys r.2 d

theorem insert_failsBy (found : d.lookup "_id" = some (.str s))
    (indexed : ∀ r ∈ c.records, c.Covers r.2) (readable : c.Covers d) (fallback : Value) :
    Except.FailsBy (fun failure => failure.kind = .duplicateKey ∧ c.Clashes d)
      (c.insert name fallback d) := by
  have has : Fields.has "_id" d = true := by rw [Fields.has, found, Option.isSome_some]
  -- A text can be a key, so what is left is a key that is known, or an index that objects.
  unfold insert
  simp only [found, has, Option.getD_some, if_true]
  refine Except.failsBy_unless (fun unhashable => absurd rfl unhashable) ?_
  refine Except.failsBy_guard (fun known => ⟨rfl, ?_⟩) ?_
  · obtain ⟨r, mem, same⟩ := List.any_eq_true.1 known
    exact ⟨r, mem, .inl (found.trans (congrArg some (eq_of_same_str same).symm))⟩
  · refine Except.FailsBy.bind ?_ fun _ _ => Except.failsBy_ok _
    intro failure failed
    obtain ⟨kind, i, mem, unique, r, there, -, conflict⟩ :=
      checkUnique_failsBy
        (fun i mem unique r there => Except.exists_ok (indexed r there i mem unique))
        (fun i mem unique => Except.exists_ok (readable i mem unique)) failure failed
    exact ⟨kind, r, there, .inr ⟨i, mem, unique, conflict⟩⟩

end Collection

namespace Contents

variable {name : String} {d : Document} {documents : List Document} {s : String}
  {contents contents' last : Contents} {added : List (Value × Document)}
  {outcome : Except Failure Value} {outcomes : List (Except Failure Value)}

def Indexed (name : String) (contents : Contents) : Prop :=
  ∀ r ∈ (contents.collection name).records, (contents.collection name).Covers r.2

theorem Appends.covers (h : Appends name added contents contents') :
    (contents'.collection name).Covers d ↔ (contents.collection name).Covers d := by
  rw [h.here]
  rfl

theorem Appends.clashes (h : Appends name added contents contents')
    (clash : (contents.collection name).Clashes d) : (contents'.collection name).Clashes d := by
  obtain ⟨r, mem, shared⟩ := clash
  rw [h.here]
  exact ⟨r, List.mem_append_left _ mem, shared⟩

/-- What has come of a document: it was taken, or it clashes. -/
def Settled (name : String) (contents : Contents) (d : Document)
    (outcome : Except Failure Value) : Prop :=
  (∃ key, outcome = .ok key) ∨ ∃ failure, outcome = .error failure ∧
    failure.kind = .duplicateKey ∧ (contents.collection name).Clashes d

theorem Settled.later (h : Settled name contents d outcome)
    (appends : Appends name added contents contents') : Settled name contents' d outcome :=
  h.imp_right fun ⟨failure, failed, kind, clash⟩ => ⟨failure, failed, kind, appends.clashes clash⟩

theorem insertKeyed_settles (found : d.lookup "_id" = some (.str s))
    (indexed : contents.Indexed name) (readable : (contents.collection name).Covers d)
    (number : Nat) (run : insertKeyed name number (.doc d) contents = (outcome, contents')) :
    Settled name contents' d outcome ∧ contents'.Indexed name ∧
      ∃ added, Appends name added contents contents' := by
  cases outcome with
  | ok key =>
    obtain ⟨_, ⟨⟩, -, -, appends⟩ := insertKeyed_returns run
    rw [Collection.recordOf_of_lookup found] at appends
    refine ⟨.inl ⟨key, rfl⟩, ?_, _, appends⟩
    intro r mem
    rw [appends.covers]
    rw [appends.records, List.mem_append] at mem
    rcases mem with mem | mem
    · exact indexed r mem
    · obtain rfl := List.mem_singleton.1 mem
      exact readable
  | error failure =>
    obtain ⟨rfl, -⟩ := insertKeyed_fails run
    refine ⟨.inr ⟨failure, rfl, ?_⟩, indexed, [], appends_nil name contents'⟩
    rw [insertKeyed, change_apply] at run
    cases inserted : (contents'.collection name).insert name (.str (generatedKey number)) d with
    | error failure' =>
      rw [inserted] at run
      obtain rfl := Except.error.inj (Prod.mk.inj run).1
      exact Collection.insert_failsBy found indexed readable _ _ inserted
    | ok result =>
      rw [inserted] at run
      cases run

def intake (name : String) (documents : List Document) :
    Action Contents (List (Except Failure Value)) :=
  documents.mapM fun d => (insertKeyed name 0 (.doc d)).attempt

theorem intake_cons (d : Document) (documents : List Document) (contents : Contents) :
    intake name (d :: documents) contents =
      ((intake name documents (insertKeyed name 0 (.doc d) contents).2).1.map
        ((insertKeyed name 0 (.doc d) contents).1 :: ·),
        (intake name documents (insertKeyed name 0 (.doc d) contents).2).2) := by
  rw [intake, List.mapM_cons, Action.bind_apply, Action.attempt_apply]
  exact Action.map_apply _ _ _

theorem intake_settles (keyed : ∀ d ∈ documents, ∃ s, d.lookup "_id" = some (.str s))
    (indexed : contents.Indexed name)
    (readable : ∀ d ∈ documents, (contents.collection name).Covers d) :
    ∃ outcomes contents', intake name documents contents = (.ok outcomes, contents') ∧
      (∃ added, Appends name added contents contents') ∧
      List.Forall₂ (Settled name contents') documents outcomes := by
  induction documents generalizing contents with
  | nil => exact ⟨[], contents, rfl, ⟨[], appends_nil name contents⟩, .nil⟩
  | cons d rest ih =>
    obtain ⟨⟨s, found⟩, others⟩ := List.forall_mem_cons.1 keyed
    obtain ⟨here, there⟩ := List.forall_mem_cons.1 readable
    rcases run : insertKeyed name 0 (.doc d) contents with ⟨outcome, between⟩
    obtain ⟨settled, indexed', added, appends⟩ :=
      insertKeyed_settles found indexed here 0 run
    obtain ⟨outcomes, contents', runs, ⟨more, appends'⟩, each⟩ :=
      ih others indexed' fun d mem => appends.covers.2 (there d mem)
    refine ⟨outcome :: outcomes, contents', ?_, ⟨_, appends.trans appends'⟩, ?_⟩
    · rw [intake_cons, run, runs]
      rfl
    · -- What has come of the first document stays so while the others are taken in.
      exact .cons (settled.later appends') each

theorem insertFrom_of_intake (number position : Nat)
    (keyed : ∀ d ∈ documents, ∃ s, d.lookup "_id" = some (.str s))
    (run : intake name documents contents = (.ok outcomes, contents'))
    (settled : List.Forall₂ (Settled name last) documents outcomes) :
    ∃ outcome, insertFrom name number false position (documents.map .doc) contents =
        (.ok outcome, contents') ∧
      outcome.inserted = (outcomes.filterMap Except.toOption).map Value.text := by
  induction documents generalizing position contents outcomes with
  | nil =>
    cases run
    exact ⟨{}, rfl, rfl⟩
  | cons d rest ih =>
    obtain ⟨⟨s, found⟩, others⟩ := List.forall_mem_cons.1 keyed
    have carries : carriesKey (.doc d) = true := by
      rw [carriesKey, Fields.has, found, Option.isSome_some]
    -- The documents bring their keys, whatever numbers they have.
    have same := insertKeyed_congr_number carries name (number + position) 0
    rcases made : insertKeyed name 0 (.doc d) contents with ⟨outcome, between⟩
    rw [intake_cons, made] at run
    rcases later : intake name rest between with ⟨failure | outcomes', last'⟩
    · rw [later] at run
      cases run
    · rw [later] at run
      cases run
      obtain ⟨here, there⟩ := List.forall₂_cons.1 settled
      obtain ⟨result, bulk, ids⟩ := ih (position + 1) others later there
      rw [List.map_cons, insertFrom, Action.bind_apply, Action.attempt_apply, same, made]
      rcases here with ⟨key, rfl⟩ | ⟨failure, rfl, kind, -⟩
      · refine ⟨{ result with inserted := key.text :: result.inserted }, ?_, ?_⟩
        · dsimp only
          rw [Action.bind_apply, bulk]
          rfl
        · simp [ids, Except.toOption]
      · dsimp only
        rw [if_pos kind, if_neg Bool.false_ne_true, Action.bind_apply, bulk]
        exact ⟨_, rfl, ids⟩

end Contents

end Docbase.Memory
