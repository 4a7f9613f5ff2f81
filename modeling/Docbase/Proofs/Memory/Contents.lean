import Docbase.Memory.Contents
import Docbase.Proofs.Memory.Collection

namespace Docbase.Memory.Contents
open Docbase.Action (Preserves)

def Consistent (contents : Contents) : Prop := ∀ name, (contents.collection name).Consistent

theorem consistent_empty : Consistent {} := fun _ => Collection.consistent_empty

theorem forall_put {P : Collection → Prop} {contents : Contents} {c : Collection}
    (h : ∀ name, P (contents.collection name)) (name : String) (hc : P c) (other : String) :
    P ((contents.put name c).collection other) := by
  by_cases same : other = name
  · subst same
    rwa [collection_put_self]
  · rw [collection_put_of_ne same]
    exact h other

theorem Consistent.put {contents : Contents} {c : Collection} (h : contents.Consistent)
    (name : String) (hc : c.Consistent) : (contents.put name c).Consistent :=
  forall_put h name hc

theorem change_apply {α : Type} (name : String) (f : Collection → Except Failure (α × Collection))
    (contents : Contents) :
    change name f contents = match f (contents.collection name) with
      | .ok (a, c) => (.ok a, contents.put name c)
      | .error e => (.error e, contents) := by
  simp only [change, Action.bind_apply, Action.get_apply]
  cases f (contents.collection name) with
  | error e => rfl
  | ok result => rfl

theorem preserves_change {α : Type} {P : Contents → Prop} {name : String}
    {f : Collection → Except Failure (α × Collection)}
    (h : ∀ contents a c, P contents → f (contents.collection name) = .ok (a, c) →
      P (contents.put name c)) : Preserves P (change name f) := by
  intro contents before
  rw [change_apply]
  cases run : f (contents.collection name) with
  | error e => exact before
  | ok result => exact h contents result.1 result.2 before run

theorem preserves_insertKeyed (name : String) (number : Nat) {document : Value}
    (proper : document.isProper = true) : Preserves Consistent (insertKeyed name number document) := by
  cases document with
  | doc d =>
    refine preserves_change fun contents key c before run => before.put name ?_
    exact (before name).insert rfl (Value.isProper_doc.1 proper) run
  | _ => exact Action.preserves_throw _

theorem preserves_insertFrom {P : Contents → Prop} {name : String} {number : Nat} (ordered : Bool)
    {documents : List Value} {position : Nat} (each : ∀ x ∈ documents.zipIdx position,
      Preserves P (insertKeyed name (number + x.2) x.1)) :
    Preserves P (insertFrom name number ordered position documents) := by
  induction documents generalizing position with
  | nil => exact Action.preserves_pure _
  | cons document rest ih =>
    rw [List.zipIdx_cons] at each
    obtain ⟨here, there⟩ := List.forall_mem_cons.1 each
    refine here.attempt.bind fun outcome => ?_
    cases outcome with
    | ok key => exact (ih there).bind fun _ => Action.preserves_pure _
    | error failure =>
      dsimp only
      split
      · split
        · exact Action.preserves_pure _
        · exact (ih there).bind fun _ => Action.preserves_pure _
      · exact Action.preserves_throw _

theorem preserves_insertAll {P : Contents → Prop} {name : String} {number : Nat} (ordered : Bool)
    {documents : List Value} (each : ∀ x ∈ documents.zipIdx,
      Preserves P (insertKeyed name (number + x.2) x.1)) :
    Preserves P (insertAll name number documents ordered) := by
  refine (preserves_insertFrom ordered each).bind fun outcome => ?_
  split
  · exact Action.preserves_pure _
  · exact Action.preserves_throw _

theorem patched_proper {patch : Document} (hp : patch.Proper) {d : Document} (hd : d.Proper) :
    (patched d patch).Proper := by
  have values := hp.values
  unfold patched
  clear hp
  induction patch generalizing d with
  | nil => exact hd
  | cons field rest ih =>
    obtain ⟨here, there⟩ := List.forall_mem_cons.1 values
    exact ih (hd.set here) there

theorem preserves_updateRecord {P : Contents → Prop} {name : String} {filter patch key : Value}
    {d : Document}
    (replaces : ∀ contents fields, patch = .doc fields → P contents →
      (contents.collection name).checkUnique name (patched d fields) (some key) = .ok () →
      P (contents.put name ((contents.collection name).replace key (patched d fields)))) :
    Preserves P (updateRecord name filter patch key d) := by
  refine Preserves.lift_bind fun holds _ => ?_
  split
  · refine Preserves.lift_bind fun fields read => ?_
    have patch_eq : patch = .doc fields := by
      cases patch with
      | doc d =>
        obtain rfl := Except.ok.inj read
        rfl
      | _ => cases read
    dsimp only
    split
    · exact Action.preserves_pure _
    · refine preserves_change fun contents a c before run => ?_
      obtain ⟨_, checked, run⟩ := Except.bind_eq_ok.1 run
      obtain ⟨rfl, rfl⟩ := Prod.mk.inj (Except.pure_eq_ok.1 run)
      exact replaces contents fields patch_eq before checked
  · exact Action.preserves_pure _

theorem preserves_updateRecords {P : Contents → Prop} {name : String} {filter patch : Value}
    {records : List (Value × Document)}
    (each : ∀ r ∈ records, Preserves P (updateRecord name filter patch r.1 r.2)) :
    Preserves P (updateRecords name filter patch records) := by
  induction records with
  | nil => exact Action.preserves_pure _
  | cons r rest ih =>
    obtain ⟨here, there⟩ := List.forall_mem_cons.1 each
    exact here.bind fun _ => (ih there).bind fun _ => Action.preserves_pure _

theorem update_of_unnamed {P : Contents → Prop} {name : String} {filter patch : Value}
    {contents : Contents} (before : P contents)
    (each : (Value.str "_id").foundIn patch = .ok false →
      ∀ r ∈ (contents.collection name).records,
        Preserves P (updateRecord name filter patch r.1 r.2)) :
    P (update name filter patch contents).2 := by
  rw [update, Action.bind_apply]
  cases named : (Value.str "_id").foundIn patch with
  | error misuse => exact before
  | ok found =>
    cases found with
    | true => exact before
    | false => exact preserves_updateRecords (each named) contents before

theorem update_of_records {P : Contents → Prop} {name : String} {filter patch : Value}
    {contents : Contents} (before : P contents)
    (each : ∀ r ∈ (contents.collection name).records,
      Preserves P (updateRecord name filter patch r.1 r.2)) :
    P (update name filter patch contents).2 := update_of_unnamed before fun _ => each

theorem collection_update_of_ne {name other : String} (ne : other ≠ name) (filter patch : Value)
    (contents : Contents) :
    (update name filter patch contents).2.collection other = contents.collection other := by
  let Same (after : Contents) : Prop := after.collection other = contents.collection other
  have kept : Same (update name filter patch contents).2 := by
    refine update_of_records rfl fun r mem => preserves_updateRecord ?_
    intro between fields _ same _
    exact (collection_put_of_ne ne _ between).trans same
  exact kept

/-- The keys that were listed before an update are still those of the records. -/
def KeepsKeys (name : String) (keys : List Value) (contents : Contents) : Prop :=
  (contents.collection name).Consistent ∧ (contents.collection name).records.map (·.1) = keys

theorem consistent_update {name : String} {filter patch : Value} {contents : Contents}
    (proper : patch.isProper = true) (before : (contents.collection name).Consistent) :
    ((update name filter patch contents).2.collection name).Consistent := by
  have listed : KeepsKeys name ((contents.collection name).records.map (·.1)) contents :=
    ⟨before, rfl⟩
  refine (update_of_records listed fun r mem => preserves_updateRecord ?_).1
  rintro contents' fields rfl ⟨consistent, same⟩ checked
  have key : r.1 ∈ (contents'.collection name).records.map (·.1) :=
    same ▸ List.mem_map_of_mem mem
  have patched := patched_proper (Value.isProper_doc.1 proper) (before.proper r mem)
  rw [KeepsKeys, collection_put_self]
  refine ⟨consistent.replace key patched checked, ?_⟩
  rw [Collection.replace, Collection.keys_replaceIn, same]

theorem preserves_update {name : String} {filter patch : Value}
    (proper : patch.isProper = true) : Preserves Consistent (update name filter patch) := by
  intro contents before other
  by_cases here : other = name
  · subst here
    exact consistent_update proper (before other)
  · rw [collection_update_of_ne here]
    exact before other

theorem preserves_delete (name : String) (filter : Value) :
    Preserves Consistent (delete name filter) := by
  refine preserves_change fun contents n c before run => before.put name ?_
  obtain ⟨doomed, -, run⟩ := Except.bind_eq_ok.1 run
  obtain ⟨rfl, rfl⟩ := Prod.mk.inj (Except.pure_eq_ok.1 run)
  exact (before name).remove _

theorem preserves_createIndex (name : String) (keys : List Value) (unique : Bool) :
    Preserves Consistent (createIndex name keys unique) := by
  unfold createIndex
  split
  · exact preserves_change fun contents n c before run => before.put name ((before name).addIndex run)
  · exact Action.preserves_throw _

theorem Consistent.clear {contents : Contents} (h : contents.Consistent) (name : String) :
    (contents.clear name).Consistent :=
  h.put name ((h name).sublist (List.nil_sublist _))

end Docbase.Memory.Contents
