import Docbase.Proofs.Action
import Docbase.Repository

namespace Docbase
open Docbase.Action (Preserves)

variable {σ ι α : Type} {P : σ → Prop}

structure Backend.PreservesIndexing (P : σ → Prop) (b : Backend σ ι) : Prop where
  hasUnique : ∀ collection keys, Action.Preserves P (b.hasUnique collection keys)
  createUnique : ∀ collection keys, Action.Preserves P (b.createUnique collection keys)

structure Backend.Preserves (P : σ → Prop) (b : Backend σ ι) : Prop where
  insert : ∀ collection d session, Action.Preserves P (b.insert collection d session)
  insertEach : ∀ collection ds session, Action.Preserves P (b.insertEach collection ds session)
  update : ∀ collection filter patch session,
    Action.Preserves P (b.update collection filter patch session)
  delete : ∀ collection filter session, Action.Preserves P (b.delete collection filter session)
  hasUnique : ∀ collection keys, Action.Preserves P (b.hasUnique collection keys)
  createUnique : ∀ collection keys, Action.Preserves P (b.createUnique collection keys)

theorem Backend.Preserves.indexing {b : Backend σ ι} (h : b.Preserves P) :
    b.PreservesIndexing P := ⟨h.hasUnique, h.createUnique⟩

namespace UniqueField

variable {b : Backend σ ι}

theorem preserves_recheck {collection : String} {keys : List Value}
    (hasUnique : Preserves P (b.hasUnique collection keys)) (reported : Failure) :
    Preserves P (recheck b collection keys reported) := by
  refine hasUnique.attempt.bind fun outcome => ?_
  cases outcome with
  | ok present =>
    dsimp only
    split
    · exact Action.preserves_pure _
    · exact Action.preserves_throw _
  | error failure =>
    dsimp only
    split
    · exact Action.preserves_throw _
    · exact Action.preserves_throw _

theorem preserves_ensureKeys {collection : String} {keys : List Value}
    (hasUnique : Preserves P (b.hasUnique collection keys))
    (createUnique : Preserves P (b.createUnique collection keys)) :
    Preserves P (ensureKeys b collection keys) := by
  have missing : Preserves P (createMissing b collection keys) := by
    refine hasUnique.bind fun present => ?_
    split
    · exact Action.preserves_pure _
    · exact createUnique
  refine missing.attempt.bind fun outcome => ?_
  cases outcome with
  | ok u => exact Action.preserves_pure _
  | error failure =>
    dsimp only
    split
    · exact preserves_recheck hasUnique failure
    · split
      · exact Action.preserves_throw _
      · exact Action.preserves_throw _

theorem preserves_ensure_of {collection : String} {declared : Value}
    (each : ∀ fieldSets, declared.elements? = some fieldSets → ∀ fieldSet ∈ fieldSets,
      ∀ names, keys fieldSet = .ok names → Preserves P (ensureKeys b collection names)) :
    Preserves P (ensure b collection declared) := by
  unfold ensure
  split
  · cases elements : declared.elements? with
    | none => exact Action.preserves_throw _
    | some fieldSets =>
      have every := each fieldSets elements
      clear elements each
      dsimp only
      induction fieldSets with
      | nil => exact Action.preserves_pure _
      | cons fieldSet rest ih =>
        obtain ⟨here, there⟩ := List.forall_mem_cons.1 every
        exact (Preserves.lift_bind here).bind fun _ => ih there
  · exact Action.preserves_pure _

theorem preserves_ensure (h : b.PreservesIndexing P) (collection : String) (declared : Value) :
    Preserves P (ensure b collection declared) :=
  preserves_ensure_of fun _ _ _ _ names _ =>
    preserves_ensureKeys (h.hasUnique collection names) (h.createUnique collection names)

end UniqueField

namespace Repository

variable {r : Repository σ ι}

theorem preserves_attributing {a : Action σ α} (h : Preserves P a) (operation : String)
    (payload : Value) : Preserves P (r.attributing operation payload a) := by
  refine h.attempt.bind fun outcome => ?_
  cases outcome with
  | ok result => exact Action.preserves_pure _
  | error failure => exact Action.preserves_throw _

theorem preserves_insert_of {K : Value → Prop} (indexing : r.backend.PreservesIndexing P)
    (keys : r.newKey.Yields P K) {data : Value} {session : Option ι}
    (insert : ∀ d key, r.stripped data = .ok d → K key →
      Preserves P (r.backend.insert r.name ((r.identity.internal, key) :: d) session))
    (declared : Value) : Preserves P (r.insert data declared session) := by
  refine Preserves.lift_bind fun d stripped => Preserves.bind ?_ fun key => Action.preserves_pure _
  apply preserves_attributing
  refine (UniqueField.preserves_ensure indexing r.name declared).bind fun _ => ?_
  exact keys.bind_preserves fun key drawn => insert d key stripped drawn

theorem preserves_insert (backend : r.backend.Preserves P) (newKey : Preserves P r.newKey)
    (data declared : Value) (session : Option ι) :
    Preserves P (r.insert data declared session) :=
  preserves_insert_of backend.indexing newKey.yields (fun _ _ _ _ => backend.insert _ _ _) declared

theorem yields_keyed {K : Value → Prop} (keys : r.newKey.Yields P K) (datas : List Value) :
    (r.keyed datas).Yields P fun documents => ∀ d ∈ documents, ∃ key data stripped, K key ∧
      r.stripped data = .ok stripped ∧ d = (r.identity.internal, key) :: stripped := by
  induction datas with
  | nil => exact Action.yields_pure fun d mem => nomatch mem
  | cons data rest ih =>
    refine keys.bind fun key drawn => Action.Yields.lift_bind fun stripped h => ?_
    refine ih.bind fun documents others => Action.yields_pure ?_
    exact List.forall_mem_cons.2 ⟨⟨key, data, stripped, drawn, h, rfl⟩, others⟩

theorem preserves_insertMany_of {K : Value → Prop} (indexing : r.backend.PreservesIndexing P)
    (keys : r.newKey.Yields P K) {session : Option ι}
    (insertEach : ∀ documents : List Document,
      (∀ d ∈ documents, ∃ key data stripped, K key ∧ r.stripped data = .ok stripped ∧
        d = (r.identity.internal, key) :: stripped) →
      Preserves P (r.backend.insertEach r.name documents session))
    (datas declared : Value) : Preserves P (r.insertMany datas declared session) := by
  unfold insertMany
  split
  · exact Action.preserves_pure _
  · refine Preserves.lift_bind fun members _ => ?_
    refine (yields_keyed keys members).bind_preserves fun documents known => ?_
    refine Preserves.bind ?_ fun keys => Preserves.lift_bind fun _ _ => Action.preserves_pure _
    apply preserves_attributing
    refine (UniqueField.preserves_ensure indexing r.name declared).bind fun _ => ?_
    refine (insertEach documents known).attempt.bind fun outcome => ?_
    exact Action.preserves_lift _

theorem preserves_insertMany (backend : r.backend.Preserves P) (newKey : Preserves P r.newKey)
    (datas declared : Value) (session : Option ι) :
    Preserves P (r.insertMany datas declared session) :=
  preserves_insertMany_of backend.indexing newKey.yields
    (fun documents _ => backend.insertEach r.name documents session) datas declared

theorem preserves_update_where (indexing : r.backend.PreservesIndexing P) {clause data : Value}
    {session : Option ι}
    (update : ∀ filter patch, r.filter clause = .ok filter → r.stripped data = .ok patch →
      Preserves P (r.backend.update r.name filter patch session))
    (declared : Value) : Preserves P (r.update clause data declared session) := by
  unfold Repository.update
  split
  · exact Action.preserves_throw _
  · refine Preserves.lift_bind fun patch stripped => ?_
    split
    · exact Action.preserves_throw _
    · refine Preserves.lift_bind fun filter read => preserves_attributing ?_ _ _
      refine (UniqueField.preserves_ensure indexing r.name declared).bind fun _ => ?_
      exact update filter patch read stripped

theorem preserves_update_of (indexing : r.backend.PreservesIndexing P) {data : Value}
    {session : Option ι}
    (update : ∀ filter patch, r.stripped data = .ok patch →
      Preserves P (r.backend.update r.name filter patch session))
    (clause declared : Value) : Preserves P (r.update clause data declared session) :=
  preserves_update_where indexing (fun filter patch _ => update filter patch) declared

theorem preserves_update (backend : r.backend.Preserves P) (clause data declared : Value)
    (session : Option ι) : Preserves P (r.update clause data declared session) :=
  preserves_update_of backend.indexing
    (fun filter patch _ => backend.update r.name filter patch session) clause declared

theorem preserves_delete_where {clause : Value} {session : Option ι}
    (delete : ∀ filter, r.filter clause = .ok filter →
      Preserves P (r.backend.delete r.name filter session)) :
    Preserves P (r.delete clause session) :=
  Preserves.lift_bind fun filter read => preserves_attributing (delete filter read) _ _

theorem preserves_delete_of {session : Option ι}
    (delete : ∀ filter, Preserves P (r.backend.delete r.name filter session)) (clause : Value) :
    Preserves P (r.delete clause session) :=
  preserves_delete_where fun filter _ => delete filter

theorem preserves_delete (backend : r.backend.Preserves P) (clause : Value)
    (session : Option ι) : Preserves P (r.delete clause session) :=
  preserves_delete_of (fun filter => backend.delete r.name filter session) clause

end Repository
end Docbase
