import Docbase.Proofs.Memory.Data
import Docbase.Proofs.Pipeline.Readable
import Docbase.Proofs.UniqueField.Client
import Mathlib.Logic.Function.Basic

/-!
# Clients that ensure indexes at once

Any number of clients ensure indexes in one collection, one call at a time and in any order, while
others write documents of plain data. Each client that comes to its end has all its indexes, and a
client that fails where its paths can be read has met two documents with one index value.

* `UniqueField.Race.Sound`: what holds at each point of a race; `Sound.move` is the step.
* `UniqueField.Race.harmless`: what comes of a race.
-/

namespace Docbase

namespace Memory

/-- What some keys read can be read in each of the documents. -/
def Legible (keys : List String) (docs : List Document) : Prop :=
  ∀ d ∈ docs, ∃ entry, Index.entryOf keys d = .ok entry

/-- Two of the documents have one entry under some keys. -/
def Clash (keys : List String) (docs : List Document) : Prop :=
  ∃ d e x y, [d, e].Sublist docs ∧ Index.entryOf keys d = .ok x ∧ Index.entryOf keys e = .ok y ∧
    Value.sameItems y x = true

theorem legible_of_isReadable {keys : List String} (readable : ∀ key ∈ keys, Path.IsReadable key)
    (docs : List Document) : Legible keys docs := by
  intro d _
  refine Except.FailsBy.exists_ok (Except.failsBy_mapM fun key mem => ?_)
  exact Except.FailsBy.bind (Value.failsBy_get (fun other => other (readable key mem)) (.doc d))
    fun _ _ => Except.failsBy_ok _

theorem clash_of_checkDistinct {name index : String} {keys : List String}
    {docs : List Document} {failure : Failure} (legible : Legible keys docs)
    (data : ∀ d ∈ docs, (Value.doc d).isData = true)
    (run : Collection.checkDistinct name index keys [] docs = .error failure) :
    Clash keys docs := by
  by_contra apart
  have passes : Collection.checkDistinct name index keys [] docs = .ok () := by
    refine Collection.checkDistinct_of_apart (fun d mem => ?_) ?_
    · obtain ⟨x, entry⟩ := legible d mem
      exact ⟨x, entry, Index.hashable_entryOf (data d mem) entry, nofun⟩
    · refine List.pairwise_iff_forall_sublist.2 fun {d e} sub y x hy hx => ?_
      cases same : Value.sameItems y x with
      | false => rfl
      | true => exact absurd ⟨d, e, x, y, sub, hx, hy, same⟩ apart
  rw [passes] at run
  cases run

def Write.isDocumentWrite : Write → Bool
  | insert _ _ | insertAll _ _ _ | update _ _ _ | delete _ _ => true
  | createIndex _ _ _ | clear _ | clearAll => false

namespace World

variable {store collection : String} {w : World}

theorem indexes_perform {op : Write} (documents : op.isDocumentWrite = true)
    (caller : Option SessionId) :
    (op.perform store caller w).2.indexes store collection = w.indexes store collection := by
  refine contents_after (e := .write store op caller)
    (P := Contents.Catalog (· = w.indexes store collection) collection) rfl
    (fun id => ⟨nofun, nofun⟩) ?_
  rintro op caller ⟨⟩ number
  refine Write.preserves_catalog ?_ ?_ number
  · rintro rfl
    cases documents
  · rintro keys unique indexes texts rfl
    cases documents

theorem holdsData_perform {op : Write} (data : op.isData = true) (caller : Option SessionId)
    (h : (w.contents store).HoldsData collection) :
    ((op.perform store caller w).2.contents store).HoldsData collection := by
  refine contents_after (e := .write store op caller) h (fun id => ⟨nofun, nofun⟩) ?_
  rintro op caller ⟨⟩ number
  exact Write.preserves_holdsData data number

theorem refusal_perform (op : Write) (caller : Option SessionId) :
    (op.perform store caller w).2.refusal store none = w.refusal store none := by
  rw [refusal, refusal, Write.connected_perform]

end World
end Memory

namespace UniqueField
open Memory (World backend Index IsCatalog Contents SessionId Legible Clash)

variable {indexes indexes' : List (String × Index)} {asked pending : List (List String)}

namespace Client

/-- What is still to be done of what was asked for, the rest being done. -/
structure Progress (asked pending : List (List String)) (indexes : List (String × Index)) :
    Prop where
  listed : ∀ names ∈ pending, names ∈ asked
  done : ∀ names ∈ asked, names ∈ pending ∨ Index.uniqueOver names ∈ indexes

/-- Where a client can stand in a collection with these indexes. -/
def Fits (asked : List (List String)) (indexes : List (String × Index)) : Client → Prop
  | looking names rest | creating names rest => Progress asked (names :: rest) indexes
  | rechecking names _ rest =>
    Progress asked (names :: rest) indexes ∧ Index.uniqueOver names ∈ indexes
  | returned => Progress asked [] indexes
  | raised _ => True

theorem Progress.mono (h : Progress asked pending indexes)
    (kept : ∀ names ∈ asked, Index.uniqueOver names ∈ indexes → Index.uniqueOver names ∈ indexes') :
    Progress asked pending indexes' where
  listed := h.listed
  done names mem := (h.done names mem).imp_right (kept names mem)

theorem Progress.next {names : List String} (h : Progress asked (names :: pending) indexes)
    (there : Index.uniqueOver names ∈ indexes) : Progress asked pending indexes where
  listed other mem := h.listed other (List.mem_cons_of_mem _ mem)
  done other mem := by
    rcases h.done other mem with here | done
    · rcases List.mem_cons.1 here with rfl | later
      · exact .inr there
      · exact .inl later
    · exact .inr done

theorem Progress.fits_start (h : Progress asked pending indexes) :
    (start pending).Fits asked indexes := by
  cases pending with
  | nil => exact h
  | cons names rest => exact h

theorem start_ne_raised (sets : List (List String)) (failure : Failure) :
    start sets ≠ raised failure := by
  cases sets with
  | nil => exact nofun
  | cons names rest => exact nofun

theorem Fits.mono {c : Client} (h : c.Fits asked indexes)
    (kept : ∀ names ∈ asked, Index.uniqueOver names ∈ indexes → Index.uniqueOver names ∈ indexes') :
    c.Fits asked indexes' := by
  cases c with
  | looking names rest => exact Progress.mono h kept
  | creating names rest => exact Progress.mono h kept
  | rechecking names reported rest =>
    obtain ⟨progress, there⟩ := h
    exact ⟨progress.mono kept, kept names (progress.listed names List.mem_cons_self) there⟩
  | returned => exact Progress.mono h kept
  | raised failure => trivial

end Client

/-! ## Moves -/

structure Race (κ : Type) where
  world : World
  clients : κ → Client

inductive Move (κ : Type)
  | turn (i : κ)
  | write (op : Memory.Write) (caller : Option SessionId)

def Move.isAllowed {κ : Type} : Move κ → Bool
  | turn _ => true
  | write op _ => op.isDocumentWrite && op.isData

namespace Race

variable {κ : Type}

def begin (asked : κ → List (List String)) (w : World) : Race κ where
  world := w
  clients i := .start (asked i)

def move [DecidableEq κ] (store collection : String) (r : Race κ) : Move κ → Race κ
  | .turn i =>
    let (c, w) := (r.clients i).step (backend store) collection r.world
    { world := w, clients := Function.update r.clients i c }
  | .write op caller => { r with world := (op.perform store caller r.world).2 }

def run [DecidableEq κ] (store collection : String) (r : Race κ) (moves : List (Move κ)) :
    Race κ :=
  moves.foldl (move store collection) r

/-! ## What holds at each point -/

/-- The store takes calls, the indexes over what is asked for are unique, documents are plain data,
and each client has what it is done with. -/
structure Sound (store collection : String) (asked : κ → List (List String)) (r : Race κ) :
    Prop where
  connected : r.world.refusal store none = none
  catalog : IsCatalog (r.world.indexes store collection)
  unique : ∀ x ∈ r.world.indexes store collection, ∀ i, x.2.keys ∈ asked i → x.2.unique = true
  data : (r.world.contents store).HoldsData collection
  fits : ∀ i, (r.clients i).Fits (asked i) (r.world.indexes store collection)

variable {store collection : String} {asked : κ → List (List String)} {r : Race κ}

theorem Sound.step_cases (h : r.Sound store collection asked) (i : κ) :
    (∃ c, (r.clients i).step (backend store) collection r.world = (c, r.world) ∧
      c.Fits (asked i) (r.world.indexes store collection) ∧
      ∀ failure, c = .raised failure → r.clients i = .raised failure ∨ ∃ names rest,
        r.clients i = .creating names rest ∧
        (Legible names ((r.world.contents store).documents collection) →
          Clash names ((r.world.contents store).documents collection))) ∨
    ∃ names rest name c, r.clients i = .creating names rest ∧
      ((r.world.contents store).collection collection).addIndex collection names true =
        .ok (name, c) ∧
      (r.clients i).step (backend store) collection r.world =
        (.start rest, r.world.setContents store ((r.world.contents store).put collection c)) := by
  have fits := h.fits i
  cases client : r.clients i with
  | looking names rest =>
    rw [client] at fits
    simp only [Client.step, Memory.backend_hasUnique_apply, h.connected]
    cases present : ((r.world.contents store).collection collection).hasIndex names true with
    | true =>
      have there : Index.uniqueOver names ∈ r.world.indexes store collection :=
        (Memory.Collection.hasIndex_iff h.catalog).1 present
      refine .inl ⟨.start rest, rfl, (Client.Progress.next fits there).fits_start, ?_⟩
      exact fun failure same => absurd same (Client.start_ne_raised rest failure)
    | false => exact .inl ⟨.creating names rest, rfl, fits, by simp⟩
  | creating names rest =>
    rw [client] at fits
    simp only [Client.step, Memory.backend_createUnique_apply, h.connected]
    cases added :
      ((r.world.contents store).collection collection).addIndex collection names true with
    | ok result => exact .inr ⟨names, rest, result.1, result.2, rfl, added, rfl⟩
    | error failure =>
      refine .inl ⟨Client.caught collection names rest failure, rfl, ?_⟩
      obtain ⟨present, kind⟩ | ⟨⟨x, mem, same, notUnique⟩, -⟩ | distinct :=
        Memory.Collection.addIndex_eq_error added
      · -- Somebody else was faster.
        have there : Index.uniqueOver names ∈ r.world.indexes store collection :=
          (Memory.Collection.hasIndex_iff h.catalog).1 present
        rw [Client.caught, if_pos kind]
        exact ⟨⟨fits, there⟩, by simp⟩
      · have listed : x.2.keys ∈ asked i := same ▸ fits.listed names List.mem_cons_self
        have unique := h.unique x mem i listed
        rw [notUnique] at unique
        cases unique
      · rw [Client.caught, if_neg (Memory.Collection.kind_of_checkDistinct distinct)]
        have data : ∀ d ∈ (r.world.contents store).documents collection,
            (Value.doc d).isData = true := List.forall_mem_map.2 h.data
        exact ⟨trivial, fun _ _ => .inr ⟨names, rest, rfl,
          fun legible => Memory.clash_of_checkDistinct legible data distinct⟩⟩
  | rechecking names reported rest =>
    rw [client] at fits
    obtain ⟨progress, there⟩ := fits
    simp only [Client.step, Memory.backend_hasUnique_apply, h.connected,
      Memory.Collection.hasIndex_of_mem there]
    refine .inl ⟨.start rest, rfl, (progress.next there).fits_start, ?_⟩
    exact fun failure same => absurd same (Client.start_ne_raised rest failure)
  | returned =>
    rw [client] at fits
    exact .inl ⟨.returned, rfl, fits, by simp⟩
  | raised failure => exact .inl ⟨.raised failure, rfl, trivial, fun _ same => .inl same⟩

variable [DecidableEq κ]

theorem Sound.write (h : r.Sound store collection asked) {op : Memory.Write}
    (documents : op.isDocumentWrite = true) (data : op.isData = true)
    (caller : Option SessionId) :
    (r.move store collection (.write op caller)).Sound store collection asked where
  connected := (World.refusal_perform op caller).trans h.connected
  catalog := (World.indexes_perform documents caller).symm ▸ h.catalog
  unique := (World.indexes_perform documents caller).symm ▸ h.unique
  data := World.holdsData_perform data caller h.data
  fits := (World.indexes_perform documents caller).symm ▸ h.fits

theorem move_turn {i : κ} {c : Client} {w : World}
    (step : (r.clients i).step (backend store) collection r.world = (c, w)) :
    r.move store collection (.turn i) =
      { world := w, clients := Function.update r.clients i c } := by
  rw [move, step]

theorem clients_move_turn (r : Race κ) (i : κ) :
    (r.move store collection (.turn i)).clients i =
      ((r.clients i).step (backend store) collection r.world).1 := Function.update_self _ _ _

theorem fits_update {clients : κ → Client} {i : κ} {c : Client} (here : c.Fits (asked i) indexes)
    (others : ∀ j, (clients j).Fits (asked j) indexes) (j : κ) :
    (Function.update clients i c j).Fits (asked j) indexes := by
  by_cases same : j = i
  · subst same
    rwa [Function.update_self]
  · rw [Function.update_of_ne same]
    exact others j

theorem Sound.stays (h : r.Sound store collection asked) {i : κ} {c : Client}
    (step : (r.clients i).step (backend store) collection r.world = (c, r.world))
    (fits : c.Fits (asked i) (r.world.indexes store collection)) :
    (r.move store collection (.turn i)).Sound store collection asked := by
  rw [move_turn step]
  exact ⟨h.connected, h.catalog, h.unique, h.data, fits_update fits h.fits⟩

theorem Sound.added (names : Set.InjOn Index.nameOf {keys | ∃ i, keys ∈ asked i})
    (h : r.Sound store collection asked) {i : κ} {keys : List String} {rest : List (List String)}
    {name : String} {c : Memory.Collection} (client : r.clients i = .creating keys rest)
    (added : ((r.world.contents store).collection collection).addIndex collection keys true =
      .ok (name, c))
    (step : (r.clients i).step (backend store) collection r.world =
      (.start rest, r.world.setContents store ((r.world.contents store).put collection c))) :
    (r.move store collection (.turn i)).Sound store collection asked := by
  have fits := h.fits i
  rw [client] at fits
  have listed : keys ∈ asked i := fits.listed keys List.mem_cons_self
  obtain ⟨absent, indexes⟩ := Memory.Collection.indexes_addIndex added
  have world : (r.world.setContents store ((r.world.contents store).put collection c)).indexes
      store collection = Fields.set (Index.nameOf keys) { keys, unique := true }
        (r.world.indexes store collection) := by
    rw [World.indexes, Memory.World.contents_setContents_self, Contents.collection_put_self,
      indexes]
    rfl
  have there : Index.uniqueOver keys ∈ Fields.set (Index.nameOf keys) { keys, unique := true }
      (r.world.indexes store collection) := Fields.mem_of_lookup (Fields.lookup_set_self _ _ _)
  have kept (j : κ) (other) (mem : other ∈ asked j)
      (before : Index.uniqueOver other ∈ r.world.indexes store collection) :
      Index.uniqueOver other ∈ Fields.set (Index.nameOf keys) { keys, unique := true }
        (r.world.indexes store collection) :=
    h.catalog.mem_set before (absent _ before) (names ⟨j, mem⟩ ⟨i, listed⟩) _
  rw [move_turn step]
  refine ⟨?_, ?_, ?_, ?_, ?_⟩
  · exact (World.refusal_setContents store _ r.world).trans h.connected
  · dsimp only
    rw [world]
    exact h.catalog.set keys true
  · dsimp only
    rw [world]
    intro x mem j asks
    rcases Fields.mem_set mem with mem | rfl
    · exact h.unique x mem j asks
    · rfl
  · have records : c.records = ((r.world.contents store).collection collection).records := by
      obtain ⟨-, -, -, rfl⟩ := Memory.Collection.addIndex_eq_ok.1 added
      rfl
    dsimp only
    rw [Memory.World.contents_setContents_self]
    exact h.data.put fun _ x mem => h.data x (records ▸ mem)
  · dsimp only
    rw [world]
    exact fits_update ((Client.Progress.mono fits (kept i)).next there).fits_start
      fun j => (h.fits j).mono (kept j)

theorem Sound.move (names : Set.InjOn Index.nameOf {keys | ∃ i, keys ∈ asked i})
    (h : r.Sound store collection asked) {m : Move κ} (allowed : m.isAllowed = true) :
    (r.move store collection m).Sound store collection asked := by
  cases m with
  | write op caller =>
    rw [Move.isAllowed, Bool.and_eq_true] at allowed
    exact h.write allowed.1 allowed.2 caller
  | turn i =>
    obtain ⟨c, step, fits, -⟩ | ⟨keys, rest, name, c, client, added, step⟩ := h.step_cases i
    · exact h.stays step fits
    · exact h.added names client added step

/-! ## Whole races -/

theorem Sound.run (names : Set.InjOn Index.nameOf {keys | ∃ i, keys ∈ asked i})
    (h : r.Sound store collection asked) {moves : List (Move κ)}
    (allowed : ∀ m ∈ moves, m.isAllowed = true) :
    (r.run store collection moves).Sound store collection asked := by
  induction moves generalizing r with
  | nil => exact h
  | cons m rest ih =>
    obtain ⟨here, there⟩ := List.forall_mem_cons.1 allowed
    exact ih (h.move names here) there

theorem Sound.raised_of_move (h : r.Sound store collection asked) {m : Move κ} {i : κ}
    {failure : Failure} (raised : (r.move store collection m).clients i = .raised failure) :
    r.clients i = .raised failure ∨ m = .turn i ∧ ∃ keys rest,
      r.clients i = .creating keys rest ∧ keys ∈ asked i ∧
      (Legible keys ((r.world.contents store).documents collection) →
        Clash keys ((r.world.contents store).documents collection)) := by
  cases m with
  | write op caller => exact .inl raised
  | turn j =>
    by_cases same : i = j
    · subst same
      obtain ⟨c, step, -, fails⟩ | ⟨keys, rest, name, c, -, -, step⟩ := h.step_cases i
      · rw [clients_move_turn, step] at raised
        obtain before | ⟨keys, rest, client, clash⟩ := fails failure raised
        · exact .inl before
        · have fits := h.fits i
          rw [client] at fits
          exact .inr ⟨rfl, keys, rest, client, fits.listed keys List.mem_cons_self, clash⟩
      · rw [clients_move_turn, step] at raised
        exact absurd raised (Client.start_ne_raised rest failure)
    · have other : (r.move store collection (.turn j)).clients i = r.clients i :=
        Function.update_of_ne same _ _
      exact .inl (other ▸ raised)

theorem Sound.raised_of_run (names : Set.InjOn Index.nameOf {keys | ∃ i, keys ∈ asked i})
    (h : r.Sound store collection asked) {moves : List (Move κ)}
    (allowed : ∀ m ∈ moves, m.isAllowed = true)
    (legible : ∀ before, before <+: moves → ∀ i, ∀ keys ∈ asked i,
      Legible keys (((r.run store collection before).world.contents store).documents collection))
    {i : κ} {failure : Failure}
    (raised : (r.run store collection moves).clients i = .raised failure) :
    r.clients i = .raised failure ∨ ∃ before after keys rest, moves = before ++ .turn i :: after ∧
      (r.run store collection before).clients i = .creating keys rest ∧ keys ∈ asked i ∧
      (r.run store collection (before ++ [.turn i])).clients i = .raised failure ∧
      Clash keys (((r.run store collection before).world.contents store).documents
        collection) := by
  induction moves generalizing r with
  | nil => exact .inl raised
  | cons m rest ih =>
    obtain ⟨here, there⟩ := List.forall_mem_cons.1 allowed
    obtain now | ⟨before, after, keys, others, split, found⟩ := ih (h.move names here) there
      (fun before sub => legible (m :: before) (List.prefix_cons_inj m |>.2 sub)) raised
    · obtain already | ⟨rfl, keys, others, client, asks, clash⟩ := h.raised_of_move now
      · exact .inl already
      · have readable := legible [] List.nil_prefix i keys asks
        exact .inr ⟨[], rest, keys, others, rfl, client, asks, now, clash readable⟩
    · exact .inr ⟨m :: before, after, keys, others, congrArg (m :: ·) split, found⟩

omit [DecidableEq κ] in
theorem sound_begin {connected : Bool} {earlier : List Memory.Operation} {w : World}
    (reached : (World.empty connected).operate earlier = w) (taken : w.refusal store none = none)
    (data : ∀ d ∈ (w.contents store).documents collection, (Value.doc d).isData = true)
    (unique : ∀ x ∈ w.indexes store collection, ∀ i, x.2.keys ∈ asked i → x.2.unique = true) :
    (begin asked w).Sound store collection asked where
  connected := taken
  catalog := World.isCatalog_of_operate reached store collection
  unique := unique
  data := List.forall_mem_map.1 data
  fits _ := Client.Progress.fits_start ⟨fun _ mem => mem, fun _ mem => .inl mem⟩

theorem perform_uninterrupted (r : Race κ) (i : κ) (n : Nat) :
    let alone := r.run store collection (List.replicate n (.turn i))
    (alone.clients i).perform (backend store) collection alone.world =
      (r.clients i).perform (backend store) collection r.world := by
  induction n generalizing r with
  | zero => rfl
  | succ n ih =>
    have turned := ih (r.move store collection (.turn i))
    rw [clients_move_turn] at turned
    exact turned.trans (Client.perform_step _ _).symm

/-- Any number of clients, each of which, left alone, ensures what it declares. If what is asked for
can be read in the documents at every point of the race, a client fails only at a clash. -/
theorem harmless {connected : Bool} {earlier : List Memory.Operation} {w : World}
    {declared : κ → Value} {moves : List (Move κ)}
    (reached : (World.empty connected).operate earlier = w) (taken : w.refusal store none = none)
    (declares : ∀ i, Declares (declared i) (asked i))
    (data : ∀ d ∈ (w.contents store).documents collection, (Value.doc d).isData = true)
    (unique : ∀ x ∈ w.indexes store collection, ∀ i, x.2.keys ∈ asked i → x.2.unique = true)
    (names : Set.InjOn Index.nameOf {keys | ∃ i, keys ∈ asked i})
    (allowed : ∀ m ∈ moves, m.isAllowed = true) :
    let r := (begin asked w).run store collection moves
    (∀ i n, let alone := (begin asked w).run store collection (List.replicate n (.turn i))
      (alone.clients i).perform (backend store) collection alone.world =
        ensure (backend store) collection (declared i) w) ∧
    ((∀ before, before <+: moves → ∀ i, ∀ keys ∈ asked i,
        Legible keys ((((begin asked w).run store collection before).world.contents
          store).documents collection)) →
      ∀ i failure, r.clients i = .raised failure → ∃ before after keys rest,
        moves = before ++ .turn i :: after ∧
        ((begin asked w).run store collection before).clients i = .creating keys rest ∧
        keys ∈ asked i ∧
        ((begin asked w).run store collection (before ++ [.turn i])).clients i = .raised failure ∧
        Clash keys ((((begin asked w).run store collection before).world.contents
          store).documents collection)) ∧
    (∀ i, r.clients i = .returned → ∀ keys ∈ asked i,
      ((r.world.indexes store collection).filter fun x => x.2.keys = keys) =
        [Index.uniqueOver keys]) ∧
    ∀ keys, ((r.world.indexes store collection).filter fun x => x.2.keys = keys).length ≤ 1 := by
  intro r
  have sound : (begin asked w).Sound store collection asked :=
    sound_begin reached taken data unique
  have still : r.Sound store collection asked := sound.run names allowed
  refine ⟨fun i n => ?_, fun legible i failure raised => ?_, fun i returned keys mem => ?_,
    still.catalog.length_filter_le_one⟩
  · rw [← Client.perform_start_of_declares (declares i)]
    exact perform_uninterrupted (begin asked w) i n
  · obtain before | found := sound.raised_of_run names allowed legible raised
    · exact absurd before (Client.start_ne_raised (asked i) failure)
    · exact found
  · have fits := still.fits i
    rw [returned] at fits
    have there : Index.uniqueOver keys ∈ r.world.indexes store collection :=
      (fits.done keys mem).resolve_left List.not_mem_nil
    exact still.catalog.filter_eq_singleton there

def colleague (mail name : String) : Value :=
  .doc [("mail", .str mail), ("team", .str "red"), ("name", .str name)]

/-- The first two clients both find no index over mails. The second comes to create it when the
first has done so, looks again, and goes on. The third meets two users of one team. -/
def mails : List (Move (Fin 3)) :=
  [.turn 0, .turn 1, .turn 0, .write (.insert "users" (colleague "a@x" "ann")) none, .turn 1,
    .write (.insert "users" (colleague "b@x" "bea")) none, .turn 1, .turn 1, .turn 2, .turn 1,
    .turn 2]

def askedForMails : Fin 3 → List (List String)
  | 0 => [["mail"]]
  | 1 => [["mail"], ["team", "name"]]
  | 2 => [["team"]]

def declaredMails : Fin 3 → Value
  | 0 => .list [.str "mail"]
  | 1 => .list [.str "mail", .list [.str "team", .str "name"]]
  | 2 => .list [.str "team"]

theorem harmless_mails :
    ∃ r : Race (Fin 3), r = (begin askedForMails (World.empty true)).run "main" "users" mails ∧
      r.clients 1 = .returned ∧
      ((r.world.indexes "main" "users").filter fun x => x.2.keys = ["mail"]) =
        [Index.uniqueOver ["mail"]] ∧
      ((r.world.indexes "main" "users").filter fun x => x.2.keys = ["team", "name"]) =
        [Index.uniqueOver ["team", "name"]] ∧
      (∃ failure, r.clients 2 = .raised failure) ∧
      ∃ before, Clash ["team"] ((((begin askedForMails (World.empty true)).run "main" "users"
        before).world.contents "main").documents "users") := by
  have declares (i : Fin 3) : Declares (declaredMails i) (askedForMails i) := by
    match i with
    | 0 => exact ⟨_, rfl, .cons rfl .nil⟩
    | 1 => exact ⟨_, rfl, .cons rfl (.cons rfl .nil)⟩
    | 2 => exact ⟨_, rfl, .cons rfl .nil⟩
  have plain : ∀ i, ∀ keys ∈ askedForMails i, ∀ key ∈ keys, ¬['_', '1'] <:+: key.toList := by
    decide
  have names : Set.InjOn Index.nameOf {keys | ∃ i, keys ∈ askedForMails i} := by
    refine Index.nameOf_injOn.mono ?_
    rintro keys ⟨i, mem⟩
    exact plain i keys mem
  have reached : (World.empty true).operate [] = World.empty true := rfl
  have taken : (World.empty true).refusal "main" none = none := rfl
  have data : ∀ d ∈ ((World.empty true).contents "main").documents "users",
      (Value.doc d).isData = true := fun _ mem => absurd mem List.not_mem_nil
  have unique : ∀ x ∈ (World.empty true).indexes "main" "users", ∀ i,
      x.2.keys ∈ askedForMails i → x.2.unique = true := fun _ mem => absurd mem List.not_mem_nil
  have allowed : ∀ m ∈ mails, m.isAllowed = true := by decide
  have returned : ((begin askedForMails (World.empty true)).run "main" "users" mails).clients 1 =
      .returned := by with_unfolding_all rfl
  have raised : ∃ failure, ((begin askedForMails (World.empty true)).run "main" "users"
      mails).clients 2 = .raised failure := ⟨_, by with_unfolding_all rfl⟩
  have readable : ∀ i, ∀ keys ∈ askedForMails i, ∀ key ∈ keys, Path.IsReadable key := by decide
  obtain ⟨-, failed, indexed, -⟩ := harmless reached taken declares data unique names allowed
  obtain ⟨failure, same⟩ := raised
  obtain ⟨before, -, keys, -, -, -, asks, -, clash⟩ := failed
    (fun _ _ i keys mem => Memory.legible_of_isReadable (readable i keys mem) _) 2 failure same
  obtain rfl := List.mem_singleton.1 asks
  exact ⟨_, rfl, returned, indexed 1 returned _ (by decide), indexed 1 returned _ (by decide),
    ⟨failure, same⟩, before, clash⟩

/-- A single document with a list, and a path whose digit is none that numerals are written with. -/
def squared : World :=
  (World.empty true).operate [.event (.write "main" (.insert "users"
    (.doc [("_id", .str "u1"), ("a", .list [.int 1])])) none)]

/-- An empty field set is refused before the store is called. The index over a path that cannot be
read is not created, though there is but one document. -/
theorem raises_without_clash :
    ensure (backend "main") "users" (.list [.list []]) (World.empty true) =
        (.error (.argument .emptyFieldSet), World.empty true) ∧
      ((World.empty true).contents "main").documents "users" = [] ∧
      (ensure (backend "main") "users" (.list [.str "a.²"]) squared).1 =
        .error (.misuse .badValue) ∧
      ((squared.contents "main").documents "users").length = 1 :=
  ⟨by with_unfolding_all rfl, rfl, by with_unfolding_all rfl, rfl⟩

end Race
end UniqueField
end Docbase
