import Docbase.Memory.Backend
import Docbase.Proofs.Action

/-!
# Runs of a world

What callers can do to the stores of a world, as data, and the worlds that runs lead to. A call
that fails is part of a run like any other; what it has changed stays.
-/

namespace Docbase.Memory

/-! ## Writes -/

inductive Write
  | insert (collection : String) (document : Value)
  | insertAll (collection : String) (documents : List Value) (ordered : Bool)
  | update (collection : String) (filter patch : Value)
  | delete (collection : String) (filter : Value)
  | createIndex (collection : String) (keys : List Value) (unique : Bool)
  | clear (collection : String)
  | clearAll

namespace Write

def perform (store : String) (caller : Option SessionId) : Write → Action World Value
  | insert collection document => .str <$> World.insert store collection document caller
  | insertAll collection documents ordered =>
    listed .str <$> World.insertAll store collection documents ordered caller
  | update collection filter patch => .ofNat <$> World.update store collection filter patch caller
  | delete collection filter => .ofNat <$> World.delete store collection filter caller
  | createIndex collection keys unique => .str <$> World.createIndex store collection keys unique
  | clear collection => (fun _ => .null) <$> World.clearCollection store collection
  | clearAll => (fun _ => .null) <$> World.clearAll store

/-- What a write does to the contents of its store. The number is that of the first key that may be
generated. -/
def change (number : Nat) : Write → Action Contents Value
  | insert collection document => .str <$> Contents.insert collection number document
  | insertAll collection documents ordered =>
    listed .str <$> Contents.insertAll collection number documents ordered
  | update collection filter patch => .ofNat <$> Contents.update collection filter patch
  | delete collection filter => .ofNat <$> Contents.delete collection filter
  | createIndex collection keys unique => .str <$> Contents.createIndex collection keys unique
  | clear collection => (fun _ => .null) <$> modify (Contents.clear collection)
  | clearAll => (fun _ => .null) <$> modify fun _ => {}

/-- Why a store refuses a write, if it does. Collections are cleared in any case. -/
def refusal (store : String) (caller : Option SessionId) (w : World) : Write → Option Failure
  | clear _ | clearAll => none
  | createIndex _ _ _ => w.refusal store none
  | _ => w.refusal store caller

def reserved : Write → Nat
  | insert _ _ => 1
  | insertAll _ documents _ => documents.length
  | _ => 0

end Write

namespace World

/-! ## Reading a world that was changed -/

@[simp] theorem contents_setContents_self (store : String) (c : Contents) (w : World) :
    (w.setContents store c).contents store = c := by
  simp [contents, setContents]

theorem contents_setContents_of_ne {store other : String} (h : other ≠ store) (c : Contents)
    (w : World) : (w.setContents store c).contents other = w.contents other := by
  simp [contents, setContents, stores_setStore_of_ne h]

@[simp] theorem sessions_setContents (store : String) (c : Contents) (w : World) :
    (w.setContents store c).sessions = w.sessions := rfl

@[simp] theorem connected_setContents (store other : String) (c : Contents) (w : World) :
    ((w.setContents store c).stores other).connected = (w.stores other).connected := by
  by_cases h : other = store
  · subst h
    simp [setContents]
  · simp [setContents, stores_setStore_of_ne h]

@[simp] theorem stores_setSession (id : SessionId) (s : Session) (w : World) :
    (w.setSession id s).stores = w.stores := rfl

@[simp] theorem contents_setSession (id : SessionId) (s : Session) (w : World) (store : String) :
    (w.setSession id s).contents store = w.contents store := rfl

@[simp] theorem length_setSession (id : SessionId) (s : Session) (w : World) :
    (w.setSession id s).sessions.length = w.sessions.length := List.length_set

@[simp] theorem session_setSession_self {id : SessionId} {w : World} (s : Session)
    (h : id < w.sessions.length) : (w.setSession id s).session id = s := by
  simp [session, setSession, h]

theorem session_setSession_of_ne {id other : SessionId} (h : other ≠ id) (s : Session)
    (w : World) : (w.setSession id s).session other = w.session other := by
  simp [session, setSession, List.getElem?_set_ne h.symm]

@[simp] theorem setSession_setSession (id : SessionId) (s t : Session) (w : World) :
    (w.setSession id s).setSession id t = w.setSession id t := by
  simp [setSession, List.set_set]

/-! ## Operations of a store -/

theorem check_apply (store : String) (caller : Option SessionId) (w : World) :
    check store caller w = match w.refusal store caller with
      | some failure => (.error failure, w)
      | none => (.ok (), w) := by
  simp only [check, Action.bind_apply, Action.get_apply]
  cases w.refusal store caller <;> rfl

theorem check_bind_apply {α : Type} (store : String) (caller : Option SessionId)
    (a : Action World α) (w : World) :
    (check store caller >>= fun _ => a) w = match w.refusal store caller with
      | some failure => (.error failure, w)
      | none => a w := by
  rw [Action.bind_apply, check_apply]
  cases w.refusal store caller <;> rfl

theorem contents_connect (store other : String) (w : World) :
    (connect store w).2.contents other = w.contents other := by
  by_cases same : other = store
  · subst same
    simp [connect, contents]
  · simp [connect, contents, stores_setStore_of_ne same]

theorem contents_disconnect (store other : String) (w : World) :
    (disconnect store w).2.contents other = w.contents other := by
  by_cases same : other = store
  · subst same
    simp [disconnect, contents]
  · simp [disconnect, contents, stores_setStore_of_ne same]

theorem refusal_congr {store : String} {v w : World}
    (connected : (v.stores store).connected = (w.stores store).connected)
    (sessions : v.sessions = w.sessions) (caller : Option SessionId) :
    v.refusal store caller = w.refusal store caller := by
  unfold refusal session
  rw [connected, sessions]

theorem kind_of_refusal {store : String} {caller : Option SessionId} {w : World}
    {failure : Failure} (refused : w.refusal store caller = some failure) :
    failure.kind ≠ .bulkInsert := by
  unfold refusal at refused
  repeat' split at refused
  all_goals
    cases refused
    try exact nofun

theorem startSession_apply (store : String) (w : World) :
    startSession store w = match w.refusal store none with
      | some failure => (.error failure, w)
      | none => (.ok w.sessions.length, { w with sessions := w.sessions ++ [{ home := store }] }) :=
  check_bind_apply store none _ w

end World

/-- A write is refused, or changes the contents of its store and nothing else. -/
theorem Write.perform_apply (store : String) (caller : Option SessionId) (op : Write) (w : World) :
    op.perform store caller w = match op.refusal store caller w with
      | some failure => (.error failure, w)
      | none =>
        ((op.change w.generated (w.contents store)).1,
          { w.setContents store (op.change w.generated (w.contents store)).2 with
            generated := w.generated + op.reserved }) := by
  cases op with
  | insert collection document =>
    simp only [perform, refusal, change, Action.map_apply, World.insert, World.check_bind_apply]
    cases w.refusal store caller <;> rfl
  | insertAll collection documents ordered =>
    simp only [perform, refusal, change, Action.map_apply, World.insertAll, World.check_bind_apply]
    cases w.refusal store caller <;> rfl
  | update collection filter patch =>
    simp only [perform, refusal, change, Action.map_apply, World.update, World.check_bind_apply]
    cases w.refusal store caller <;> rfl
  | delete collection filter =>
    simp only [perform, refusal, change, Action.map_apply, World.delete, World.check_bind_apply]
    cases w.refusal store caller <;> rfl
  | createIndex collection keys unique =>
    simp only [perform, refusal, change, Action.map_apply, World.createIndex,
      World.check_bind_apply]
    cases w.refusal store none <;> rfl
  | clear collection => rfl
  | clearAll => rfl

theorem Write.perform_cases {store : String} {caller : Option SessionId} {op : Write} {v w : World}
    {outcome : Except Failure Value} (run : op.perform store caller w = (outcome, v)) :
    (∃ failure, op.refusal store caller w = some failure ∧ outcome = .error failure ∧ v = w) ∨
      op.refusal store caller w = none ∧
        op.change w.generated (w.contents store) = (outcome, v.contents store) ∧
        ∀ caller, v.refusal store caller = w.refusal store caller := by
  rw [perform_apply] at run
  cases refused : op.refusal store caller w with
  | some failure =>
    rw [refused] at run
    cases run
    exact .inl ⟨failure, rfl, rfl, rfl⟩
  | none =>
    rw [refused] at run
    cases run
    refine .inr ⟨rfl, Prod.ext rfl (World.contents_setContents_self store _ w).symm, ?_⟩
    exact World.refusal_congr (World.connected_setContents store store _ w) rfl

theorem Write.contents_perform_of_ne {store other : String} (ne : other ≠ store)
    (caller : Option SessionId) (op : Write) (w : World) :
    (op.perform store caller w).2.contents other = w.contents other := by
  rw [perform_apply]
  split
  · rfl
  · exact World.contents_setContents_of_ne ne _ w

theorem Write.sessions_perform (store : String) (caller : Option SessionId) (op : Write)
    (w : World) : (op.perform store caller w).2.sessions = w.sessions := by
  rw [perform_apply]
  split <;> rfl

theorem Write.session_perform (store : String) (caller : Option SessionId) (op : Write) (w : World)
    (id : SessionId) : (op.perform store caller w).2.session id = w.session id := by
  rw [World.session, World.session, sessions_perform]

theorem Write.connected_perform (store other : String) (caller : Option SessionId) (op : Write)
    (w : World) :
    ((op.perform store caller w).2.stores other).connected = (w.stores other).connected := by
  rw [perform_apply]
  split
  · rfl
  · exact World.connected_setContents store other _ w

/-! ## Calls of a session -/

inductive SessionCall
  | startTransaction
  | commitTransaction
  | abortTransaction
  | finish
  deriving DecidableEq

namespace SessionCall

def perform (id : SessionId) : SessionCall → Action World Unit
  | startTransaction => World.startTransaction id
  | commitTransaction => World.commitTransaction id
  | abortTransaction => World.abortTransaction id
  | finish => World.endSession id

end SessionCall

namespace World

theorem startTransaction_apply (id : SessionId) (w : World) :
    startTransaction id w =
      if (w.session id).hasEnded then (.error .sessionEnded, w)
      else if (w.session id).inTransaction then (.error .transactionInProgress, w)
      else (.ok (), w.setSession id
        { w.session id with snapshot := some (w.contents (w.session id).home) }) := by
  cases ended : (w.session id).hasEnded <;> cases busy : (w.session id).inTransaction <;>
    simp [startTransaction, activeSession, Action.bind_apply, ended, busy]

theorem commitTransaction_apply (id : SessionId) (w : World) :
    commitTransaction id w =
      if (w.session id).hasEnded then (.error .sessionEnded, w)
      else if (w.session id).inTransaction then
        (.ok (), w.setSession id { w.session id with snapshot := none })
      else (.error .noTransaction, w) := by
  cases ended : (w.session id).hasEnded <;> cases busy : (w.session id).inTransaction <;>
    simp [commitTransaction, activeSession, Action.bind_apply, ended, busy]

/-- The world with the contents back that a session holds, if it is in a transaction. -/
def rollback (id : SessionId) (w : World) : World :=
  match (w.session id).snapshot with
  | none => w
  | some contents =>
    (w.setContents (w.session id).home contents).setSession id
      { w.session id with snapshot := none }

theorem contents_rollback {id : SessionId} {w : World} {store : String}
    (home : (w.session id).home = store) :
    (w.rollback id).contents store = (w.session id).snapshot.getD (w.contents store) := by
  unfold rollback
  cases (w.session id).snapshot with
  | none => rfl
  | some c => rw [home, contents_setSession, contents_setContents_self, Option.getD_some]

@[simp] theorem session_rollback_self {id : SessionId} {w : World}
    (known : id < w.sessions.length) :
    (w.rollback id).session id = { w.session id with snapshot := none } := by
  unfold rollback
  cases held : (w.session id).snapshot with
  | none => simp only [← held]
  | some c => exact session_setSession_self _ known

theorem session_rollback_of_ne {id other : SessionId} (ne : other ≠ id) (w : World) :
    (w.rollback id).session other = w.session other := by
  unfold rollback
  cases (w.session id).snapshot with
  | none => rfl
  | some c => exact session_setSession_of_ne ne _ _

@[simp] theorem length_rollback (id : SessionId) (w : World) :
    (w.rollback id).sessions.length = w.sessions.length := by
  unfold rollback
  split
  · rfl
  · rw [length_setSession, sessions_setContents]

@[simp] theorem connected_rollback (id : SessionId) (w : World) (store : String) :
    ((w.rollback id).stores store).connected = (w.stores store).connected := by
  unfold rollback
  split
  · rfl
  · rw [stores_setSession, connected_setContents]

theorem abortTransaction_apply (id : SessionId) (w : World) :
    abortTransaction id w =
      if (w.session id).hasEnded then (.error .sessionEnded, w)
      else if (w.session id).inTransaction then (.ok (), w.rollback id)
      else (.error .noTransaction, w) := by
  cases ended : (w.session id).hasEnded <;> cases held : (w.session id).snapshot <;>
    simp [abortTransaction, activeSession, rollback, Session.inTransaction, Action.bind_apply,
      ended, held]

theorem endSession_apply (id : SessionId) (w : World) :
    endSession id w =
      if (w.session id).hasEnded then (.ok (), w)
      else (.ok (), (w.rollback id).setSession id
        { (w.rollback id).session id with hasEnded := true }) := by
  cases ended : (w.session id).hasEnded <;> cases held : (w.session id).snapshot <;>
    simp [endSession, abortTransaction_apply, rollback, Session.inTransaction, Action.bind_apply,
      ended, held]

end World

namespace SessionCall

def accepted (s : Session) : SessionCall → Bool
  | startTransaction => !s.hasEnded && !s.inTransaction
  | commitTransaction | abortTransaction => !s.hasEnded && s.inTransaction
  | finish => !s.hasEnded

/-- The calls that end a transaction by taking it back. -/
def takesBack : SessionCall → Bool
  | abortTransaction | finish => true
  | _ => false

def effect (id : SessionId) (w : World) : SessionCall → World
  | startTransaction =>
    w.setSession id { w.session id with snapshot := some (w.contents (w.session id).home) }
  | commitTransaction => w.setSession id { w.session id with snapshot := none }
  | abortTransaction => w.rollback id
  | finish => (w.rollback id).setSession id { (w.rollback id).session id with hasEnded := true }

theorem perform_snd (id : SessionId) (c : SessionCall) (w : World) :
    (c.perform id w).2 = if c.accepted (w.session id) then c.effect id w else w := by
  cases c with
  | startTransaction =>
    rw [perform, World.startTransaction_apply]
    cases ended : (w.session id).hasEnded <;> cases busy : (w.session id).inTransaction <;>
      simp [accepted, effect, ended, busy]
  | commitTransaction =>
    rw [perform, World.commitTransaction_apply]
    cases ended : (w.session id).hasEnded <;> cases busy : (w.session id).inTransaction <;>
      simp [accepted, effect, ended, busy]
  | abortTransaction =>
    rw [perform, World.abortTransaction_apply]
    cases ended : (w.session id).hasEnded <;> cases busy : (w.session id).inTransaction <;>
      simp [accepted, effect, ended, busy]
  | finish =>
    rw [perform, World.endSession_apply]
    cases ended : (w.session id).hasEnded <;> simp [accepted, effect, ended]

@[simp] theorem length_perform (id : SessionId) (c : SessionCall) (w : World) :
    (c.perform id w).2.sessions.length = w.sessions.length := by
  rw [perform_snd]
  split
  · cases c <;> simp [effect]
  · rfl

theorem session_perform_of_ne {id other : SessionId} (ne : other ≠ id) (c : SessionCall)
    (w : World) : (c.perform id w).2.session other = w.session other := by
  rw [perform_snd]
  split
  · cases c <;> simp [effect, World.session_setSession_of_ne ne, World.session_rollback_of_ne ne]
  · rfl

theorem home_perform {id : SessionId} {w : World} (known : id < w.sessions.length)
    (c : SessionCall) : ((c.perform id w).2.session id).home = (w.session id).home := by
  rw [perform_snd]
  split
  · cases c <;> simp [effect, known]
  · rfl

end SessionCall

/-! ## Runs -/

inductive Event
  | connect (store : String)
  | disconnect (store : String)
  | startSession (store : String)
  | write (store : String) (op : Write) (caller : Option SessionId)
  | call (id : SessionId) (c : SessionCall)

namespace Event

def after (w : World) : Event → World
  | connect store => (World.connect store w).2
  | disconnect store => (World.disconnect store w).2
  | startSession store => (World.startSession store w).2
  | write store op caller => (op.perform store caller w).2
  | call id c => (c.perform id w).2

def calls (id : SessionId) : Event → Bool
  | call i _ => i == id
  | _ => false

theorem exists_call {id : SessionId} {e : Event} (called : e.calls id = true) :
    ∃ c, e = .call id c := by
  cases e with
  | call i c =>
    obtain rfl : i = id := by simpa [calls] using called
    exact ⟨c, rfl⟩
  | _ => cases called

end Event

namespace World

def replay (w : World) (events : List Event) : World := events.foldl Event.after w

@[simp] theorem replay_nil (w : World) : w.replay [] = w := rfl

@[simp] theorem replay_cons (w : World) (e : Event) (rest : List Event) :
    w.replay (e :: rest) = (e.after w).replay rest := rfl

theorem replay_append (w : World) (events rest : List Event) :
    w.replay (events ++ rest) = (w.replay events).replay rest := List.foldl_append

theorem replay_preserves {P : World → Prop} {Allowed : Event → Prop}
    (step : ∀ w e, Allowed e → P w → P (e.after w)) {events : List Event} {w : World}
    (allowed : ∀ e ∈ events, Allowed e) (h : P w) : P (w.replay events) := by
  induction events generalizing w with
  | nil => exact h
  | cons e rest ih =>
    obtain ⟨here, there⟩ := List.forall_mem_cons.1 allowed
    exact ih there (step w e here h)

/-! ## The contents of one store -/

theorem preserves_onContents {α : Type} {P : Contents → Prop} {a : Action Contents α}
    {store other : String} (h : other = store → Action.Preserves P a) :
    Action.Preserves (fun w => P (w.contents store)) (onContents other a) := by
  intro w before
  by_cases same : other = store
  · subst same
    have after := h rfl _ before
    rw [← contents_setContents_self other (a (w.contents other)).2 w] at after
    exact after
  · have kept : P ((w.setContents other (a (w.contents other)).2).contents store) := by
      rwa [contents_setContents_of_ne (Ne.symm same)]
    exact kept

theorem contents_after {P : Contents → Prop} {store : String} {w : World} {e : Event}
    (h : P (w.contents store))
    (forward : ∀ id, e ≠ .call id .abortTransaction ∧ e ≠ .call id .finish)
    (writes : ∀ op caller, e = .write store op caller →
      ∀ number, Action.Preserves P (op.change number)) : P ((e.after w).contents store) := by
  cases e with
  | connect other => rwa [Event.after, contents_connect]
  | disconnect other => rwa [Event.after, contents_disconnect]
  | startSession other =>
    rw [Event.after, startSession_apply]
    split
    · exact h
    · exact h
  | write other op caller =>
    have changed : Action.Preserves (fun w => P (w.contents store))
        (onContents other (op.change w.generated)) := by
      refine preserves_onContents fun same => ?_
      subst same
      exact writes op caller rfl w.generated
    rw [Event.after, Write.perform_apply]
    split
    · exact h
    · exact changed w h
  | call id c =>
    rw [Event.after, SessionCall.perform_snd]
    split
    · cases c with
      | startTransaction => exact h
      | commitTransaction => exact h
      | abortTransaction => exact absurd rfl (forward id).1
      | finish => exact absurd rfl (forward id).2
    · exact h

/-! ## Sessions along a run -/

variable {id : SessionId} {w : World}

theorem length_after (w : World) (e : Event) :
    w.sessions.length ≤ (e.after w).sessions.length := by
  cases e with
  | connect s => exact Nat.le_refl _
  | disconnect s => exact Nat.le_refl _
  | startSession s =>
    rw [Event.after, startSession_apply]
    split
    · exact Nat.le_refl _
    · simp
  | write s op caller => exact Nat.le_of_eq (congrArg List.length (op.sessions_perform s caller w)).symm
  | call i c => exact Nat.le_of_eq (c.length_perform i w).symm

theorem session_after {e : Event} (known : id < w.sessions.length) (quiet : e.calls id = false) :
    (e.after w).session id = w.session id := by
  cases e with
  | connect s => rfl
  | disconnect s => rfl
  | startSession s =>
    rw [Event.after, startSession_apply]
    split
    · rfl
    · simp [session, List.getElem?_append_left known]
  | write s op caller => exact op.session_perform s caller w id
  | call i c =>
    have ne : id ≠ i := by
      rintro rfl
      simp [Event.calls] at quiet
    exact SessionCall.session_perform_of_ne ne c w

theorem home_after (known : id < w.sessions.length) (e : Event) :
    ((e.after w).session id).home = (w.session id).home := by
  cases quiet : e.calls id with
  | false => rw [session_after known quiet]
  | true =>
    obtain ⟨c, rfl⟩ := Event.exists_call quiet
    exact SessionCall.home_perform known c

theorem known_after (known : id < w.sessions.length) (e : Event) :
    id < (e.after w).sessions.length := Nat.lt_of_lt_of_le known (length_after w e)

theorem known_replay (known : id < w.sessions.length) (events : List Event) :
    id < (w.replay events).sessions.length := by
  induction events generalizing w with
  | nil => exact known
  | cons e rest ih => exact ih (known_after known e)

theorem home_replay (known : id < w.sessions.length) (events : List Event) :
    ((w.replay events).session id).home = (w.session id).home := by
  induction events generalizing w with
  | nil => rfl
  | cons e rest ih =>
    rw [replay_cons, ih (known_after known e), home_after known]

theorem session_replay (known : id < w.sessions.length) {events : List Event}
    (quiet : ∀ e ∈ events, e.calls id = false) :
    (w.replay events).session id = w.session id := by
  induction events generalizing w with
  | nil => rfl
  | cons e rest ih =>
    obtain ⟨here, there⟩ := List.forall_mem_cons.1 quiet
    rw [replay_cons, ih (known_after known e) there, session_after known here]

end World

end Docbase.Memory
