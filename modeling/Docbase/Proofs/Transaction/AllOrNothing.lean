import Docbase.Proofs.Memory.Backend
import Docbase.Proofs.Transaction.Executor

/-!
# Transactions are all or nothing

The work of a transaction may write to its store through repositories, directly and in further
transactions, and may go on after failures. It does not call the session that it is given, and
nothing else in it does, so that the session still holds the contents from before the work when the
work is over.

* `Memory.World.Keeps` is what the work leaves as it is.
* `Memory.Program` is the syntax of work, `Memory.Program.run` performs it.
* `Memory.Program.execute_all_or_nothing` is the theorem.
-/

namespace Docbase.Memory
open Docbase.Action (Preserves)

/-! ## What work leaves as it is -/

namespace World

/-- The sessions that were there are as they were, and so are the connections. -/
structure Keeps (w v : World) : Prop where
  sessions : w.sessions <+: v.sessions
  connected : ∀ store, (v.stores store).connected = (w.stores store).connected

variable {u v w : World} {store : String} {id : SessionId}

theorem Keeps.refl (w : World) : w.Keeps w := ⟨List.prefix_refl _, fun _ => rfl⟩

theorem Keeps.trans (h : u.Keeps v) (h' : v.Keeps w) : u.Keeps w :=
  ⟨h.sessions.trans h'.sessions, fun store => (h'.connected store).trans (h.connected store)⟩

theorem Keeps.known (h : v.Keeps w) (known : id < v.sessions.length) : id < w.sessions.length :=
  Nat.lt_of_lt_of_le known h.sessions.length_le

theorem Keeps.session (h : v.Keeps w) (known : id < v.sessions.length) :
    w.session id = v.session id := by
  obtain ⟨added, split⟩ := h.sessions
  rw [World.session, World.session, ← split, List.getD_eq_getElem?_getD,
    List.getElem?_append_left known, List.getD_eq_getElem?_getD]

theorem Keeps.setContents (h : v.Keeps w) (store : String) (c : Contents) :
    v.Keeps (w.setContents store c) :=
  ⟨h.sessions, fun other => (connected_setContents store other c w).trans (h.connected other)⟩

theorem preserves_keeps_onContents {α : Type} (w : World) (store : String)
    (a : Action Contents α) : Preserves w.Keeps (onContents store a) := fun _ h =>
  h.setContents store _

theorem preserves_keeps_reserve (w : World) (count : Nat) : Preserves w.Keeps (reserve count) :=
  fun _ h => ⟨h.sessions, h.connected⟩

end World

theorem preserves_keeps_backend (w : World) (store : String) :
    (backend store).Preserves w.Keeps := by
  have indexing : (backend store).PreservesIndexing w.Keeps :=
    preservesIndexing_backend fun _ _ => w.preserves_keeps_onContents store _
  constructor
  · intro collection d session
    exact preserves_backend_insert (w.preserves_keeps_reserve 1)
      fun _ => w.preserves_keeps_onContents store _
  · intro collection ds session
    exact preserves_backend_insertEach w.preserves_keeps_reserve
      fun _ => w.preserves_keeps_onContents store _
  · intro collection filter patch session
    exact preserves_backend_update (w.preserves_keeps_onContents store _)
  · intro collection filter session
    exact preserves_backend_delete (w.preserves_keeps_onContents store _)
  · exact indexing.hasUnique
  · exact indexing.createUnique

/-! ## One transaction -/

namespace World

def opened (store : String) (w : World) : World :=
  { w with sessions := w.sessions ++ [{ home := store, snapshot := some (w.contents store) }] }

variable {w v : World} {store : String} {id : SessionId}

theorem Keeps.session_opened (h : (w.opened store).Keeps v) :
    v.session w.sessions.length = { home := store, snapshot := some (w.contents store) } := by
  rw [h.session (by simp [opened])]
  simp [World.session, opened]

theorem Keeps.known_opened (h : (w.opened store).Keeps v) :
    w.sessions.length < v.sessions.length := h.known (by simp [opened])

theorem Keeps.of_opened (h : (w.opened store).Keeps v) (s : Session) :
    w.Keeps (v.setSession w.sessions.length s) := by
  refine ⟨?_, h.connected⟩
  obtain ⟨added, split⟩ := h.sessions
  rw [opened, List.append_assoc] at split
  rw [World.setSession, ← split, List.set_append_right _ _ (Nat.le_refl _)]
  exact List.prefix_append _ _

theorem startSession_of_connected (connected : (w.stores store).connected = true) :
    startSession store w =
      (.ok w.sessions.length, { w with sessions := w.sessions ++ [{ home := store }] }) := by
  rw [startSession_apply, refusal, connected]
  rfl

theorem startTransaction_of_started (w : World) (store : String) :
    startTransaction w.sessions.length
      { w with sessions := w.sessions ++ [{ home := store }] } = (.ok (), w.opened store) := by
  rw [startTransaction_apply]
  simp [session, Session.inTransaction, setSession, opened, contents]

theorem commitTransaction_of_held {c : Contents}
    (held : v.session id = { home := store, snapshot := some c }) :
    commitTransaction id v = (.ok (), v.setSession id { home := store }) := by
  rw [commitTransaction_apply, held]
  rfl

theorem abortTransaction_of_held {c : Contents}
    (held : v.session id = { home := store, snapshot := some c }) :
    abortTransaction id v =
      (.ok (), (v.setContents store c).setSession id { home := store }) := by
  rw [abortTransaction_apply, rollback, held]
  rfl

theorem endSession_of_free (free : v.session id = { home := store }) :
    endSession id v = (.ok (), v.setSession id { home := store, hasEnded := true }) := by
  have kept : v.rollback id = v := by rw [rollback, free]
  rw [endSession_apply, kept, free]
  rfl

theorem endSession_of_held {c : Contents}
    (held : v.session id = { home := store, snapshot := some c })
    (known : id < v.sessions.length) :
    endSession id v =
      (.ok (), (v.setContents store c).setSession id { home := store, hasEnded := true }) := by
  have rolled : v.rollback id = (v.setContents store c).setSession id { home := store } := by
    rw [rollback, held]
  have known' : id < (v.setContents store c).sessions.length := known
  rw [endSession_apply, held, rolled, session_setSession_self _ known']
  exact congrArg (Prod.mk _) (setSession_setSession id _ _ _)

end World

open Transaction

variable {α : Type} {store : String} {w v : World} {executor : ExecutorId}
  {statuses after : ExecutorId → Status} {work : SessionId → Action (Shared World) α}

theorem executeBy_of_refused (refused : (w.stores store).connected = false) :
    executeBy (sessions store) executor work (w, statuses) =
      (.error .notConnected, w, statuses) := by
  have unstarted : World.startSession store w = (.error .notConnected, w) := by
    rw [World.startSession_apply, World.refusal, refused]
    rfl
  exact executeBy_of_unstarted unstarted

theorem executeBy_of_ok {a : α} (connected : (w.stores store).connected = true)
    (run : work w.sessions.length (w.opened store, assign executor .working statuses) =
      (.ok a, v, after))
    (keeps : (w.opened store).Keeps v) :
    executeBy (sessions store) executor work (w, statuses) =
      (.ok a, v.setSession w.sessions.length { home := store, hasEnded := true },
        assign executor { phase := .sessionClosed, outcome := some .committed } after) := by
  have held := keeps.session_opened
  have free := World.session_setSession_self { home := store } keeps.known_opened
  have started := World.startSession_of_connected connected
  have begun := World.startTransaction_of_started w store
  have committed := World.commitTransaction_of_held held
  have ended := World.endSession_of_free free
  rw [World.setSession_setSession] at ended
  exact executeBy_of_committed started begun run committed ended

theorem executeBy_of_error {failure : Failure} (connected : (w.stores store).connected = true)
    (run : work w.sessions.length (w.opened store, assign executor .working statuses) =
      (.error failure, v, after))
    (keeps : (w.opened store).Keeps v) :
    executeBy (sessions store) executor work (w, statuses) =
      (.error (.transaction .body failure),
        (v.setContents store (w.contents store)).setSession w.sessions.length
          { home := store, hasEnded := true },
        assign executor { phase := .sessionClosed, outcome := some .aborted } after) := by
  have held := keeps.session_opened
  have known : w.sessions.length < (v.setContents store (w.contents store)).sessions.length :=
    keeps.known_opened
  have free := World.session_setSession_self { home := store } known
  have started := World.startSession_of_connected connected
  have begun := World.startTransaction_of_started w store
  refine executeBy_of_aborted started begun run ?_
  split
  · have aborted := World.abortTransaction_of_held held
    have ended := World.endSession_of_free free
    rw [World.setSession_setSession] at ended
    show World.endSession _ (World.abortTransaction _ v).2 = _
    rw [aborted, ended]
  · exact World.endSession_of_held held keeps.known_opened

theorem keeps_executeBy (keeps : ∀ id (shared : Shared World), shared.1.Keeps (work id shared).2.1)
    (w : World) (statuses : ExecutorId → Status) :
    w.Keeps (executeBy (sessions store) executor work (w, statuses)).2.1 := by
  cases connected : (w.stores store).connected with
  | false =>
    rw [executeBy_of_refused connected]
    exact World.Keeps.refl w
  | true =>
    have kept := keeps w.sessions.length (w.opened store, assign executor .working statuses)
    rcases run : work w.sessions.length (w.opened store, assign executor .working statuses) with
      ⟨failure | a, v, after⟩ <;> rw [run] at kept
    · rw [executeBy_of_error connected run kept]
      exact (kept.setContents store _).of_opened _
    · rw [executeBy_of_ok connected run kept]
      exact kept.of_opened _

/-! ## Work -/

/-- A source of keys for new documents. It may fail and count, but leaves sessions alone. -/
structure KeySource where
  draw : Action World Value
  keeps : ∀ w : World, w.Keeps (draw w).2

def KeySource.generated : KeySource where
  draw := do return .str (Contents.generatedKey (← World.reserve 1))
  keeps _ := ⟨List.prefix_refl _, fun _ => rfl⟩

structure Handle where
  name : String
  identity : Identity := default
  keys : KeySource := .generated

def Handle.repository (store : String) (h : Handle) : Repository World SessionId where
  backend := backend store
  name := h.name
  identity := h.identity
  newKey := h.keys.draw

inductive Request
  | write (op : Write) (caller : Option SessionId)
  | insert (h : Handle) (data declared : Value) (caller : Option SessionId)
  | insertMany (h : Handle) (datas declared : Value) (caller : Option SessionId)
  | update (h : Handle) (clause data declared : Value) (caller : Option SessionId)
  | delete (h : Handle) (clause : Value) (caller : Option SessionId)

def Request.perform (store : String) : Request → Action World Value
  | write op caller => op.perform store caller
  | insert h data declared caller => .str <$> (h.repository store).insert data declared caller
  | insertMany h datas declared caller =>
    listed .str <$> (h.repository store).insertMany datas declared caller
  | update h clause data declared caller => (h.repository store).update clause data declared caller
  | delete h clause caller => (h.repository store).delete clause caller

/-- The work of a transaction. It goes on with the outcome of each write and of each transaction in
it, be it a failure, and may look at anything. -/
inductive Program : Type → Type 1
  | finish {α : Type} (a : α) : Program α
  | fail {α : Type} (failure : Failure) : Program α
  | look {α β : Type} (f : Shared World → β) (next : β → Program α) : Program α
  | request {α : Type} (r : Request) (next : Except Failure Value → Program α) : Program α
  | transaction {α β : Type} (executor : ExecutorId) (body : SessionId → Program β)
      (next : Except Failure β → Program α) : Program α

namespace Program

def run {α : Type} (store : String) : Program α → Action (Shared World) α
  | finish a => pure a
  | fail failure => throw failure
  | look f next => do (next (f (← get))).run store
  | request r next => do (next (← (onState (r.perform store)).attempt)).run store
  | transaction executor body next => do
    let outcome ← (executeBy (sessions store) executor fun id => (body id).run store).attempt
    (next outcome).run store

end Program

theorem Request.preserves_keeps (w : World) (store : String) (r : Request) :
    Preserves w.Keeps (r.perform store) := by
  have backend := preserves_keeps_backend w store
  have keys (h : Handle) : Preserves w.Keeps h.keys.draw := fun v kept =>
    kept.trans (h.keys.keeps v)
  cases r with
  | write op caller =>
    intro v kept
    refine ⟨?_, fun other => ?_⟩
    · rw [perform, Write.sessions_perform]
      exact kept.sessions
    · rw [perform, Write.connected_perform]
      exact kept.connected other
  | insert h data declared caller =>
    exact (Repository.preserves_insert backend (keys h) data declared caller).map _
  | insertMany h datas declared caller =>
    exact (Repository.preserves_insertMany backend (keys h) datas declared caller).map _
  | update h clause data declared caller =>
    exact Repository.preserves_update backend clause data declared caller
  | delete h clause caller => exact Repository.preserves_delete backend clause caller

namespace Program

theorem preserves_keeps {α : Type} (w : World) (store : String) (p : Program α) :
    Preserves (fun shared => w.Keeps shared.1) (p.run store) := by
  induction p generalizing w with
  | finish a => exact Action.preserves_pure a
  | fail failure => exact Action.preserves_throw failure
  | look f next ih => exact Action.preserves_get.bind fun shared => ih (f shared) w
  | request r next ih =>
    refine Preserves.bind ?_ fun outcome => ih outcome w
    exact fun shared kept => r.preserves_keeps w store shared.1 kept
  | transaction executor body next work rest =>
    refine Preserves.bind ?_ fun outcome => rest outcome w
    refine fun shared kept => kept.trans ?_
    exact keeps_executeBy (fun id inner => work id inner.1 inner (World.Keeps.refl _)) _ _

def execute {α : Type} (store : String) (executor : ExecutorId) (body : SessionId → Program α) :
    Action (Shared World) α :=
  executeBy (sessions store) executor fun id => (body id).run store

/-- What the work of a transaction comes to, before the transaction is committed or taken back. -/
def inside {α : Type} (store : String) (executor : ExecutorId) (body : SessionId → Program α)
    (shared : Shared World) : Except Failure α × Shared World :=
  (body shared.1.sessions.length).run store
    (shared.1.opened store, assign executor .working shared.2)

/-- A transaction keeps what its work did if the work finishes. If a failure escapes from the work,
the transaction fails with it as the cause, and the contents are those from before. -/
theorem execute_all_or_nothing {α : Type} (executor : ExecutorId) (body : SessionId → Program α)
    (shared : Shared World) (connected : (shared.1.stores store).connected = true) :
    (∀ a, (inside store executor body shared).1 = .ok a →
      (execute store executor body shared).1 = .ok a ∧
      (execute store executor body shared).2.1.contents store =
        (inside store executor body shared).2.1.contents store ∧
      (execute store executor body shared).2.2 executor =
        { phase := .sessionClosed, outcome := some .committed }) ∧
    (∀ failure, (inside store executor body shared).1 = .error failure →
      (execute store executor body shared).1 = .error (.transaction .body failure) ∧
      (execute store executor body shared).2.1.contents store = shared.1.contents store ∧
      (execute store executor body shared).2.2 executor =
        { phase := .sessionClosed, outcome := some .aborted }) ∧
    (execute store executor body shared).2.1.session shared.1.sessions.length =
      { home := store, hasEnded := true } := by
  obtain ⟨w, statuses⟩ := shared
  have kept : (w.opened store).Keeps (inside store executor body (w, statuses)).2.1 :=
    preserves_keeps _ store (body w.sessions.length) _ (World.Keeps.refl _)
  have known := kept.known_opened
  rcases run : inside store executor body (w, statuses) with ⟨failure | a, v, after⟩ <;>
    rw [run] at kept known
  · have result : execute store executor body (w, statuses) = _ :=
      executeBy_of_error connected run kept
    rw [result]
    refine ⟨nofun, fun f eq => ?_, World.session_setSession_self _ known⟩
    obtain rfl := Except.error.inj eq
    exact ⟨rfl, World.contents_setContents_self store _ v, assign_self _ _ _⟩
  · have result : execute store executor body (w, statuses) = _ :=
      executeBy_of_ok connected run kept
    rw [result]
    refine ⟨fun b eq => ?_, nofun, World.session_setSession_self _ known⟩
    obtain rfl := Except.ok.inj eq
    exact ⟨rfl, rfl, assign_self _ _ _⟩

/-- Registers a user and says so in a log, after a transaction by the same executor that is taken
back. The failure of that transaction is passed over; if the mail is taken, the failure escapes. -/
def register (mail : String) (id : SessionId) : Program String :=
  .transaction 0
    (fun inner => .request (.write .clearAll (some inner)) fun _ => .fail (.outside "no"))
    fun (_ : Except Failure Unit) =>
      .request (.write (.insert "log" (.doc [("mail", .str mail)])) (some id)) fun _ =>
        .request (.insert { name := "users" } (.doc [("mail", .str mail)]) (.list [.str "mail"])
          (some id)) fun
        | .error failure => .fail failure
        | .ok key => .finish key.text

def unregistered : Shared World := (World.empty true, fun _ => {})

def registered : Shared World := (execute "main" 0 (register "a@x") unregistered).2

theorem execute_all_or_nothing_register :
    ((unregistered.1.stores "main").connected = true ∧
      (registered.1.stores "main").connected = true) ∧
    (∃ key, (inside "main" 0 (register "a@x") unregistered).1 = .ok key ∧
      (execute "main" 0 (register "a@x") unregistered).1 = .ok key ∧
      (execute "main" 0 (register "a@x") unregistered).2.2 0 =
        { phase := .sessionClosed, outcome := some .committed } ∧
      ((registered.1.contents "main").documents "log").length = 1) ∧
    ∃ failure, (inside "main" 0 (register "a@x") registered).1 = .error failure ∧
      (execute "main" 0 (register "a@x") registered).1 = .error (.transaction .body failure) ∧
      (execute "main" 0 (register "a@x") registered).2.1.contents "main" =
        registered.1.contents "main" ∧
      (((inside "main" 0 (register "a@x") registered).2.1.contents "main").documents
        "log").length = 2 := by
  have connected : (unregistered.1.stores "main").connected = true := rfl
  have connected' : (registered.1.stores "main").connected = true := by decide +kernel
  have finishes : (inside "main" 0 (register "a@x") unregistered).1.isOk = true := by
    decide +kernel
  have fails : (inside "main" 0 (register "a@x") registered).1.isOk = false := by decide +kernel
  obtain ⟨committed, -, -⟩ := execute_all_or_nothing 0 (register "a@x") unregistered connected
  obtain ⟨-, aborted, -⟩ := execute_all_or_nothing 0 (register "a@x") registered connected'
  obtain ⟨key, finished⟩ := Except.exists_ok finishes
  obtain ⟨failure, failed⟩ := Except.exists_error fails
  obtain ⟨returned, -, status⟩ := committed key finished
  obtain ⟨raised, restored, -⟩ := aborted failure failed
  exact ⟨⟨connected, connected'⟩, ⟨key, finished, returned, status, by decide +kernel⟩,
    failure, failed, raised, restored, by decide +kernel⟩

end Program

end Docbase.Memory
