import Docbase.Proofs.Fields
import Docbase.Proofs.Memory.Run

/-!
# Rolled back transactions

An aborted transaction of a session leaves nothing behind in the contents of its store: a run leads
to the contents that it would have led to without the writes made while such a transaction was in
progress. The run without them goes through worlds that have the same sessions, with the same
snapshots, as the worlds of the run itself.

* `World.withoutRolledBack` takes these writes out of a run.
* `World.contents_replay_withoutRolledBack` is the theorem.
-/

namespace Docbase.Memory

/-! ## Documents with keys of their own -/

/-- Whether a document has a key of its own. Nothing else is ever given a key. -/
def carriesKey : Value → Bool
  | .doc d => Fields.has "_id" d
  | _ => true

def Write.carriesKeys : Write → Bool
  | insert _ document => carriesKey document
  | insertAll _ documents _ => documents.all carriesKey
  | _ => true

theorem Collection.insert_congr_fallback {d : Document} (keyed : Fields.has "_id" d = true)
    (name : String) (fallback fallback' : Value) (c : Collection) :
    c.insert name fallback d = c.insert name fallback' d := by
  obtain ⟨key, found⟩ := Option.isSome_iff_exists.1 keyed
  simp only [insert, found, Option.getD_some]

theorem Contents.insertKeyed_congr_number {document : Value} (keyed : carriesKey document = true)
    (name : String) (m n : Nat) : insertKeyed name m document = insertKeyed name n document := by
  cases document with
  | doc d =>
    exact congrArg (change name)
      (funext fun c => Collection.insert_congr_fallback keyed name _ _ c)
  | _ => rfl

theorem Contents.insertFrom_congr_number {documents : List Value}
    (keyed : ∀ d ∈ documents, carriesKey d = true) (name : String) (m n : Nat) (ordered : Bool)
    (position : Nat) :
    insertFrom name m ordered position documents = insertFrom name n ordered position documents := by
  induction documents generalizing position with
  | nil => rfl
  | cons document rest ih =>
    obtain ⟨here, there⟩ := List.forall_mem_cons.1 keyed
    have first := insertKeyed_congr_number here name (m + position) (n + position)
    have others := ih there (position + 1)
    simp only [insertFrom, first, others]

theorem Write.change_congr_number {op : Write} (keyed : op.carriesKeys = true) (m n : Nat) :
    op.change m = op.change n := by
  cases op with
  | insert collection document =>
    simp only [change, Contents.insert, Contents.insertKeyed_congr_number keyed collection m n]
  | insertAll collection documents ordered =>
    have all : ∀ d ∈ documents, carriesKey d = true := List.all_eq_true.1 keyed
    simp only [change, Contents.insertAll, Contents.insertFrom_congr_number all collection m n]
  | _ => rfl

/-! ## Taking writes out of a run -/

namespace Event

/-- Writes to one store, by whomever, and calls of one session. -/
def Concerns (store : String) (id : SessionId) : Event → Prop
  | write s _ _ => s = store
  | call i _ => i = id
  | _ => False

def carriesKeys : Event → Bool
  | write _ op _ => op.carriesKeys
  | _ => true

def isWrite : Event → Bool
  | write _ _ _ => true
  | _ => false

def takesBack : Event → Bool
  | call _ c => c.takesBack
  | _ => false

end Event

namespace World

def isRolledBack (id : SessionId) (w : World) : List Event → Bool
  | [] => false
  | e :: rest =>
    if ((e.after w).session id).inTransaction then (e.after w).isRolledBack id rest else e.takesBack

/-- Whether a session is in a transaction that will be taken back. -/
def isDoomed (id : SessionId) (w : World) (events : List Event) : Bool :=
  (w.session id).inTransaction && w.isRolledBack id events

/-- A run without the writes made in a transaction of a session that is taken back. -/
def withoutRolledBack (id : SessionId) (w : World) : List Event → List Event
  | [] => []
  | e :: rest =>
    let later := (e.after w).withoutRolledBack id rest
    if e.isWrite && w.isDoomed id (e :: rest) then later else e :: later

variable {id : SessionId} {store : String} {w v : World} {e : Event} {rest : List Event}

theorem isDoomed_of_idle (idle : (w.session id).inTransaction = false) (events : List Event) :
    w.isDoomed id events = false := by
  rw [isDoomed, idle, Bool.false_and]

theorem isDoomed_cons_of_same (same : (e.after w).session id = w.session id) :
    w.isDoomed id (e :: rest) = (e.after w).isDoomed id rest := by
  cases busy : (w.session id).inTransaction with
  | false => rw [isDoomed_of_idle busy, isDoomed_of_idle (same ▸ busy)]
  | true => simp only [isDoomed, isRolledBack, same, busy, Bool.true_and, if_true]

theorem isDoomed_cons_of_kept (idle : ((e.after w).session id).inTransaction = false)
    (kept : e.takesBack = false) : w.isDoomed id (e :: rest) = false := by
  simp only [isDoomed, isRolledBack, idle, kept, Bool.false_eq_true, if_false, Bool.and_false]

/-! ## The run without the writes -/

structure Alike (store : String) (w v : World) : Prop where
  sessions : v.sessions = w.sessions
  connected : (v.stores store).connected = (w.stores store).connected

/-- The world of the run without the writes, as seen from the world of the run itself and what is
still to come. The contents differ while a transaction is in progress that will be taken back. -/
structure Follows (store : String) (id : SessionId) (events : List Event) (w v : World) : Prop
    extends Alike store w v where
  contents : w.isDoomed id events = false → v.contents store = w.contents store

theorem Alike.session (h : Alike store w v) (i : SessionId) : v.session i = w.session i := by
  rw [World.session, World.session, h.sessions]

theorem Alike.refusal (h : Alike store w v) (op : Write) (caller : Option SessionId) :
    op.refusal store caller v = op.refusal store caller w := by
  cases op <;> cases caller <;>
    simp only [Write.refusal, World.refusal, h.session, h.connected]

theorem Alike.setSession (h : Alike store w v) (i : SessionId) (s : Session) :
    Alike store (w.setSession i s) (v.setSession i s) := by
  refine ⟨?_, h.connected⟩
  rw [World.setSession, World.setSession, h.sessions]

theorem Alike.rollback (h : Alike store w v) (i : SessionId) :
    Alike store (w.rollback i) (v.rollback i) := by
  refine ⟨?_, by rw [connected_rollback, connected_rollback, h.connected]⟩
  unfold World.rollback
  rw [h.session]
  split
  · exact h.sessions
  · simp only [World.setSession, sessions_setContents, h.sessions]

theorem Follows.write {op : Write} {caller : Option SessionId}
    (h : Follows store id (.write store op caller :: rest) w v) (keyed : op.carriesKeys = true)
    (kept : w.isDoomed id (.write store op caller :: rest) = false) :
    Follows store id rest (Event.after w (.write store op caller))
      (Event.after v (.write store op caller)) := by
  have contents := h.contents kept
  have numbers := Write.change_congr_number keyed v.generated w.generated
  simp only [Event.after, Write.perform_apply, h.refusal]
  split
  · exact ⟨h.toAlike, fun _ => contents⟩
  · rw [contents, numbers]
    refine ⟨⟨h.sessions, ?_⟩, fun _ => ?_⟩
    · show ((v.setContents store _).stores store).connected = _
      rw [connected_setContents, h.connected]
      exact (connected_setContents store store _ w).symm
    · show (v.setContents store _).contents store = (w.setContents store _).contents store
      rw [contents_setContents_self, contents_setContents_self]

theorem Follows.refused {c : SessionCall} (h : Follows store id (.call id c :: rest) w v)
    (refused : c.accepted (w.session id) = false) :
    Follows store id rest (Event.after w (.call id c)) (Event.after v (.call id c)) := by
  have left : Event.after w (.call id c) = w := by
    rw [Event.after, SessionCall.perform_snd, refused]
    rfl
  have right : Event.after v (.call id c) = v := by
    rw [Event.after, SessionCall.perform_snd, h.session, refused]
    rfl
  have same : w.isDoomed id (.call id c :: rest) = (Event.after w (.call id c)).isDoomed id rest :=
    isDoomed_cons_of_same (congrArg (session id) left)
  rw [left] at same
  rw [left, right]
  exact ⟨h.toAlike, fun kept => h.contents (same.trans kept)⟩

theorem Follows.accepted {c : SessionCall} (h : Follows store id (.call id c :: rest) w v)
    (known : id < w.sessions.length) (home : (w.session id).home = store)
    (accepted : c.accepted (w.session id) = true) :
    Follows store id rest (Event.after w (.call id c)) (Event.after v (.call id c)) := by
  have left : Event.after w (.call id c) = c.effect id w := by
    rw [Event.after, SessionCall.perform_snd, accepted, if_pos rfl]
  have right : Event.after v (.call id c) = c.effect id v := by
    rw [Event.after, SessionCall.perform_snd, h.session, accepted, if_pos rfl]
  have home' : (v.session id).home = store := by rw [h.session, home]
  cases c with
  | startTransaction =>
    have idle : (w.session id).inTransaction = false := by
      simp only [SessionCall.accepted, Bool.and_eq_true, Bool.not_eq_true'] at accepted
      exact accepted.2
    have contents := h.contents (isDoomed_of_idle idle _)
    rw [left, right, SessionCall.effect, SessionCall.effect, h.session, home, contents]
    exact ⟨h.toAlike.setSession id _, fun _ => contents⟩
  | commitTransaction =>
    have idle : ((Event.after w (.call id .commitTransaction)).session id).inTransaction = false := by
      rw [left, SessionCall.effect, session_setSession_self _ known]
      rfl
    have contents := h.contents (isDoomed_cons_of_kept idle rfl)
    rw [left, right, SessionCall.effect, SessionCall.effect, h.session]
    exact ⟨h.toAlike.setSession id _, fun _ => contents⟩
  | abortTransaction =>
    have busy : (w.session id).snapshot.isSome := by
      simp only [SessionCall.accepted, Bool.and_eq_true] at accepted
      exact accepted.2
    obtain ⟨held, found⟩ := Option.isSome_iff_exists.1 busy
    rw [left, right, SessionCall.effect, SessionCall.effect]
    refine ⟨h.toAlike.rollback id, fun _ => ?_⟩
    rw [contents_rollback home, contents_rollback home', h.session, found]
    rfl
  | finish =>
    rw [left, right, SessionCall.effect, SessionCall.effect, (h.toAlike.rollback id).session]
    refine ⟨(h.toAlike.rollback id).setSession id _, fun _ => ?_⟩
    rw [contents_setSession, contents_setSession, contents_rollback home, contents_rollback home',
      h.session]
    cases found : (w.session id).snapshot with
    | none => exact h.contents (isDoomed_of_idle (by rw [Session.inTransaction, found]; rfl) _)
    | some held => rfl

theorem Follows.call {c : SessionCall} (h : Follows store id (.call id c :: rest) w v)
    (known : id < w.sessions.length) (home : (w.session id).home = store) :
    Follows store id rest (Event.after w (.call id c)) (Event.after v (.call id c)) := by
  cases taken : c.accepted (w.session id) with
  | false => exact h.refused taken
  | true => exact h.accepted known home taken

theorem Follows.drop {op : Write} {caller : Option SessionId}
    (h : Follows store id (.write store op caller :: rest) w v)
    (doomed : w.isDoomed id (.write store op caller :: rest) = true) :
    Follows store id rest (Event.after w (.write store op caller)) v := by
  have sessions := op.sessions_perform store caller w
  have same : (Event.after w (.write store op caller)).session id = w.session id :=
    op.session_perform store caller w id
  refine ⟨⟨h.sessions.trans sessions.symm, ?_⟩, fun kept => ?_⟩
  · exact h.connected.trans (op.connected_perform store store caller w).symm
  · rw [isDoomed_cons_of_same same, kept] at doomed
    cases doomed

theorem Follows.contents_replay {events : List Event} (h : Follows store id events w v)
    (known : id < w.sessions.length) (home : (w.session id).home = store)
    (concerned : ∀ e ∈ events, e.Concerns store id)
    (keyed : ∀ e ∈ events, e.carriesKeys = true) :
    (w.replay events).contents store =
      (v.replay (w.withoutRolledBack id events)).contents store := by
  -- Both worlds move on, except that the second one stays where a write is left out.
  induction events generalizing w v with
  | nil => exact (h.contents (Bool.and_false _)).symm
  | cons e rest ih =>
    obtain ⟨here, there⟩ := List.forall_mem_cons.1 concerned
    obtain ⟨keyedHere, keyedThere⟩ := List.forall_mem_cons.1 keyed
    have known' := known_after known e
    have home' := (home_after known e).trans home
    cases e with
    | write s op caller =>
      obtain rfl : s = store := here
      rw [replay_cons, withoutRolledBack, Event.isWrite, Bool.true_and]
      cases doomed : w.isDoomed id (.write s op caller :: rest) with
      | true => exact ih (h.drop doomed) known' home' there keyedThere
      | false => exact ih (h.write keyedHere doomed) known' home' there keyedThere
    | call i c =>
      obtain rfl : i = id := here
      exact ih (h.call known home) known' home' there keyedThere
    | connect s => exact here.elim
    | disconnect s => exact here.elim
    | startSession s => exact here.elim

/-- A run of writes to a store and calls of one of its sessions leads to the contents that it would
have led to without the writes made in transactions that were taken back, by an abort or by the end
of the session. -/
theorem contents_replay_withoutRolledBack (w : World) (known : id < w.sessions.length)
    (home : (w.session id).home = store) {events : List Event}
    (concerned : ∀ e ∈ events, e.Concerns store id)
    (keyed : ∀ e ∈ events, e.carriesKeys = true) :
    (w.replay events).contents store =
      (w.replay (w.withoutRolledBack id events)).contents store := by
  have start : Follows store id events w w := ⟨⟨rfl, rfl⟩, fun _ => rfl⟩
  exact start.contents_replay known home concerned keyed

/-- One note is kept by a commit, one is taken back by an abort together with the clearing of the
store, and one by the end of the session. -/
def notes : List Event :=
  let note (id : String) : Write := .insert "notes" (.doc [("_id", .str id)])
  [.write "main" (note "n1") none,
    .call 0 .startTransaction,
    .write "main" .clearAll none,
    .write "main" (note "n1") (some 0),
    .call 0 .startTransaction,
    .write "main" (note "n1") (some 0),
    .call 0 .abortTransaction,
    .call 0 .startTransaction,
    .write "main" (note "n2") (some 0),
    .call 0 .commitTransaction,
    .call 0 .startTransaction,
    .write "main" (note "n3") (some 0),
    .call 0 .finish,
    .write "main" (note "n4") (some 0)]

theorem contents_replay_withoutRolledBack_notes :
    let w := (empty true).replay [.startSession "main"]
    (0 < w.sessions.length ∧ (w.session 0).home = "main" ∧
      (∀ e ∈ notes, e.Concerns "main" 0) ∧ ∀ e ∈ notes, e.carriesKeys = true) ∧
    (notes.length = 14 ∧ (w.withoutRolledBack 0 notes).length = 10 ∧
      (((w.replay notes).contents "main").collection "notes").records.map (·.1.text) =
        ["n1", "n2"]) ∧
    (w.replay notes).contents "main" =
      (w.replay (w.withoutRolledBack 0 notes)).contents "main" := by
  intro w
  have concerned : ∀ e ∈ notes, e.Concerns "main" 0 := by simp [notes, Event.Concerns]
  have keyed : ∀ e ∈ notes, e.carriesKeys = true := by decide
  have known : 0 < w.sessions.length := by decide
  have home : (w.session 0).home = "main" := by decide
  exact ⟨⟨known, home, concerned, keyed⟩, ⟨by decide, by decide +kernel, by decide +kernel⟩,
    contents_replay_withoutRolledBack w known home concerned keyed⟩

end World
end Docbase.Memory
