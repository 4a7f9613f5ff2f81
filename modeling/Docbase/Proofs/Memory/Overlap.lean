import Docbase.Proofs.Memory.Contents
import Docbase.Proofs.Memory.Run

/-!
# Overlapping transactions

Two sessions of one store, each with one transaction in which it inserts documents, take their
steps in any order. What one of them inserted and took back is gone, with one exception: the other
one started its transaction while the document was there, and is taken back later. Its snapshot
brings the document back.

* `World.session_replay_of_open` and `World.snapshot_origin`: which snapshot a session holds.
* `World.holds_replay_iff_of_takesBack` says when a document that was taken back is there at the
  end.
-/

namespace Docbase.Memory

/-! ## Documents under a key -/

def Contents.holds (name : String) (key : Value) (c : Contents) : Bool :=
  (c.collection name).hasKey key

def takesKey (key : Value) (number : Nat) : Value → Bool
  | .doc d => Value.same (Collection.recordOf (.str (Contents.generatedKey number)) d).1 key
  | _ => false

namespace Write

def isInsert : Write → Bool
  | insert _ _ | insertAll _ _ _ => true
  | _ => false

/-- Whether none of the documents that are inserted into a collection is to be stored under a key,
with a number for the first key that is generated. -/
def avoids (name : String) (key : Value) (number : Nat) : Write → Bool
  | insert collection document => collection != name || !takesKey key number document
  | insertAll collection documents _ =>
    collection != name || documents.zipIdx.all fun (d, i) => !takesKey key (number + i) d
  | _ => true

end Write

namespace Contents
open Docbase.Action (Preserves)

variable {name : String} {key : Value}

theorem preserves_insertKeyed_absent {collection : String} {document : Value} {number : Nat}
    (avoided : collection ≠ name ∨ takesKey key number document = false) :
    Preserves (fun c => c.holds name key = false) (insertKeyed collection number document) := by
  cases document with
  | doc d =>
    refine preserves_change fun contents k c before run => ?_
    obtain ⟨-, -, -, rfl, rfl⟩ := Collection.insert_eq_ok.1 run
    by_cases same : name = collection
    · subst same
      have apart := avoided.resolve_left (absurd rfl)
      show Collection.hasKey key (collection name (put name _ contents)) = false
      rw [takesKey] at apart
      rw [collection_put_self, Collection.hasKey, List.any_append, List.any_cons, apart]
      simpa [holds, Collection.hasKey] using before
    · show Collection.hasKey key (Contents.collection name (put collection _ contents)) = false
      rw [collection_put_of_ne same]
      exact before
  | _ => exact Action.preserves_throw _

end Contents

theorem Write.preserves_absent {name : String} {key : Value} {number : Nat} {op : Write}
    (inserts : op.isInsert = true) (avoided : op.avoids name key number = true) :
    Action.Preserves (fun c => c.holds name key = false) (op.change number) := by
  cases op with
  | insert collection document =>
    have other : collection ≠ name ∨ takesKey key number document = false := by
      simpa [avoids] using avoided
    exact ((Contents.preserves_insertKeyed_absent other).bind fun _ =>
      Action.preserves_pure _).map _
  | insertAll collection documents ordered =>
    have others : ∀ x ∈ documents.zipIdx, collection ≠ name ∨
        takesKey key (number + x.2) x.1 = false := by
      intro x mem
      simp only [avoids, Bool.or_eq_true, bne_iff_ne, List.all_eq_true, Bool.not_eq_true'] at avoided
      exact avoided.imp_right fun all => all x mem
    refine (Contents.preserves_insertAll ordered fun x mem => ?_).map _
    exact Contents.preserves_insertKeyed_absent (others x mem)
  | _ => cases inserts

/-! ## Who takes a step -/

namespace Event

def actor : Event → Option SessionId
  | write _ _ caller => caller
  | call id _ => some id
  | _ => none

theorem calls_of_actor_ne {id : SessionId} {e : Event} (other : e.actor ≠ some id) :
    e.calls id = false := by
  cases e with
  | call i c => simpa [calls, actor] using other
  | _ => rfl

/-- Calls of one session, and inserts into its store that do not bring a document under a key. -/
def Spares (store : String) (id : SessionId) (name : String) (key : Value) (w : World) :
    Event → Prop
  | write s op _ => s = store ∧ op.isInsert = true ∧ op.avoids name key w.generated = true
  | call i _ => i = id
  | _ => False

end Event

/-! ## Interleaved scripts -/

variable {store name : String} {id : SessionId} {key : Value} {e : Event} {events : List Event}

/-- A session starts a transaction, inserts documents into its store, and ends the transaction. -/
def IsScript (store : String) (id : SessionId) (steps : List Event) : Prop :=
  ∃ (ops : List Write) (ending : SessionCall), (∀ op ∈ ops, op.isInsert = true) ∧
    ending ≠ .startTransaction ∧
      steps = .call id .startTransaction :: ops.map (.write store · (some id)) ++ [.call id ending]

def stepsOf (id : SessionId) (events : List Event) : List Event :=
  events.filter fun e => e.actor == some id

/-- Two sessions take the steps of their scripts in any order. -/
structure Interleaved (store : String) (a b : SessionId) (events : List Event) : Prop where
  actors : ∀ e ∈ events, e.actor = some a ∨ e.actor = some b
  left : IsScript store a (stepsOf a events)
  right : IsScript store b (stepsOf b events)

theorem stepsOf_append (id : SessionId) (events rest : List Event) :
    stepsOf id (events ++ rest) = stepsOf id events ++ stepsOf id rest := List.filter_append ..

theorem stepsOf_call (id : SessionId) (c : SessionCall) (rest : List Event) :
    stepsOf id (.call id c :: rest) = .call id c :: stepsOf id rest := by
  simp [stepsOf, Event.actor]

theorem stepsOf_eq_nil_iff : stepsOf id events = [] ↔ ∀ e ∈ events, e.actor ≠ some id := by
  simp [stepsOf]

theorem mem_stepsOf : e ∈ stepsOf id events ↔ e ∈ events ∧ e.actor = some id := by
  simp [stepsOf]

theorem IsScript.split {before after : List Event} {c : SessionCall}
    (script : IsScript store id (stepsOf id (before ++ .call id c :: after)))
    (ends : c ≠ .startTransaction) :
    stepsOf id after = [] ∧ ∃ ops : List Write, stepsOf id before =
      .call id .startTransaction :: ops.map (.write store · (some id)) := by
  obtain ⟨ops, ending, -, -, steps⟩ := script
  rw [stepsOf_append, stepsOf_call] at steps
  rcases List.eq_nil_or_concat (stepsOf id after) with none | ⟨init, last, some⟩
  · rw [none] at steps
    exact ⟨none, ops, (List.append_inj' steps rfl).1⟩
  · rw [some, List.concat_eq_append, ← List.cons_append, ← List.append_assoc] at steps
    have front := (List.append_inj' steps rfl).1
    have mem : Event.call id c ∈ stepsOf id before ++ Event.call id c :: init := by simp
    rw [front] at mem
    simp [ends] at mem

theorem steps_of_start {before during : List Event} {ops : List Write}
    (steps : stepsOf id (before ++ .call id .startTransaction :: during) =
      .call id .startTransaction :: ops.map (.write store · (some id))) :
    stepsOf id before = [] ∧ ∀ e ∈ during, e.calls id = false := by
  rw [stepsOf_append, stepsOf_call] at steps
  cases first : stepsOf id before with
  | nil =>
    rw [first, List.nil_append] at steps
    obtain ⟨-, writes⟩ := List.cons.inj steps
    refine ⟨rfl, fun e mem => ?_⟩
    by_cases own : e.actor = some id
    · have listed : e ∈ stepsOf id during := mem_stepsOf.2 ⟨mem, own⟩
      rw [writes] at listed
      obtain ⟨op, -, rfl⟩ := List.mem_map.1 listed
      rfl
    · exact Event.calls_of_actor_ne own
  | cons e rest =>
    rw [first, List.cons_append] at steps
    obtain ⟨-, writes⟩ := List.cons.inj steps
    have mem : Event.call id .startTransaction ∈ ops.map (Event.write store · (some id)) := by
      rw [← writes]
      simp
    simp at mem

theorem quiet_of_steps (none : stepsOf id events = []) : ∀ e ∈ events, e.calls id = false :=
  fun e mem => Event.calls_of_actor_ne (stepsOf_eq_nil_iff.1 none e mem)

theorem IsScript.spares {w : World} (script : IsScript store id (stepsOf id events))
    (avoided : ∀ op, e = .write store op (some id) → op.avoids name key w.generated = true)
    (mem : e ∈ events) (own : e.actor = some id) : e.Spares store id name key w := by
  obtain ⟨ops, ending, inserts, -, steps⟩ := script
  have listed : e ∈ stepsOf id events := mem_stepsOf.2 ⟨mem, own⟩
  rw [steps] at listed
  rcases List.mem_append.1 listed with listed | listed
  · rcases List.mem_cons.1 listed with rfl | listed
    · exact rfl
    · obtain ⟨op, member, rfl⟩ := List.mem_map.1 listed
      exact ⟨rfl, inserts op member, avoided op rfl⟩
  · obtain rfl := List.mem_singleton.1 listed
    exact rfl

/-! ## Snapshots along a run -/

namespace World

variable {w : World}

structure Ready (store : String) (id : SessionId) (w : World) : Prop where
  known : id < w.sessions.length
  session : w.session id = { home := store }

/-- The session of a transaction in progress holds what its store had when it started. -/
theorem session_replay_of_open (ready : w.Ready store id) {before during : List Event}
    (quiet : ∀ e ∈ before, e.calls id = false) (working : ∀ e ∈ during, e.calls id = false) :
    (w.replay (before ++ .call id .startTransaction :: during)).session id =
      { home := store, snapshot := some ((w.replay before).contents store) } := by
  have known : id < (w.replay before).sessions.length :=
    known_replay ready.known before
  have session : (w.replay before).session id = { home := store } := by
    rw [session_replay ready.known quiet, ready.session]
  have started : (Event.after (w.replay before) (.call id .startTransaction)).session id =
      { home := store, snapshot := some ((w.replay before).contents store) } := by
    have accepted : SessionCall.startTransaction.accepted { home := store } = true := rfl
    rw [Event.after, SessionCall.perform_snd, session, if_pos accepted, SessionCall.effect, session,
      session_setSession_self _ known]
  have known' := known_after known (.call id .startTransaction)
  rw [replay_append, replay_cons, session_replay known' working, started]

theorem snapshot_perform (known : id < w.sessions.length) (c : SessionCall) {kept : Contents}
    (held : ((c.perform id w).2.session id).snapshot = some kept) :
    (w.session id).snapshot = some kept ∨
      c = .startTransaction ∧ w.contents (w.session id).home = kept := by
  rw [SessionCall.perform_snd] at held
  split at held
  · cases c with
    | startTransaction =>
      rw [SessionCall.effect, session_setSession_self _ known] at held
      exact .inr ⟨rfl, Option.some.inj held⟩
    | commitTransaction =>
      rw [SessionCall.effect, session_setSession_self _ known] at held
      cases held
    | abortTransaction =>
      rw [SessionCall.effect, session_rollback_self known] at held
      cases held
    | finish =>
      have known' : id < (w.rollback id).sessions.length := by rwa [length_rollback]
      rw [SessionCall.effect, session_setSession_self _ known', session_rollback_self known] at held
      cases held
  · exact .inl held

theorem snapshot_after (known : id < w.sessions.length) {kept : Contents}
    (held : ((e.after w).session id).snapshot = some kept) :
    (w.session id).snapshot = some kept ∨
      e = .call id .startTransaction ∧ w.contents (w.session id).home = kept := by
  cases quiet : e.calls id with
  | false => exact .inl (session_after known quiet ▸ held)
  | true =>
    obtain ⟨c, rfl⟩ := Event.exists_call quiet
    exact (snapshot_perform known c held).imp_right fun ⟨start, taken⟩ => ⟨start ▸ rfl, taken⟩

/-- A snapshot was there before the run or was taken in it. -/
theorem snapshot_origin (known : id < w.sessions.length) (home : (w.session id).home = store)
    {kept : Contents} (held : ((w.replay events).session id).snapshot = some kept) :
    (w.session id).snapshot = some kept ∨ ∃ before during,
      events = before ++ .call id .startTransaction :: during ∧
        (w.replay before).contents store = kept := by
  induction events generalizing w with
  | nil => exact .inl held
  | cons e rest ih =>
    have known' := known_after known e
    have home' := (home_after known e).trans home
    rcases ih known' home' held with held | ⟨before, during, rfl, taken⟩
    · rcases snapshot_after known held with held | ⟨rfl, taken⟩
      · exact .inl held
      · exact .inr ⟨[], rest, rfl, home ▸ taken⟩
    · exact .inr ⟨e :: before, during, rfl, taken⟩

/-! ## Absent documents -/

structure Clear (store : String) (id : SessionId) (name : String) (key : Value) (w : World) :
    Prop where
  known : id < w.sessions.length
  home : (w.session id).home = store
  contents : (w.contents store).holds name key = false
  snapshot : ∀ c, (w.session id).snapshot = some c → c.holds name key = false

theorem contents_perform (home : (w.session id).home = store) (c : SessionCall) :
    (c.perform id w).2.contents store = w.contents store ∨
      c.takesBack = true ∧ (w.session id).snapshot = some ((c.perform id w).2.contents store) := by
  rw [SessionCall.perform_snd]
  split
  · cases c with
    | startTransaction => exact .inl rfl
    | commitTransaction => exact .inl rfl
    | abortTransaction =>
      rw [SessionCall.effect, contents_rollback home]
      cases (w.session id).snapshot with
      | none => exact .inl rfl
      | some kept => exact .inr ⟨rfl, rfl⟩
    | finish =>
      rw [SessionCall.effect, contents_setSession, contents_rollback home]
      cases (w.session id).snapshot with
      | none => exact .inl rfl
      | some kept => exact .inr ⟨rfl, rfl⟩
  · exact .inl rfl

theorem contents_perform_of_takesBack {c : SessionCall} {kept : Contents}
    (held : w.session id = { home := store, snapshot := some kept }) (back : c.takesBack = true) :
    (c.perform id w).2.contents store = kept := by
  have home : (w.session id).home = store := congrArg Session.home held
  have rolled : (w.rollback id).contents store = kept := by
    rw [contents_rollback home, held]
    rfl
  rw [SessionCall.perform_snd, held]
  cases c with
  | abortTransaction => exact rolled
  | finish => exact rolled
  | startTransaction => cases back
  | commitTransaction => cases back

theorem absent_after_write {op : Write} (absent : (w.contents store).holds name key = false)
    (inserts : op.isInsert = true) (avoided : op.avoids name key w.generated = true)
    (caller : Option SessionId) :
    ((Event.after w (.write store op caller)).contents store).holds name key = false := by
  have changed := Write.preserves_absent inserts avoided _ absent
  rw [Event.after, Write.perform_apply]
  split
  · exact absent
  · show ((w.setContents store _).contents store).holds name key = false
    rw [contents_setContents_self]
    exact changed

theorem Clear.after (h : w.Clear store id name key) (spares : e.Spares store id name key w) :
    (e.after w).Clear store id name key := by
  have known := known_after h.known e
  have home := (home_after h.known e).trans h.home
  cases e with
  | write s op caller =>
    obtain ⟨rfl, inserts, avoided⟩ := spares
    refine ⟨known, home, absent_after_write h.contents inserts avoided caller, ?_⟩
    rw [Event.after, Write.session_perform]
    exact h.snapshot
  | call i c =>
    obtain rfl : i = id := spares
    refine ⟨known, home, ?_, fun kept held => ?_⟩
    · rcases contents_perform h.home c with same | ⟨-, held⟩
      · rw [Event.after, same]
        exact h.contents
      · exact h.snapshot _ held
    · rcases snapshot_perform h.known c held with held | ⟨-, taken⟩
      · exact h.snapshot kept held
      · rw [← taken, h.home]
        exact h.contents
  | connect s => exact spares.elim
  | disconnect s => exact spares.elim
  | startSession s => exact spares.elim

def Spared (store : String) (id : SessionId) (name : String) (key : Value) (w : World)
    (events : List Event) : Prop :=
  ∀ p e q, events = p ++ e :: q → e.Spares store id name key (w.replay p)

theorem Spared.cons (h : w.Spared store id name key (e :: events)) :
    e.Spares store id name key w ∧ (e.after w).Spared store id name key events :=
  ⟨h [] e events rfl, fun p e' q split => h (e :: p) e' q (split ▸ rfl)⟩

theorem Clear.replay (h : w.Clear store id name key) (spared : w.Spared store id name key events) :
    (w.replay events).Clear store id name key := by
  induction events generalizing w with
  | nil => exact h
  | cons e rest ih =>
    obtain ⟨here, there⟩ := spared.cons
    exact ih (h.after here) there

theorem exists_takesBack_of_holds (known : id < w.sessions.length)
    (home : (w.session id).home = store) (absent : (w.contents store).holds name key = false)
    (spared : w.Spared store id name key events)
    (present : ((w.replay events).contents store).holds name key = true) :
    ∃ c : SessionCall, c.takesBack = true ∧ .call id c ∈ events := by
  induction events generalizing w with
  | nil =>
    rw [replay_nil, absent] at present
    cases present
  | cons e rest ih =>
    obtain ⟨here, there⟩ := spared.cons
    have known' := known_after known e
    have home' := (home_after known e).trans home
    cases now : ((e.after w).contents store).holds name key with
    | false =>
      obtain ⟨c, back, mem⟩ := ih known' home' now there present
      exact ⟨c, back, List.mem_cons_of_mem _ mem⟩
    | true =>
      cases e with
      | write s op caller =>
        obtain ⟨rfl, inserts, avoided⟩ := here
        rw [absent_after_write absent inserts avoided caller] at now
        cases now
      | call i c =>
        obtain rfl : i = id := here
        rcases contents_perform home c with same | ⟨back, -⟩
        · rw [Event.after, same, absent] at now
          cases now
        · exact ⟨c, back, List.mem_cons_self⟩
      | connect s => exact here.elim
      | disconnect s => exact here.elim
      | startSession s => exact here.elim

/-! ## What is taken back -/

/-- The writes of a session to a store do not write to a key. -/
def Avoided (store : String) (id : SessionId) (name : String) (key : Value) (w : World)
    (events : List Event) : Prop :=
  ∀ p op q, events = p ++ .write store op (some id) :: q →
    op.avoids name key (w.replay p).generated = true

variable {a b : SessionId}

theorem spared_of_interleaved {before part after : List Event}
    (interleaved : Interleaved store a b (before ++ part ++ after))
    (avoided : w.Avoided store b name key (before ++ part ++ after))
    (none : stepsOf a part = []) : (w.replay before).Spared store b name key part := by
  rintro p e q rfl
  have member : e ∈ before ++ (p ++ e :: q) ++ after := by simp
  have other : e.actor ≠ some a := stepsOf_eq_nil_iff.1 none e (by simp)
  refine interleaved.right.spares ?_ member ((interleaved.actors e member).resolve_left other)
  rintro op rfl
  rw [← replay_append]
  exact avoided (before ++ p) op (q ++ after) (by simp)

theorem ends_of_takesBack {c : SessionCall} (back : c.takesBack = true) :
    c ≠ .startTransaction := by
  rintro rfl
  cases back

/-- What a session inserted and took back was not there when its transaction started, so that it is
gone when the transaction has been taken back. -/
theorem absent_after_takesBack (readyA : w.Ready store a) (readyB : w.Ready store b)
    {before after : List Event} {c : SessionCall} (back : c.takesBack = true)
    (interleaved : Interleaved store a b (before ++ .call a c :: after))
    (absent : (w.contents store).holds name key = false)
    (avoided : w.Avoided store b name key (before ++ .call a c :: after)) :
    ((w.replay (before ++ [.call a c])).contents store).holds name key = false := by
  have ends := ends_of_takesBack back
  obtain ⟨-, ops, steps⟩ := interleaved.left.split ends
  have started : Event.call a .startTransaction ∈ stepsOf a before := by
    rw [steps]
    exact List.mem_cons_self
  obtain ⟨p, m, rfl⟩ := List.append_of_mem (mem_stepsOf.1 started).1
  obtain ⟨none, working⟩ := steps_of_start steps
  have clear : w.Clear store b name key := by
    refine ⟨readyB.known, by rw [readyB.session], absent, fun kept held => ?_⟩
    rw [readyB.session] at held
    cases held
  have spared : w.Spared store b name key p := by
    have split : p ++ .call a .startTransaction :: m ++ .call a c :: after =
        [] ++ p ++ (.call a .startTransaction :: m ++ .call a c :: after) := by simp
    rw [split] at interleaved avoided
    have spared := spared_of_interleaved interleaved avoided none
    rwa [replay_nil] at spared
  have held := session_replay_of_open readyA (quiet_of_steps none) working
  rw [replay_append, replay_cons, replay_nil, Event.after,
    contents_perform_of_takesBack held back]
  exact (clear.replay spared).contents

theorem exists_start_of_holds (readyA : w.Ready store a) (readyB : w.Ready store b)
    {before after : List Event} {c : SessionCall} (back : c.takesBack = true)
    (interleaved : Interleaved store a b (before ++ .call a c :: after))
    (absent : (w.contents store).holds name key = false)
    (avoided : w.Avoided store b name key (before ++ .call a c :: after))
    (present : ((w.replay (before ++ .call a c :: after)).contents store).holds name key = true) :
    (∃ p q, before = p ++ .call b .startTransaction :: q ∧
      ((w.replay p).contents store).holds name key = true) ∧
    ∃ r s d, after = r ++ .call b d :: s ∧ d.takesBack = true := by
  have ends := ends_of_takesBack back
  obtain ⟨none, -⟩ := interleaved.left.split ends
  have gone := absent_after_takesBack readyA readyB back interleaved absent avoided
  have spared : (w.replay (before ++ [.call a c])).Spared store b name key after := by
    have split : before ++ .call a c :: after = before ++ [.call a c] ++ after ++ [] := by simp
    rw [split] at interleaved avoided
    exact spared_of_interleaved interleaved avoided none
  have homeB : (w.session b).home = store := by rw [readyB.session]
  have known := known_replay readyB.known (before ++ [.call a c])
  have home : ((w.replay (before ++ [.call a c])).session b).home = store := by
    rw [home_replay readyB.known, homeB]
  rw [List.append_cons, replay_append] at present
  refine ⟨?_, ?_⟩
  · by_cases held : ∃ kept, ((w.replay (before ++ [.call a c])).session b).snapshot = some kept ∧
        kept.holds name key = true
    · obtain ⟨kept, held, has⟩ := held
      rw [replay_append, replay_cons, replay_nil] at held
      have known' := known_replay readyB.known before
      rcases snapshot_after known' held with held | ⟨start, -⟩
      · rcases snapshot_origin readyB.known homeB held with held | ⟨p, q, split, taken⟩
        · rw [readyB.session] at held
          cases held
        · exact ⟨p, q, split, taken ▸ has⟩
      · exact absurd (Event.call.inj start).2 ends
    · have clear : (w.replay (before ++ [.call a c])).Clear store b name key := by
        refine ⟨known, home, gone, fun kept kept_held => ?_⟩
        exact Bool.eq_false_iff.2 fun has => held ⟨kept, kept_held, has⟩
      rw [(clear.replay spared).contents] at present
      cases present
  · obtain ⟨d, back, mem⟩ := exists_takesBack_of_holds known home gone spared present
    obtain ⟨r, s, split⟩ := List.append_of_mem mem
    exact ⟨r, s, d, split, back⟩

/-- A session that started its transaction while a document was there, and takes it back as the last
step of all, brings the document back. -/
theorem holds_replay_of_takesBack (readyB : w.Ready store b) {before during after : List Event}
    {d : SessionCall} (back : d.takesBack = true)
    (script : IsScript store b
      (stepsOf b (before ++ .call b .startTransaction :: during ++ .call b d :: after)))
    (present : ((w.replay before).contents store).holds name key = true) :
    ((w.replay (before ++ .call b .startTransaction :: during ++ [.call b d])).contents
      store).holds name key = true := by
  have ends := ends_of_takesBack back
  obtain ⟨-, ops, steps⟩ := script.split ends
  obtain ⟨none, working⟩ := steps_of_start steps
  have held := session_replay_of_open readyB (quiet_of_steps none) working
  rw [replay_append, replay_cons, replay_nil, Event.after,
    contents_perform_of_takesBack held back]
  exact present

/-- A document that a session inserted in a transaction that was taken back is there at the end
exactly if the other session started its transaction while it was there, and took it back later. -/
theorem holds_replay_iff_of_takesBack (readyA : w.Ready store a) (readyB : w.Ready store b)
    (interleaved : Interleaved store a b events) {c : SessionCall} (back : c.takesBack = true)
    (taken : .call a c ∈ events) (absent : (w.contents store).holds name key = false)
    (avoided : w.Avoided store b name key events) :
    ((w.replay events).contents store).holds name key = true ↔
      ∃ p q r s d, events =
          p ++ .call b .startTransaction :: q ++ .call a c :: r ++ .call b d :: s ∧
        d.takesBack = true ∧ ((w.replay p).contents store).holds name key = true := by
  constructor
  · intro present
    obtain ⟨before, after, rfl⟩ := List.append_of_mem taken
    obtain ⟨⟨p, q, rfl, has⟩, r, s, d, rfl, back'⟩ :=
      exists_start_of_holds readyA readyB back interleaved absent avoided present
    exact ⟨p, q, r, s, d, by simp, back', has⟩
  · rintro ⟨p, q, r, s, d, rfl, back', has⟩
    have left : p ++ .call b .startTransaction :: q ++ .call a c :: r ++ .call b d :: s =
        (p ++ .call b .startTransaction :: q) ++ .call a c :: (r ++ .call b d :: s) := by simp
    have right : p ++ .call b .startTransaction :: q ++ .call a c :: r ++ .call b d :: s =
        p ++ .call b .startTransaction :: (q ++ .call a c :: r) ++ .call b d :: s := by simp
    have noneA : stepsOf a (r ++ .call b d :: s) = [] :=
      ((left ▸ interleaved.left : IsScript store a (stepsOf a _)).split (ends_of_takesBack back)).1
    have script : IsScript store b (stepsOf b _) := right ▸ interleaved.right
    have noneB : stepsOf b s = [] := (script.split (ends_of_takesBack back')).1
    have last : s = [] := by
      refine List.eq_nil_iff_forall_not_mem.2 fun e mem => ?_
      have member : e ∈ p ++ .call b .startTransaction :: q ++ .call a c :: r ++ .call b d :: s := by
        simp [mem]
      rcases interleaved.actors e member with own | own
      · exact stepsOf_eq_nil_iff.1 noneA e (by simp [mem]) own
      · exact stepsOf_eq_nil_iff.1 noneB e mem own
    subst last
    rw [right]
    exact holds_replay_of_takesBack readyB back' script has

/-- The second session brings back the note that the first one has taken back. -/
def revived : List Event :=
  [.call 0 .startTransaction,
    .write "main" (.insert "notes" (.doc [("_id", .str "n1")])) (some 0),
    .call 1 .startTransaction,
    .call 0 .abortTransaction,
    .call 1 .abortTransaction]

theorem holds_replay_revived :
    let w := (empty true).replay [.startSession "main", .startSession "main"]
    (w.Ready "main" 0 ∧ w.Ready "main" 1 ∧ Interleaved "main" 0 1 revived ∧
      .call 0 .abortTransaction ∈ revived ∧ w.Avoided "main" 1 "notes" (.str "n1") revived ∧
      (w.contents "main").holds "notes" (.str "n1") = false) ∧
    ((w.replay revived).contents "main").holds "notes" (.str "n1") = true := by
  intro w
  have readyA : w.Ready "main" 0 := ⟨by decide, rfl⟩
  have readyB : w.Ready "main" 1 := ⟨by decide, rfl⟩
  have interleaved : Interleaved "main" 0 1 revived := by
    refine ⟨by simp [revived, Event.actor], ?_, ?_⟩
    · exact ⟨[.insert "notes" (.doc [("_id", .str "n1")])], .abortTransaction, by simp [Write.isInsert],
        by decide, rfl⟩
    · exact ⟨[], .abortTransaction, by simp, by decide, rfl⟩
  have avoided : w.Avoided "main" 1 "notes" (.str "n1") revived := by
    intro p op q split
    have mem : Event.write "main" op (some 1) ∈ revived := by simp [split]
    simp [revived] at mem
  exact ⟨⟨readyA, readyB, interleaved, by simp [revived], avoided, by decide +kernel⟩,
    by decide +kernel⟩

/-- The second session starts between two notes of the first one, and outlasts it. -/
def outlasting : List Event :=
  let note (id : String) (caller : SessionId) : Event :=
    .write "main" (.insert "notes" (.doc [("_id", .str id)])) (some caller)
  [.call 0 .startTransaction, note "n1" 0, .call 1 .startTransaction, note "n2" 0, note "n3" 1,
    .call 0 .finish, note "n4" 1, .call 1 .abortTransaction]

theorem holds_replay_iff_of_takesBack_outlasting :
    let w := (empty true).replay [.startSession "main", .startSession "main"]
    (w.Ready "main" 0 ∧ w.Ready "main" 1 ∧ Interleaved "main" 0 1 outlasting ∧
      SessionCall.finish.takesBack = true ∧ .call 0 .finish ∈ outlasting ∧
      (w.contents "main").holds "notes" (.str "n1") = false ∧
      w.Avoided "main" 1 "notes" (.str "n1") outlasting) ∧
    (((w.replay outlasting).contents "main").holds "notes" (.str "n1") = true ∧
      ((w.replay outlasting).contents "main").holds "notes" (.str "n2") = false) ∧
    (((w.replay outlasting).contents "main").holds "notes" (.str "n1") = true ↔
      ∃ p q r s d, outlasting =
          p ++ .call 1 .startTransaction :: q ++ .call 0 .finish :: r ++ .call 1 d :: s ∧
        d.takesBack = true ∧ ((w.replay p).contents "main").holds "notes" (.str "n1") = true) := by
  intro w
  have readyA : w.Ready "main" 0 := ⟨by decide, rfl⟩
  have readyB : w.Ready "main" 1 := ⟨by decide, rfl⟩
  have interleaved : Interleaved "main" 0 1 outlasting := by
    refine ⟨by simp [outlasting, Event.actor], ?_, ?_⟩
    · exact ⟨[.insert "notes" (.doc [("_id", .str "n1")]), .insert "notes" (.doc [("_id", .str "n2")])],
        .finish, by simp [Write.isInsert], by decide, rfl⟩
    · exact ⟨[.insert "notes" (.doc [("_id", .str "n3")]), .insert "notes" (.doc [("_id", .str "n4")])],
        .abortTransaction, by simp [Write.isInsert], by decide, rfl⟩
  have taken : .call 0 .finish ∈ outlasting := by simp [outlasting]
  have absent : (w.contents "main").holds "notes" (.str "n1") = false := by decide +kernel
  have avoided : w.Avoided "main" 1 "notes" (.str "n1") outlasting := by
    intro p op q split
    have mem : Event.write "main" op (some 1) ∈ outlasting := by simp [split]
    have notes : op = .insert "notes" (.doc [("_id", .str "n3")]) ∨
        op = .insert "notes" (.doc [("_id", .str "n4")]) := by
      simpa [outlasting] using mem
    rcases notes with rfl | rfl <;> rfl
  exact ⟨⟨readyA, readyB, interleaved, rfl, taken, absent, avoided⟩,
    ⟨by decide +kernel, by decide +kernel⟩,
    holds_replay_iff_of_takesBack readyA readyB interleaved rfl taken absent avoided⟩

end World

end Docbase.Memory
