import Docbase.Backend
import Docbase.Proofs.Action

/-!
# Recorded calls

A backend that keeps a record answers as the one it stands for, and writes down what it was asked
and what it answered. An action that asks it does the same as before, so the record tells what the
action asked of the backend and in which order.
-/

namespace Docbase

variable {σ ι α β : Type}

inductive Exchange
  | looked (collection : String) (keys : List Value) (answer : Except Failure Value)
  | created (collection : String) (keys : List Value) (answer : Except Failure Unit)
  | wrote (collection : String) (answer : Except Failure Value)
  | read (collection : String) (answer : Except Failure Value)

namespace Action

/-- Performs an action on the state beside a log, and writes an entry about its outcome there. -/
def logging {ν : Type} (entry : Except Failure α → ν) (a : Action σ α) : Action (σ × List ν) α :=
  fun (s, log) =>
    let (outcome, t) := a s
    (outcome, t, log ++ [entry outcome])

theorem logging_of {ν : Type} {entry : Except Failure α → ν} {a : Action σ α} {s t : σ}
    {outcome : Except Failure α} (run : a s = (outcome, t)) (log : List ν) :
    logging entry a (s, log) = (outcome, t, log ++ [entry outcome]) := by
  rw [logging, run]

def noting (note : Except Failure α → Exchange) (a : Action σ α) :
    Action (σ × List Exchange) α := fun (s, record) =>
  let (outcome, t) := a s
  (outcome, t, record ++ [note outcome])

/-- The action beside a record does what the other one does, and a relation holds between its
outcome and what it notes. -/
def Notes (a : Action σ α) (beside : Action (σ × List Exchange) α)
    (Q : Except Failure α → List Exchange → Prop) : Prop :=
  ∀ s, ∃ noted, Q (a s).1 noted ∧
    ∀ record, beside (s, record) = ((a s).1, (a s).2, record ++ noted)

variable {a : Action σ α} {beside : Action (σ × List Exchange) α}
  {P Q : Except Failure α → List Exchange → Prop} {R : Except Failure β → List Exchange → Prop}

theorem notes_of_silent
    (silent : ∀ s record, beside (s, record) = ((a s).1, (a s).2, record))
    (h : ∀ outcome, Q outcome []) : Notes a beside Q := by
  refine fun s => ⟨[], h _, fun record => ?_⟩
  rw [silent, List.append_nil]

theorem notes_lift {result : Except Failure α} (h : Q result []) :
    Notes (lift result : Action σ α) (lift result) Q := by
  refine fun s => ⟨[], h, fun record => ?_⟩
  rw [List.append_nil]
  rfl

theorem notes_pure {x : α} (h : Q (.ok x) []) : Notes (pure x : Action σ α) (pure x) Q :=
  notes_lift h

theorem notes_throw {failure : Failure} (h : Q (.error failure) []) :
    Notes (throw failure : Action σ α) (throw failure) Q :=
  notes_lift h

theorem notes_noting {note : Except Failure α → Exchange}
    (h : ∀ s, Q (a s).1 [note (a s).1]) : Notes a (noting note a) Q :=
  fun s => ⟨_, h s, fun _ => rfl⟩

theorem Notes.mono (h : Notes a beside P)
    (le : ∀ outcome noted, P outcome noted → Q outcome noted) : Notes a beside Q := by
  intro s
  obtain ⟨noted, holds, same⟩ := h s
  exact ⟨noted, le _ _ holds, same⟩

theorem Notes.bind {f : α → Action σ β} {g : α → Action (σ × List Exchange) β}
    (h : Notes a beside P)
    (failed : ∀ failure noted, P (.error failure) noted → R (.error failure) noted)
    (next : ∀ x noted, P (.ok x) noted →
      Notes (f x) (g x) fun outcome more => R outcome (noted ++ more)) :
    Notes (a >>= f) (beside >>= g) R := by
  intro s
  obtain ⟨noted, holds, same⟩ := h s
  simp only [bind_apply, same]
  rcases run : a s with ⟨failure | x, t⟩ <;> rw [run] at holds
  · exact ⟨noted, failed failure noted holds, fun _ => rfl⟩
  · obtain ⟨more, holds, same⟩ := next x noted holds t
    refine ⟨noted ++ more, holds, fun record => ?_⟩
    rw [← List.append_assoc]
    exact same _

theorem Notes.silent_bind {f : α → Action σ β} {g : α → Action (σ × List Exchange) β}
    (silent : Notes a beside fun _ noted => noted = [])
    (failed : ∀ failure, R (.error failure) []) (next : ∀ x, Notes (f x) (g x) R) :
    Notes (a >>= f) (beside >>= g) R := by
  refine silent.bind ?_ ?_
  · rintro failure _ rfl
    exact failed failure
  · rintro x _ rfl
    exact next x

theorem Notes.attempt_bind {f : Except Failure α → Action σ β}
    {g : Except Failure α → Action (σ × List Exchange) β} (h : Notes a beside P)
    (next : ∀ outcome noted, P outcome noted →
      Notes (f outcome) (g outcome) fun outcome more => R outcome (noted ++ more)) :
    Notes (a.attempt >>= f) (beside.attempt >>= g) R := by
  intro s
  obtain ⟨noted, holds, same⟩ := h s
  obtain ⟨more, holds, same'⟩ := next _ noted holds (a s).2
  refine ⟨noted ++ more, holds, fun record => ?_⟩
  rw [bind_apply, attempt_apply, same, ← List.append_assoc]
  exact same' _

end Action

namespace Backend

open Docbase.Action (noting)

def recorded (b : Backend σ ι) : Backend (σ × List Exchange) ι where
  insert collection d session := noting (.wrote collection) (b.insert collection d session)
  insertEach collection ds session :=
    noting (.wrote collection) (b.insertEach collection ds session)
  update collection filter patch session :=
    noting (.wrote collection) (b.update collection filter patch session)
  delete collection filter session :=
    noting (.wrote collection) (b.delete collection filter session)
  count collection session := noting (.read collection) (b.count collection session)
  first collection session := noting (.read collection) (b.first collection session)
  all collection session := noting (.read collection) (b.all collection session)
  aggregate collection stages session :=
    noting (.read collection) (b.aggregate collection stages session)
  hasUnique collection keys := noting (.looked collection keys) (b.hasUnique collection keys)
  createUnique collection keys :=
    noting (.created collection keys) (b.createUnique collection keys)

end Backend
end Docbase
