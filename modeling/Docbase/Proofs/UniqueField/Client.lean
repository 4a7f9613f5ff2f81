import Docbase.Proofs.UniqueField.Ensure

/-!
# Ensuring indexes one call at a time

A client that ensures indexes looks for each of them, creates it if it is not there, and looks once
more if somebody else was faster. Between any two of these calls others may have theirs.
-/

namespace Docbase.UniqueField

variable {σ ι : Type}

/-- Where a client stands: what it will do next and the field sets that come after it. -/
inductive Client
  | looking (names : List String) (rest : List (List String))
  | creating (names : List String) (rest : List (List String))
  | rechecking (names : List String) (reported : Failure) (rest : List (List String))
  | returned
  | raised (failure : Failure)

namespace Client

def start : List (List String) → Client
  | [] => returned
  | names :: rest => looking names rest

def caught (collection : String) (names : List String) (rest : List (List String))
    (failure : Failure) : Client :=
  if failure.kind = .indexExists then rechecking names failure rest
  else raised (missed collection (names.map .str) failure)

def step (b : Backend σ ι) (collection : String) (s : σ) : Client → Client × σ
  | looking names rest =>
    match b.hasUnique collection (names.map .str) s with
    | (.ok present, t) => (if present.truthy then start rest else creating names rest, t)
    | (.error failure, t) => (caught collection names rest failure, t)
  | creating names rest =>
    match b.createUnique collection (names.map .str) s with
    | (.ok (), t) => (start rest, t)
    | (.error failure, t) => (caught collection names rest failure, t)
  | rechecking names reported rest =>
    match b.hasUnique collection (names.map .str) s with
    | (.ok present, t) =>
      (if present.truthy then start rest
        else raised (.unenforceable collection (names.map .str) reported), t)
    | (.error failure, t) => (raised (missed collection (names.map .str) failure), t)
  | returned => (returned, s)
  | raised failure => (raised failure, s)

/-! ## Without interruption -/

variable {b : Backend σ ι} {collection : String}

def handle (b : Backend σ ι) (collection : String) (names : List String) (failure : Failure) :
    Action σ Unit :=
  if failure.kind = .indexExists then recheck b collection (names.map .str) failure
  else throw (missed collection (names.map .str) failure)

def createUnlessExists (b : Backend σ ι) (collection : String) (names : List String) :
    Action σ Unit := do
  match ← (b.createUnique collection (names.map .str)).attempt with
  | .ok () => return
  | .error failure => handle b collection names failure

def ensureAll (b : Backend σ ι) (collection : String) (sets : List (List String)) :
    Action σ Unit :=
  sets.forM fun names => ensureKeys b collection (names.map .str)

def perform (b : Backend σ ι) (collection : String) : Client → Action σ Unit
  | looking names rest => do
    ensureKeys b collection (names.map .str)
    ensureAll b collection rest
  | creating names rest => do
    createUnlessExists b collection names
    ensureAll b collection rest
  | rechecking names reported rest => do
    recheck b collection (names.map .str) reported
    ensureAll b collection rest
  | returned => return
  | raised failure => throw failure

@[simp] theorem perform_start (sets : List (List String)) :
    (start sets).perform b collection = ensureAll b collection sets := by
  cases sets with
  | nil => rfl
  | cons names rest => rfl

theorem perform_start_of_declares {declared : Value} {sets : List (List String)}
    (declares : Declares declared sets) :
    (start sets).perform b collection = ensure b collection declared := by
  rw [perform_start, ensureAll, ensure_eq_forM declares]

theorem perform_caught (names : List String) (rest : List (List String)) (failure : Failure) :
    (caught collection names rest failure).perform b collection =
      (handle b collection names failure >>= fun _ => ensureAll b collection rest) := by
  unfold caught handle
  split
  · rfl
  · rfl

theorem ensureKeys_apply_handle (b : Backend σ ι) (collection : String) (names : List String)
    (s : σ) :
    ensureKeys b collection (names.map .str) s =
      match createMissing b collection (names.map .str) s with
      | (.ok (), t) => (.ok (), t)
      | (.error failure, t) => handle b collection names failure t := by
  simp only [ensureKeys, Action.bind_apply, Action.attempt_apply]
  rcases createMissing b collection (names.map .str) s with ⟨failure | ⟨⟩, t⟩
  · simp only [handle, missed]
    split
    · rfl
    · split <;> rfl
  · rfl

/-- One call, and then the rest. -/
theorem perform_step (c : Client) (s : σ) :
    c.perform b collection s =
      (c.step b collection s).1.perform b collection (c.step b collection s).2 := by
  cases c with
  | looking names rest =>
    rw [perform, step, Action.bind_apply, ensureKeys_apply_handle, createMissing, Action.bind_apply]
    rcases b.hasUnique collection (names.map .str) s with ⟨failure | present, t⟩
    · simp only [perform_caught, Action.bind_apply]
    · cases there : present.truthy with
      | true => simp [there]
      | false =>
        simp only [there, Bool.false_eq_true, if_false]
        rw [perform, createUnlessExists, Action.bind_apply, Action.bind_apply, Action.attempt_apply]
        rcases b.createUnique collection (names.map .str) t with ⟨failure | ⟨⟩, u⟩
        · rfl
        · rfl
  | creating names rest =>
    rw [perform, step, createUnlessExists, Action.bind_apply, Action.bind_apply,
      Action.attempt_apply]
    rcases b.createUnique collection (names.map .str) s with ⟨failure | ⟨⟩, t⟩
    · simp only [perform_caught, Action.bind_apply]
    · simp only [perform_start, Action.pure_apply]
  | rechecking names reported rest =>
    rw [perform, step, recheck, Action.bind_apply, Action.bind_apply, Action.attempt_apply]
    rcases b.hasUnique collection (names.map .str) s with ⟨failure | present, t⟩
    · simp only [perform, missed]
      cases failure.kind.isStore with
      | true => rfl
      | false => rfl
    · cases there : present.truthy with
      | true => simp [there]
      | false => simp [there, perform]
  | returned => rfl
  | raised failure => rfl

end Client
end Docbase.UniqueField
