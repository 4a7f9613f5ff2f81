import Docbase.Proofs.Action

namespace Docbase.Except

variable {ε α β : Type} {P : ε → Prop} {Q : α → Prop} {R : β → Prop}

def FailsBy (P : ε → Prop) (x : Except ε α) : Prop := ∀ e, x = .error e → P e

theorem failsBy_ok (a : α) : FailsBy P (.ok a : Except ε α) := fun _ h => nomatch h

theorem failsBy_error {e : ε} (h : P e) : FailsBy P (.error e : Except ε α) := by
  intro e' same
  rwa [← Except.error.inj same]

theorem FailsBy.exists_ok {x : Except ε α} (h : FailsBy (fun _ => False) x) : ∃ a, x = .ok a := by
  cases x with
  | ok a => exact ⟨a, rfl⟩
  | error e => exact absurd rfl (h e)

theorem FailsBy.bind {x : Except ε α} {f : α → Except ε β} (hx : FailsBy P x)
    (hf : ∀ a, x = .ok a → FailsBy P (f a)) : FailsBy P (x >>= f) := by
  intro e failed
  rcases bind_eq_error.1 failed with here | ⟨a, returned, there⟩
  · exact hx e here
  · exact hf a returned e there

theorem failsBy_guard {c : Prop} [Decidable c] {e : ε} {f : α → Except ε β} {x : Except ε β}
    (thrown : c → P e) (h : FailsBy P x) : FailsBy P (if c then throw e >>= f else x) := by
  split
  · rename_i met
    exact failsBy_error (thrown met)
  · exact h

theorem failsBy_unless {c : Prop} [Decidable c] {e : ε} {f : α → Except ε β} {x : Except ε β}
    (thrown : ¬c → P e) (h : FailsBy P x) : FailsBy P (if c then x else throw e >>= f) := by
  split
  · exact h
  · rename_i unmet
    exact failsBy_error (thrown unmet)

theorem failsBy_liftMisuse {P : Failure → Prop} {x : Except Misuse α}
    (h : FailsBy (fun m => P (.misuse m)) x) : FailsBy P (liftM x : Except Failure α) := by
  intro e failed
  obtain ⟨m, misused, rfl⟩ := liftMisuse_eq_error.1 failed
  exact h m misused

theorem failsBy_forM {f : α → Except ε Unit} {as : List α} (each : ∀ a ∈ as, FailsBy P (f a)) :
    FailsBy P (as.forM f) := by
  induction as with
  | nil => exact failsBy_ok ()
  | cons a as ih =>
    obtain ⟨here, there⟩ := List.forall_mem_cons.1 each
    exact FailsBy.bind here fun _ _ => ih there

theorem failsBy_mapM {f : α → Except ε β} {as : List α} (each : ∀ a ∈ as, FailsBy P (f a)) :
    FailsBy P (as.mapM f) := by
  induction as with
  | nil => exact failsBy_ok []
  | cons a as ih =>
    obtain ⟨here, there⟩ := List.forall_mem_cons.1 each
    rw [List.mapM_cons]
    exact FailsBy.bind here fun _ _ => FailsBy.bind (ih there) fun _ _ => failsBy_ok _

theorem failsBy_foldlM {f : β → α → Except ε β} (each : ∀ b a, FailsBy P (f b a)) (as : List α)
    (b : β) : FailsBy P (as.foldlM f b) := by
  induction as generalizing b with
  | nil => exact failsBy_ok b
  | cons a as ih =>
    rw [List.foldlM_cons]
    exact FailsBy.bind (each b a) fun next _ => ih next

theorem failsBy_filterM {p : α → Except ε Bool} {as : List α}
    (each : ∀ a ∈ as, FailsBy P (p a)) : FailsBy P (as.filterM p) := by
  have tested (kept : List α) : FailsBy P (as.filterAuxM p kept) := by
    induction as generalizing kept with
    | nil => exact failsBy_ok kept
    | cons a as ih =>
      obtain ⟨here, there⟩ := List.forall_mem_cons.1 each
      rw [List.filterAuxM]
      exact FailsBy.bind here fun answer _ => ih there _
  exact FailsBy.bind (tested []) fun _ _ => failsBy_ok _

/-! ## Computations that do not fail -/

def Returns (Q : α → Prop) (x : Except ε α) : Prop := ∃ a, x = .ok a ∧ Q a

theorem returns_ok {a : α} (h : Q a) : Returns Q (.ok a : Except ε α) := ⟨a, rfl, h⟩

theorem Returns.bind {x : Except ε α} {f : α → Except ε β} (hx : Returns Q x)
    (hf : ∀ a, Q a → Returns R (f a)) : Returns R (x >>= f) := by
  obtain ⟨a, rfl, known⟩ := hx
  exact hf a known

theorem returns_mapM {f : α → Except ε β} {as : List α} (each : ∀ a ∈ as, Returns R (f a)) :
    Returns (fun bs => ∀ b ∈ bs, R b) (as.mapM f) := by
  induction as with
  | nil => exact ⟨[], rfl, fun _ mem => absurd mem List.not_mem_nil⟩
  | cons a as ih =>
    obtain ⟨here, there⟩ := List.forall_mem_cons.1 each
    rw [List.mapM_cons]
    exact here.bind fun b known => (ih there).bind fun bs others =>
      returns_ok (List.forall_mem_cons.2 ⟨known, others⟩)

end Docbase.Except
