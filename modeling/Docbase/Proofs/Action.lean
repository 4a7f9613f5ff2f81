import Docbase.Action
import Mathlib.Data.List.Forall2

namespace Docbase

/-! ## Computations that may fail -/

namespace Except

variable {ε α β : Type}

theorem bind_eq_ok {x : Except ε α} {f : α → Except ε β} {b : β} :
    (x >>= f) = .ok b ↔ ∃ a, x = .ok a ∧ f a = .ok b := by
  cases x with
  | error e =>
    constructor
    · intro h
      cases h
    · rintro ⟨a, h, -⟩
      cases h
  | ok a =>
    refine ⟨fun h => ⟨a, rfl, h⟩, ?_⟩
    rintro ⟨a', h, h'⟩
    cases h
    exact h'

theorem bind_eq_error {x : Except ε α} {f : α → Except ε β} {e : ε} :
    (x >>= f) = .error e ↔ x = .error e ∨ ∃ a, x = .ok a ∧ f a = .error e := by
  cases x with
  | error e' =>
    refine ⟨fun h => .inl (congrArg Except.error (Except.error.inj h)), ?_⟩
    rintro (h | ⟨a, h, -⟩)
    · exact congrArg Except.error (Except.error.inj h)
    · cases h
  | ok a =>
    refine ⟨fun h => .inr ⟨a, rfl, h⟩, ?_⟩
    rintro (h | ⟨a', h, h'⟩)
    · cases h
    · cases h
      exact h'

theorem pure_eq_ok {a b : α} : (pure a : Except ε α) = .ok b ↔ a = b :=
  ⟨Except.ok.inj, congrArg Except.ok⟩

theorem map_eq_ok {f : α → β} {x : Except ε α} {b : β} :
    x.map f = .ok b ↔ ∃ a, x = .ok a ∧ f a = b := by
  cases x with
  | error e => simp [Except.map]
  | ok a => simp [Except.map]

theorem exists_ok {x : Except ε α} (h : x.isOk = true) : ∃ a, x = .ok a := by
  cases x with
  | error e => cases h
  | ok a => exact ⟨a, rfl⟩

theorem exists_error {x : Except ε α} (h : x.isOk = false) : ∃ e, x = .error e := by
  cases x with
  | error e => exact ⟨e, rfl⟩
  | ok a => cases h

theorem exists_ok_of_map {x : Except ε α} {f : α → β} {b : β}
    (h : x.toOption.map f = some b) : ∃ a, x = .ok a ∧ f a = b := by
  cases x with
  | error e => cases h
  | ok a => exact ⟨a, rfl, Option.some.inj h⟩

theorem if_throw_eq_ok {c : Prop} [Decidable c] {e : ε} {f : α → Except ε β} {x : Except ε β}
    {b : β} : (if c then throw e >>= f else x) = .ok b ↔ ¬c ∧ x = .ok b := by
  by_cases h : c
  · simp only [h, if_true, not_true, false_and, iff_false]
    exact nofun
  · simp only [h, if_false, not_false_iff, true_and]

theorem unless_throw_eq_ok {c : Prop} [Decidable c] {e : ε} {f : α → Except ε β}
    {x : Except ε β} {b : β} : (if c then x else throw e >>= f) = .ok b ↔ c ∧ x = .ok b := by
  by_cases h : c
  · simp only [h, if_true, true_and]
  · simp only [h, if_false, false_and, iff_false]
    exact nofun

theorem liftMisuse_eq_ok {x : Except Misuse α} {a : α} :
    (liftM x : Except Failure α) = .ok a ↔ x = .ok a := by
  cases x with
  | error m =>
    constructor
    · intro h
      cases h
    · intro h
      cases h
  | ok a' => exact ⟨fun h => congrArg Except.ok (Except.ok.inj h), fun h => h ▸ rfl⟩

theorem liftMisuse_eq_error {x : Except Misuse α} {f : Failure} :
    (liftM x : Except Failure α) = .error f ↔ ∃ m, x = .error m ∧ f = .misuse m := by
  cases x with
  | error m =>
    constructor
    · intro h
      exact ⟨m, rfl, (Except.error.inj h).symm⟩
    · rintro ⟨m', h, rfl⟩
      cases h
      rfl
  | ok a =>
    constructor
    · intro h
      cases h
    · rintro ⟨m, h, -⟩
      cases h

theorem liftFault_eq_ok {x : Except QueryFault α} {a : α} :
    (liftM x : Except Failure α) = .ok a ↔ x = .ok a := by
  cases x with
  | error fault =>
    constructor
    · intro h
      cases h
    · intro h
      cases h
  | ok a' => exact ⟨fun h => congrArg Except.ok (Except.ok.inj h), fun h => h ▸ rfl⟩

theorem forM_eq_ok {f : α → Except ε Unit} {as : List α} :
    as.forM f = .ok () ↔ ∀ a ∈ as, f a = .ok () := by
  induction as with
  | nil => exact ⟨fun _ _ mem => (nomatch mem), fun _ => rfl⟩
  | cons a as ih =>
    change (f a >>= fun _ => as.forM f) = _ ↔ _
    rw [bind_eq_ok, List.forall_mem_cons, ← ih]
    exact ⟨fun ⟨_, h⟩ => h, fun h => ⟨_, h⟩⟩

theorem mapM_eq_ok {f : α → Except ε β} {as : List α} {bs : List β} :
    as.mapM f = .ok bs ↔ List.Forall₂ (fun a b => f a = .ok b) as bs := by
  induction as generalizing bs with
  | nil =>
    rw [List.mapM_nil, pure_eq_ok, List.forall₂_nil_left_iff]
    exact eq_comm
  | cons a as ih =>
    rw [List.mapM_cons, bind_eq_ok, List.forall₂_cons_left_iff]
    constructor
    · rintro ⟨b, here, h⟩
      obtain ⟨others, there, h⟩ := bind_eq_ok.1 h
      exact ⟨b, others, here, ih.1 there, (pure_eq_ok.1 h).symm⟩
    · rintro ⟨b, others, here, there, rfl⟩
      exact ⟨b, here, bind_eq_ok.2 ⟨others, ih.2 there, rfl⟩⟩

theorem mem_of_mapM_ok {f : α → Except ε β} {as : List α} {bs : List β}
    (h : as.mapM f = .ok bs) : ∀ b ∈ bs, ∃ a ∈ as, f a = .ok b := by
  have each := mapM_eq_ok.1 h
  clear h
  induction each with
  | nil => exact fun b mem => absurd mem List.not_mem_nil
  | cons here there ih =>
    intro b mem
    rcases List.mem_cons.1 mem with rfl | mem
    · exact ⟨_, List.mem_cons_self, here⟩
    · obtain ⟨a, mem, ha⟩ := ih b mem
      exact ⟨a, List.mem_cons_of_mem _ mem, ha⟩

theorem exists_mapM_forall₂ {R : α → β → Prop} {f : α → Except ε β} {as : List α}
    (each : ∀ a ∈ as, ∃ b, f a = .ok b ∧ R a b) :
    ∃ bs, as.mapM f = .ok bs ∧ List.Forall₂ R as bs := by
  induction as with
  | nil => exact ⟨[], rfl, .nil⟩
  | cons a as ih =>
    obtain ⟨⟨b, here, related⟩, later⟩ := List.forall_mem_cons.1 each
    obtain ⟨bs, there, others⟩ := ih later
    rw [mapM_eq_ok] at there
    exact ⟨b :: bs, mapM_eq_ok.2 (.cons here there), .cons related others⟩

theorem exists_mapM_eq_ok {f : α → Except ε β} {as : List α} (each : ∀ a ∈ as, ∃ b, f a = .ok b) :
    ∃ bs, as.mapM f = .ok bs := by
  have related : ∀ a ∈ as, ∃ b, f a = .ok b ∧ True := fun a mem => by simpa using each a mem
  obtain ⟨bs, run, -⟩ := exists_mapM_forall₂ related
  exact ⟨bs, run⟩

theorem exists_mapM {γ : Type} {f : α → Except ε β} {g : β → γ} {h : α → γ} {as : List α}
    (each : ∀ a ∈ as, ∃ b, f a = .ok b ∧ g b = h a) :
    ∃ bs, as.mapM f = .ok bs ∧ bs.map g = as.map h := by
  obtain ⟨bs, run, related⟩ := exists_mapM_forall₂ each
  refine ⟨bs, run, ?_⟩
  rw [← List.forall₂_eq_eq_eq, List.forall₂_map_left_iff, List.forall₂_map_right_iff]
  exact related.flip

def accepts : Except ε Bool → Bool
  | .ok answer => answer
  | .error _ => false

theorem filterAuxM_eq_ok {α : Type} {p : α → Except ε Bool} {as kept bs : List α} :
    as.filterAuxM p kept = .ok bs ↔
      (∀ a ∈ as, ∃ answer, p a = .ok answer) ∧
        bs = (as.filter fun a => accepts (p a)).reverse ++ kept := by
  induction as generalizing kept with
  | nil =>
    simp only [List.filterAuxM, pure_eq_ok, List.not_mem_nil, false_imp_iff, implies_true,
      true_and, List.filter_nil, List.reverse_nil, List.nil_append]
    exact eq_comm
  | cons a as ih =>
    rw [List.filterAuxM, bind_eq_ok, List.forall_mem_cons]
    cases answer : p a with
    | error e => simp
    | ok b => cases b <;> simp [ih, answer, accepts]

/-- A test of each element that never fails picks those for which the answer is yes. -/
theorem filterM_eq_ok {α : Type} {p : α → Except ε Bool} {as bs : List α} :
    as.filterM p = .ok bs ↔
      (∀ a ∈ as, ∃ answer, p a = .ok answer) ∧ bs = as.filter fun a => accepts (p a) := by
  rw [List.filterM, bind_eq_ok]
  simp only [filterAuxM_eq_ok, pure_eq_ok, List.append_nil]
  constructor
  · rintro ⟨_, ⟨tested, rfl⟩, rfl⟩
    exact ⟨tested, List.reverse_reverse _⟩
  · rintro ⟨tested, rfl⟩
    exact ⟨_, ⟨tested, rfl⟩, List.reverse_reverse _⟩

end Except

namespace Action

variable {σ τ α β : Type}

/-! ## Running -/

@[simp] theorem pure_apply (a : α) (s : σ) : (pure a : Action σ α) s = (.ok a, s) := rfl

@[simp] theorem throw_apply (f : Failure) (s : σ) : (throw f : Action σ α) s = (.error f, s) := rfl

@[simp] theorem lift_apply (result : Except Failure α) (s : σ) :
    (lift result : Action σ α) s = (result, s) := rfl

@[simp] theorem liftM_apply (result : Except Failure α) (s : σ) :
    (liftM result : Action σ α) s = (result, s) := rfl

@[simp] theorem get_apply (s : σ) : (get : Action σ σ) s = (.ok s, s) := rfl

@[simp] theorem modify_apply (f : σ → σ) (s : σ) :
    (modify f : Action σ PUnit) s = (.ok ⟨⟩, f s) := rfl

@[simp] theorem modifyGet_apply (f : σ → α × σ) (s : σ) :
    (modifyGet f : Action σ α) s = (.ok (f s).1, (f s).2) := rfl

@[simp] theorem attempt_apply (a : Action σ α) (s : σ) :
    a.attempt s = (.ok (a s).1, (a s).2) := rfl

theorem bind_apply (a : Action σ α) (f : α → Action σ β) (s : σ) :
    (a >>= f) s = match a s with
      | (.ok x, t) => f x t
      | (.error e, t) => (.error e, t) := by
  change (ExceptT.bindCont f (a s).1 : StateM σ _) (a s).2 = _
  rcases a s with ⟨_ | _, _⟩ <;> rfl

theorem bind_eq_ok {a : Action σ α} {f : α → Action σ β} {s : σ} {b : β} :
    ((a >>= f) s).1 = .ok b ↔ ∃ x, (a s).1 = .ok x ∧ (f x (a s).2).1 = .ok b := by
  rw [bind_apply]
  rcases a s with ⟨e | x, t⟩
  · constructor
    · intro h
      cases h
    · rintro ⟨x, h, -⟩
      cases h
  · constructor
    · exact fun h => ⟨x, rfl, h⟩
    · rintro ⟨x', h, h'⟩
      cases h
      exact h'

theorem bind_returns {a : Action σ α} {f : α → Action σ β} {s t : σ} {b : β} :
    (a >>= f) s = (.ok b, t) ↔ ∃ x u, a s = (.ok x, u) ∧ f x u = (.ok b, t) := by
  rw [bind_apply]
  rcases a s with ⟨e | x, u⟩
  · constructor
    · intro h
      cases h
    · rintro ⟨x, u, h, -⟩
      cases h
  · constructor
    · exact fun h => ⟨x, u, rfl, h⟩
    · rintro ⟨x', u', h, h'⟩
      cases h
      exact h'

theorem bind_fails {a : Action σ α} {f : α → Action σ β} {s t : σ} {e : Failure} :
    (a >>= f) s = (.error e, t) ↔
      a s = (.error e, t) ∨ ∃ x u, a s = (.ok x, u) ∧ f x u = (.error e, t) := by
  rw [bind_apply]
  rcases a s with ⟨e' | x, u⟩
  · constructor
    · intro h
      cases h
      exact .inl rfl
    · rintro (h | ⟨x, u, h, -⟩)
      · cases h
        rfl
      · cases h
  · constructor
    · exact fun h => .inr ⟨x, u, rfl, h⟩
    · rintro (h | ⟨x', u', h, h'⟩)
      · cases h
      · cases h
        exact h'

theorem pure_returns {a b : α} {s t : σ} :
    (pure a : Action σ α) s = (.ok b, t) ↔ a = b ∧ s = t := by
  rw [pure_apply, Prod.mk.injEq, Except.ok.injEq]

theorem liftM_returns {result : Except Failure α} {a : α} {s t : σ} :
    (liftM result : Action σ α) s = (.ok a, t) ↔ result = .ok a ∧ s = t := by
  rw [liftM_apply, Prod.mk.injEq]

theorem attempt_returns {a : Action σ α} {outcome : Except Failure α} {s t : σ} :
    a.attempt s = (.ok outcome, t) ↔ a s = (outcome, t) := by
  rw [attempt_apply, Prod.mk.injEq, Except.ok.injEq, ← Prod.mk.injEq]
  exact Iff.rfl

theorem liftMisuse_eq_ok {x : Except Misuse α} {a : α} {s : σ} :
    ((liftM x : Action σ α) s).1 = .ok a ↔ x = .ok a :=
  Except.liftMisuse_eq_ok

@[simp] theorem map_apply (f : α → β) (a : Action σ α) (s : σ) :
    (f <$> a) s = ((a s).1.map f, (a s).2) := by
  rw [map_eq_pure_bind, bind_apply]
  rcases a s with ⟨_ | _, _⟩ <;> rfl

/-! ## Preserving a property -/

/-- A property of states holds after the action if it held before, also if the action fails. -/
def Preserves (P : σ → Prop) (a : Action σ α) : Prop := ∀ s, P s → P (a s).2

variable {P : σ → Prop}

theorem preserves_pure (a : α) : Preserves P (pure a : Action σ α) := fun _ h => h

theorem preserves_throw (f : Failure) : Preserves P (throw f : Action σ α) := fun _ h => h

theorem preserves_lift (result : Except Failure α) : Preserves P (lift result : Action σ α) :=
  fun _ h => h

theorem preserves_get : Preserves P (get : Action σ σ) := fun _ h => h

theorem preserves_modify {f : σ → σ} (h : ∀ s, P s → P (f s)) :
    Preserves P (modify f : Action σ PUnit) := h

theorem Preserves.attempt {a : Action σ α} (h : Preserves P a) : Preserves P a.attempt := h

theorem Preserves.after {a : Action σ α} (h : Preserves P a) {s t : σ} (before : P s)
    {outcome : Except Failure α} (run : a s = (outcome, t)) : P t := by
  have kept := h s before
  rwa [run] at kept

theorem Preserves.bind {a : Action σ α} {f : α → Action σ β} (ha : Preserves P a)
    (hf : ∀ x, Preserves P (f x)) : Preserves P (a >>= f) := by
  intro s hs
  have after := ha s hs
  rw [bind_apply]
  rcases run : a s with ⟨e | x, t⟩ <;> rw [run] at after
  · exact after
  · exact hf x t after

theorem Preserves.lift_bind {result : Except Failure α} {f : α → Action σ β}
    (hf : ∀ x, result = .ok x → Preserves P (f x)) :
    Preserves P ((lift result : Action σ α) >>= f) := by
  intro s hs
  rw [bind_apply, lift_apply]
  cases result with
  | error e => exact hs
  | ok x => exact hf x rfl s hs

theorem Preserves.map {a : Action σ α} (ha : Preserves P a) (f : α → β) :
    Preserves P (f <$> a) := by
  intro s hs
  rw [map_apply]
  exact ha s hs

theorem preserves_of_map {f : α → β} {a : Action σ α} (h : Preserves P (f <$> a)) :
    Preserves P a := by
  intro s hs
  have after := h s hs
  rwa [map_apply] at after

theorem Preserves.forM {f : α → Action σ PUnit} (hf : ∀ x, Preserves P (f x)) :
    ∀ xs : List α, Preserves P (xs.forM f)
  | [] => preserves_pure _
  | x :: xs => (hf x).bind fun _ => Preserves.forM hf xs

/-! ## Results -/

/-- The action preserves a property of states, and from such a state on its results have another
one. -/
def Yields (P : σ → Prop) (Q : α → Prop) (a : Action σ α) : Prop :=
  ∀ s, P s → P (a s).2 ∧ ∀ x, (a s).1 = .ok x → Q x

variable {Q : α → Prop} {R : β → Prop}

theorem Yields.returned {a : Action σ α} (h : Yields P Q a) {s t : σ} (before : P s) {x : α}
    (run : a s = (.ok x, t)) : P t ∧ Q x := by
  obtain ⟨kept, result⟩ := h s before
  rw [run] at kept result
  exact ⟨kept, result x rfl⟩

theorem yields_pure {a : α} (h : Q a) : Yields P Q (pure a : Action σ α) := by
  intro s hs
  refine ⟨hs, fun x returned => ?_⟩
  obtain rfl := Except.ok.inj returned
  exact h

theorem Yields.bind {a : Action σ α} {f : α → Action σ β} (ha : Yields P Q a)
    (hf : ∀ x, Q x → Yields P R (f x)) : Yields P R (a >>= f) := by
  intro s hs
  obtain ⟨after, result⟩ := ha s hs
  rw [bind_apply]
  rcases run : a s with ⟨e | x, t⟩ <;> rw [run] at after result
  · exact ⟨after, nofun⟩
  · exact hf x (result x rfl) t after

theorem Yields.lift_bind {result : Except Failure α} {f : α → Action σ β}
    (hf : ∀ x, result = .ok x → Yields P R (f x)) :
    Yields P R ((lift result : Action σ α) >>= f) := by
  intro s hs
  rw [bind_apply, lift_apply]
  cases result with
  | error e => exact ⟨hs, nofun⟩
  | ok x => exact hf x rfl s hs

theorem Yields.bind_preserves {a : Action σ α} {f : α → Action σ β} (ha : Yields P Q a)
    (hf : ∀ x, Q x → Preserves P (f x)) : Preserves P (a >>= f) := by
  intro s hs
  obtain ⟨after, result⟩ := ha s hs
  rw [bind_apply]
  rcases run : a s with ⟨e | x, t⟩ <;> rw [run] at after result
  · exact after
  · exact hf x (result x rfl) t after

theorem Preserves.yields {a : Action σ α} (h : Preserves P a) : Yields P (fun _ => True) a :=
  fun s hs => ⟨h s hs, fun _ _ => trivial⟩

end Action
end Docbase
