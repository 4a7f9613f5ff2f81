import Docbase.Proofs.Fields
import Docbase.Proofs.Server.Conversion
import Docbase.Server.Heap
import Mathlib.Data.List.Forall2

/-!
# Conversion in place

What comes of a conversion in memory is what `withoutIds` makes of the answer: the writes leave every
container as it was but for identifiers, so a part that is met again is the same part, already
converted.
-/

namespace Docbase

theorem Fields.map_snd_set {α : Type _} {key : String} {old : α} {fields : List (String × α)}
    {i : Nat} (distinct : (keys fields).Nodup) (here : fields[i]? = some (key, old)) (value : α) :
    (set key value fields).map (·.2) = (fields.map (·.2)).set i value := by
  induction fields generalizing i with
  | nil => cases here
  | cons field rest ih =>
    obtain ⟨k, v⟩ := field
    obtain ⟨new, distinct⟩ := List.nodup_cons.1 distinct
    cases i with
    | zero =>
      obtain ⟨rfl, rfl⟩ := Prod.mk.inj (Option.some.inj here)
      rw [set, if_pos rfl]
      rfl
    | succ i =>
      have other : k ≠ key := by
        rintro rfl
        exact new (mem_keys_of_mem (List.mem_of_getElem? here))
      rw [set, if_neg other, List.map_cons, ih distinct here]
      rfl

namespace Server

/-! ## Lists side by side -/

section Lists

variable {α β γ δ : Type} {R : α → β → Prop} {as : List α} {bs : List β} {i : Nat}

theorem exists_getElem?_left (each : List.Forall₂ R as bs) {b : β} (found : bs[i]? = some b) :
    ∃ a, as[i]? = some a ∧ R a b := by
  induction each generalizing i with
  | nil => cases found
  | cons here _ ih =>
    cases i with
    | zero =>
      obtain rfl := Option.some.inj found
      exact ⟨_, rfl, here⟩
    | succ i => exact ih found

theorem exists_getElem?_right (each : List.Forall₂ R as bs) {a : α} (found : as[i]? = some a) :
    ∃ b, bs[i]? = some b ∧ R a b :=
  exists_getElem?_left (List.Forall₂.flip each) found

theorem forall₂_comp {S : β → γ → Prop} {T : α → γ → Prop} {cs : List γ}
    (first : List.Forall₂ R as bs) (second : List.Forall₂ S bs cs)
    (step : ∀ a b c, R a b → S b c → T a c) : List.Forall₂ T as cs := by
  induction first generalizing cs with
  | nil =>
    cases second
    exact .nil
  | cons here _ ih =>
    cases second with
    | cons there rest => exact .cons (step _ _ _ here there) (ih rest)

theorem exists_forall₂ {S : α → γ → Prop} {T : γ → δ → Prop} {Q : β → δ → Prop} {cs : List γ}
    (left : List.Forall₂ R as bs) (right : List.Forall₂ S as cs)
    (step : ∀ a b c, R a b → S a c → ∃ d, T c d ∧ Q b d) :
    ∃ ds, List.Forall₂ T cs ds ∧ List.Forall₂ Q bs ds := by
  induction left generalizing cs with
  | nil =>
    cases right
    exact ⟨[], .nil, .nil⟩
  | cons here _ ih =>
    cases right with
    | cons there rest =>
      obtain ⟨d, first, first'⟩ := step _ _ _ here there
      obtain ⟨ds, others, others'⟩ := ih rest
      exact ⟨d :: ds, .cons first others, .cons first' others'⟩

theorem forall₂_set {S : α → α → Prop} {a b : α} (refl : ∀ a ∈ as, S a a) (here : as[i]? = some a)
    (changed : S a b) : List.Forall₂ S as (as.set i b) := by
  induction as generalizing i with
  | nil => cases here
  | cons first rest ih =>
    obtain ⟨same, others⟩ := List.forall_mem_cons.1 refl
    cases i with
    | zero =>
      obtain rfl := Option.some.inj here
      exact .cons changed (List.forall₂_same.2 others)
    | succ i => exact .cons same (ih others here)

theorem range_foldl_induction {P : Nat → β → Prop} {f : β → Nat → β} {n : Nat} {b : β}
    (start : P 0 b) (step : ∀ i b, i < n → P i b → P (i + 1) (f b i)) :
    P n ((List.range n).foldl f b) := by
  induction n with
  | zero => exact start
  | succ n ih =>
    rw [List.range_succ, List.foldl_append]
    exact step n _ (Nat.lt_succ_self n)
      (ih fun i b below => step i b (Nat.lt_succ_of_lt below))

end Lists

variable {depth place i : Nat} {v w : Value}

/-! ## Containers -/

namespace Container

variable {c c' : Container} {parts : List Value}

def holding (c : Container) (parts : List Value) : Value :=
  match c.keys? with
  | some keys => .doc (keys.zip parts)
  | none => .list parts

@[simp] theorem entries_write (c : Container) (i : Nat) (e : Entry) :
    (c.write i e).entries = c.entries.set i e := by
  cases c with
  | list items => rfl
  | document fields distinct =>
    rw [write]
    split
    · rename_i key old here
      exact Fields.map_snd_set distinct here e
    · rename_i beyond
      rw [List.set_eq_of_length_le]
      rw [entries, List.length_map]
      exact List.getElem?_eq_none_iff.1 beyond

@[simp] theorem keys?_write (c : Container) (i : Nat) (e : Entry) :
    (c.write i e).keys? = c.keys? := by
  cases c with
  | list items => rfl
  | document fields distinct =>
    rw [write]
    split
    · rename_i key old here
      have present : key ∈ Fields.keys fields :=
        Fields.mem_keys_of_mem (List.mem_of_getElem? here)
      rw [keys?, keys?, Fields.keys_set, if_pos present]
    · rfl

theorem holding_congr (same : c'.keys? = c.keys?) : c'.holding parts = c.holding parts := by
  rw [holding, holding, same]

theorem withoutIds_holding (c : Container) (parts : List Value) :
    withoutIds (c.holding parts) = c.holding (parts.map withoutIds) := by
  rw [holding, holding]
  cases c.keys? with
  | none => exact withoutIds_list parts
  | some keys =>
    dsimp only
    rw [withoutIds_doc, List.zip_map_right]
    rfl

theorem holding_ne_objectId (c : Container) (parts : List Value) (id : ObjectId) :
    c.holding parts ≠ .objectId id := by
  rw [holding]
  split <;> exact nofun

theorem parts_holding (length : parts.length = c.entries.length) :
    (c.holding parts).parts = parts := by
  cases c with
  | list items => rfl
  | document fields distinct =>
    rw [holding, keys?, Value.parts_doc, List.map_snd_zip]
    simp [length, entries, Fields.keys]

end Container

/-- The text of an identifier may replace it. Nothing else happens to an entry. -/
inductive Entry.Becomes : Entry → Entry → Prop
  | same (e : Entry) : Becomes e e
  | text (id : ObjectId) : Becomes (.value (.objectId id) rfl) (.value (.str id.text) rfl)

theorem Entry.Becomes.trans {e e' e'' : Entry} (first : e.Becomes e') (second : e'.Becomes e'') :
    e.Becomes e'' := by
  cases first with
  | same => exact second
  | text id =>
    cases second
    exact .text id

namespace Heap

variable {h g : Heap} {e e' : Entry} {vs ws : List Value}

/-- An entry holds a value, in which containers are nested no deeper than `depth`. -/
def Holds (h : Heap) : Nat → Entry → Value → Prop
  | _, .value v _, w => w = v
  | 0, .container _, _ => False
  | depth + 1, .container place, w =>
    ∃ parts, w = (h place).holding parts ∧ List.Forall₂ (h.Holds depth) (h place).entries parts

/-! ## The conversion -/

theorem visit_cases (inner : Nat → Heap → Heap) (place : Nat) (h : Heap) (i : Nat) :
    (∃ id, (h place).entries[i]? = some (.value (.objectId id) rfl) ∧
      h.visit inner place i = h.write place i (.value (.str id.text) rfl)) ∨
    (∃ next, (h place).entries[i]? = some (.container next) ∧
      h.visit inner place i = inner next h) ∨
    ((∀ e, (h place).entries[i]? = some e → ∃ v flat, e = .value v flat ∧ ∀ id, v ≠ .objectId id) ∧
      h.visit inner place i = h) := by
  unfold visit
  split
  · rename_i id _ here
    exact .inl ⟨id, here, rfl⟩
  · rename_i next here
    exact .inr (.inl ⟨next, here, rfl⟩)
  · rename_i noId noContainer
    refine .inr (.inr ⟨fun e here => ?_, rfl⟩)
    cases e with
    | value v flat => exact ⟨v, flat, rfl, fun id same => by subst same; exact noId id flat here⟩
    | container next => exact absurd here (noContainer next)

/-! ## What happens to a heap -/

/-- Every container keeps its keys and the number of its entries, and each entry, or else the text
of an identifier has replaced it. -/
def Becomes (h g : Heap) : Prop := ∀ place,
  (g place).keys? = (h place).keys? ∧
    List.Forall₂ Entry.Becomes (h place).entries (g place).entries

theorem becomes_refl (h : Heap) : h.Becomes h :=
  fun _ => ⟨rfl, List.forall₂_same.2 fun e _ => .same e⟩

theorem Becomes.trans {k : Heap} (first : h.Becomes g) (second : g.Becomes k) : h.Becomes k := by
  refine fun place => ⟨(second place).1.trans (first place).1, ?_⟩
  exact forall₂_comp (first place).2 (second place).2 fun _ _ _ => Entry.Becomes.trans

theorem becomes_write {id : ObjectId}
    (here : (h place).entries[i]? = some (.value (.objectId id) rfl)) :
    h.Becomes (h.write place i (.value (.str id.text) rfl)) := by
  intro other
  by_cases same : other = place
  · subst same
    rw [write, Function.update_self, Container.keys?_write, Container.entries_write]
    exact ⟨rfl, forall₂_set (fun e _ => .same e) here (.text id)⟩
  · rw [write, Function.update_of_ne same]
    exact becomes_refl h other

theorem becomes_visit {inner : Nat → Heap → Heap}
    (inside : ∀ next (g : Heap), g.Becomes (inner next g))
    (place : Nat) (h : Heap) (i : Nat) : h.Becomes (h.visit inner place i) := by
  rcases visit_cases inner place h i with ⟨id, here, result⟩ | ⟨next, -, result⟩ | ⟨-, result⟩
  · rw [result]
    exact becomes_write here
  · rw [result]
    exact inside next h
  · rw [result]
    exact becomes_refl h

theorem becomes_convert (depth place : Nat) (h : Heap) : h.Becomes (h.convert depth place) := by
  induction depth generalizing place h with
  | zero => exact becomes_refl h
  | succ depth ih =>
    refine range_foldl_induction (P := fun _ g => h.Becomes g) (becomes_refl h) ?_
    exact fun i g _ prior => prior.trans (becomes_visit ih place g i)

/-! ## What is held -/

@[simp] theorem holds_value {flat : v.isContainer = false} :
    h.Holds depth (.value v flat) w ↔ w = v := by
  cases depth <;> rfl

theorem holds_unique (left : h.Holds depth e v) (right : h.Holds depth e w) : v = w := by
  induction depth generalizing e v w with
  | zero =>
    cases e with
    | value u flat => rw [holds_value.1 left, holds_value.1 right]
    | container place => cases left
  | succ depth ih =>
    cases e with
    | value u flat => rw [holds_value.1 left, holds_value.1 right]
    | container place =>
      obtain ⟨vs, rfl, each⟩ := left
      obtain ⟨ws, rfl, each'⟩ := right
      have unique : Relator.RightUnique (h.Holds depth) := fun _ _ _ left right => ih left right
      rw [List.right_unique_forall₂' unique each each']

/-- A value on the way to its conversion: texts have replaced some of its identifiers. -/
structure Underway (v w : Value) : Prop where
  same : withoutIds w = withoutIds v
  done : v.HoldsNoId → w = v

theorem Underway.map_withoutIds (under : List.Forall₂ Underway vs ws) :
    ws.map withoutIds = vs.map withoutIds := by
  induction under with
  | nil => rfl
  | cons here _ ih => rw [List.map_cons, List.map_cons, here.same, ih]

theorem Underway.eq_of_forall₂ (under : List.Forall₂ Underway vs ws)
    (free : ∀ v ∈ vs, v.HoldsNoId) : ws = vs := by
  induction under with
  | nil => rfl
  | cons here _ ih =>
    obtain ⟨first, rest⟩ := List.forall_mem_cons.1 free
    rw [here.done first, ih rest]

theorem Underway.holding {c c' : Container} (keys : c'.keys? = c.keys?)
    (length : vs.length = c.entries.length) (under : List.Forall₂ Underway vs ws) :
    Underway (c.holding vs) (c'.holding ws) where
  same := by
    rw [Container.withoutIds_holding, Container.withoutIds_holding, map_withoutIds under,
      Container.holding_congr keys]
  done free := by
    have parts : ∀ v ∈ vs, v.HoldsNoId := fun v mem =>
      free.part (by rwa [Container.parts_holding length])
    rw [eq_of_forall₂ under parts, Container.holding_congr keys]

theorem exists_holds_of_value {flat : v.isContainer = false}
    (replaced : (Entry.value v flat).Becomes e') (g : Heap) (depth : Nat) :
    ∃ w, g.Holds depth e' w ∧ Underway v w := by
  cases replaced with
  | same => exact ⟨v, holds_value.2 rfl, rfl, fun _ => rfl⟩
  | text id => exact ⟨_, holds_value.2 rfl, rfl, fun free => absurd rfl (free [] id)⟩

theorem Becomes.holds (becomes : h.Becomes g) (held : h.Holds depth e v) (replaced : e.Becomes e') :
    ∃ w, g.Holds depth e' w ∧ Underway v w := by
  induction depth generalizing e e' v with
  | zero =>
    cases e with
    | value u flat =>
      obtain rfl := holds_value.1 held
      exact exists_holds_of_value replaced g 0
    | container place => cases held
  | succ depth ih =>
    cases e with
    | value u flat =>
      obtain rfl := holds_value.1 held
      exact exists_holds_of_value replaced g (depth + 1)
    | container place =>
      cases replaced
      obtain ⟨vs, rfl, each⟩ := held
      obtain ⟨keys, entries⟩ := becomes place
      obtain ⟨ws, each', under⟩ :=
        exists_forall₂ each entries fun _ _ _ held replaced => ih held replaced
      exact ⟨_, ⟨ws, rfl, each'⟩, Underway.holding keys each.length_eq.symm under⟩

/-! ## What is converted -/

def Converting (depth : Nat) : Prop := ∀ (h : Heap) (place : Nat) (v : Value),
  h.Holds depth (.container place) v →
    (h.convert depth place).Holds depth (.container place) (withoutIds v)

/-- The entries of a container hold what has become of some values, and the first of them no
identifiers any more. -/
def Reached (depth place : Nat) (parts : List Value) (i : Nat) (g : Heap) : Prop :=
  ∃ vs, List.Forall₂ (g.Holds depth) (g place).entries vs ∧
    vs.map withoutIds = parts.map withoutIds ∧ ∀ j < i, ∀ v, vs[j]? = some v → v.HoldsNoId

theorem holdsNoId_of_visit (converting : Converting depth)
    (held : List.Forall₂ (g.Holds depth) (g place).entries vs)
    (here : (g.visit (convert depth) place i place).entries[i]? = some e)
    (holds : (g.visit (convert depth) place i).Holds depth e w) : w.HoldsNoId := by
  rcases visit_cases (convert depth) place g i with
    ⟨id, old, result⟩ | ⟨next, old, result⟩ | ⟨other, result⟩
  · have inside : i < (g place).entries.length := (List.getElem?_eq_some_iff.1 old).1
    rw [result, write, Function.update_self, Container.entries_write,
      List.getElem?_set_self inside] at here
    obtain rfl := Option.some.inj here
    rw [holds_value.1 holds]
    exact holdsNoId_withoutIds (.objectId id)
  · have becomes := (becomes_visit (becomes_convert depth) place g i place).2
    obtain ⟨v, -, before⟩ := exists_getElem?_right held old
    obtain ⟨e', there, kept⟩ := exists_getElem?_right becomes old
    obtain rfl := Option.some.inj (there.symm.trans here)
    cases kept
    have after := converting g next v before
    rw [← result] at after
    rw [holds_unique holds after]
    exact holdsNoId_withoutIds v
  · rw [result] at here holds
    obtain ⟨v, flat, rfl, noId⟩ := other e here
    rw [holds_value.1 holds, ← withoutIds_of_other flat noId]
    exact holdsNoId_withoutIds v

theorem Reached.visit (converting : Converting depth) {parts : List Value}
    (reached : Reached depth place parts i g) :
    Reached depth place parts (i + 1) (g.visit (convert depth) place i) := by
  obtain ⟨vs, held, same, free⟩ := reached
  have becomes := becomes_visit (becomes_convert depth) place g i
  obtain ⟨ws, held', under⟩ := exists_forall₂ held (becomes place).2 fun _ _ _ => becomes.holds
  refine ⟨ws, held', (Underway.map_withoutIds under).trans same, fun j below w found => ?_⟩
  rcases Nat.lt_succ_iff_lt_or_eq.1 below with earlier | rfl
  · obtain ⟨v, before, between⟩ := exists_getElem?_left under found
    have done := free j earlier v before
    rwa [between.done done]
  · obtain ⟨e, here, holds⟩ := exists_getElem?_left held' found
    exact holdsNoId_of_visit converting held here holds

theorem converting (depth : Nat) : Converting depth := by
  induction depth with
  | zero => exact fun h place v held => held.elim
  | succ depth ih =>
    rintro h place v ⟨parts, rfl, held⟩
    obtain ⟨vs, held', same, free⟩ : Reached depth place parts (h place).entries.length
        (h.convert (depth + 1) place) :=
      range_foldl_induction (P := Reached depth place parts)
        ⟨parts, held, rfl, fun j below => absurd below (Nat.not_lt_zero j)⟩
        fun i g _ reached => reached.visit ih
    -- All entries have been visited, so what they hold is converted already.
    have becomes := becomes_convert (depth + 1) place h place
    have length : vs.length = (h place).entries.length :=
      held'.length_eq.symm.trans becomes.2.length_eq.symm
    have whole : vs.map withoutIds = vs := by
      refine (List.map_congr_left fun v mem => ?_).trans (List.map_id vs)
      obtain ⟨j, found⟩ := List.getElem?_of_mem mem
      have below : j < vs.length := (List.getElem?_eq_some_iff.1 found).1
      exact withoutIds_eq_self_iff.2 (free j (length ▸ below) v found)
    refine ⟨vs, ?_, held'⟩
    rw [Container.withoutIds_holding, ← same, whole, Container.holding_congr becomes.1]

theorem holds_convert (held : h.Holds depth (.container place) v) :
    (h.convert depth place).Holds depth (.container place) (withoutIds v) :=
  converting depth h place v held

theorem convert_eq_self (held : h.Holds depth (.container place) v) (free : v.HoldsNoId) :
    h.convert depth place = h := by
  induction depth generalizing place v with
  | zero => rfl
  | succ depth ih =>
    obtain ⟨vs, rfl, each⟩ := held
    have clear {w : Value} (mem : w ∈ vs) : w.HoldsNoId :=
      free.part (by rwa [Container.parts_holding each.length_eq.symm])
    refine range_foldl_induction (P := fun _ g => g = h) rfl ?_
    rintro i g below rfl
    rcases visit_cases (convert depth) place g i with
      ⟨id, here, result⟩ | ⟨next, here, result⟩ | ⟨-, result⟩
    · obtain ⟨w, found, held⟩ := exists_getElem?_right each here
      obtain rfl := holds_value.1 held
      exact absurd rfl (clear (List.mem_of_getElem? found) [] id)
    · obtain ⟨w, found, held⟩ := exists_getElem?_right each here
      rw [result, ih held (clear (List.mem_of_getElem? found))]
    · exact result

/-! ## What is not reached -/

inductive Leads (h : Heap) : Nat → Nat → Prop
  | here (place : Nat) : Leads h place place
  | into {place next other : Nat} (inside : .container next ∈ (h place).entries)
      (there : Leads h next other) : Leads h place other

theorem Becomes.leads (becomes : h.Becomes g) {other : Nat} (leads : g.Leads place other) :
    h.Leads place other := by
  induction leads with
  | here place => exact .here place
  | @into place next other inside _ ih =>
    obtain ⟨j, found⟩ := List.getElem?_of_mem inside
    obtain ⟨e, before, kept⟩ := exists_getElem?_left (becomes place).2 found
    cases kept
    exact .into (List.mem_of_getElem? before) ih

theorem convert_of_not_leads {other : Nat} (apart : ¬h.Leads place other) :
    h.convert depth place other = h other := by
  induction depth generalizing place h with
  | zero => rfl
  | succ depth ih =>
    have run : h.Becomes (h.convert (depth + 1) place) ∧
        h.convert (depth + 1) place other = h other := by
      refine range_foldl_induction (P := fun _ g => h.Becomes g ∧ g other = h other)
        ⟨becomes_refl h, rfl⟩ ?_
      rintro i g - ⟨becomes, same⟩
      refine ⟨becomes.trans (becomes_visit (becomes_convert depth) place g i), ?_⟩
      have elsewhere : ¬g.Leads place other := fun leads => apart (becomes.leads leads)
      rcases visit_cases (convert depth) place g i with
        ⟨id, -, result⟩ | ⟨next, here, result⟩ | ⟨-, result⟩
      · have ne : other ≠ place := by
          rintro rfl
          exact elsewhere (.here other)
        rw [result, write, Function.update_of_ne ne, same]
      · have inner : ¬g.Leads next other := fun leads =>
          elsewhere (.into (List.mem_of_getElem? here) leads)
        rw [result, ih inner, same]
      · rw [result, same]
    exact run.2

/-! ## In place -/

/-- What lies at a place is converted where it lies. Nothing but identifiers is written over, in no
container but those it leads to, and to do it again does nothing. -/
theorem convert_in_place (held : h.Holds depth (.container place) v) :
    let g := h.convert depth place
    g.Holds depth (.container place) (converted v) ∧ h.Becomes g ∧ g.convert depth place = g ∧
      ∀ other, ¬h.Leads place other → g other = h other := by
  have boxed : ∀ id, v ≠ .objectId id := by
    cases depth with
    | zero => exact held.elim
    | succ depth =>
      obtain ⟨parts, rfl, -⟩ := held
      exact (h place).holding_ne_objectId parts
  have after := holds_convert held
  rw [converted_eq boxed]
  exact ⟨after, becomes_convert depth place h, convert_eq_self after (holdsNoId_withoutIds v),
    fun other apart => convert_of_not_leads apart⟩

end Heap
end Server
end Docbase
