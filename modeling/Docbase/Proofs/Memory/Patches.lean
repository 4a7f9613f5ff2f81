import Docbase.Proofs.Memory.Data
import Mathlib.Data.List.Infix

/-!
# Patches and index entries

A document that was patched agrees with another patched one wherever a patch has written. So if the
entry of a document is that of a patched one, it still is after the same patch, provided that the
patch does not put documents in the place of lists.
-/

namespace Docbase

open Memory.Contents (patched)

namespace Path

/-- Neither of two paths goes on from the other. -/
def Unrelated (p q : List String) : Prop := ¬p <+: q ∧ ¬q <+: p

instance (p q : List String) : Decidable (Unrelated p q) :=
  inferInstanceAs (Decidable (¬p <+: q ∧ ¬q <+: p))

theorem unrelated_cons {key : String} {p q : List String} :
    Unrelated (key :: p) (key :: q) ↔ Unrelated p q := by
  simp [Unrelated]

end Path

namespace Value

variable {v : Value}

def isList : Value → Bool
  | .list _ => true
  | _ => false

theorem follow_missing (parts : List String) : follow parts .missing = .ok .missing := by
  induction parts with
  | nil => rfl
  | cons part rest ih => exact ih

theorem follow_cons (part : String) (rest : List String) (fields : Document) :
    follow (part :: rest) (.doc fields) = follow rest (field part fields) := rfl

theorem container_cases (v : Value) :
    (∃ fields, v = .doc fields) ∨ (∃ items, v = .list items) ∨
      (∀ fields, v ≠ .doc fields) ∧ ∀ part rest, follow (part :: rest) v = .ok .missing := by
  cases v with
  | doc fields => exact .inl ⟨fields, rfl⟩
  | list items => exact .inr (.inl ⟨items, rfl⟩)
  | _ => exact .inr (.inr ⟨nofun, fun _ rest => follow_missing rest⟩)

theorem lookup_of_field {key : String} {d : Document} (h : field key d = v)
    (found : v ≠ .missing) : d.lookup key = some v := by
  rw [field] at h
  cases there : d.lookup key with
  | none => exact absurd (by simpa [there] using h.symm) found
  | some w => simpa [there] using h

end Value

namespace Document

variable {parts other : List String} {key : String} {rest : List String} {v u : Value}
  {d e : Document}

/-! ## Writes at paths -/

def inside (key : String) (d : Document) : Document :=
  match d.lookup key with
  | some (.doc fields) => fields
  | _ => []

theorem inside_of_lookup {fields : Document} (h : d.lookup key = some (.doc fields)) :
    inside key d = fields := by
  rw [inside, h]

theorem inside_of_field (h : ∀ fields, Value.field key d ≠ .doc fields) : inside key d = [] := by
  rw [inside]
  split
  · rename_i fields found
    exact absurd (by rw [Value.field, found, Option.getD_some]) (h fields)
  · rfl

theorem set_cons_cons (key next : String) (rest : List String) (v : Value) (d : Document) :
    Document.set (key :: next :: rest) v d =
      Fields.set key (.doc (Document.set (next :: rest) v (inside key d))) d := by
  rw [Document.set]
  · rfl
  · exact List.cons_ne_nil next rest

def Holds (v : Value) : List String → Document → Prop
  | [], _ => False
  | [key], d => d.lookup key = some v
  | key :: rest, d => ∃ inner, d.lookup key = some (.doc inner) ∧ Holds v rest inner

theorem holds_cons_cons {next : String} :
    Holds v (key :: next :: rest) d ↔
      ∃ inner, d.lookup key = some (.doc inner) ∧ Holds v (next :: rest) inner := by
  rw [Holds]
  simp

theorem holds_set (nonempty : parts ≠ []) : Holds v parts (Document.set parts v d) := by
  induction parts generalizing d with
  | nil => exact absurd rfl nonempty
  | cons key rest ih =>
    cases rest with
    | nil => simp [Holds, Document.set]
    | cons next rest =>
      rw [holds_cons_cons, set_cons_cons, Fields.lookup_set_self]
      exact ⟨_, rfl, ih (List.cons_ne_nil _ _)⟩

theorem Holds.set (h : Holds v parts d) (apart : Path.Unrelated parts other) (u : Value) :
    Holds v parts (Document.set other u d) := by
  induction parts generalizing other d with
  | nil => exact h.elim
  | cons key rest ih =>
    cases other with
    | nil => exact h
    | cons first others =>
      by_cases same : key = first
      · subst same
        have below := Path.unrelated_cons.1 apart
        cases rest with
        | nil => exact absurd List.nil_prefix below.1
        | cons next rest =>
          cases others with
          | nil => exact absurd List.nil_prefix below.2
          | cons second others =>
            obtain ⟨inner, found, held⟩ := holds_cons_cons.1 h
            rw [holds_cons_cons, set_cons_cons, Fields.lookup_set_self, inside_of_lookup found]
            exact ⟨_, rfl, ih held below⟩
      · cases rest with
        | nil =>
          rw [Holds, lookup_set_of_ne same]
          exact h
        | cons next rest =>
          obtain ⟨inner, found, held⟩ := holds_cons_cons.1 h
          rw [holds_cons_cons, lookup_set_of_ne same]
          exact ⟨inner, found, held⟩

/-- No list lies on the way to the end of a path. -/
def Open (parts : List String) (d : Document) : Prop :=
  ∀ before, before <+: parts → before ≠ parts → ∀ items,
    Value.follow before (.doc d) ≠ .ok (.list items)

instance (parts : List String) (d : Document) : Decidable (Open parts d) :=
  decidable_of_iff (∀ before ∈ parts.inits, before ≠ parts →
      (Value.follow before (.doc d)).toOption.all (!·.isList) = true) <| by
    unfold Open
    simp only [List.mem_inits]
    refine forall_congr' fun before => imp_congr_right fun _ => imp_congr_right fun _ => ?_
    cases Value.follow before (.doc d) with
    | error misuse => simp [Except.toOption]
    | ok v => cases v <;> simp [Except.toOption, Value.isList]

theorem open_cons {next : String} :
    Open (key :: next :: rest) d ↔
      (∀ items, Value.field key d ≠ .list items) ∧
        ∀ inner, d.lookup key = some (.doc inner) → Open (next :: rest) inner := by
  constructor
  · intro h
    constructor
    · intro items list
      apply h [key] (by simp) (by simp) items
      rw [Value.follow_cons, list]
      rfl
    · intro inner found before below shorter items
      have behind : Value.follow (key :: before) (.doc d) = Value.follow before (.doc inner) := by
        rw [Value.follow_cons, Value.field, found]
        rfl
      rw [← behind]
      apply h
      · exact List.cons_prefix_cons.2 ⟨rfl, below⟩
      · simpa using shorter
  · rintro ⟨noList, inside⟩ before below shorter items
    cases before with
    | nil =>
      intro list
      cases Except.ok.inj list
    | cons first before =>
      obtain ⟨rfl, further⟩ := List.cons_prefix_cons.1 below
      rw [Value.follow_cons]
      rcases Value.container_cases (Value.field first d) with ⟨inner, field⟩ | ⟨list, field⟩ |
        ⟨-, nowhere⟩
      · rw [field]
        apply inside inner (Value.lookup_of_field field (by simp)) before further
        simpa using shorter
      · exact absurd field (noList list)
      · cases before with
        | nil => exact fun list => noList items (Except.ok.inj list)
        | cons second before =>
          rw [nowhere]
          simp

theorem open_nil (parts : List String) : Open parts [] := by
  intro before _ _ items
  cases before with
  | nil => exact nofun
  | cons first before =>
    rw [Value.follow_cons]
    exact Value.follow_missing before ▸ nofun

theorem Open.inside {next : String} (h : Open (key :: next :: rest) d) :
    Open (next :: rest) (inside key d) := by
  rw [Document.inside]
  split
  · rename_i fields found
    exact (open_cons.1 h).2 fields found
  · exact open_nil _

theorem Open.set (h : Open parts d) (apart : Path.Unrelated parts other) (u : Value) :
    Open parts (Document.set other u d) := by
  induction parts generalizing other d with
  | nil => exact absurd List.nil_prefix apart.1
  | cons key rest ih =>
    cases other with
    | nil => exact h
    | cons first others =>
      cases rest with
      | nil =>
        intro before below shorter items
        cases before with
        | nil =>
          intro list
          cases Except.ok.inj list
        | cons second before =>
          obtain ⟨rfl, rest⟩ := List.cons_prefix_cons.1 below
          obtain rfl := List.prefix_nil.1 rest
          exact absurd rfl shorter
      | cons next rest =>
        rw [open_cons]
        by_cases same : key = first
        · subst same
          have below := Path.unrelated_cons.1 apart
          cases others with
          | nil => exact absurd List.nil_prefix below.2
          | cons second others =>
            rw [set_cons_cons, Value.field, Fields.lookup_set_self]
            refine ⟨by simp, ?_⟩
            rintro _ ⟨⟩
            exact ih h.inside below
        · rw [Value.field, lookup_set_of_ne same]
          exact open_cons.1 h

end Document

/-! ## Entries -/

namespace Value

variable {fields others : Document} {key : String} {u w : Value}

theorem same_fieldEntry {k l : String} {a b : Value}
    (h : same (.tuple [.str k, a]) (.tuple [.str l, b]) = true) : k = l ∧ same a b = true := by
  simpa [same, sameItems, sameScalar] using h

theorem sameItems_set (h : sameItems (fieldEntries fields) (fieldEntries others) = true)
    (found : others.lookup key = some u)
    (written : ∀ x, fields.lookup key = some x → same x.entry u.entry = true →
      same w.entry u.entry = true) :
    sameItems (fieldEntries (Fields.set key w fields)) (fieldEntries others) = true := by
  induction fields generalizing others with
  | nil =>
    cases others with
    | nil => cases found
    | cons other rest => cases h
  | cons field rest ih =>
    obtain ⟨k, x⟩ := field
    cases others with
    | nil => cases h
    | cons other others =>
      obtain ⟨l, y⟩ := other
      rw [fieldEntries, fieldEntries, sameItems, Bool.and_eq_true] at h
      obtain ⟨here, there⟩ := h
      obtain ⟨rfl, entries⟩ := same_fieldEntry here
      by_cases same : k = key
      · subst same
        rw [List.lookup_cons_self] at found
        obtain rfl := Option.some.inj found
        have new := written x List.lookup_cons_self entries
        simp [Fields.set, fieldEntries, sameItems, Value.same, sameScalar, new, there]
      · have different : (key == k) = false := beq_false_of_ne (Ne.symm same)
        rw [List.lookup_cons, different] at found
        have later := ih there found fun x hx => written x (by rwa [List.lookup_cons, different])
        simp [Fields.set, same, fieldEntries, sameItems, Value.same, sameScalar, entries, later]

theorem container_of_same_tuple {x : Value} {items : List Value} (data : x.isData = true)
    (h : same x.entry (.tuple items) = true) :
    (∃ fields, x = .doc fields) ∨ ∃ items, x = .list items := by
  cases x with
  | doc fields => exact .inl ⟨fields, rfl⟩
  | list items => exact .inr ⟨items, rfl⟩
  | tuple => cases data
  | flat => cases data
  | anyOf => cases data
  | allOf => cases data
  | joinTo => cases data
  | _ => simp [entry, same, sameScalar, numeral?] at h

theorem isData_field (data : (Value.doc fields).isData = true) (key : String) :
    (field key fields).isData = true := by
  rw [field]
  cases found : fields.lookup key with
  | none => rfl
  | some v => exact isData_doc.1 data _ (Fields.mem_of_lookup found)

theorem isData_follow {v : Value} {parts : List String} (data : v.isData = true)
    (run : follow parts v = .ok w) : w.isData = true := by
  refine follow_induction (P := fun v => v.isData = true) rfl ?_ ?_ data run
  · exact fun fields h => isData_doc.1 h
  · exact fun items h => areData_iff.1 h

end Value

namespace Document

variable {parts keys : List String} {v : Value} {d e : Document}

def Alike (keys : List String) (d e : Document) : Prop :=
  ∃ x y, Value.follow keys (.doc d) = .ok x ∧ Value.follow keys (.doc e) = .ok y ∧
    Value.same x.entry y.entry = true

theorem alike_nil : Alike [] d e ↔
    Value.sameItems (Value.fieldEntries d) (Value.fieldEntries e) = true := by
  constructor
  · rintro ⟨x, y, read, read', same⟩
    obtain rfl := Except.ok.inj read
    obtain rfl := Except.ok.inj read'
    exact same
  · exact fun same => ⟨.doc d, .doc e, rfl, rfl, same⟩

theorem alike_self {key : String} {rest : List String} {u : Value}
    (here : d.lookup key = some u) (there : e.lookup key = some u) (data : u.isData = true)
    (reads : ∃ y, Value.follow rest u = .ok y) : Alike (key :: rest) d e := by
  obtain ⟨y, read⟩ := reads
  refine ⟨y, y, ?_, ?_, Value.same_self (Value.hashable_entry (Value.isData_follow data read))⟩
  · rwa [Value.follow_cons, Value.field, here]
  · rwa [Value.follow_cons, Value.field, there]

theorem alike_cons {key : String} {fields others : Document}
    (here : d.lookup key = some (.doc fields)) (there : e.lookup key = some (.doc others)) :
    Alike (key :: keys) d e ↔ Alike keys fields others := by
  rw [Alike, Value.follow_cons, Value.follow_cons, Value.field, Value.field, here, there]
  rfl

theorem isData_inside (data : (Value.doc d).isData = true) (key : String) :
    (Value.doc (inside key d)).isData = true := by
  rw [inside]
  split
  · rename_i fields found
    exact Value.isData_doc.1 data _ (Fields.mem_of_lookup found)
  · rfl

theorem Alike.inside {key : String} {others : Document} (h : Alike (key :: keys) d e)
    (data : (Value.doc d).isData = true) (noList : ∀ items, Value.field key d ≠ .list items)
    (found : e.lookup key = some (.doc others)) : Alike keys (inside key d) others := by
  rcases Value.container_cases (Value.field key d) with ⟨fields, field⟩ | ⟨items, field⟩ |
    ⟨noDoc, nowhere⟩
  · have here := Value.lookup_of_field field nofun
    rw [inside_of_lookup here]
    exact (alike_cons here found).1 h
  · exact absurd field (noList items)
  · obtain ⟨x, y, read, read', same⟩ := h
    rw [Value.follow_cons] at read
    rw [Value.follow_cons, Value.field, found] at read'
    rw [inside_of_field noDoc]
    cases keys with
    | nil =>
      obtain rfl := Except.ok.inj read
      obtain rfl := Except.ok.inj read'
      rcases Value.container_of_same_tuple (Value.isData_field data key) same with
        ⟨fields, field⟩ | ⟨items, field⟩
      · exact absurd field (noDoc fields)
      · exact absurd field (noList items)
    | cons next keys =>
      rw [nowhere] at read
      obtain rfl := Except.ok.inj read
      exact ⟨.missing, y, Value.follow_missing keys, read', same⟩

theorem Alike.set (h : Alike keys d e) (held : Holds v parts e) (opened : Open parts d)
    (data : (Value.doc d).isData = true) (data' : (Value.doc e).isData = true) :
    Alike keys (Document.set parts v d) e := by
  -- On the path that is written. What is below its first name stays alike, whether an index goes on
  -- there or takes in the whole document.
  induction parts generalizing keys d e with
  | nil => exact held.elim
  | cons key rest ih =>
    cases rest with
    | nil =>
      have entry : v.isData = true := Value.isData_doc.1 data' _ (Fields.mem_of_lookup held)
      rw [Document.set]
      cases keys with
      | nil =>
        rw [alike_nil] at h ⊢
        exact Value.sameItems_set h held fun _ _ _ => Value.same_self (Value.hashable_entry entry)
      | cons first keys =>
        by_cases same : first = key
        · subst same
          obtain ⟨-, y, -, read, -⟩ := h
          rw [Value.follow_cons, Value.field, held] at read
          exact alike_self (Fields.lookup_set_self _ _ _) held entry ⟨y, read⟩
        · rwa [Alike, Value.follow_cons, Value.field, Fields.lookup_set_of_ne same]
    | cons next rest =>
      obtain ⟨others, found, held⟩ := holds_cons_cons.1 held
      have noList := (open_cons.1 opened).1
      have below {keys : List String} (h : Alike (key :: keys) d e) :
          Alike keys (Document.set (next :: rest) v (Document.inside key d)) others :=
        ih (h.inside data noList found) held opened.inside (isData_inside data key)
          (Value.isData_doc.1 data' _ (Fields.mem_of_lookup found))
      rw [set_cons_cons]
      cases keys with
      | nil =>
        rw [alike_nil] at h ⊢
        apply Value.sameItems_set h found
        intro x here same
        have fields : Alike [key] d e := by
          refine ⟨x, .doc others, ?_, ?_, same⟩
          · rw [Value.follow_cons, Value.field, here]
            rfl
          · rw [Value.follow_cons, Value.field, found]
            rfl
        exact alike_nil.1 (below fields)
      | cons first keys =>
        by_cases same : first = key
        · subst same
          rw [alike_cons (Fields.lookup_set_self _ _ _) found]
          exact below h
        · rwa [Alike, Value.follow_cons, Value.field, Fields.lookup_set_of_ne same]

/-! ## Patches -/

/-- The paths of a patch, none of which goes on from another one. -/
def ApartPaths (patch : Document) : Prop :=
  patch.Pairwise fun f g => Path.Unrelated (Path.parts f.1) (Path.parts g.1)

instance (patch : Document) : Decidable (ApartPaths patch) :=
  inferInstanceAs (Decidable (List.Pairwise _ patch))

theorem holds_patched {patch : Document} (apart : ApartPaths patch) (d : Document) :
    ∀ f ∈ patch, Holds f.2 (Path.parts f.1) (patched d patch) := by
  have kept {parts : List String} {v : Value} {patch : Document}
      (apart : ∀ f ∈ patch, Path.Unrelated parts (Path.parts f.1)) {d : Document}
      (h : Holds v parts d) : Holds v parts (patched d patch) := by
    refine List.foldlRecOn (motive := Holds v parts) patch _ h ?_
    exact fun d h f mem => h.set (apart f mem) f.2
  induction patch generalizing d with
  | nil => exact fun f mem => absurd mem List.not_mem_nil
  | cons first rest ih =>
    obtain ⟨others, apart⟩ := List.pairwise_cons.1 apart
    rw [List.forall_mem_cons]
    constructor
    · obtain ⟨parts, path⟩ := Path.exists_parts first.1
      apply kept others
      apply holds_set
      rw [path]
      exact List.cons_ne_nil _ _
    · exact ih apart (Document.set (Path.parts first.1) first.2 d)

/-- The entry of a patched document stays the entry of another one that is patched. -/
theorem Alike.patched {patch : Document} (h : Alike keys d e) (apart : ApartPaths patch)
    (held : ∀ f ∈ patch, Holds f.2 (Path.parts f.1) e)
    (opened : ∀ f ∈ patch, Open (Path.parts f.1) d) (data : (Value.doc d).isData = true)
    (data' : (Value.doc e).isData = true) (values : (Value.doc patch).isData = true) :
    Alike keys (Memory.Contents.patched d patch) e := by
  induction patch generalizing d with
  | nil => exact h
  | cons first rest ih =>
    obtain ⟨others, apart⟩ := List.pairwise_cons.1 apart
    obtain ⟨held, heldOthers⟩ := List.forall_mem_cons.1 held
    obtain ⟨opened, openedOthers⟩ := List.forall_mem_cons.1 opened
    obtain ⟨value, values⟩ := List.forall_mem_cons.1 (Value.isData_doc.1 values)
    refine ih (h.set held opened data data') apart heldOthers (fun f mem => ?_)
      (Memory.isData_set value data) (Value.isData_doc.2 values)
    exact (openedOthers f mem).set ⟨(others f mem).2, (others f mem).1⟩ first.2

end Document

namespace Memory.Index

variable {keys : List String} {d e : Document} {entry other : List Value}

theorem entryOf_cons {key : String} :
    entryOf (key :: keys) d = .ok entry ↔ ∃ v rest, Value.follow (Path.parts key) (.doc d) = .ok v ∧
      entryOf keys d = .ok rest ∧ entry = v.entry :: rest := by
  rw [entryOf, List.mapM_cons]
  simp only [Except.bind_eq_ok, Except.pure_eq_ok]
  constructor
  · rintro ⟨_, ⟨v, found, rfl⟩, rest, others, rfl⟩
    exact ⟨v, rest, found, others, rfl⟩
  · rintro ⟨v, rest, found, others, rfl⟩
    exact ⟨v.entry, ⟨v, found, rfl⟩, rest, others, rfl⟩

theorem sameItems_patched {patch : Document} (apart : Document.ApartPaths patch)
    (opened : ∀ f ∈ patch, Document.Open (Path.parts f.1) d) (data : (Value.doc d).isData = true)
    (data' : (Value.doc e).isData = true) (values : (Value.doc patch).isData = true)
    (read : entryOf keys d = .ok entry) (read' : entryOf keys (patched e patch) = .ok other)
    (same : Value.sameItems entry other = true) :
    ∃ new, entryOf keys (patched d patch) = .ok new ∧ Value.sameItems new other = true := by
  induction keys generalizing entry other with
  | nil => exact ⟨[], rfl, by rwa [← Except.pure_eq_ok.1 read] at same⟩
  | cons key keys ih =>
    obtain ⟨x, entries, found, rest, rfl⟩ := entryOf_cons.1 read
    obtain ⟨y, others, found', rest', rfl⟩ := entryOf_cons.1 read'
    rw [Value.sameItems, Bool.and_eq_true] at same
    have alike : Document.Alike (Path.parts key) d (patched e patch) :=
      ⟨x, y, found, found', same.1⟩
    obtain ⟨x', y', new, old, equal⟩ :=
      alike.patched apart (Document.holds_patched apart e) opened
      data (isData_patched values data') values
    obtain rfl := Except.ok.inj (found'.symm.trans old)
    obtain ⟨later, there, equals⟩ := ih rest rest' same.2
    refine ⟨x'.entry :: later, entryOf_cons.2 ⟨x', later, new, there, rfl⟩, ?_⟩
    rw [Value.sameItems, equal, equals, Bool.and_self]

end Memory.Index
end Docbase
