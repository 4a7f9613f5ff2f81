import Docbase.Proofs.Memory.Patches
import Docbase.Proofs.Pipeline.Inclusion
import Docbase.Proofs.Pipeline.Unshared

/-!
# What writes to some paths leave alone

A pipeline writes content to paths, and some of the content may be shared with other parts of the
draft. Wherever a path leads that none of the written paths starts, there is what was there before,
as far as its kind goes, or a new document on the way to a written path, or nothing. If no path is
written behind shared content, a write finds the document that it is meant for in one place. So a
path that has nothing to do with the written ones leads to the same part as before.
-/

namespace Docbase

open Docbase.Path (Unrelated)

namespace Write

open Node (Through follow follow_append absent)

variable {w : Write} {content root : Node} {parts before rest : List String} {next : Nat}

/-- A write puts content at a path: into the last document on the way, inside new documents for the
rest of the path. -/
structure Puts (w : Write) (content : Node) (parts : List String) (root : Node) (next : Nat)
    (before rest : List String) : Prop where
  parts_eq : parts = before ++ w.key :: rest
  owner : ∃ fields, follow before root = .ok (.doc w.owner fields)
  through : Through before root
  content_eq : w.content.getD absent = (nest rest content next).1
  last : rest ≠ [] → ∀ m fields, follow (before ++ [w.key]) root ≠ .ok (.doc m fields)

theorem Puts.proper (puts : w.Puts content parts root next before rest) :
    before <+: parts ∧ before ≠ parts := by
  rw [puts.parts_eq]
  exact ⟨List.prefix_append _ _, by simp⟩

theorem Puts.key_le (puts : w.Puts content parts root next before rest) :
    before ++ [w.key] <+: parts := by
  rw [puts.parts_eq]
  simp

theorem Puts.le (puts : w.Puts content parts root next before rest) (beyond : List String) :
    parts <+: before ++ w.key :: (rest ++ beyond) := by
  rw [puts.parts_eq]
  simp

theorem exists_puts_placing (content : Node) (nonempty : parts ≠ [])
    (fields : List (String × Node)) (next : Nat) :
    ∃ w before rest, placing content 0 parts fields next = (w, next + rest.length) ∧
      w.Puts content parts (.doc 0 fields) next before rest := by
  obtain ⟨before, key, rest, m, inside, parts_eq, owner, through, run, last⟩ :=
    placing_cases content 0 nonempty fields next
  refine ⟨_, before, rest, run, parts_eq, ⟨inside, owner⟩, through, rfl, fun more m' fields' => ?_⟩
  rw [follow_append, owner]
  intro found
  exact last more m' fields' (Node.lookup_of_present (Except.ok.inj found) nofun)

theorem removing_cases (owner : Nat) (nonempty : parts ≠ []) (fields : List (String × Node)) :
    (∃ before key m inside, parts = before ++ [key] ∧
      follow before (.doc owner fields) = .ok (.doc m inside) ∧
      Through before (.doc owner fields) ∧
      removing owner parts fields = some { owner := m, key, content := none }) ∨
    removing owner parts fields = none ∧ ∃ before node, before <+: parts ∧ before ≠ parts ∧
      follow before (.doc owner fields) = .ok node ∧ ∀ m inside, node ≠ .doc m inside := by
  induction parts generalizing owner fields with
  | nil => exact absurd rfl nonempty
  | cons key rest ih =>
    cases rest with
    | nil => exact .inl ⟨[], key, owner, fields, rfl, rfl, Node.through_nil, rfl⟩
    | cons next rest =>
      by_cases goesOn : ∃ m inner, fields.lookup key = some (.doc m inner)
      · obtain ⟨m, inner, found⟩ := goesOn
        have deeper : removing owner (key :: next :: rest) fields =
            removing m (next :: rest) inner := by
          rw [removing]
          · rw [found]
          · simp
        have step (before : List String) : follow (key :: before) (.doc owner fields) =
            follow before (.doc m inner) := by
          rw [Node.follow_cons_doc, found, Option.getD_some]
        rw [deeper]
        refine (ih m (List.cons_ne_nil _ _) inner).imp ?_ ?_
        · rintro ⟨before, last, m', inside, parts_eq, there, through, run⟩
          refine ⟨key :: before, last, m', inside, ?_, ?_, ?_, run⟩
          · rw [parts_eq, List.cons_append]
          · rw [step]
            exact there
          · rw [Node.through_cons_doc, found, Option.getD_some]
            exact through
        · rintro ⟨run, before, node, le, ne, there, stuck⟩
          refine ⟨run, key :: before, node, List.cons_prefix_cons.2 ⟨rfl, le⟩, ?_, ?_, stuck⟩
          · exact fun same => ne (List.cons.inj same).2
          · rw [step]
            exact there
      · refine .inr ⟨?_, [key], _, by simp, by simp, rfl, fun m inside there => ?_⟩
        · rw [removing]
          · cases found : fields.lookup key with
            | none => rfl
            | some inner =>
              cases inner with
              | doc m inner => exact absurd ⟨m, inner, found⟩ goesOn
              | _ => rfl
          · simp
        · exact goesOn ⟨m, inside, Node.lookup_of_present there (by rintro ⟨⟩)⟩

theorem assigning_cases (path : String) (content : Node) (fields : List (String × Node))
    (next : Nat) :
    (∃ w before rest, assigning path content fields next = (some w, next + rest.length) ∧
      w.Puts content (Path.parts path) (.doc 0 fields) next before rest) ∨
    assigning path content fields next = (none, next) ∧ content = absent ∧
      ∃ before node, before <+: Path.parts path ∧ before ≠ Path.parts path ∧
        follow before (.doc 0 fields) = .ok node ∧ ∀ m inside, node ≠ .doc m inside := by
  have nonempty := Path.parts_ne_nil path
  unfold assigning
  cases present : content.isAbsent with
  | true =>
    obtain rfl := Node.isAbsent_iff.1 present
    rw [if_pos rfl]
    rcases removing_cases 0 nonempty fields with
      ⟨before, key, m, inside, parts_eq, owner, through, run⟩ | ⟨run, nowhere⟩
    · rw [run]
      exact .inl ⟨_, before, [], rfl, parts_eq, ⟨inside, owner⟩, through, rfl,
        fun more => absurd rfl more⟩
    · rw [run]
      exact .inr ⟨rfl, rfl, nowhere⟩
  | false =>
    rw [if_neg Bool.false_ne_true]
    obtain ⟨w, before, rest, run, puts⟩ := exists_puts_placing content nonempty fields next
    refine .inl ⟨w, before, rest, ?_, puts⟩
    change (some (placing content 0 (Path.parts path) fields next).1,
      (placing content 0 (Path.parts path) fields next).2) = _
    rw [run]

theorem step_written (w : Write) (fields : List (String × Node)) :
    (w.carryOut (.doc w.owner fields)).step w.key = .ok (w.content.getD absent) := by
  rw [carryOut, if_pos rfl, Node.step, apply]
  cases w.content with
  | some content => rw [Fields.lookup_set_self]
  | none => rw [Fields.lookup_erase_self]

end Write

namespace Node

variable {root source node content : Node} {names shared : List (List String)}
  {n c b q before rest : List String} {bound next m : Nat} {w : Write}
  {fields inside : List (String × Node)}

theorem follow_leaf {v : Value} (nonempty : c ≠ []) : follow c (leaf v) = .ok absent := by
  cases c with
  | nil => exact absurd rfl nonempty
  | cons part rest => exact follow_absent rest

/-! ## What a path may lead to -/

def Free (names : List (List String)) (c : List String) : Prop := ∀ n ∈ names, ¬n <+: c

theorem Free.of_le (free : Free names c) (le : b <+: c) : Free names b :=
  fun n mem le' => free n mem (le'.trans le)

/-- A path leads to nothing, to a new document, or to what it led to in a source, if with other
contents. -/
inductive Kin (source root : Node) (bound next : Nat) (c : List String) : Node → Prop
  | absent : Kin source root bound next c absent
  | new {mark : Nat} {inner : List (String × Node)} (ge : bound ≤ mark) (lt : mark < next) :
    Kin source root bound next c (doc mark inner)
  | old {after was : Node} (found : follow c source = .ok was) (head : after.head = was.head)
      (through : Through c root → Through c source) : Kin source root bound next c after

/-- A path that no written one starts, or one that leads through documents and past no content that
may be shared. -/
def Known (names shared : List (List String)) (root : Node) (c : List String) : Prop :=
  Free names c ∨ Free shared c ∧ Through c root

theorem Known.of_le (known : Known names shared root c) (le : b <+: c) :
    Known names shared root b :=
  known.imp (·.of_le le) fun ⟨free, through⟩ => ⟨free.of_le le, through.of_le le⟩

/-- What a source has become by writes to some paths, as far as the paths lead that none of them
starts, and the documents that lead past content that is not shared. -/
structure Grown (source : Node) (bound : Nat) (names shared : List (List String)) (next : Nat)
    (root : Node) : Prop where
  le : bound ≤ next
  kin : ∀ {c node}, Free names c → follow c root = .ok node → Kin source root bound next c node
  inner : ∀ {c m fields}, Free shared c → Through c root → follow c root = .ok (doc m fields) →
    bound ≤ m ∧ m < next ∨ (∃ was, follow c source = .ok (doc m was)) ∧ Through c source
  single : ∀ {m c b fields inside}, Known names shared root c → Known names shared root b →
    bound ≤ m → follow c root = .ok (doc m fields) → follow b root = .ok (doc m inside) → b = c

theorem grown_self (unshared : Unshared source bound) (names shared : List (List String)) :
    Grown source bound names shared bound source where
  le := Nat.le_refl bound
  kin _ found := .old found rfl id
  inner _ through found := .inr ⟨⟨_, found⟩, through⟩
  single _ _ ge found _ := absurd (unshared.lt found) (Nat.not_lt.2 ge)

theorem Grown.mono {names' shared' : List (List String)}
    (h : Grown source bound names shared next root) (le : names ⊆ names')
    (le' : shared ⊆ shared') : Grown source bound names' shared' next root := by
  have less {few more : List (List String)} (le : few ⊆ more) {c : List String}
      (free : Free more c) : Free few c := fun n mem => free n (le mem)
  have known {c : List String} (known : Known names' shared' root c) : Known names shared root c :=
    known.imp (less le) fun ⟨free, through⟩ => ⟨less le' free, through⟩
  exact {
    le := h.le
    kin := fun free => h.kin (less le free)
    inner := fun free => h.inner (less le' free)
    single := fun here there => h.single (known here) (known there) }

theorem Grown.later {next' : Nat} (h : Grown source bound names shared next root)
    (le : next ≤ next') : Grown source bound names shared next' root where
  le := Nat.le_trans h.le le
  kin free found := by
    cases h.kin free found with
    | absent => exact .absent
    | new ge lt => exact .new ge (Nat.lt_of_lt_of_le lt le)
    | old found head through => exact .old found head through
  inner free through found :=
    (h.inner free through found).imp_left fun ⟨ge, lt⟩ => ⟨ge, Nat.lt_of_lt_of_le lt le⟩
  single := h.single

theorem Grown.kin_doc (h : Grown source bound names shared next root)
    (known : Known names shared root c) (found : follow c root = .ok (doc m fields)) :
    bound ≤ m ∧ m < next ∨ (∃ was, follow c source = .ok (doc m was)) ∧
      (Through c root → Through c source) := by
  rcases known with free | ⟨free, through⟩
  · cases h.kin free found with
    | new ge lt => exact .inl ⟨ge, lt⟩
    | old found head through =>
      obtain ⟨was, rfl⟩ := exists_doc_of_head head
      exact .inr ⟨⟨was, found⟩, through⟩
  · exact (h.inner free through found).imp_right fun ⟨was, through⟩ => ⟨was, fun _ => through⟩

theorem Grown.kin_list {items : List Node} (h : Grown source bound names shared next root)
    (free : Free names c) (found : follow c root = .ok (list items)) :
    ∃ was, follow c source = .ok (list was) := by
  cases h.kin free found with
  | @old _ was found head _ =>
    cases was with
    | list was => exact ⟨was, found⟩
    | _ => cases head

theorem Grown.eq_of_mark (h : Grown source bound names shared next root)
    (unshared : Unshared source bound) (known : Known names shared root c)
    (known' : Known names shared root b) (through : Through c root)
    (found : follow c root = .ok (doc m fields)) (found' : follow b root = .ok (doc m inside)) :
    b = c := by
  rcases h.kin_doc known found with ⟨ge, -⟩ | ⟨⟨was, there⟩, transfer⟩
  · exact h.single known known' ge found found'
  · rcases h.kin_doc known' found' with ⟨ge, -⟩ | ⟨⟨was', there'⟩, -⟩
    · exact absurd (unshared.lt there) (Nat.not_lt.2 ge)
    · exact unshared.eq_of_mark (transfer through) there there'

/-! ## One write -/

section
variable (h : Grown source bound names shared next root) (unshared : Unshared source bound)
  (puts : w.Puts content n root next before rest) (free : Free shared before)
include h unshared puts free

theorem Grown.moved (known : ∀ b, b <+: c → b ≠ c → Known names shared root b)
    (apart : ¬before ++ [w.key] <+: c) :
    follow c (w.carryOut root) = (follow c root).map w.carryOut := by
  apply Write.follow_carryOut
  intro before' rest' fields parts hit
  obtain ⟨inside, owner⟩ := puts.owner
  have proper : before' <+: c ∧ before' ≠ c := by
    rw [parts]
    exact ⟨List.prefix_append _ _, by simp⟩
  obtain rfl := h.eq_of_mark unshared (.inr ⟨free, puts.through⟩) (known _ proper.1 proper.2)
    puts.through owner hit
  refine absurd ?_ apart
  rw [parts]
  simp

/-- Where a path leads that goes through what is written. -/
theorem Grown.into (behind : List String) :
    follow (before ++ w.key :: behind) (w.carryOut root) =
      follow behind (Write.nest rest content next).1 := by
  obtain ⟨inside, owner⟩ := puts.owner
  have known : Known names shared root before := .inr ⟨free, puts.through⟩
  have beyond : ¬before ++ [w.key] <+: before := by
    intro le
    have shorter := le.length_le
    rw [List.length_append, List.length_singleton] at shorter
    omega
  rw [follow_append, h.moved unshared puts free (fun b le _ => known.of_le le) beyond, owner]
  show follow (w.key :: behind) (w.carryOut (.doc w.owner inside)) = _
  rw [follow, Write.step_written, puts.content_eq]
  rfl

theorem Grown.follow_put : follow n (w.carryOut root) = .ok content := by
  rw [puts.parts_eq, h.into unshared puts free]
  rcases Write.follow_nest rest content next rest with
    ⟨behind, eq, there⟩ | ⟨fields, -, shorter, -⟩ | ⟨apart, -⟩
  · rw [there, List.self_eq_append_right.1 eq]
    rfl
  · exact absurd shorter (Nat.lt_irrefl _)
  · exact absurd List.prefix_rfl apart

theorem Grown.exists_doc_of_put (le : n <+: c) (through : Through c (w.carryOut root))
    (found : follow c (w.carryOut root) = .ok (doc m fields)) :
    ∃ m fields, content = .doc m fields := by
  obtain ⟨m, fields, doc⟩ := through.exists_doc found le
  exact ⟨m, fields, Except.ok.inj ((h.follow_put unshared puts free).symm.trans doc)⟩

theorem Grown.into_or_moved (mem : n ∈ names) (frees : Free names c) :
    (∃ behind, c = before ++ w.key :: behind ∧ (follow c (w.carryOut root) = .ok absent ∨
      ∃ fields, behind <+: rest ∧
        follow c (w.carryOut root) = .ok (.doc (next + behind.length) fields) ∧
        behind.length < rest.length)) ∨
    ∀ b, b <+: c → follow b (w.carryOut root) = (follow b root).map w.carryOut := by
  by_cases through : before ++ [w.key] <+: c
  · left
    obtain ⟨behind, rfl⟩ := through
    rw [List.append_assoc, List.singleton_append] at frees ⊢
    refine ⟨behind, rfl, ?_⟩
    rw [h.into unshared puts free]
    rcases Write.follow_nest rest content next behind with
      ⟨beyond, rfl, -⟩ | ⟨fields, le, shorter, there⟩ | ⟨-, nowhere⟩
    · exact absurd (puts.le beyond) (frees n mem)
    · exact .inr ⟨fields, le, there, shorter⟩
    · exact .inl nowhere
  · right
    intro b le
    exact h.moved unshared puts free (fun b' le' _ => .inl (frees.of_le (le'.trans le)))
      fun into => through (into.trans le)

theorem Grown.through_moved (frees : Free shared c) (apart : ¬before ++ [w.key] <+: c)
    (through : Through c (w.carryOut root)) : Through c root := by
  -- From the end: the last document has not moved, because those before it have not.
  induction c using List.reverseRecOn with
  | nil => exact through_nil
  | append_singleton c part ih =>
    have shorter : c <+: c ++ [part] := List.prefix_append c [part]
    have off : ¬before ++ [w.key] <+: c := fun into => apart (into.trans shorter)
    have here := ih (frees.of_le shorter) off (through.of_le shorter)
    obtain ⟨m, fields, doc⟩ := through c shorter (by simp)
    have known : Known names shared root c := .inr ⟨frees.of_le shorter, here⟩
    have moved := h.moved unshared puts free (fun b le _ => known.of_le le) off
    obtain ⟨inside, there⟩ := Write.exists_doc_of_map (moved.symm.trans doc)
    intro b le ne
    rcases List.prefix_concat_iff.1 le with whole | le
    · exact absurd whole ne
    · exact here.exists_doc there le

theorem Grown.into_or_known (plain : n ∈ shared ∨ ∀ m fields, content ≠ .doc m fields)
    (frees : Free shared c) (through : Through c (w.carryOut root))
    (found : follow c (w.carryOut root) = .ok (doc m fields)) :
    (∃ behind, c = before ++ w.key :: behind ∧ behind <+: rest ∧ m = next + behind.length ∧
      behind.length < rest.length) ∨
    Through c root ∧ ∃ inside, follow c root = .ok (doc m inside) := by
  by_cases into : before ++ [w.key] <+: c
  · left
    obtain ⟨behind, rfl⟩ := into
    rw [List.append_assoc, List.singleton_append] at frees through found ⊢
    have leads := (h.into unshared puts free behind).symm.trans found
    rcases Write.follow_nest rest content next behind with
      ⟨beyond, rfl, -⟩ | ⟨fields, le, shorter, there⟩ | ⟨-, nowhere⟩
    · -- Behind content that is not shared there are no documents.
      have whole := puts.le beyond
      rcases plain with mem | plain
      · exact absurd whole (frees n mem)
      · obtain ⟨m, fields, eq⟩ := h.exists_doc_of_put unshared puts free whole through found
        exact absurd eq (plain m fields)
    · obtain ⟨rfl, -⟩ := Node.doc.inj (Except.ok.inj (leads.symm.trans there))
      exact ⟨behind, rfl, le, rfl, shorter⟩
    · cases leads.symm.trans nowhere
  · right
    have here := h.through_moved unshared puts free frees into through
    have known : Known names shared root c := .inr ⟨frees, here⟩
    have moved := h.moved unshared puts free (fun b le _ => known.of_le le) into
    exact ⟨here, Write.exists_doc_of_map (moved.symm.trans found)⟩

theorem Grown.kin_put (mem : n ∈ names) (frees : Free names c)
    (found : follow c (w.carryOut root) = .ok node) :
    Kin source (w.carryOut root) bound (next + rest.length) c node := by
  rcases h.into_or_moved unshared puts free mem frees with
    ⟨behind, rfl, nowhere | ⟨fields, -, there, shorter⟩⟩ | moved
  · obtain rfl := Except.ok.inj (found.symm.trans nowhere)
    exact .absent
  · obtain rfl := Except.ok.inj (found.symm.trans there)
    exact .new (Nat.le_add_right_of_le h.le) (by omega)
  · have there := (moved c List.prefix_rfl).symm.trans found
    cases was : follow c root with
    | error misuse =>
      rw [was] at there
      cases there
    | ok before =>
      rw [was] at there
      obtain rfl := Except.ok.inj there
      cases h.kin frees was with
      | absent => exact .absent
      | new ge lt => exact .new ge (Nat.lt_add_right _ lt)
      | old found' head transfer =>
        refine .old found' ((head_carryOut w before).trans head) fun docs => transfer ?_
        intro b le ne
        obtain ⟨m, fields, doc⟩ := docs b le ne
        obtain ⟨inside, doc⟩ := Write.exists_doc_of_map ((moved b le).symm.trans doc)
        exact ⟨m, inside, doc⟩

theorem Grown.origin (mem : n ∈ names) (plain : n ∈ shared ∨ ∀ m fields, content ≠ .doc m fields)
    (known : Known names shared (w.carryOut root) c) (ge : bound ≤ m)
    (found : follow c (w.carryOut root) = .ok (doc m fields)) :
    (∃ behind, c = before ++ w.key :: behind ∧ behind <+: rest ∧ m = next + behind.length) ∨
      m < next ∧ Known names shared root c ∧ ∃ inside, follow c root = .ok (doc m inside) := by
  have older {inside} (known : Known names shared root c)
      (there : follow c root = .ok (doc m inside)) : m < next := by
    rcases h.kin_doc known there with ⟨-, lt⟩ | ⟨⟨was, old⟩, -⟩
    · exact lt
    · exact absurd (unshared.lt old) (Nat.not_lt.2 ge)
  rcases known with frees | ⟨frees, through⟩
  · rcases h.into_or_moved unshared puts free mem frees with
      ⟨behind, rfl, nowhere | ⟨inside, le, there, -⟩⟩ | moved
    · cases found.symm.trans nowhere
    · obtain ⟨rfl, -⟩ := Node.doc.inj (Except.ok.inj (found.symm.trans there))
      exact .inl ⟨behind, rfl, le, rfl⟩
    · obtain ⟨inside, there⟩ :=
        Write.exists_doc_of_map ((moved c List.prefix_rfl).symm.trans found)
      exact .inr ⟨older (.inl frees) there, .inl frees, inside, there⟩
  · rcases h.into_or_known unshared puts free plain frees through found with
      ⟨behind, rfl, le, mark, -⟩ | ⟨here, inside, there⟩
    · exact .inl ⟨behind, rfl, le, mark⟩
    · exact .inr ⟨older (.inr ⟨frees, here⟩) there, .inr ⟨frees, here⟩, inside, there⟩

/-- A write puts new documents on the way to its path, and nothing else where no written path
starts. -/
theorem Grown.put (mem : n ∈ names) (plain : n ∈ shared ∨ ∀ m fields, content ≠ .doc m fields) :
    Grown source bound names shared (next + rest.length) (w.carryOut root) where
  le := Nat.le_add_right_of_le h.le
  kin := h.kin_put unshared puts free mem
  inner := by
    intro c m fields frees through found
    rcases h.into_or_known unshared puts free plain frees through found with
      ⟨behind, -, -, rfl, shorter⟩ | ⟨here, inside, there⟩
    · exact .inl ⟨Nat.le_add_right_of_le h.le, by omega⟩
    · exact (h.inner frees here there).imp_left fun ⟨ge, lt⟩ => ⟨ge, Nat.lt_add_right _ lt⟩
  single := by
    intro m c b fields inside known known' ge found found'
    rcases h.origin unshared puts free mem plain known ge found with
      ⟨x, rfl, le, mark⟩ | ⟨lt, before, was, there⟩ <;>
      rcases h.origin unshared puts free mem plain known' ge found' with
        ⟨y, rfl, le', mark'⟩ | ⟨lt', before', was', there'⟩
    · have length : y.length = x.length := by omega
      have short : y <+: x := List.prefix_of_prefix_length_le le' le (Nat.le_of_eq length)
      rw [short.eq_of_length length]
    · omega
    · omega
    · exact h.single before before' ge there there'

theorem Grown.beside {behind : List String} (apart : Unrelated n (before ++ w.key :: behind))
    (between : rest ≠ [] → Free names (before ++ [w.key]))
    (noList : rest ≠ [] → ∀ items, follow (before ++ [w.key]) source ≠ .ok (.list items)) :
    follow (before ++ w.key :: behind) root = .ok absent ∧
      follow (before ++ w.key :: behind) (w.carryOut root) = .ok absent := by
  obtain ⟨notLe, notGe⟩ := apart
  rw [puts.parts_eq, List.prefix_append_right_inj, List.cons_prefix_cons] at notLe notGe
  have more : rest ≠ [] := fun nil => notLe ⟨rfl, nil ▸ List.nil_prefix⟩
  have further : behind ≠ [] := fun nil => notGe ⟨rfl, nil ▸ List.nil_prefix⟩
  constructor
  · obtain ⟨inside, owner⟩ := puts.owner
    have there : follow (before ++ [w.key]) root = .ok ((inside.lookup w.key).getD absent) := by
      rw [follow_append, owner]
      rfl
    have stuck := puts.last more
    have split : before ++ w.key :: behind = (before ++ [w.key]) ++ behind := by simp
    rw [split, follow_append, there]
    rw [there] at stuck
    cases found : (inside.lookup w.key).getD absent with
    | doc m fields => exact absurd (congrArg Except.ok found) (stuck m fields)
    | leaf v => exact follow_leaf further
    | list items =>
      obtain ⟨was, list⟩ := h.kin_list (between more) (there.trans (congrArg Except.ok found))
      exact absurd list (noList more was)
  · rw [h.into unshared puts free]
    rcases Write.follow_nest rest content next behind with
      ⟨beyond, rfl, -⟩ | ⟨fields, le, -, -⟩ | ⟨-, nowhere⟩
    · exact absurd ⟨rfl, List.prefix_append rest beyond⟩ notLe
    · exact absurd ⟨rfl, le⟩ notGe
    · exact nowhere

theorem Grown.without_owner (off : ¬q <+: before) (found : follow q source = .ok node) :
    node.Without w.owner := by
  obtain ⟨inside, owner⟩ := puts.owner
  rcases h.kin_doc (.inr ⟨free, puts.through⟩) owner with ⟨ge, -⟩ | ⟨⟨was, there⟩, transfer⟩
  · exact (Each.follow unshared.below found).imp fun _ _ lt => Nat.ne_of_lt (Nat.lt_of_lt_of_le lt ge)
  · exact unshared.apart (transfer puts.through) there off found

/-- What has nothing to do with the written paths is left alone. -/
theorem Grown.frame (mem : n ∈ names) (apart : ∀ n ∈ names, Unrelated n q)
    (noList : ∀ b, b <+: n → b <+: q → ∀ items, follow b source ≠ .ok (.list items))
    (same : follow q root = follow q source) :
    follow q (w.carryOut root) = follow q source := by
  have frees : Free names q := fun n mem => (apart n mem).1
  rcases h.into_or_moved unshared puts free mem frees with ⟨behind, rfl, -⟩ | moved
  · have through : before ++ [w.key] <+: before ++ w.key :: behind := by simp
    obtain ⟨was, now⟩ := h.beside unshared puts free (apart n mem)
      (fun _ => frees.of_le through) (fun _ => noList _ puts.key_le through)
    rw [now, ← same, was]
  · have off : ¬q <+: before := fun le =>
      (apart n mem).2 (le.trans puts.proper.1)
    rw [moved q List.prefix_rfl, same]
    cases found : follow q source with
    | error misuse => rfl
    | ok node =>
      exact congrArg Except.ok
        (carryOut_of_without (h.without_owner unshared puts free off found))

theorem Grown.holds (apart : Unrelated n c) (frees : ∀ b, b <+: c → b ≠ c → Free names b)
    (between : rest ≠ [] → Free names (before ++ [w.key]))
    (noList : rest ≠ [] → ∀ items, follow (before ++ [w.key]) source ≠ .ok (.list items))
    (held : follow c root = .ok node) (settled : w.carryOut node = node) :
    follow c (w.carryOut root) = .ok node := by
  by_cases through : before ++ [w.key] <+: c
  · obtain ⟨behind, rfl⟩ := through
    rw [List.append_assoc, List.singleton_append] at apart held ⊢
    obtain ⟨was, now⟩ := h.beside unshared puts free apart between noList
    rw [now, ← was, held]
  · rw [h.moved unshared puts free (fun b le ne => .inl (frees b le ne)) through, held]
    exact congrArg Except.ok settled

end

end Node
end Docbase
