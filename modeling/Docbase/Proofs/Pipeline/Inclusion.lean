import Docbase.Proofs.Pipeline.Projection
import Docbase.Proofs.Pipeline.Traced

/-!
# What a projection onto paths keeps

A projection copies what its paths lead to into a new document, and shares the documents in it with
the draft that they come from. A path that goes on through a list which is there already puts
documents in the place of the list. Whoever reads nothing of such lists finds at every selected path,
and behind it, what the draft has there.

* `Document.Tears` says when a path does that to a list which another path reads.
* `Pipeline.View` is what a reader of one path knows of a projection on its way. `View.skip`,
  `View.place_own` and `View.place_housed` are its steps, `Gathered.run` the run.
* `Pipeline.project_covers`: what a document keeps in a projection.
-/

namespace Docbase

/-- A path goes on behind another one through a list and leads to something, and a key leads through
the list or to something that holds it. -/
def Document.Tears (d : Document) (p q key : List String) : Prop :=
  ∃ between items, p <+: between ∧ between <+: q ∧ between ≠ q ∧
    Value.follow between (.doc d) = .ok (.list items) ∧ Value.follow q (.doc d) ≠ .ok .missing ∧
    (Value.doc d).Meet between key

theorem Document.Tears.head?_eq {d : Document} {p q key : List String} (torn : d.Tears p q key)
    (left : p ≠ []) (right : key ≠ []) : p.head? = key.head? := by
  obtain ⟨between, items, le, -, -, -, -, meets⟩ := torn
  obtain ⟨part, p, rfl⟩ := List.exists_cons_of_ne_nil left
  obtain ⟨behind, rfl⟩ := le
  exact meets.head?_eq (List.cons_ne_nil _ _) right

namespace Pipeline

open Node (Each EachField On follow follow_append follow_absent absent follow_cons_doc head)

variable {d : Document} {home home' : Nat → Option Node} {source result : List (String × Node)}
  {done : List (List String)} {next : Nat} {w : Write} {content : Node}
  {c p q key before rest : List String} {inside : List (String × Node)}

theorem value_follow_ofDocument (parts : List String) (d : Document) :
    (follow parts (.doc 0 (Draft.ofDocument d).fields)).map Node.value =
      Value.follow parts (.doc d) := Node.value_follow_ofFields parts d 1

theorem tears_of_follow {between : List String} {items : List Node} {was : Node}
    (le : p <+: between) (le' : between <+: q) (ne : between ≠ q)
    (list : follow between (.doc 0 (Draft.ofDocument d).fields) = .ok (.list items))
    (there : follow q (.doc 0 (Draft.ofDocument d).fields) = .ok was) (present : was ≠ absent)
    (meets : (Value.doc d).Meet between key) : d.Tears p q key := by
  refine ⟨between, Node.values items, le, le', ne, ?_, fun nowhere => ?_, meets⟩
  · rw [← value_follow_ofDocument]
    exact congrArg (Except.map Node.value) list
  · rw [← value_follow_ofDocument, there] at nowhere
    have missing : was.isAbsent = true := by
      rw [isAbsent_eq, Except.ok.inj nowhere]
      rfl
    exact present (Node.isAbsent_iff.1 missing)

theorem doc_of_heads {x y : Except Misuse Node} {m : Nat} {fields : List (String × Node)}
    (same : x.map head = y.map head) (doc : x = .ok (.doc m fields)) :
    ∃ fields, y = .ok (.doc m fields) := by
  subst doc
  cases y with
  | error misuse => cases same
  | ok node =>
    obtain ⟨fields, rfl⟩ := Node.exists_doc_of_head (Except.ok.inj same)
    exact ⟨fields, rfl⟩

theorem list_of_heads {x y : Except Misuse Node} {items : List Node}
    (same : x.map head = y.map head) (list : x = .ok (.list items)) :
    ∃ items, y = .ok (.list items) := by
  subst list
  cases y with
  | error misuse => cases same
  | ok node =>
    cases node with
    | list items => exact ⟨items, rfl⟩
    | leaf v => cases same
    | doc m fields => cases same

theorem follow_ofDocument {way : List String} (same : (Value.doc d).SameWay way c) :
    follow way (.doc 0 (Draft.ofDocument d).fields) =
      follow c (.doc 0 (Draft.ofDocument d).fields) :=
  Node.follow_sameWay (n := 0) same fun _ _ _ _ list _ _ doc => by cases list.symm.trans doc

/-- What a reader of a key sees of a projection that has been through some paths. On the way of the
key the source is what it was, and once the key is behind one of the paths, the result leads through
documents of its own to what the source has there. -/
structure View (d : Document) (home : Nat → Option Node) (done : List (List String))
    (source result : List (String × Node)) (key : List String) : Prop where
  native : EachField (fun m fields => home m = some (.doc m fields)) (Draft.ofDocument d).fields
  way : ∀ c, c <+: key → (follow c (.doc 0 source)).map head =
    (follow c (.doc 0 (Draft.ofDocument d).fields)).map head
  reads : follow key (.doc 0 source) = follow key (.doc 0 (Draft.ofDocument d).fields)
  shown : follow key (.doc 0 (Draft.ofDocument d).fields) ≠ .ok absent →
    (∃ p ∈ done, p <+: key) → ∃ c, c ≠ [] ∧ c <+: key ∧
    (∀ b, b <+: c → b ≠ c →
      ∃ m fields, follow b (.doc 0 result) = .ok (.doc m fields) ∧ home m = none) ∧
    follow c (.doc 0 result) = follow c (.doc 0 source)

def Hits (source : List (String × Node)) (w : Write) (key : List String) : Prop :=
  (∃ c fields, c ++ [w.key] <+: key ∧ follow c (.doc 0 source) = .ok (.doc w.owner fields)) ∨
    ∃ node, follow key (.doc 0 source) = .ok node ∧ ¬node.Without w.owner

namespace View

theorem follow_result (view : View d home done source result key)
    (somewhere : follow key (.doc 0 (Draft.ofDocument d).fields) ≠ .ok absent)
    (covered : ∃ p ∈ done, p <+: key) :
    follow key (.doc 0 result) = follow key (.doc 0 (Draft.ofDocument d).fields) := by
  obtain ⟨c, -, ⟨behind, rfl⟩, -, same⟩ := view.shown somewhere covered
  rw [← view.reads, follow_append, follow_append, same]

theorem home_of (view : View d home done source result key) (nonempty : c ≠ []) {m : Nat}
    {fields : List (String × Node)}
    (found : follow c (.doc 0 (Draft.ofDocument d).fields) = .ok (.doc m fields)) :
    home m = some (.doc m fields) := by
  obtain ⟨part, rest, rfl⟩ := List.exists_cons_of_ne_nil nonempty
  exact ((view.native.getD part).follow found).1

theorem follow_source (view : View d home done source result key) {way : List String}
    (same : (Value.doc d).SameWay way c) (le : c <+: key) :
    follow way (.doc 0 source) = follow c (.doc 0 source) := by
  refine Node.follow_sameWay (n := 0) same fun b items le' _ list m fields doc => ?_
  obtain ⟨fields', doc'⟩ := doc_of_heads (view.way b (le'.trans le)) doc
  cases list.symm.trans doc'

/-- A path that leads nowhere is none that the key is behind, if the key leads somewhere. -/
theorem skip (view : View d home done source result key)
    (nowhere : follow q (.doc 0 source) = .ok absent) :
    View d home (q :: done) source result key where
  native := view.native
  way := view.way
  reads := view.reads
  shown := by
    rintro somewhere ⟨p, mem, le⟩
    rcases List.mem_cons.1 mem with rfl | mem
    · have nothing := Node.follow_absent_of_prefix le nowhere
      exact absurd (view.reads.symm.trans nothing) somewhere
    · exact view.shown somewhere ⟨p, mem, le⟩

section
variable (view : View d home done source result key)
  (h : Traced (.doc 0 (Draft.ofDocument d).fields) home done next source result)
  (placing : Placing result q content next w before rest inside)
  (found : follow q (.doc 0 source) = .ok content) (present : content ≠ absent)
  (untorn : ∀ p ∈ done, ¬d.Tears p q key)

include view h found present untorn

omit view in
/-- A path whose next part leads to no document, nor to a list that is torn, has no more parts. -/
theorem ends_at {through : List String} {node : Node} (parts : q = through ++ rest)
    (there : follow through (.doc 0 source) = .ok node)
    (document : rest ≠ [] → ∀ m fields, node ≠ .doc m fields)
    (list : ∀ items, node = .list items →
      (∃ items, follow through (.doc 0 (Draft.ofDocument d).fields) = .ok (.list items)) ∧
      (∃ p ∈ done, p <+: through) ∧ (Value.doc d).Meet through key) : rest = [] := by
  by_contra more
  have read := found
  rw [parts, follow_append, there] at read
  cases node with
  | leaf v =>
    obtain ⟨part, behind, rfl⟩ := List.exists_cons_of_ne_nil more
    exact present (Except.ok.inj (read.symm.trans (follow_absent behind)))
  | doc m fields => exact document more m fields rfl
  | list items =>
    obtain ⟨⟨items, stood⟩, ⟨p, mem, le⟩, meets⟩ := list items rfl
    obtain ⟨was, origin, something⟩ := h.exists_whole found present
    have within : through <+: q := parts ▸ List.prefix_append _ _
    have beyond : through ≠ q := by
      rw [parts]
      simpa using more
    exact untorn p mem (tears_of_follow le within beyond stood origin something meets)

/-! ### Writes into documents of its own -/

section
variable (own : home w.owner = none)
include placing own

omit own in
theorem ends_own (nonempty : c ≠ []) (le : c <+: key) (through : before ++ [w.key] <+: c)
    (frames : ∀ b, b <+: c → b ≠ c →
      ∃ m fields, follow b (.doc 0 result) = .ok (.doc m fields) ∧ home m = none)
    (same : follow c (.doc 0 result) = follow c (.doc 0 source)) : rest = [] := by
  by_contra more
  have stops (m : Nat) (fields : List (String × Node)) :
      follow (before ++ [w.key]) (.doc 0 result) ≠ .ok (.doc m fields) := by
    rw [follow_append, placing.owner]
    intro doc
    exact placing.last more m fields (Node.lookup_of_present (Except.ok.inj doc) nofun)
  have last : before ++ [w.key] = c := by
    by_contra short
    obtain ⟨m, fields, doc, -⟩ := frames _ through short
    exact stops m fields doc
  subst last
  have parts : q = before ++ [w.key] ++ rest := by simp [placing.parts]
  have read := found
  rw [parts, follow_append] at read
  obtain ⟨node, there, -⟩ := Except.bind_eq_ok.1 read
  refine more (ends_at h found present untorn parts there
    (fun _ m fields doc => stops m fields (same.trans (doc ▸ there))) fun items listed => ?_)
  subst listed
  obtain ⟨items, list⟩ := list_of_heads (view.way _ le) there
  have value : Value.follow (before ++ [w.key]) (.doc d) = .ok (.list (Node.values items)) := by
    rw [← value_follow_ofDocument, list]
    rfl
  exact ⟨⟨items, list⟩, h.behind _ _ (same.trans there) nofun nofun,
    .inl ⟨_, le, Value.sameWay_refl value⟩⟩

theorem shown_own (nonempty : c ≠ []) (le : c <+: key)
    (frames : ∀ b, b <+: c → b ≠ c →
      ∃ m fields, follow b (.doc 0 result) = .ok (.doc m fields) ∧ home m = none)
    (same : follow c (.doc 0 result) = follow c (.doc 0 source)) : ∃ c, c ≠ [] ∧ c <+: key ∧
      (∀ b, b <+: c → b ≠ c →
        ∃ m fields, follow b (.doc 0 (w.carryOutRoot result)) = .ok (.doc m fields) ∧
          home m = none) ∧
      follow c (.doc 0 (w.carryOutRoot result)) = follow c (.doc 0 source) := by
  have framed {b : List String} (apart : ¬before ++ [w.key] <+: b)
      (frame : ∃ m fields, follow b (.doc 0 result) = .ok (.doc m fields) ∧ home m = none) :
      ∃ m fields, follow b (.doc 0 (w.carryOutRoot result)) = .ok (.doc m fields) ∧
        home m = none := by
    obtain ⟨m, fields, doc, free⟩ := frame
    obtain ⟨after, moved⟩ := Write.exists_map_doc w doc
    exact ⟨m, after, (h.moved_own placing own apart).trans moved, free⟩
  by_cases through : before ++ [w.key] <+: c
  · obtain rfl : rest = [] :=
      view.ends_own h placing found present untorn nonempty le through frames same
    have parts : q = before ++ [w.key] := placing.parts
    rw [← parts] at through framed
    refine ⟨q, placing.nonempty, through.trans le, fun b le' ne => ?_,
      (h.placed_own placing own).trans found.symm⟩
    refine framed (fun within => ne ?_) (frames b (le'.trans through) fun same => ne ?_)
    · exact le'.eq_of_length (Nat.le_antisymm le'.length_le within.length_le)
    · subst same
      exact le'.eq_of_length (Nat.le_antisymm le'.length_le through.length_le)
  · refine ⟨c, nonempty, le, fun b le' ne => framed (fun within => through (within.trans le'))
      (frames b le' ne), ?_⟩
    rw [h.moved_own placing own through, same]
    exact h.map_carryOut_source own nonempty

omit view found present untorn in
theorem framed_own (first : ¬∃ p ∈ done, p <+: q) {b : List String} (le : b <+: q) (ne : b ≠ q) :
    ∃ m fields, follow b (.doc 0 (w.carryOutRoot result)) = .ok (.doc m fields) ∧
      home m = none := by
  by_cases into : before ++ [w.key] <+: b
  · obtain ⟨others, rfl⟩ := into
    have split : before ++ [w.key] ++ others = before ++ w.key :: others := by simp
    rw [split] at le ne ⊢
    rw [placing.parts] at le ne
    obtain ⟨more, rfl⟩ : others <+: rest := by simpa using le
    cases more with
    | nil => exact absurd (by simp) ne
    | cons part more =>
      have doc := (h.into_own placing own others).trans (Write.follow_nest_append _ _ _ _)
      refine ⟨_, _, doc, Option.eq_none_iff_forall_ne_some.2 fun place known => ?_⟩
      exact absurd (h.below _ place known) (by omega)
  · have within : b <+: before := by
      have comparable : before ++ [w.key] <+: q := by
        rw [placing.parts]
        simp
      rcases List.prefix_or_prefix_of_prefix le comparable with le | le
      · exact (List.prefix_concat_iff.1 le).resolve_left fun same => into (same ▸ List.prefix_refl _)
      · exact absurd le into
    obtain ⟨behind, rfl⟩ := within
    have owner := placing.owner
    rw [follow_append] at owner
    obtain ⟨node, there, further⟩ := Except.bind_eq_ok.1 owner
    have something : node ≠ absent := by
      rintro rfl
      cases (follow_absent behind).symm.trans further
    have document : ∃ m fields, node = .doc m fields ∧ home m = none := by
      by_contra other
      obtain ⟨p, mem, le'⟩ := h.behind b node there something fun m fields doc =>
        Option.ne_none_iff_exists'.1 fun free => other ⟨m, fields, doc, free⟩
      exact first ⟨p, mem, le'.trans le⟩
    obtain ⟨m, fields, rfl, free⟩ := document
    obtain ⟨after, moved⟩ := Write.exists_map_doc w there
    exact ⟨m, after, (h.moved_own placing own into).trans moved, free⟩

theorem place_own : View d home (q :: done) source (w.carryOutRoot result) key where
  native := view.native
  way := view.way
  reads := view.reads
  shown := by
    rintro somewhere ⟨p, mem, le⟩
    by_cases covered : ∃ p ∈ done, p <+: key
    · obtain ⟨c, nonempty, le, frames, same⟩ := view.shown somewhere covered
      exact view.shown_own h placing found present untorn own nonempty le frames same
    · obtain rfl : p = q := (List.mem_cons.1 mem).resolve_right fun mem => covered ⟨p, mem, le⟩
      have first : ¬∃ p' ∈ done, p' <+: p := fun ⟨p', mem, le'⟩ => covered ⟨p', mem, le'.trans le⟩
      exact ⟨p, placing.nonempty, le, fun b le' ne => framed_own h placing own first le' ne,
        (h.placed_own placing own).trans found.symm⟩

end

/-! ### Writes into documents with a home -/

section
variable {place : Node} (housed : home w.owner = some place)
include placing housed

omit found present untorn in
theorem source_of_way {fields : List (String × Node)} (le : c ++ [w.key] <+: key)
    (doc : follow c (.doc 0 source) = .ok (.doc w.owner fields)) :
    (∃ fields, follow before (.doc 0 source) = .ok (.doc w.owner fields)) ∧
      (Value.doc d).Meet (before ++ [w.key]) key := by
  have nonempty : c ≠ [] := by
    rintro rfl
    exact h.owner_ne_zero housed (Node.doc.inj (Except.ok.inj doc)).1.symm
  have le' : c <+: key := (List.prefix_append _ _).trans le
  obtain ⟨first, there⟩ := doc_of_heads (view.way c le') doc
  obtain rfl := Option.some.inj (housed.symm.trans (view.home_of nonempty there))
  have stood := h.follow_owner placing housed
  obtain ⟨way, more, rfl, same⟩ := Node.exists_sameWay (v := .doc d) (n := 0) stood there
    fun without => without.1 rfl
  have begun := (follow_ofDocument same).trans there
  obtain rfl : more = [] := by
    by_contra nonempty
    rw [follow_append, begun] at stood
    rcases Node.sizeOf_follow stood with nothing | ⟨-, less⟩
    · cases nothing
    · exact absurd (less nonempty) (Nat.lt_irrefl _)
  rw [List.append_nil]
  refine ⟨⟨fields, (view.follow_source same le').trans doc⟩, .inl ⟨c ++ [w.key], le, ?_⟩⟩
  have value : Value.follow way (.doc d) = .ok (.doc (Node.fieldValues first)) := by
    rw [← value_follow_ofDocument, begun]
    rfl
  exact same.append value ⟨.inl rfl, _, rfl, trivial⟩

omit found present untorn in
theorem source_of_held {node : Node} (there : follow key (.doc 0 source) = .ok node)
    (holds : ¬node.Without w.owner) (nonempty : key ≠ []) :
    (∃ fields, follow before (.doc 0 source) = .ok (.doc w.owner fields)) ∧
      (Value.doc d).Meet (before ++ [w.key]) key := by
  have first := view.reads.symm.trans there
  obtain ⟨fields, rfl⟩ : ∃ fields, place = .doc w.owner fields := by
    by_contra other
    obtain ⟨part, rest, rfl⟩ := List.exists_cons_of_ne_nil nonempty
    refine holds (((view.native.getD part).follow first).imp fun m inside native same => ?_)
    rw [same, housed] at native
    exact other ⟨inside, Option.some.inj native⟩
  have stood := h.follow_owner placing housed
  obtain ⟨way, more, rfl, same⟩ := Node.exists_sameWay (v := .doc d) (n := 0) stood first holds
  rw [List.append_assoc]
  refine ⟨⟨fields, ?_⟩, .inr ⟨way, List.prefix_append _ _, same⟩⟩
  have begun := (follow_ofDocument same).trans first
  rw [follow_append, begun] at stood
  rw [follow_append, view.follow_source same (List.prefix_refl key), there]
  exact stood

omit view in
theorem ends_housed {fields : List (String × Node)}
    (owner : follow before (.doc 0 source) = .ok (.doc w.owner fields))
    (last : rest ≠ [] → ∀ m inner, fields.lookup w.key ≠ some (.doc m inner))
    (meets : (Value.doc d).Meet (before ++ [w.key]) key) : rest = [] := by
  have here : follow (before ++ [w.key]) (.doc 0 source) =
      .ok ((fields.lookup w.key).getD absent) := by
    rw [follow_append, owner]
    rfl
  refine ends_at h found present untorn (by simp [placing.parts]) here
    (fun more m inner doc => last more m inner (Node.lookup_of_present doc nofun))
    fun items listed => ?_
  rw [listed] at here
  obtain ⟨was, there, -, lists, -⟩ := h.source_faces _ _ here nofun
  obtain ⟨items, rfl⟩ := lists items rfl
  obtain ⟨p, mem, le⟩ := h.behind before _ placing.owner nofun fun m fields doc => by
    obtain ⟨rfl, -⟩ := Node.doc.inj doc
    exact ⟨place, housed⟩
  exact ⟨⟨items, there⟩, ⟨p, mem, le.trans (List.prefix_append _ _)⟩, meets⟩

theorem same_of_hits (nonempty : key ≠ []) (hits : Hits source w key) :
    w.carryOutFields source = source ∧ w.carryOutRoot result = result := by
  obtain ⟨⟨fields, owner⟩, meets⟩ : (∃ fields, follow before (.doc 0 source) =
      .ok (.doc w.owner fields)) ∧ (Value.doc d).Meet (before ++ [w.key]) key := by
    rcases hits with ⟨c, fields, le, doc⟩ | ⟨node, there, holds⟩
    · exact view.source_of_way h placing housed le doc
    · exact view.source_of_held h placing housed there holds nonempty
  obtain ⟨heap, of_source, of_result⟩ := h.heap
  obtain ⟨part, behind, rfl⟩ : ∃ part behind, before = part :: behind := by
    refine List.exists_cons_of_ne_nil fun nil => h.owner_ne_zero housed ?_
    subst nil
    exact (Node.doc.inj (Except.ok.inj owner)).1.symm
  have on : On heap 1 next w.owner fields := ((of_source.getD part).follow owner).1
  have on' : On heap 1 next w.owner inside := ((of_result.getD part).follow placing.owner).1
  obtain rfl : fields = inside := on.eq.symm.trans on'.eq
  obtain rfl : rest = [] :=
    ends_housed h placing found present untorn housed owner placing.last meets
  have content_eq : fields.lookup w.key = some content := by
    have read := found
    rw [placing.parts, follow_append, owner] at read
    exact Node.lookup_of_present (Except.ok.inj read) present
  have kept {m : Nat} {others : List (String × Node)} (there : On heap 1 next m others)
      (same : m = w.owner) : w.apply others = others := by
    subst same
    obtain rfl : fields = others := on.eq.symm.trans there.eq
    rw [Write.apply, placing.written]
    exact Fields.set_lookup_self content_eq
  rw [Write.carryOutRoot, if_neg (h.owner_ne_zero housed)]
  exact ⟨Write.carryOutFields_of_each (of_source.imp fun _ _ => kept),
    Write.carryOutFields_of_each (of_result.imp fun _ _ => kept)⟩

omit view placing found present untorn in
theorem way_moved (apart : ¬Hits source w key) (le : c <+: key) :
    follow c (.doc 0 (w.carryOutFields source)) = (follow c (.doc 0 source)).map w.carryOut := by
  rw [← h.carryOut_housed housed]
  apply Write.follow_carryOut
  rintro before' rest' fields rfl doc
  refine absurd (.inl ⟨before', fields, ?_, doc⟩) apart
  refine .trans ?_ le
  simp

omit view placing found present untorn h in
theorem frame_moved (frames : ∀ b, b <+: c → b ≠ c →
      ∃ m fields, follow b (.doc 0 result) = .ok (.doc m fields) ∧ home m = none)
    {b : List String} (le : b <+: c) :
    follow b (.doc 0 (w.carryOutRoot result)) = (follow b (.doc 0 result)).map w.carryOut := by
  rw [← Write.carryOut_root]
  apply Write.follow_carryOut
  rintro before' rest' fields rfl doc
  have shorter : before' ≠ c := by
    rintro rfl
    have length := le.length_le
    simp only [List.length_append, List.length_cons] at length
    omega
  obtain ⟨m, fields', doc', free⟩ :=
    frames before' ((List.prefix_append _ _).trans le) shorter
  obtain ⟨rfl, -⟩ := Node.doc.inj (Except.ok.inj (doc.symm.trans doc'))
  cases housed.symm.trans free

theorem place_housed (nonempty : key ≠ []) :
    View d (homesAfter (.doc 0 (Draft.ofDocument d).fields) home next (before ++ [w.key]) rest)
      (q :: done) (w.carryOutFields source) (w.carryOutRoot result) key := by
  have homes {m : Nat} (lt : m < next) : homesAfter (.doc 0 (Draft.ofDocument d).fields) home next
      (before ++ [w.key]) rest m = home m := homesAfter_of_lt lt
  have native := view.native.imp fun m fields known =>
    (homes (h.below m _ known)).trans known
  have covered : (∃ p ∈ q :: done, p <+: key) → ∃ p ∈ done, p <+: key := by
    rintro ⟨p, mem, le⟩
    rcases List.mem_cons.1 mem with rfl | mem
    · obtain ⟨p', mem', le'⟩ := h.behind before _ placing.owner nofun fun m fields doc => by
        obtain ⟨rfl, -⟩ := Node.doc.inj doc
        exact ⟨place, housed⟩
      refine ⟨p', mem', le'.trans (.trans ?_ le)⟩
      rw [placing.parts]
      exact List.prefix_append _ _
    · exact ⟨p, mem, le⟩
  by_cases hits : Hits source w key
  · obtain ⟨same_source, same_result⟩ :=
      view.same_of_hits h placing found present untorn housed nonempty hits
    rw [same_source, same_result]
    refine ⟨native, view.way, view.reads, fun somewhere goes => ?_⟩
    obtain ⟨c, nonempty, le, frames, same⟩ := view.shown somewhere (covered goes)
    refine ⟨c, nonempty, le, fun b le ne => ?_, same⟩
    obtain ⟨m, fields, doc, free⟩ := frames b le ne
    exact ⟨m, fields, doc, (homes (h.lt_of_result doc)).trans free⟩
  · refine ⟨native, fun c le => ?_, ?_, fun somewhere goes => ?_⟩
    · rw [← view.way c le, way_moved h housed hits le]
      cases follow c (.doc 0 source) with
      | error misuse => rfl
      | ok node => exact congrArg Except.ok (Node.head_carryOut w node)
    · rw [← view.reads, way_moved h housed hits (List.prefix_refl key)]
      cases there : follow key (.doc 0 source) with
      | error misuse => rfl
      | ok node =>
        refine congrArg Except.ok (Node.carryOut_of_without ?_)
        by_contra holds
        exact hits (.inr ⟨node, there, holds⟩)
    · obtain ⟨c, nonempty, le, frames, same⟩ := view.shown somewhere (covered goes)
      refine ⟨c, nonempty, le, fun b le ne => ?_, ?_⟩
      · obtain ⟨m, fields, doc, free⟩ := frames b le ne
        obtain ⟨after, moved⟩ := Write.exists_map_doc w doc
        refine ⟨m, after, (frame_moved housed frames le).trans moved, ?_⟩
        exact (homes (h.lt_of_result doc)).trans free
      · rw [frame_moved housed frames (List.prefix_refl c), same, way_moved h housed hits le]

end

end

end View

/-! ## Runs -/

section
variable {node : Node} {after : Nat}

theorem gather_absent {path : String} (others : Document)
    (nowhere : follow (Path.parts path) (.doc 0 source) = .ok absent) :
    gather ((path, .int 1) :: others) source result next = gather others source result next := by
  rw [gather_one, Expression.read, nowhere]
  rfl

theorem gather_present {path : String} (others : Document)
    (found : follow (Path.parts path) (.doc 0 source) = .ok node) (present : node ≠ absent)
    (run : Write.placing node 0 (Path.parts path) result next = (w, after)) :
    gather ((path, .int 1) :: others) source result next =
      gather others (w.carryOutFields source) (w.carryOutRoot result) after := by
  have something : ¬node.isAbsent = true := fun nothing => present (Node.isAbsent_iff.1 nothing)
  have read : Expression.read (.doc 0 source) path = pure node := by rw [Expression.read, found]
  rw [gather_one, read, pure_bind, if_neg something]
  show gather others ((Write.placing node 0 _ result next).1.carryOutFields source) _ _ = _
  rw [run]

end

structure Gathered (d : Document) (keys : List String) (home : Nat → Option Node)
    (done : List (List String)) (next : Nat) (source result : List (String × Node)) : Prop where
  traced : Traced (.doc 0 (Draft.ofDocument d).fields) home done next source result
  views : ∀ key ∈ keys, View d home done source result (Path.parts key)

theorem gathered_identifier (keys : List String) (identified : Fields.has "_id" d = true) :
    ∃ home, Gathered d keys home [["_id"]] (Draft.ofDocument d).next (Draft.ofDocument d).fields
      ((Draft.ofDocument d).fields.filter fun field => field.1 == "_id") := by
  obtain ⟨le, heap, sourced⟩ : 1 ≤ (Draft.ofDocument d).next ∧ ∃ heap,
      EachField (On heap 1 (Draft.ofDocument d).next) (Draft.ofDocument d).fields :=
    Node.exists_heap_fields d 1
  have stored : (((Draft.ofDocument d).fields).lookup "_id").isSome = true := by
    rwa [← Draft.document_ofDocument d, Fields.has, Draft.document, Node.lookup_fieldValues,
      Option.isSome_map] at identified
  refine ⟨homesOn heap _, traced_identifier sourced le stored, fun key _ => ?_⟩
  refine ⟨sourced.imp fun m fields on => homesOn_of_on on, fun _ _ => rfl, rfl, ?_⟩
  rintro - ⟨p, mem, behind⟩
  obtain rfl := List.mem_singleton.1 mem
  refine ⟨["_id"], List.cons_ne_nil _ _, behind, fun b le ne => ?_, ?_⟩
  · obtain rfl : b = [] := by simpa [ne] using List.prefix_cons_iff.1 le
    exact ⟨0, _, rfl, rfl⟩
  · rw [follow_cons_doc, follow_cons_doc, Fields.lookup_filter_self]

namespace Gathered

variable {keys : List String} (h : Gathered d keys home done next source result)
include h

theorem follow_result {key : String} (mem : key ∈ keys)
    (covered : ∃ p ∈ done, p <+: Path.parts key) :
    follow (Path.parts key) (.doc 0 result) =
      follow (Path.parts key) (.doc 0 (Draft.ofDocument d).fields) := by
  by_cases nowhere : follow (Path.parts key) (.doc 0 (Draft.ofDocument d).fields) = .ok absent
  · obtain ⟨node, found⟩ := h.traced.result_faces.exists_follow nowhere
    by_cases present : node = absent
    · rw [found, present, nowhere]
    · obtain ⟨was, there, something, -⟩ := h.traced.result_faces _ node found present
      exact absurd (Except.ok.inj (there.symm.trans nowhere)) something
  · exact (h.views key mem).follow_result nowhere covered

/-- Each path is skipped, or what it leads to is placed. -/
theorem step {path : String} (others : Document) {was : Node}
    (there : follow (Path.parts path) (.doc 0 (Draft.ofDocument d).fields) = .ok was)
    (untorn : ∀ p ∈ done, ∀ key ∈ keys, ¬d.Tears p (Path.parts path) (Path.parts key)) :
    ∃ home' next' source' result', gather ((path, .int 1) :: others) source result next =
        gather others source' result' next' ∧
      Gathered d keys home' (Path.parts path :: done) next' source' result' := by
  obtain ⟨content, found⟩ := h.traced.source_faces.exists_follow there
  by_cases nothing : content = absent
  · subst nothing
    exact ⟨home, next, source, result, gather_absent others found, h.traced.skip _,
      fun key mem => (h.views key mem).skip found⟩
  · obtain ⟨w, before, rest, inside, run, placing⟩ :=
      exists_placing result (Path.parts_ne_nil path) content next
    have gathers := gather_present others found nothing run
    cases home_eq : home w.owner with
    | none =>
      refine ⟨home, _, _, _, gathers, ?_⟩
      rw [h.traced.carryOut_source home_eq]
      exact ⟨h.traced.place_own placing found nothing home_eq, fun key mem =>
        (h.views key mem).place_own h.traced placing found nothing
          (fun p mem' => untorn p mem' key mem) home_eq⟩
    | some place =>
      exact ⟨_, _, _, _, gathers, h.traced.place_housed placing found nothing home_eq,
        fun key mem => (h.views key mem).place_housed h.traced placing found nothing
          (fun p mem' => untorn p mem' key mem) home_eq (Path.parts_ne_nil key)⟩

/-- A projection that tears nothing the keys read comes to its end, and has been through its paths. -/
theorem run {paths : List String}
    (readable : ∀ path ∈ paths, ∃ node,
      follow (Path.parts path) (.doc 0 (Draft.ofDocument d).fields) = .ok node)
    (untorn : ∀ p ∈ done, ∀ path ∈ paths, ∀ key ∈ keys,
      ¬d.Tears p (Path.parts path) (Path.parts key))
    (apart : paths.Pairwise fun p q => ∀ key ∈ keys,
      ¬d.Tears (Path.parts p) (Path.parts q) (Path.parts key)) :
    ∃ home' done' next' source' result',
      gather (inclusions paths) source result next = .ok (result', next') ∧
      Gathered d keys home' done' next' source' result' ∧ (∀ p ∈ done, p ∈ done') ∧
      ∀ path ∈ paths, Path.parts path ∈ done' := by
  induction paths generalizing home done next source result with
  | nil =>
    have none : ∀ path ∈ ([] : List String), Path.parts path ∈ done := nofun
    exact ⟨home, done, next, source, result, rfl, h, fun _ mem => mem, none⟩
  | cons path rest ih =>
    obtain ⟨⟨was, there⟩, others⟩ := List.forall_mem_cons.1 readable
    obtain ⟨behind, apart⟩ := List.pairwise_cons.1 apart
    obtain ⟨_, _, _, _, gathers, gathered⟩ := h.step (inclusions rest) there
      fun p mem => untorn p mem path List.mem_cons_self
    have later : ∀ p ∈ Path.parts path :: done, ∀ other ∈ rest, ∀ key ∈ keys,
        ¬d.Tears p (Path.parts other) (Path.parts key) :=
      List.forall_mem_cons.2 ⟨behind, fun p mem other mem' =>
        untorn p mem other (List.mem_cons_of_mem path mem')⟩
    obtain ⟨home', done', next', source', result', run, final, kept, all⟩ :=
      ih gathered others later apart
    obtain ⟨here, before⟩ := List.forall_mem_cons.1 kept
    exact ⟨home', done', next', source', result', gathers.trans run, final, before,
      List.forall_mem_cons.2 ⟨here, all⟩⟩

end Gathered

/-! ## Projections of documents -/

variable {paths : List String}

theorem exists_follow_of_get {path : String} {v : Value} (read : (Value.doc d).get path = .ok v) :
    ∃ node, follow (Path.parts path) (.doc 0 (Draft.ofDocument d).fields) = .ok node := by
  rw [Value.get, ← value_follow_ofDocument] at read
  cases found : follow (Path.parts path) (.doc 0 (Draft.ofDocument d).fields) with
  | ok node => exact ⟨node, rfl⟩
  | error misuse =>
    rw [found] at read
    cases read

/-- What a document keeps in a projection onto paths that tear nothing the keys read. -/
theorem project_covers {keys : List String} (identified : Fields.has "_id" d = true)
    (readable : ∀ path ∈ paths, ∃ v, (Value.doc d).get path = .ok v)
    (whole : ("_id" :: paths).Pairwise fun p q => ∀ key ∈ "_id" :: keys,
      ¬d.Tears (Path.parts p) (Path.parts q) (Path.parts key))
    (other : ∃ path ∈ paths, path ≠ "_id") :
    ∃ result, project (.doc (inclusions paths)) (.ofDocument d) = .ok result ∧
      result.document.lookup "_id" = d.lookup "_id" ∧
      ∀ key ∈ keys, (∃ path ∈ "_id" :: paths, Path.parts path <+: Path.parts key) →
        result.get key = (Draft.ofDocument d).get key := by
  obtain ⟨home, start⟩ := gathered_identifier ("_id" :: keys) identified
  have kept : ∀ path ∈ paths.filter (fun path => path != "_id"), path ∈ paths :=
    fun path mem => (List.mem_filter.1 mem).1
  obtain ⟨identifier, apart⟩ :=
    List.pairwise_cons.1 (whole.sublist (List.filter_sublist.cons_cons "_id"))
  have reads (path) (mem : path ∈ paths.filter fun path => path != "_id") :
      ∃ node, follow (Path.parts path) (.doc 0 (Draft.ofDocument d).fields) = .ok node := by
    obtain ⟨v, read⟩ := readable path (kept path mem)
    exact exists_follow_of_get read
  have identifier_parts : Path.parts "_id" = ["_id"] := Path.IsName.parts (by decide)
  rw [identifier_parts] at identifier
  obtain ⟨_, done, next, source, result, run, gathered, before, all⟩ :=
    start.run reads (List.forall_mem_singleton.2 identifier) apart
  have there : ["_id"] ∈ done := before _ (List.mem_singleton_self _)
  refine ⟨{ next, fields := result }, ?_, ?_, ?_⟩
  · rw [project_paths other]
    exact Except.bind_eq_ok.2 ⟨_, run, rfl⟩
  · have same := gathered.follow_result List.mem_cons_self
      ⟨_, there, identifier_parts ▸ List.prefix_refl _⟩
    rw [identifier_parts, follow_cons_doc, follow_cons_doc] at same
    obtain ⟨new, found⟩ := Option.isSome_iff_exists.1 gathered.traced.identified
    obtain ⟨old, found'⟩ := Option.isSome_iff_exists.1 start.traced.identified
    rw [Fields.lookup_filter_self] at found'
    rw [found, found'] at same
    rw [← Draft.document_ofDocument d, Draft.document, Draft.document, Node.lookup_fieldValues,
      Node.lookup_fieldValues, found, found']
    exact congrArg (fun node => some (Node.value node)) (Except.ok.inj same)
  · rintro key mem ⟨path, among, le⟩
    refine gathered.follow_result (List.mem_cons_of_mem _ mem) ⟨_, ?_, le⟩
    by_cases stored : path = "_id"
    · rwa [stored, identifier_parts]
    · have mem := (List.mem_cons.1 among).resolve_left stored
      exact all path (List.mem_filter.2 ⟨mem, by simpa using stored⟩)

end Pipeline
end Docbase
