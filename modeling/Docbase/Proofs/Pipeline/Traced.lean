import Docbase.Proofs.Pipeline.Places

/-!
# Where the parts of a projection come from

A projection copies parts of a draft into a new document, and what it copies is shared. A later
path can be written into a document that is shared, and then the draft changes as well, so that what
is copied afterwards is no longer what the draft was. Still every part can be traced to the place of
the draft, as it was, that stands under the same path.

* `Pipeline.Faces`: wherever a path leads, it led to something, and to the home of a document.
* `Pipeline.Traced` is the invariant of a projection. `Pipeline.traced_identifier` is its start, and
  `Traced.skip`, `Traced.place_own` and `Traced.place_housed` are its steps.
-/

namespace Docbase
namespace Pipeline

open Node (Each EachField On joined follow follow_append follow_absent absent follow_cons_doc)

variable {origin root content node : Node} {home home' : Nat → Option Node}
  {source result : List (String × Node)} {done : List (List String)}
  {c path before rest q : List String} {next : Nat} {w : Write}

/-! ## Faces -/

/-- What a path led to that leads to a part now: to a list if that is one, and to the home of a
document that has a home. -/
def Face (origin : Node) (home : Nat → Option Node) (c : List String) (node : Node) : Prop :=
  ∃ was, follow c origin = .ok was ∧ was ≠ absent ∧
    (∀ items, node = .list items → ∃ before, was = .list before) ∧
    ∀ m fields h, node = .doc m fields → home m = some h → was = h

def Faces (origin : Node) (home : Nat → Option Node) (root : Node) : Prop :=
  ∀ c node, follow c root = .ok node → node ≠ absent → Face origin home c node

theorem Face.congr {b : List String} (face : Face origin home c node)
    (same : follow b origin = follow c origin) : Face origin home b node := by
  rwa [Face, same]

theorem Face.of_home (face : Face origin home c node)
    (known : ∀ m fields, node = .doc m fields → home' m = home m) : Face origin home' c node := by
  obtain ⟨was, there, present, lists, docs⟩ := face
  exact ⟨was, there, present, lists, fun m fields h doc homes =>
    docs m fields h doc ((known m fields doc).symm.trans homes)⟩

theorem Face.carryOut (face : Face origin home c node) (w : Write) :
    Face origin home c (w.carryOut node) := by
  obtain ⟨was, there, present, lists, docs⟩ := face
  refine ⟨was, there, present, fun items listed => ?_, fun m fields h doc homes => ?_⟩
  · cases node with
    | list before => exact lists before rfl
    | _ => cases listed
  · cases node with
    | doc mark inside =>
      obtain ⟨rfl, -⟩ := Node.doc.inj doc
      exact docs mark inside h rfl homes
    | _ => cases doc

theorem Faces.exists_follow (faces : Faces origin home root) {was : Node}
    (there : follow c origin = .ok was) : ∃ node, follow c root = .ok node := by
  induction c using List.reverseRecOn generalizing was with
  | nil => exact ⟨root, rfl⟩
  | append_singleton c part ih =>
    rw [follow_append] at there ⊢
    obtain ⟨before, begun, last⟩ := Except.bind_eq_ok.1 there
    obtain ⟨node, found⟩ := ih begun
    rw [found]
    cases node with
    | leaf v => exact ⟨absent, rfl⟩
    | doc m fields => exact ⟨_, rfl⟩
    | list items =>
      obtain ⟨was', same, -, lists, -⟩ := faces c _ found nofun
      obtain rfl := Except.ok.inj (begun.symm.trans same)
      obtain ⟨items', rfl⟩ := lists items rfl
      obtain ⟨found', step, -⟩ := Except.bind_eq_ok.1 last
      change ∃ node, ((Node.list items).step part >>= follow []) = .ok node
      rw [Node.step] at step ⊢
      split
      · rename_i position
        rw [if_pos position] at step
        cases number : Text.digitsValue? 0 false part.toList with
        | some i => exact ⟨_, rfl⟩
        | none =>
          rw [number] at step
          cases step
      · exact ⟨absent, rfl⟩

theorem face_nest (whole : ∃ was, follow (path ++ rest) origin = .ok was ∧ was ≠ absent)
    (faces : ∀ behind node, follow behind content = .ok node → node ≠ absent →
      Face origin home (path ++ rest ++ behind) node)
    (homes : ∀ short, short <+: rest → short.length < rest.length →
      ∀ h, home (next + short.length) = some h → follow (path ++ short) origin = .ok h)
    {others : List String} (found : follow others (Write.nest rest content next).1 = .ok node)
    (present : node ≠ absent) : Face origin home (path ++ others) node := by
  rcases Write.follow_nest rest content next others with
    ⟨behind, rfl, there⟩ | ⟨fields, le, shorter, there⟩ | ⟨-, there⟩
  · rw [← List.append_assoc]
    exact faces behind node (there.symm.trans found) present
  · obtain rfl := Except.ok.inj (there.symm.trans found)
    obtain ⟨was, read, something⟩ := whole
    obtain ⟨behind, rfl⟩ := le
    rw [← List.append_assoc, follow_append] at read
    obtain ⟨was', begun, further⟩ := Except.bind_eq_ok.1 read
    refine ⟨was', begun, ?_, nofun, fun m inside h doc known => ?_⟩
    · rintro rfl
      rw [follow_absent] at further
      exact something (Except.ok.inj further).symm
    · obtain ⟨rfl, -⟩ := Node.doc.inj doc
      have there := homes others (List.prefix_append _ _) shorter h known
      exact Except.ok.inj (begun.symm.trans there)
  · exact absurd (Except.ok.inj (found.symm.trans there)) present

theorem Faces.carryOut (faces : Faces origin home root) (written : w.content = some content)
    (known : ∀ c m fields, follow c root = .ok (.doc m fields) → home' m = home m)
    (through : ∀ before rest fields node, follow before root = .ok (.doc w.owner fields) →
      follow rest content = .ok node → node ≠ absent →
        Face origin home' (before ++ w.key :: rest) node) :
    Faces origin home' (w.carryOut root) := by
  intro c node found present
  rcases Write.follow_carryOut_cases written c root with
    moved | ⟨before, rest, fields, rfl, owner, into⟩
  · rw [moved] at found
    cases there : follow c root with
    | error misuse =>
      rw [there] at found
      cases found
    | ok old =>
      rw [there] at found
      obtain rfl := Except.ok.inj found
      have something : old ≠ absent := by
        rintro rfl
        exact present rfl
      have face := (faces c old there something).of_home fun m fields doc =>
        known c m fields (doc ▸ there)
      exact face.carryOut w
  · exact through before rest fields node owner (into.symm.trans found) present

/-! ## The invariant -/

/-- The state of a projection that has been through some paths. A document of the source has a home,
which is where it stood in the origin, and so have the new ones that were written into such
documents. The documents without a home are the result's own. -/
structure Traced (origin : Node) (home : Nat → Option Node) (done : List (List String))
    (next : Nat) (source result : List (String × Node)) : Prop where
  positive : 0 < next
  root : home 0 = none
  below : ∀ m h, home m = some h → m < next
  heap : ∃ heap, EachField (On heap 1 next) source ∧ EachField (On heap 1 next) result
  homed : EachField (fun m _ => ∃ h, home m = some h) source
  inside : ∀ c node was, c ≠ [] → follow c (.doc 0 source) = .ok node →
    follow c origin = .ok was → node.Each fun m _ => ∃ h, home m = some h ∧ sizeOf h ≤ sizeOf was
  source_faces : Faces origin home (.doc 0 source)
  result_faces : Faces origin home (.doc 0 result)
  single : ∀ m c b fields inside, home m = none → follow c (.doc 0 result) = .ok (.doc m fields) →
    follow b (.doc 0 result) = .ok (.doc m inside) → c = b
  behind : ∀ c node, follow c (.doc 0 result) = .ok node → node ≠ absent →
    (∀ m fields, node = .doc m fields → ∃ h, home m = some h) → ∃ p ∈ done, p <+: c
  identified : (result.lookup "_id").isSome = true

def homesOn (heap : Nat → List (String × Node)) (bound m : Nat) : Option Node :=
  if 1 ≤ m ∧ m < bound then some (.doc m (heap m)) else none

theorem homesOn_of_on {heap : Nat → List (String × Node)} {bound m : Nat}
    {fields : List (String × Node)} (on : On heap 1 bound m fields) :
    homesOn heap bound m = some (.doc m fields) := by
  rw [homesOn, if_pos ⟨on.ge, on.lt⟩, on.eq]

section
variable {heap : Nat → List (String × Node)} (sourced : EachField (On heap 1 next) source)
include sourced

theorem homesOn_of_follow (nonempty : c ≠ []) {m : Nat} {fields : List (String × Node)}
    (found : follow c (.doc 0 source) = .ok (.doc m fields)) :
    homesOn heap next m = some (.doc m fields) := by
  obtain ⟨part, rest, rfl⟩ := List.exists_cons_of_ne_nil nonempty
  exact homesOn_of_on ((sourced.getD part).follow found).1

theorem face_homesOn (found : follow c (.doc 0 source) = .ok node) (present : node ≠ absent) :
    Face (.doc 0 source) (homesOn heap next) c node := by
  refine ⟨node, found, present, fun items listed => ⟨items, listed⟩, fun m fields h doc home => ?_⟩
  subst doc
  by_cases nonempty : c = []
  · subst nonempty
    obtain ⟨rfl, -⟩ := Node.doc.inj (Except.ok.inj found)
    cases home
  · rw [homesOn_of_follow sourced nonempty found] at home
    exact Option.some.inj home

end

theorem follow_identifier (nonempty : c ≠ [])
    (found : follow c (.doc 0 (source.filter fun field => field.1 == "_id")) = .ok node)
    (present : node ≠ absent) : ["_id"] <+: c ∧ follow c (.doc 0 source) = .ok node := by
  obtain ⟨part, rest, rfl⟩ := List.exists_cons_of_ne_nil nonempty
  by_cases identifier : part = "_id"
  · subst identifier
    rw [follow_cons_doc, Fields.lookup_filter_self] at found
    exact ⟨by simp, found⟩
  · have unnamed : (source.filter fun field => field.1 == "_id").lookup part = none := by
      rw [Fields.lookup_eq_none_iff, Fields.keys, List.mem_map]
      rintro ⟨field, mem, rfl⟩
      exact identifier (by simpa using (List.mem_filter.1 mem).2)
    rw [follow_cons_doc, unnamed] at found
    exact absurd (Except.ok.inj (found.symm.trans (follow_absent rest))) present

/-- A projection starts with the identifier. -/
theorem traced_identifier {heap : Nat → List (String × Node)}
    (sourced : EachField (On heap 1 next) source) (positive : 0 < next)
    (identified : (source.lookup "_id").isSome = true) :
    Traced (.doc 0 source) (homesOn heap next) [["_id"]] next source
      (source.filter fun field => field.1 == "_id") := by
  have root {m : Nat} {c : List String} {fields : List (String × Node)}
      (free : homesOn heap next m = none)
      (doc : follow c (.doc 0 (source.filter fun field => field.1 == "_id")) =
        .ok (.doc m fields)) : c = [] := by
    by_contra nonempty
    have there := (follow_identifier nonempty doc nofun).2
    rw [homesOn_of_follow sourced nonempty there] at free
    cases free
  refine {
    positive
    root := rfl
    below := fun m h home => ?_
    heap := ⟨heap, sourced, Node.eachField_iff.2 fun field mem =>
      Node.eachField_iff.1 sourced field (List.mem_filter.1 mem).1⟩
    homed := sourced.imp fun m fields on => ⟨_, homesOn_of_on on⟩
    inside := fun c node was nonempty found stood => ?_
    source_faces := fun c node found present => face_homesOn sourced found present
    result_faces := fun c node found present => ?_
    single := fun m c b fields inside free doc doc' => by rw [root free doc, root free doc']
    behind := fun c node found present known => ?_
    identified := by rwa [Fields.lookup_filter_self] }
  · rw [homesOn] at home
    split at home
    · rename_i within
      exact within.2
    · cases home
  · obtain rfl := Except.ok.inj (found.symm.trans stood)
    obtain ⟨part, rest, rfl⟩ := List.exists_cons_of_ne_nil nonempty
    have within := ((sourced.getD part).follow found).and (Node.each_sizeOf node)
    exact within.imp fun m fields ⟨on, le⟩ => ⟨_, homesOn_of_on on, le⟩
  · by_cases nonempty : c = []
    · subst nonempty
      obtain rfl := Except.ok.inj found
      refine ⟨_, rfl, nofun, nofun, fun m fields h doc home => ?_⟩
      obtain ⟨rfl, -⟩ := Node.doc.inj doc
      cases home
    · exact face_homesOn sourced (follow_identifier nonempty found present).2 present
  · by_cases nonempty : c = []
    · subst nonempty
      obtain ⟨h, home⟩ := known 0 _ (Except.ok.inj found).symm
      cases home
    · exact ⟨_, List.mem_singleton_self _, (follow_identifier nonempty found present).1⟩

structure Placing (result : List (String × Node)) (q : List String) (content : Node) (next : Nat)
    (w : Write) (before rest : List String) (inside : List (String × Node)) : Prop where
  parts : q = before ++ w.key :: rest
  owner : follow before (.doc 0 result) = .ok (.doc w.owner inside)
  written : w.content = some (Write.nest rest content next).1
  last : rest ≠ [] → ∀ m fields, inside.lookup w.key ≠ some (.doc m fields)

theorem exists_placing (result : List (String × Node)) (nonempty : q ≠ []) (content : Node)
    (next : Nat) : ∃ w before rest inside,
      Write.placing content 0 q result next = (w, next + rest.length) ∧
        Placing result q content next w before rest inside := by
  obtain ⟨before, key, rest, m, inside, parts, owner, -, run, last⟩ :=
    Write.placing_cases content 0 nonempty result next
  exact ⟨_, before, rest, inside, run, parts, owner, rfl, last⟩

theorem Placing.nonempty {inside : List (String × Node)}
    (placing : Placing result q content next w before rest inside) : q ≠ [] := by
  rw [placing.parts]
  simp

/-- The homes after a write into a document with a home: the new documents have theirs behind it. -/
def homesAfter (origin : Node) (home : Nat → Option Node) (next : Nat) (path rest : List String)
    (m : Nat) : Option Node :=
  if m < next then home m
  else if m < next + rest.length then (follow (path ++ rest.take (m - next)) origin).toOption
  else none

theorem homesAfter_of_lt {m : Nat} (lt : m < next) :
    homesAfter origin home next path rest m = home m := if_pos lt

theorem homesAfter_new {short : List String} {was : Node} (le : short <+: rest)
    (shorter : short.length < rest.length) (there : follow (path ++ short) origin = .ok was) :
    homesAfter origin home next path rest (next + short.length) = some was := by
  rw [homesAfter, if_neg (by omega), if_pos (by omega), Nat.add_sub_cancel_left,
    ← List.prefix_iff_eq_take.1 le, there]
  rfl

theorem lt_of_homesAfter {m : Nat} {place : Node}
    (h : homesAfter origin home next path rest m = some place) : m < next + rest.length := by
  rw [homesAfter] at h
  split at h
  · omega
  · split at h
    · assumption
    · cases h

namespace Traced

variable (h : Traced origin home done next source result)
include h

/-- A path that leads nowhere has nothing to be copied. -/
theorem skip (q : List String) : Traced origin home (q :: done) next source result :=
  { h with
    behind := fun c node found present known => by
      obtain ⟨p, mem, le⟩ := h.behind c node found present known
      exact ⟨p, List.mem_cons_of_mem q mem, le⟩ }

theorem lt_of_result {m : Nat} {fields : List (String × Node)}
    (found : follow c (.doc 0 result) = .ok (.doc m fields)) : m < next := by
  obtain ⟨heap, -, each⟩ := h.heap
  cases c with
  | nil =>
    obtain ⟨rfl, -⟩ := Node.doc.inj (Except.ok.inj found)
    exact h.positive
  | cons part rest => exact ((each.getD part).follow found).1.lt

theorem lt_of_source {m : Nat} {fields : List (String × Node)}
    (found : follow c (.doc 0 source) = .ok (.doc m fields)) : m < next := by
  obtain ⟨heap, each, -⟩ := h.heap
  cases c with
  | nil =>
    obtain ⟨rfl, -⟩ := Node.doc.inj (Except.ok.inj found)
    exact h.positive
  | cons part rest => exact ((each.getD part).follow found).1.lt

theorem heap_carryOut (written : w.content = some (Write.nest rest content next).1)
    (nonempty : q ≠ []) (found : follow q (.doc 0 source) = .ok content)
    (apart : content.Without w.owner) :
    ∃ heap, EachField (On heap 1 (next + rest.length)) (w.carryOutFields source) ∧
      EachField (On heap 1 (next + rest.length)) (w.carryOutRoot result) := by
  obtain ⟨heap, of_source, of_result⟩ := h.heap
  let after (m : Nat) : List (String × Node) :=
    if m = w.owner then w.apply (w.carryOutFields (heap m)) else w.carryOutFields (heap m)
  have moves (m : Nat) (fields : List (String × Node)) (on : On heap 1 next m fields)
      (other : m ≠ w.owner) : On after 1 next m (w.carryOutFields fields) :=
    ⟨on.ge, on.lt, by rw [← on.eq]; exact if_neg other⟩
  have writes (fields : List (String × Node)) (on : On heap 1 next w.owner fields) :
      On after 1 next w.owner (w.apply (w.carryOutFields fields)) :=
    ⟨on.ge, on.lt, by rw [← on.eq]; exact if_pos rfl⟩
  have there : Each (On after 1 next) content := by
    have turns : w.Turns (fun m fields => On heap 1 next m fields ∧ m ≠ w.owner) (On after 1 next) :=
      ⟨fun m fields on => moves m fields on.1, fun fields on => absurd rfl on.2,
        fun fields _ on => absurd rfl on.2⟩
    obtain ⟨part, behind, rfl⟩ := List.exists_cons_of_ne_nil nonempty
    have on : Each (On heap 1 next) content := (of_source.getD part).follow found
    exact Node.carryOut_of_without apart ▸ turns.each (on.and apart)
  obtain ⟨new, nested⟩ := Write.each_nest rest content next there
  have brings : Each (On (joined next after new) 1 (next + rest.length))
      (Write.nest rest content next).1 := nested.imp fun m fields on =>
    on.elim (·.below (Nat.le_add_right _ _)) (·.above h.positive)
  have turns : w.Turns (On heap 1 next) (On (joined next after new) 1 (next + rest.length)) := by
    refine ⟨fun m fields on other => ?_, fun fields on => ?_, fun fields node on same => ?_⟩
    · exact (moves m fields on other).below (Nat.le_add_right _ _)
    · exact (writes fields on).below (Nat.le_add_right _ _)
    · rw [written] at same
      exact Option.some.inj same ▸ brings
  refine ⟨_, turns.eachField of_source, ?_⟩
  rw [Write.carryOutRoot]
  split
  · refine Write.eachField_apply (turns.eachField of_result) fun node same => ?_
    rw [written] at same
    exact Option.some.inj same ▸ brings
  · exact turns.eachField of_result

theorem behind_moved {node : Node}
    (moved : (follow c (.doc 0 result)).map w.carryOut = .ok node) (ne : node ≠ absent)
    (known : ∀ m fields, m < next → node = .doc m fields → ∃ h, home m = some h) :
    ∃ p ∈ q :: done, p <+: c := by
  obtain ⟨old, there, rfl⟩ := Write.exists_of_map moved
  have something : old ≠ absent := by
    rintro rfl
    exact ne rfl
  obtain ⟨p, mem, le⟩ := h.behind c old there something fun m fields doc => by
    subst doc
    exact known m _ (h.lt_of_result there) rfl
  exact ⟨p, List.mem_cons_of_mem q mem, le⟩

/-! ## Placing content -/

section
variable {inside : List (String × Node)} {m : Nat} {fields : List (String × Node)}
  (placing : Placing result q content next w before rest inside)
  (found : follow q (.doc 0 source) = .ok content) (present : content ≠ absent)
include placing found

theorem content_homed : content.Each fun m _ => ∃ h, home m = some h := by
  obtain ⟨part, behind, rfl⟩ := List.exists_cons_of_ne_nil (placing.nonempty)
  exact (h.homed.getD part).follow found

include present

omit placing in
theorem exists_whole : ∃ was, follow q origin = .ok was ∧ was ≠ absent := by
  obtain ⟨was, there, something, -⟩ := h.source_faces q content found present
  exact ⟨was, there, something⟩

theorem face_placed {path others : List String} {node : Node}
    (same : ∀ behind, follow (path ++ w.key :: behind) origin =
      follow (before ++ w.key :: behind) origin)
    (known : ∀ m, m < next → home' m = home m)
    (homes : ∀ short, short <+: rest → short.length < rest.length →
      ∀ h, home' (next + short.length) = some h →
        follow (before ++ w.key :: short) origin = .ok h)
    (into : follow others (Write.nest rest content next).1 = .ok node) (ne : node ≠ absent) :
    Face origin home' (path ++ w.key :: others) node := by
  have split (short : List String) : before ++ [w.key] ++ short = before ++ w.key :: short := by
    simp
  have face : Face origin home' (before ++ [w.key] ++ others) node := by
    refine face_nest ?_ (fun behind node there ne => ?_) (fun short le less h known => ?_) into ne
    · rw [split, ← placing.parts]
      exact h.exists_whole found present
    · have further : follow (q ++ behind) (.doc 0 source) = .ok node := by
        rw [follow_append, found]
        exact there
      rw [split, ← placing.parts]
      refine (h.source_faces _ node further ne).of_home fun m fields doc => ?_
      exact known m (h.lt_of_source (doc ▸ further))
    · rw [split]
      exact homes short le less h known
  rw [split] at face
  exact face.congr (same others)

/-! ### Into documents of its own -/

section
variable (own : home w.owner = none)
include own

omit placing found present in
theorem carryOut_source : w.carryOutFields source = source := by
  refine Write.carryOutFields_of_each (h.homed.imp fun m fields homed same => ?_)
  obtain ⟨there, known⟩ := homed
  rw [same, own] at known
  cases known

omit placing found present in
theorem map_carryOut_source (nonempty : c ≠ []) :
    (follow c (.doc 0 source)).map w.carryOut = follow c (.doc 0 source) := by
  obtain ⟨part, behind, rfl⟩ := List.exists_cons_of_ne_nil nonempty
  cases found : follow (part :: behind) (.doc 0 source) with
  | error misuse => rfl
  | ok node =>
    have each : node.Each fun m _ => ∃ h, home m = some h := (h.homed.getD part).follow found
    refine congrArg Except.ok (Node.carryOut_of_without (each.imp fun m _ homed same => ?_))
    obtain ⟨there, known⟩ := homed
    rw [same, own] at known
    cases known

omit found present in
theorem moved_own (apart : ¬before ++ [w.key] <+: c) :
    follow c (.doc 0 (w.carryOutRoot result)) = (follow c (.doc 0 result)).map w.carryOut := by
  rw [← Write.carryOut_root]
  apply Write.follow_carryOut
  intro path others fields parts hit
  obtain rfl := h.single w.owner path before fields inside own hit placing.owner
  refine absurd ?_ apart
  rw [parts]
  simp

omit found present in
theorem into_own (others : List String) :
    follow (before ++ w.key :: others) (.doc 0 (w.carryOutRoot result)) =
      follow others (Write.nest rest content next).1 := by
  rw [← Write.carryOut_root]
  apply Write.follow_content placing.written placing.owner
  intro path others fields parts hit
  obtain rfl := h.single w.owner path before fields inside own hit placing.owner
  simp at parts

omit found present in
theorem placed_own : follow q (.doc 0 (w.carryOutRoot result)) = .ok content := by
  have whole := Write.follow_nest_append rest [] content next
  rw [List.append_nil] at whole
  rw [placing.parts, h.into_own placing own, whole]
  rfl

omit present in
theorem own_of_placed (free : home m = none)
    (doc : follow c (.doc 0 (w.carryOutRoot result)) = .ok (.doc m fields)) :
    (∃ fields, follow c (.doc 0 result) = .ok (.doc m fields)) ∨
      ∃ others, c = before ++ w.key :: others ∧ others <+: rest ∧ m = next + others.length := by
  rw [← Write.carryOut_root] at doc
  rcases Write.follow_carryOut_cases placing.written c (.doc 0 result) with
    moved | ⟨path, others, within, rfl, owner, into⟩
  · exact .inl (Write.exists_doc_of_map (moved.symm.trans doc))
  · obtain rfl := h.single w.owner path before within inside own owner placing.owner
    rw [into] at doc
    rcases Write.follow_nest rest content next others with
      ⟨behind, rfl, there⟩ | ⟨fields', le, -, there⟩ | ⟨-, there⟩
    · obtain ⟨⟨home, known⟩, -⟩ := (h.content_homed placing found).follow (there.symm.trans doc)
      rw [free] at known
      cases known
    · obtain ⟨rfl, -⟩ := Node.doc.inj (Except.ok.inj (doc.symm.trans there))
      exact .inr ⟨others, rfl, le, rfl⟩
    · cases doc.symm.trans there

theorem place_own : Traced origin home (q :: done) (next + rest.length) source
    (w.carryOutRoot result) := by
  have apart : content.Without w.owner := (h.content_homed placing found).imp fun m _ homed same => by
    obtain ⟨there, known⟩ := homed
    rw [same, own] at known
    cases known
  obtain ⟨heap, of_source, of_result⟩ :=
    h.heap_carryOut placing.written (placing.nonempty) found apart
  rw [h.carryOut_source own] at of_source
  have unhoused (n : Nat) : home (next + n) = none := by
    by_contra housed
    obtain ⟨there, known⟩ := Option.ne_none_iff_exists'.1 housed
    exact absurd (h.below _ there known) (by omega)
  refine ⟨Nat.add_pos_left h.positive _, h.root, fun m there known => ?_, ⟨heap, of_source, of_result⟩,
    h.homed, h.inside, h.source_faces, ?_, fun m c b fields fields' free doc doc' => ?_,
    fun c node there ne known => ?_, Write.isSome_lookup_carryOutRoot placing.written h.identified⟩
  · exact Nat.lt_add_right _ (h.below m there known)
  · rw [← Write.carryOut_root]
    refine h.result_faces.carryOut placing.written (fun _ _ _ _ => rfl)
      fun path others within node owner into ne => ?_
    obtain rfl := h.single w.owner path before within inside own owner placing.owner
    refine h.face_placed placing found present (fun _ => rfl) (fun _ _ => rfl) ?_ into ne
    intro short _ _ home known
    rw [unhoused] at known
    cases known
  · rcases h.own_of_placed placing found own free doc with
      ⟨old, there⟩ | ⟨others, rfl, le, eq⟩ <;>
    rcases h.own_of_placed placing found own free doc' with
      ⟨old', there'⟩ | ⟨others', rfl, le', eq'⟩
    · exact h.single m c b old old' free there there'
    · have := h.lt_of_result there
      omega
    · have := h.lt_of_result there'
      omega
    · have length : others.length = others'.length := by omega
      rw [List.prefix_iff_eq_take] at le le'
      rw [le, le', length]
  · rw [← Write.carryOut_root] at there
    rcases Write.follow_carryOut_cases placing.written c (.doc 0 result) with
      moved | ⟨path, others, within, rfl, owner, into⟩
    · exact h.behind_moved (moved.symm.trans there) ne fun m fields _ doc =>
        known m fields doc
    · obtain rfl := h.single w.owner path before within inside own owner placing.owner
      rw [into] at there
      rcases Write.follow_nest rest content next others with
        ⟨behind, rfl, -⟩ | ⟨fields, -, -, doc⟩ | ⟨-, nothing⟩
      · refine ⟨q, List.mem_cons_self, ?_⟩
        rw [placing.parts]
        simp
      · obtain ⟨there, housed⟩ := known _ fields (Except.ok.inj (there.symm.trans doc))
        rw [unhoused] at housed
        cases housed
      · exact absurd (Except.ok.inj (there.symm.trans nothing)) ne

end

/-! ### Into documents with a home -/

section
variable {place : Node} (housed : home w.owner = some place)
include housed

omit placing found present in
theorem owner_ne_zero : w.owner ≠ 0 := by
  intro zero
  rw [zero, h.root] at housed
  cases housed

omit placing found present in
theorem carryOut_housed : w.carryOut (.doc 0 source) = .doc 0 (w.carryOutFields source) := by
  rw [Write.carryOut, if_neg (h.owner_ne_zero housed).symm]

omit found present in
theorem follow_owner : follow before origin = .ok place := by
  obtain ⟨was, there, -, -, docs⟩ := h.result_faces before _ placing.owner nofun
  rw [there, docs _ _ place rfl housed]

theorem exists_short {short : List String} (le : short <+: rest) :
    ∃ was, follow (before ++ w.key :: short) origin = .ok was ∧ was ≠ absent ∧
      sizeOf was < sizeOf place ∧ ∀ more, short ++ more = rest →
        ∃ last, follow more was = .ok last ∧ follow q origin = .ok last := by
  obtain ⟨last, whole, something⟩ := h.exists_whole found present
  obtain ⟨more, rfl⟩ := le
  have parts : q = (before ++ w.key :: short) ++ more := by simp [placing.parts]
  have read := whole
  rw [parts, follow_append] at read
  obtain ⟨was, there, further⟩ := Except.bind_eq_ok.1 read
  have present : was ≠ absent := by
    rintro rfl
    rw [follow_absent] at further
    exact something (Except.ok.inj further).symm
  refine ⟨was, there, present, ?_, fun more' same => ?_⟩
  · rw [follow_append, h.follow_owner placing housed] at there
    exact ((Node.sizeOf_follow there).resolve_left present).2 (List.cons_ne_nil _ _)
  · obtain rfl := List.append_cancel_left same
    exact ⟨last, further, whole⟩

theorem content_inside : ∃ last, follow q origin = .ok last ∧ sizeOf last < sizeOf place ∧
    content.Each fun m _ => ∃ h, home m = some h ∧ sizeOf h ≤ sizeOf last := by
  obtain ⟨last, there, -, less, -⟩ :=
    h.exists_short placing found present housed (List.prefix_refl rest)
  rw [← placing.parts] at there
  exact ⟨last, there, less, h.inside q content last placing.nonempty found there⟩

theorem content_without : content.Without w.owner := by
  obtain ⟨last, -, less, each⟩ := h.content_inside placing found present housed
  refine each.imp fun m _ bounded same => ?_
  obtain ⟨there, known, le⟩ := bounded
  rw [same, housed] at known
  obtain rfl := Option.some.inj known
  omega

theorem nest_inside {short more : List String} {was : Node} (split : short ++ more = rest)
    (there : follow (before ++ w.key :: short) origin = .ok was) :
    (Write.nest more content (next + short.length)).1.Each fun m _ =>
      ∃ h, homesAfter origin home next (before ++ [w.key]) rest m = some h ∧
        sizeOf h ≤ sizeOf was := by
  obtain ⟨last, whole, -, each⟩ := h.content_inside placing found present housed
  obtain ⟨heap, nested⟩ := Write.each_nest more content (next + short.length) each
  have behind (further : List String) (le : further <+: more) :
      ∃ h, follow (before ++ w.key :: (short ++ further)) origin = .ok h ∧
        sizeOf h ≤ sizeOf was := by
    have within : short ++ further <+: rest := split ▸ (List.prefix_append_right_inj short).2 le
    obtain ⟨h', read, something, -⟩ := h.exists_short placing found present housed within
    have parts : before ++ w.key :: (short ++ further) = (before ++ w.key :: short) ++ further := by
      simp
    have read' := read
    rw [parts, follow_append, there] at read'
    exact ⟨h', read, ((Node.sizeOf_follow read').resolve_left something).1⟩
  refine nested.imp fun m fields known => ?_
  rcases known with ⟨h', known, le⟩ | on
  · obtain ⟨h'', read, le'⟩ := behind more (List.prefix_refl more)
    rw [split, ← placing.parts, whole] at read
    obtain rfl := Except.ok.inj read
    exact ⟨h', (homesAfter_of_lt (h.below m h' known)).trans known, Nat.le_trans le le'⟩
  · obtain ⟨i, rfl⟩ := Nat.exists_eq_add_of_le on.ge
    have lt := on.lt
    have length : (short ++ more.take i).length = short.length + i := by
      rw [List.length_append, List.length_take]
      omega
    obtain ⟨h', read, le⟩ := behind (more.take i) (List.take_prefix i more)
    refine ⟨h', ?_, le⟩
    have within : short ++ more.take i <+: rest :=
      split ▸ (List.prefix_append_right_inj short).2 (List.take_prefix i more)
    have shorter : (short ++ more.take i).length < rest.length := by
      rw [length, ← split, List.length_append]
      omega
    have new : homesAfter origin home next (before ++ [w.key]) rest
        (next + (short ++ more.take i).length) = some h' :=
      homesAfter_new within shorter (by simpa using read)
    rwa [length, ← Nat.add_assoc] at new

omit found present in
theorem follow_behind {path : List String} {root : Node} {fields : List (String × Node)}
    (faces : Faces origin home root) (owner : follow path root = .ok (.doc w.owner fields))
    (behind : List String) : follow (path ++ w.key :: behind) origin =
      follow (before ++ w.key :: behind) origin := by
  obtain ⟨was, there, -, -, docs⟩ := faces path _ owner nofun
  rw [follow_append, follow_append, h.follow_owner placing housed, there, docs _ _ place rfl housed]

theorem nest_homed : (Write.nest rest content next).1.Each fun m _ => ∃ h,
    homesAfter origin home next (before ++ [w.key]) rest m = some h ∧ sizeOf h < sizeOf place := by
  obtain ⟨first, read, -, less, -⟩ := h.exists_short placing found present housed List.nil_prefix
  have each := h.nest_inside placing found present housed (List.nil_append rest) read
  refine each.imp fun m _ known => ?_
  obtain ⟨h', known, le⟩ := known
  exact ⟨h', known, by omega⟩

omit placing found present housed in
theorem inside_kept {m size : Nat} (known : ∃ h, home m = some h ∧ sizeOf h ≤ size) :
    ∃ h, homesAfter origin home next (before ++ [w.key]) rest m = some h ∧ sizeOf h ≤ size := by
  obtain ⟨h', known, le⟩ := known
  exact ⟨h', (homesAfter_of_lt (h.below m h' known)).trans known, le⟩

theorem turns_inside (size : Nat) :
    w.Turns (fun m _ => ∃ h, home m = some h ∧ sizeOf h ≤ size) fun m _ =>
      ∃ h, homesAfter origin home next (before ++ [w.key]) rest m = some h ∧ sizeOf h ≤ size := by
  refine ⟨fun m _ known _ => h.inside_kept known, fun _ known => h.inside_kept known,
    fun _ node known same => ?_⟩
  obtain ⟨place', known, le⟩ := known
  obtain rfl := Option.some.inj (housed.symm.trans known)
  rw [placing.written] at same
  obtain rfl := Option.some.inj same
  refine (h.nest_homed placing found present housed).imp fun m _ known => ?_
  obtain ⟨h', known, less⟩ := known
  exact ⟨h', known, by omega⟩

theorem inside_placed {c : List String} {node was : Node} (nonempty : c ≠ [])
    (there : follow c (w.carryOut (.doc 0 source)) = .ok node) (stood : follow c origin = .ok was) :
    node.Each fun m _ => ∃ h, homesAfter origin home next (before ++ [w.key]) rest m = some h ∧
      sizeOf h ≤ sizeOf was := by
  rcases Write.follow_carryOut_cases placing.written c (.doc 0 source) with
    moved | ⟨path, others, fields, rfl, owner, into⟩
  · obtain ⟨old, found', rfl⟩ := Write.exists_of_map (moved.symm.trans there)
    exact (h.turns_inside placing found present housed _).each
      (h.inside c old was nonempty found' stood)
  · rw [h.follow_behind placing housed h.source_faces owner] at stood
    rw [into] at there
    rcases Write.follow_nest rest content next others with
      ⟨behind, rfl, doc⟩ | ⟨fields, le, -, -⟩ | ⟨-, nothing⟩
    · have parts : before ++ w.key :: (rest ++ behind) = q ++ behind := by simp [placing.parts]
      rw [parts] at stood
      have further : follow (q ++ behind) (.doc 0 source) = .ok node := by
        rw [follow_append, found]
        exact doc.symm.trans there
      have nonempty : q ++ behind ≠ [] := fun nil =>
        placing.nonempty (List.append_eq_nil_iff.1 nil).1
      exact (h.inside _ node was nonempty further stood).imp fun m _ known => h.inside_kept known
    · obtain ⟨more, rfl⟩ := le
      rw [Write.follow_nest_append] at there
      obtain rfl := Except.ok.inj there
      exact h.nest_inside placing found present housed rfl stood
    · obtain rfl := Except.ok.inj (there.symm.trans nothing)
      trivial

theorem homed_placed : EachField
    (fun m _ => ∃ h, homesAfter origin home next (before ++ [w.key]) rest m = some h)
    (w.carryOutFields source) := by
  have kept {m : Nat} (known : ∃ h, home m = some h) :
      ∃ h, homesAfter origin home next (before ++ [w.key]) rest m = some h := by
    obtain ⟨h', known⟩ := known
    exact ⟨h', (homesAfter_of_lt (h.below m h' known)).trans known⟩
  have turns : w.Turns (fun m _ => ∃ h, home m = some h)
      fun m _ => ∃ h, homesAfter origin home next (before ++ [w.key]) rest m = some h := by
    refine ⟨fun m _ known _ => kept known, fun _ known => kept known, fun _ node _ same => ?_⟩
    rw [placing.written] at same
    obtain rfl := Option.some.inj same
    exact (h.nest_homed placing found present housed).imp fun m _ known =>
      known.imp fun _ known => known.1
  exact turns.eachField h.homed

theorem own_of_housed {c : List String} {m : Nat} {fields : List (String × Node)}
    (free : homesAfter origin home next (before ++ [w.key]) rest m = none)
    (doc : follow c (.doc 0 (w.carryOutRoot result)) = .ok (.doc m fields)) :
    home m = none ∧ ∃ fields, follow c (.doc 0 result) = .ok (.doc m fields) := by
  rw [← Write.carryOut_root] at doc
  rcases Write.follow_carryOut_cases placing.written c (.doc 0 result) with
    moved | ⟨path, others, within, rfl, owner, into⟩
  · obtain ⟨old, there⟩ := Write.exists_doc_of_map (moved.symm.trans doc)
    exact ⟨(homesAfter_of_lt (h.lt_of_result there)).symm.trans free, old, there⟩
  · have each := h.nest_homed placing found present housed
    obtain ⟨⟨h', known, -⟩, -⟩ := each.follow (into.symm.trans doc)
    rw [free] at known
    cases known

theorem place_housed : Traced origin (homesAfter origin home next (before ++ [w.key]) rest)
    (q :: done) (next + rest.length) (w.carryOutFields source) (w.carryOutRoot result) := by
  have known (m : Nat) (lt : m < next) :
      homesAfter origin home next (before ++ [w.key]) rest m = home m := homesAfter_of_lt lt
  have homes (short : List String) (le : short <+: rest) (shorter : short.length < rest.length)
      (place' : Node) (new : homesAfter origin home next (before ++ [w.key]) rest
        (next + short.length) = some place') :
      follow (before ++ w.key :: short) origin = .ok place' := by
    obtain ⟨was, read, -⟩ := h.exists_short placing found present housed le
    rw [homesAfter_new le shorter (by simpa using read)] at new
    rw [read, Option.some.inj new]
  refine ⟨Nat.add_pos_left h.positive _, (known 0 h.positive).trans h.root,
    fun m place new => lt_of_homesAfter new, ?_, h.homed_placed placing found present housed,
    fun c node was nonempty there => ?_, ?_, ?_, fun m c b fields fields' free doc doc' => ?_,
    fun c node there ne homed => ?_, Write.isSome_lookup_carryOutRoot placing.written h.identified⟩
  · exact h.heap_carryOut placing.written placing.nonempty found
      (h.content_without placing found present housed)
  · rw [← h.carryOut_housed housed] at there
    exact h.inside_placed placing found present housed nonempty there
  · rw [← h.carryOut_housed housed]
    exact h.source_faces.carryOut placing.written
      (fun c m fields there => known m (h.lt_of_source there))
      fun path others fields node owner into ne => h.face_placed placing found present
        (h.follow_behind placing housed h.source_faces owner) known homes into ne
  · rw [← Write.carryOut_root]
    exact h.result_faces.carryOut placing.written
      (fun c m fields there => known m (h.lt_of_result there))
      fun path others fields node owner into ne => h.face_placed placing found present
        (h.follow_behind placing housed h.result_faces owner) known homes into ne
  · obtain ⟨free', old, there⟩ := h.own_of_housed placing found present housed free doc
    obtain ⟨-, old', there'⟩ := h.own_of_housed placing found present housed free doc'
    exact h.single m c b old old' free' there there'
  · rw [← Write.carryOut_root] at there
    rcases Write.follow_carryOut_cases placing.written c (.doc 0 result) with
      moved | ⟨path, others, within, rfl, owner, into⟩
    · refine h.behind_moved (moved.symm.trans there) ne fun m fields lt doc => ?_
      rw [← known m lt]
      exact homed m fields doc
    · obtain ⟨p, mem, le⟩ := h.behind path _ owner nofun fun m fields doc => by
        obtain ⟨rfl, -⟩ := Node.doc.inj doc
        exact ⟨place, housed⟩
      exact ⟨p, List.mem_cons_of_mem q mem, le.trans (List.prefix_append _ _)⟩

end

end

end Traced
end Pipeline
end Docbase
