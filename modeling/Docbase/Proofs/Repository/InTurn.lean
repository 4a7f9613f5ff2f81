import Docbase.Proofs.Memory.Intake
import Docbase.Proofs.Repository.Insertion

/-!
# Many inserts and one for each

A bulk insert draws all keys first and then goes through the documents, whereas single inserts draw
a key each. With the same keys in the same order they come to the same: the same documents are
taken, in the same order, and the others are duplicates of documents that are there in the end.

* `World.taking` is what inserts leave behind.
* `Repository.inserts_of_intake` and `insertMany_of_intake`: both ways to insert are an intake.
* `Repository.insertMany_in_turn` is the theorem.
-/

namespace Docbase.Memory

/-! ## Keys in sequence -/

def KeySource.sequence (texts : Nat → String) : KeySource where
  draw := modifyGet fun w => (.str (texts w.drawn), { w with drawn := w.drawn + 1 })
  keeps _ := ⟨List.prefix_refl _, fun _ => rfl⟩

def Handle.documents (h : Handle) (texts : Nat → String) (first : Nat) (datas : List Document) :
    List Document :=
  (datas.zipIdx first).map fun (data, n) => ("_id", .str (texts n)) :: h.identity.strip data

theorem Handle.documents_cons (h : Handle) (texts : Nat → String) (first : Nat) (data : Document)
    (rest : List Document) : h.documents texts first (data :: rest) =
      (("_id", .str (texts first)) :: h.identity.strip data) ::
        h.documents texts (first + 1) rest := rfl

theorem Handle.length_documents (h : Handle) (texts : Nat → String) (first : Nat)
    (datas : List Document) : (h.documents texts first datas).length = datas.length := by
  rw [documents, List.length_map, List.length_zipIdx]

namespace World

def taking (store : String) (contents : Contents) (count : Nat) (w : World) : World :=
  { w.setContents store contents with
    generated := w.generated + count
    drawn := w.drawn + count }

variable {store : String} {caller : Option SessionId} {w : World} {c c' : Contents} {m n : Nat}

@[simp] theorem contents_taking : (w.taking store c n).contents store = c :=
  contents_setContents_self store c w

theorem refusal_taking : (w.taking store c n).refusal store caller = w.refusal store caller :=
  refusal_congr (connected_setContents store store c w) rfl caller

theorem taking_taking : (w.taking store c m).taking store c' n = w.taking store c' (m + n) := by
  have stores : ((w.taking store c m).taking store c' n).stores =
      (w.taking store c' (m + n)).stores := by
    funext other
    by_cases same : other = store
    · simp [taking, setContents, setStore, same]
    · simp [taking, setContents, setStore, same]
  simp only [taking, setContents, setStore, Nat.add_assoc] at stores ⊢
  rw [stores]

theorem taking_zero : w.taking store (w.contents store) 0 = w := by
  rw [taking, setContents_self]
  rfl

end World

/-! ## Inserts with keys -/

section

variable {store name : String} {caller : Option SessionId} {w : World}

theorem Write.perform_of_carriesKeys {op : Write} (allowed : op.refusal store caller w = none)
    (keyed : op.carriesKeys = true) :
    op.perform store caller w = ((op.change 0 (w.contents store)).1,
      { w.setContents store (op.change 0 (w.contents store)).2 with
        generated := w.generated + op.reserved }) := by
  -- As no key is generated, this may as well be the first write.
  rw [Write.perform_apply, allowed, Write.change_congr_number keyed w.generated 0]

theorem carriesKey_of_lookup {d : Document} {key : Value} (found : d.lookup "_id" = some key) :
    carriesKey (.doc d) = true := by
  rw [carriesKey, Fields.has, found, Option.isSome_some]

theorem backend_insert_apply {d : Document} {key : Value} (allowed : w.refusal store caller = none)
    (found : d.lookup "_id" = some key) :
    (backend store).insert name d caller w =
      ((Contents.insertKeyed name 0 (.doc d) (w.contents store)).1.map fun key => .str key.text,
        { w.setContents store (Contents.insertKeyed name 0 (.doc d) (w.contents store)).2 with
          generated := w.generated + 1 }) := by
  let op : Write := .insert name (.doc d)
  have made : op.perform store caller w = _ :=
    Write.perform_of_carriesKeys allowed (carriesKey_of_lookup found)
  have change : op.change 0 (w.contents store) =
      ((Contents.insertKeyed name 0 (.doc d) (w.contents store)).1.map fun key => .str key.text,
        (Contents.insertKeyed name 0 (.doc d) (w.contents store)).2) := by
    rw [Write.change, Contents.insert, Action.map_apply, Action.bind_apply]
    rcases Contents.insertKeyed name 0 (.doc d) (w.contents store) with ⟨_ | key, after⟩ <;> rfl
  rw [change] at made
  exact made

theorem backend_insertEach_of_intake {documents : List Document} {contents last : Contents}
    {outcomes : List (Except Failure Value)} (allowed : w.refusal store caller = none)
    (keyed : ∀ d ∈ documents, ∃ s, d.lookup "_id" = some (.str s))
    (run : Contents.intake name documents (w.contents store) = (.ok outcomes, contents))
    (settled : List.Forall₂ (Contents.Settled name last) documents outcomes) :
    ∃ answer, (backend store).insertEach name documents caller w = (answer,
        { w.setContents store contents with generated := w.generated + documents.length }) ∧
      Repository.insertedKeys answer =
        .ok (listed .str ((outcomes.filterMap Except.toOption).map Value.text)) := by
  obtain ⟨outcome, bulk, ids⟩ := Contents.insertFrom_of_intake 0 0 keyed run settled
  let op : Write := .insertAll name (documents.map .doc) false
  have carries : op.carriesKeys = true := by
    refine List.all_eq_true.2 (List.forall_mem_map.2 fun d mem => ?_)
    obtain ⟨s, found⟩ := keyed d mem
    exact carriesKey_of_lookup found
  have made : op.perform store caller w = _ := Write.perform_of_carriesKeys allowed carries
  have reserved : op.reserved = documents.length := List.length_map _
  rw [reserved, Write.change, Action.map_apply, Contents.insertAll, Action.bind_apply, bulk] at made
  dsimp only at made
  rw [← ids]
  -- If some were refused, the failure tells the keys of the others.
  split at made
  · exact ⟨_, made, rfl⟩
  · exact ⟨_, made, rfl⟩

end

end Memory

namespace Repository

open Memory (World SessionId Handle KeySource Contents Write)

variable {h : Handle} {texts : Nat → String} {store : String} {caller : Option SessionId}
  {w : World}

def told (h : Handle) (data : Document) (outcome : Except Failure Value) : Except Failure String :=
  (outcome.mapError (attributed h.name "insert data" (.doc (h.identity.strip data)))).map Value.text

theorem newKey_apply (keys : h.keys = .sequence texts) (w : World) :
    (h.repository store).newKey w =
      (.ok (.str (texts w.drawn)), { w with drawn := w.drawn + 1 }) := by
  change h.keys.draw w = _
  rw [keys]
  rfl

theorem insert_apply (keys : h.keys = .sequence texts) (internal : h.identity.internal = "_id")
    (allowed : w.refusal store caller = none) (data : Document) :
    let d : Document := ("_id", .str (texts w.drawn)) :: h.identity.strip data
    let made := Contents.insertKeyed h.name 0 (.doc d) (w.contents store)
    (h.repository store).insert (.doc data) .null caller w =
      (told h data made.1, w.taking store made.2 1) := by
  intro d made
  let w' : World := { w with drawn := w.drawn + 1 }
  have allowed' : w'.refusal store caller = none := allowed
  have found : d.lookup "_id" = some (.str (texts w.drawn)) := List.lookup_cons_self
  have written : (Memory.backend store).insert h.name d caller w' =
      (made.1.map fun key => .str key.text, w.taking store made.2 1) :=
    Memory.backend_insert_apply allowed' found
  have stored : (h.repository store).stripped (.doc data) = .ok (h.identity.strip data) := rfl
  have names : (h.repository store).identity.internal = "_id" := internal
  have inner : (UniqueField.ensure (h.repository store).backend (h.repository store).name .null >>=
      fun _ => do
        let key ← (h.repository store).newKey
        (h.repository store).backend.insert (h.repository store).name
          (((h.repository store).identity.internal, key) :: h.identity.strip data) caller) w =
      (made.1.map fun key => .str key.text, w.taking store made.2 1) := by
    have nothing : UniqueField.ensure (h.repository store).backend (h.repository store).name .null =
        pure () := rfl
    rw [nothing, pure_bind, Action.bind_apply, newKey_apply keys, names]
    exact written
  rw [insert, stored, Action.bind_apply, Action.liftM_apply]
  dsimp only
  rw [Action.bind_apply, attributing_apply, inner, told]
  cases made.1 with
  | error failure => rfl
  | ok key => rfl

theorem inserts_of_intake (keys : h.keys = .sequence texts) (internal : h.identity.internal = "_id")
    (allowed : w.refusal store caller = none) {datas : List Document}
    {outcomes : List (Except Failure Value)} {contents : Contents}
    (run : Contents.intake h.name (h.documents texts w.drawn datas) (w.contents store) =
      (.ok outcomes, contents)) :
    (datas.mapM fun data => ((h.repository store).insert (.doc data) .null caller).attempt) w =
      (.ok (List.zipWith (told h) datas outcomes), w.taking store contents datas.length) := by
  induction datas generalizing w outcomes with
  | nil =>
    cases run
    rw [List.length_nil, World.taking_zero]
    rfl
  | cons data rest ih =>
    rw [h.documents_cons, Contents.intake_cons] at run
    have here := insert_apply keys internal allowed data
    rcases made : Contents.insertKeyed h.name 0
      (.doc (("_id", .str (texts w.drawn)) :: h.identity.strip data)) (w.contents store) with
      ⟨outcome, between⟩
    rw [made] at run
    dsimp only at here
    rw [made] at here
    rcases later : Contents.intake h.name (h.documents texts (w.drawn + 1) rest) between with
      ⟨failure | outcomes', last⟩
    · rw [later] at run
      cases run
    · rw [later] at run
      cases run
      -- The others go on from here, with the next key.
      let w' := w.taking store between 1
      have allowed' : w'.refusal store caller = none := World.refusal_taking.trans allowed
      have later' : Contents.intake h.name (h.documents texts w'.drawn rest) (w'.contents store) =
          (.ok outcomes', last) := by
        rw [World.contents_taking]
        exact later
      have there := ih allowed' later'
      rw [List.mapM_cons, Action.bind_apply, Action.attempt_apply, here]
      dsimp only
      rw [Action.bind_apply, there, World.taking_taking, Nat.add_comm, List.length_cons]
      rfl

theorem keyed_apply (keys : h.keys = .sequence texts) (internal : h.identity.internal = "_id")
    (datas : List Document) (w : World) :
    (h.repository store).keyed (datas.map .doc) w =
      (.ok (h.documents texts w.drawn datas), { w with drawn := w.drawn + datas.length }) := by
  have names : (h.repository store).identity.internal = "_id" := internal
  induction datas generalizing w with
  | nil => rfl
  | cons data rest ih =>
    have stored : (h.repository store).stripped (.doc data) = .ok (h.identity.strip data) := rfl
    rw [List.map_cons, keyed, Action.bind_apply, newKey_apply keys]
    dsimp only
    rw [stored, Action.bind_apply, Action.liftM_apply]
    dsimp only
    rw [Action.bind_apply, ih, names, h.documents_cons, List.length_cons, Nat.add_assoc,
      Nat.add_comm 1]
    rfl

theorem documents_keyed (h : Handle) (texts : Nat → String) (first : Nat) (datas : List Document) :
    ∀ d ∈ h.documents texts first datas, ∃ s, d.lookup "_id" = some (.str s) :=
  List.forall_mem_map.2 fun x _ => ⟨texts x.2, List.lookup_cons_self⟩

theorem insertMany_of_intake (keys : h.keys = .sequence texts)
    (internal : h.identity.internal = "_id") (allowed : w.refusal store caller = none)
    {datas : List Document} {outcomes : List (Except Failure Value)} {contents last : Contents}
    (run : Contents.intake h.name (h.documents texts w.drawn datas) (w.contents store) =
      (.ok outcomes, contents))
    (settled : List.Forall₂ (Contents.Settled h.name last) (h.documents texts w.drawn datas)
      outcomes) :
    (h.repository store).insertMany (.list (datas.map .doc)) .null caller w =
      (.ok ((outcomes.filterMap Except.toOption).map Value.text),
        w.taking store contents datas.length) := by
  by_cases none : datas = []
  · subst none
    cases run
    rw [List.length_nil, World.taking_zero]
    rfl
  · let documents := h.documents texts w.drawn datas
    -- All keys are drawn ahead of the first write.
    let w' : World := { w with drawn := w.drawn + datas.length }
    have allowed' : w'.refusal store caller = Option.none := allowed
    obtain ⟨answer, written, told⟩ := Memory.backend_insertEach_of_intake allowed'
      (documents_keyed h texts w.drawn datas) run settled
    rw [h.length_documents] at written
    have inner : (UniqueField.ensure (h.repository store).backend (h.repository store).name
        .null >>= fun _ => do
          Action.lift (insertedKeys
            (← ((h.repository store).backend.insertEach (h.repository store).name documents
              caller).attempt))) w' =
        (.ok (Memory.listed .str ((outcomes.filterMap Except.toOption).map Value.text)),
          w.taking store contents datas.length) := by
      refine Action.bind_returns.2 ⟨(), w', rfl, ?_⟩
      refine Action.bind_returns.2 ⟨_, _, Action.attempt_returns.2 written, ?_⟩
      rw [told]
      rfl
    have some : ¬(!(Value.list (datas.map .doc)).truthy) = true := by
      obtain ⟨data, rest, rfl⟩ := List.exists_cons_of_ne_nil none
      exact Bool.false_ne_true
    have shown (ids : List String) : (ids.map Value.str).map Value.text = ids := by
      rw [List.map_map]
      exact List.map_id _
    rw [insertMany, if_neg some]
    refine Action.bind_returns.2 ⟨datas.map .doc, w, rfl, ?_⟩
    refine Action.bind_returns.2 ⟨documents, w', keyed_apply keys internal datas w, ?_⟩
    refine Action.bind_returns.2 ⟨_, _, attributing_returns.2 inner, ?_⟩
    refine Action.bind_returns.2 ⟨_, _, rfl, ?_⟩
    exact Action.pure_returns.2 ⟨shown _, rfl⟩

theorem told_of_settled {contents : Contents} {data d : Document}
    {outcome : Except Failure Value} (settled : Contents.Settled h.name contents d outcome) :
    ∀ failure, told h data outcome = .error failure →
      failure.kind = .validation ∧ (contents.collection h.name).Clashes d := by
  intro failure failed
  rcases settled with ⟨key, rfl⟩ | ⟨failure', rfl, kind, clash⟩
  · cases failed
  · obtain rfl := Except.error.inj failed
    rw [attributed, kind]
    exact ⟨rfl, clash⟩

theorem filterMap_told (datas : List Document) {outcomes : List (Except Failure Value)}
    (length : datas.length = outcomes.length) :
    (List.zipWith (told h) datas outcomes).filterMap Except.toOption =
      (outcomes.filterMap Except.toOption).map Value.text := by
  induction datas generalizing outcomes with
  | nil =>
    obtain rfl := List.length_eq_zero_iff.1 length.symm
    rfl
  | cons data rest ih =>
    cases outcomes with
    | nil => cases length
    | cons outcome outcomes =>
      rw [List.zipWith_cons_cons]
      cases outcome with
      | error failure => exact ih (Nat.succ.inj length)
      | ok key => exact congrArg (key.text :: ·) (ih (Nat.succ.inj length))

theorem forall₂_told {contents : Contents} {datas : List Document} {first : Nat}
    {outcomes : List (Except Failure Value)}
    (settled : List.Forall₂ (Contents.Settled h.name contents) (h.documents texts first datas)
      outcomes) :
    List.Forall₂ (fun d outcome => ∀ failure, outcome = .error failure →
        failure.kind = .validation ∧ (contents.collection h.name).Clashes d)
      (h.documents texts first datas) (List.zipWith (told h) datas outcomes) := by
  induction datas generalizing first outcomes with
  | nil =>
    cases settled
    exact .nil
  | cons data rest ih =>
    rw [h.documents_cons] at settled ⊢
    cases settled with
    | cons here there => exact .cons (told_of_settled here) (ih there)

/-- A bulk insert returns, and it does what the inserts of its data do one after the other with the
same keys. It answers with the identifiers of those that return; the others fail validation, each
for a document that clashes with one that is there in the end. -/
theorem insertMany_in_turn (keys : h.keys = .sequence texts)
    (internal : h.identity.internal = "_id") (allowed : w.refusal store caller = none)
    {datas : List Document} (indexed : (w.contents store).Indexed h.name)
    (readable : ∀ d ∈ h.documents texts w.drawn datas,
      ((w.contents store).collection h.name).Covers d) :
    ∃ outcomes v,
      (datas.mapM fun data => ((h.repository store).insert (.doc data) .null caller).attempt) w =
        (.ok outcomes, v) ∧
      (h.repository store).insertMany (.list (datas.map .doc)) .null caller w =
        (.ok (outcomes.filterMap Except.toOption), v) ∧
      List.Forall₂ (fun d outcome => ∀ failure, outcome = .error failure →
          failure.kind = .validation ∧ ((v.contents store).collection h.name).Clashes d)
        (h.documents texts w.drawn datas) outcomes := by
  obtain ⟨outcomes, contents, run, -, settled⟩ :=
    Contents.intake_settles (documents_keyed h texts w.drawn datas) indexed readable
  have length : datas.length = outcomes.length := by
    rw [← settled.length_eq, h.length_documents]
  refine ⟨_, _, inserts_of_intake keys internal allowed run, ?_, ?_⟩
  · rw [filterMap_told datas length]
    exact insertMany_of_intake keys internal allowed run settled
  · rw [World.contents_taking]
    exact forall₂_told settled

def arriving : Handle where
  name := "guests"
  keys := .sequence fun n => ["h1", "h1", "h2", "h2", "h3"].getD n ""

/-- Of five guests, the second has the key of the first, the third has the place of a guest who is
there, and the fourth that of the first. -/
theorem insertMany_in_turn_seating :
    let guest (table : String) (row : Int) : Document :=
      [("table", .str table), ("place", .doc [("row", .int row)])]
    let datas := [guest "a" 2, guest "c" 1, guest "b" 1, guest "a" 2, guest "c" 1]
    let r := arriving.repository "main"
    let bulk := r.insertMany (.list (datas.map .doc)) .null none World.seating
    let turns := (datas.mapM fun data => (r.insert (.doc data) .null none).attempt) World.seating
    World.seating.refusal "main" none = none ∧ (World.seating.contents "main").Indexed "guests" ∧
      bulk.1.toOption = some ["h1", "h3"] ∧ turns.2 = bulk.2 ∧
      turns.1.map (·.filterMap Except.toOption) = bulk.1 := by
  intro guest datas r bulk turns
  have allowed : World.seating.refusal "main" none = none := by decide +kernel
  have indexed : (World.seating.contents "main").Indexed "guests" := by
    unfold Contents.Indexed
    decide +kernel
  have readable : ∀ d ∈ arriving.documents (fun n => ["h1", "h1", "h2", "h2", "h3"].getD n "")
      World.seating.drawn datas,
      ((World.seating.contents "main").collection "guests").Covers d := by decide +kernel
  have told : bulk.1.toOption = some ["h1", "h3"] := by decide +kernel
  obtain ⟨outcomes, v, one, many, -⟩ :=
    insertMany_in_turn (h := arriving) rfl rfl allowed indexed readable
  have bulked : bulk = (.ok (outcomes.filterMap Except.toOption), v) := many
  have turned : turns = (.ok outcomes, v) := one
  refine ⟨allowed, indexed, told, ?_, ?_⟩
  · rw [bulked, turned]
  · rw [bulked, turned]
    rfl

end Repository
end Docbase
