import Docbase.Proofs.Server.InPlace
import Docbase.Proofs.Server.Store

/-!
# Answers without object identifiers

What a store on a server returns of the documents that its driver gives: their conversions.

* `Store.find_eq_ok`, `Store.query_eq_ok` and `Store.aggregate_eq_ok`: the answers of the readings.
* `Store.answers_converted`: what their conversion comes to.
-/

namespace Docbase.Server

variable {σ : Type}

/-- What a driver gives to be read are documents, or nothing where it looks for one. -/
structure Driver.GivesDocuments (driver : Driver σ) : Prop where
  findOne : ∀ {collection filter session s answer},
    (driver.findOne collection filter session s).1 = .ok answer →
      answer = .null ∨ ∃ d, answer = .doc d
  find : ∀ {collection filter session s answers},
    (driver.find collection filter session s).1 = .ok answers →
      ∀ answer ∈ answers, ∃ d, answer = .doc d
  aggregate : ∀ {collection pipeline session s answers},
    (driver.aggregate collection pipeline session s).1 = .ok answers →
      ∀ answer ∈ answers, ∃ d, answer = .doc d

namespace Store

variable {store : Store σ} {collection : String} {filter limit pipeline session : Value}
  {c : Connection σ} {v : Value} {vs : List Value}

/-! ## What is returned -/

def queried (store : Store σ) (collection : String) (filter limit session : Value) :
    Action σ (List Value) := do
  let documents ← store.driver.find collection (orEmpty filter) session
  if limit.truthy then store.driver.limit limit
  store.driver.drain
  return documents

def aggregated (store : Store σ) (collection : String) (pipeline session : Value) :
    Action σ (List Value) := do
  let documents ← store.driver.aggregate collection pipeline session
  store.driver.drain
  return documents

theorem find_eq_ok : (store.find collection filter session c).1 = .ok v ↔
    c.hasDatabase = true ∧ ∃ answer,
      (store.driver.findOne collection (orEmpty filter) session c.driver).1 = .ok answer ∧
        converted answer = v := by
  rw [find, Action.bind_eq_ok]
  simp only [perform_eq_ok, Action.pure_apply, Except.ok.injEq, and_assoc, exists_and_left]

theorem query_eq_ok : (store.query collection filter limit session c).1 = .ok vs ↔
    c.hasDatabase = true ∧ ∃ answers,
      (store.queried collection filter limit session c.driver).1 = .ok answers ∧
        answers.map converted = vs := by
  have same : store.query collection filter limit session =
      perform .queryDocuments collection
        (List.map converted <$> store.queried collection filter limit session) := by
    rw [query, queried, map_bind]
    refine congrArg (perform _ _ · _) (bind_congr fun documents => ?_)
    split
    · simp only [map_bind, map_pure]
    · simp only [map_bind, map_pure]
  rw [same, perform_eq_ok, Action.map_apply, Except.map_eq_ok]

theorem aggregate_eq_ok : (store.aggregate collection pipeline session c).1 = .ok vs ↔
    c.hasDatabase = true ∧ ∃ answers,
      (store.aggregated collection pipeline session c.driver).1 = .ok answers ∧
        answers.map converted = vs := by
  have same : store.aggregate collection pipeline session =
      perform .aggregateDocuments collection
        (List.map converted <$> store.aggregated collection pipeline session) := by
    simp only [aggregate, aggregated, map_bind, map_pure]
  rw [same, perform_eq_ok, Action.map_apply, Except.map_eq_ok]

theorem documents_of_queried (documents : store.driver.GivesDocuments) {s : σ}
    {answers : List Value}
    (run : (store.queried collection filter limit session s).1 = .ok answers) :
    ∀ answer ∈ answers, ∃ d, answer = .doc d := by
  rw [queried] at run
  obtain ⟨given, found, run⟩ := Action.bind_eq_ok.1 run
  have same : answers = given := by
    split at run
    · obtain ⟨_, _, run⟩ := Action.bind_eq_ok.1 run
      obtain ⟨_, _, run⟩ := Action.bind_eq_ok.1 run
      exact (Except.ok.inj run).symm
    · obtain ⟨_, _, run⟩ := Action.bind_eq_ok.1 run
      exact (Except.ok.inj run).symm
  rw [same]
  exact documents.find found

theorem documents_of_aggregated (documents : store.driver.GivesDocuments) {s : σ}
    {answers : List Value}
    (run : (store.aggregated collection pipeline session s).1 = .ok answers) :
    ∀ answer ∈ answers, ∃ d, answer = .doc d := by
  rw [aggregated] at run
  obtain ⟨given, found, run⟩ := Action.bind_eq_ok.1 run
  obtain ⟨_, _, run⟩ := Action.bind_eq_ok.1 run
  obtain rfl := Except.ok.inj run
  exact documents.aggregate found

theorem converted_iff_of_doc {answer : Value} (document : ∃ d, answer = .doc d) :
    converted answer = v ↔ Converts answer v := by
  obtain ⟨d, rfl⟩ := document
  rw [converts_iff_eq_converted fun _ => Value.noConfusion, eq_comm]

theorem map_converted_iff {answers : List Value}
    (documents : ∀ answer ∈ answers, ∃ d, answer = .doc d) :
    answers.map converted = vs ↔ List.Forall₂ Converts answers vs := by
  induction answers generalizing vs with
  | nil => simp [eq_comm]
  | cons answer rest ih =>
    obtain ⟨here, there⟩ := List.forall_mem_cons.1 documents
    cases vs with
    | nil => simp
    | cons v vs =>
      rw [List.map_cons, List.cons.injEq, List.forall₂_cons, converted_iff_of_doc here, ih there]

/-! ## No identifier is returned -/

theorem find_converts (documents : store.driver.GivesDocuments) :
    (store.find collection filter session c).1 = .ok v ↔ c.hasDatabase = true ∧
      ∃ answer, (store.driver.findOne collection (orEmpty filter) session c.driver).1 =
        .ok answer ∧ Converts answer v := by
  rw [find_eq_ok]
  refine and_congr_right fun _ => exists_congr fun answer => and_congr_right fun given => ?_
  rcases documents.findOne given with rfl | document
  · rw [converts_iff_eq_converted fun _ => Value.noConfusion, eq_comm]
  · exact converted_iff_of_doc document

theorem query_converts (documents : store.driver.GivesDocuments) :
    (store.query collection filter limit session c).1 = .ok vs ↔ c.hasDatabase = true ∧
      ∃ answers, (store.queried collection filter limit session c.driver).1 = .ok answers ∧
        List.Forall₂ Converts answers vs := by
  rw [query_eq_ok]
  refine and_congr_right fun _ => exists_congr fun answers => and_congr_right fun given => ?_
  exact map_converted_iff (documents_of_queried documents given)

theorem aggregate_converts (documents : store.driver.GivesDocuments) :
    (store.aggregate collection pipeline session c).1 = .ok vs ↔ c.hasDatabase = true ∧
      ∃ answers, (store.aggregated collection pipeline session c.driver).1 = .ok answers ∧
        List.Forall₂ Converts answers vs := by
  rw [aggregate_eq_ok]
  refine and_congr_right fun _ => exists_congr fun answers => and_congr_right fun given => ?_
  exact map_converted_iff (documents_of_aggregated documents given)

theorem holdsNoId_of_forall₂ {answers : List Value} (each : List.Forall₂ Converts answers vs) :
    ∀ v ∈ vs, v.HoldsNoId := by
  induction each with
  | nil => exact fun v mem => absurd mem List.not_mem_nil
  | cons here _ ih => exact List.forall_mem_cons.2 ⟨here.free, ih⟩

/-- The conversion of a document or list has the text of each identifier in its place, and is
otherwise the same: `Converts` says it of each position, and of no other value. To convert again
does nothing. Carried out in memory, it comes to the same, writes over nothing but identifiers, and
over none outside of the answer. So the readings of a store return what their driver has given with
no identifier in it at any depth. -/
theorem answers_converted (documents : store.driver.GivesDocuments) (collection : String)
    (filter limit pipeline session : Value) (c : Connection σ) :
    (∀ v w : Value, v.isContainer = true → (Converts v w ↔ w = converted v)) ∧
    (∀ id : ObjectId, Text.hexValue id.text.toList = id.number ∧
      (id.number < Nat.pow 16 24 → id.text.length = 24)) ∧
    (∀ v, converted (converted v) = converted v) ∧
    (∀ (h : Heap) (depth place : Nat) (v : Value), h.Holds depth (.container place) v →
      let g := h.convert depth place
      g.Holds depth (.container place) (converted v) ∧ h.Becomes g ∧ g.convert depth place = g ∧
        ∀ other, ¬h.Leads place other → g other = h other) ∧
    (∀ v, ((store.find collection filter session c).1 = .ok v ↔ c.hasDatabase = true ∧
        ∃ answer, (store.driver.findOne collection (orEmpty filter) session c.driver).1 =
          .ok answer ∧ Converts answer v) ∧
      ((store.find collection filter session c).1 = .ok v → v.HoldsNoId)) ∧
    (∀ vs, ((store.query collection filter limit session c).1 = .ok vs ↔ c.hasDatabase = true ∧
        ∃ answers, (store.queried collection filter limit session c.driver).1 = .ok answers ∧
          List.Forall₂ Converts answers vs) ∧
      ((store.query collection filter limit session c).1 = .ok vs → ∀ v ∈ vs, v.HoldsNoId)) ∧
    (∀ vs, ((store.aggregate collection pipeline session c).1 = .ok vs ↔ c.hasDatabase = true ∧
        ∃ answers, (store.aggregated collection pipeline session c.driver).1 = .ok answers ∧
          List.Forall₂ Converts answers vs) ∧
      ((store.aggregate collection pipeline session c).1 = .ok vs → ∀ v ∈ vs, v.HoldsNoId)) := by
  have boxed {v : Value} (container : v.isContainer = true) (id : ObjectId) :
      v ≠ .objectId id := by
    rintro rfl
    cases container
  refine ⟨fun v w container => converts_iff_eq_converted (boxed container),
    fun id => ⟨id.hexValue_text, ObjectId.length_text⟩, converted_converted,
    fun h depth place v held => Heap.convert_in_place held, fun v => ⟨find_converts documents, ?_⟩,
    fun vs => ⟨query_converts documents, ?_⟩, fun vs => ⟨aggregate_converts documents, ?_⟩⟩
  · intro run
    obtain ⟨-, answer, -, converts⟩ := (find_converts documents).1 run
    exact converts.free
  · intro run
    obtain ⟨-, answers, -, each⟩ := (query_converts documents).1 run
    exact holdsNoId_of_forall₂ each
  · intro run
    obtain ⟨-, answers, -, each⟩ := (aggregate_converts documents).1 run
    exact holdsNoId_of_forall₂ each

def giving (d : Document) : Driver Unit :=
  { Driver.idle with
    findOne := fun _ _ _ => pure (.doc d)
    find := fun _ _ _ => pure [.doc d]
    aggregate := fun _ _ _ => pure [.doc d] }

theorem givesDocuments_giving (d : Document) : (giving d).GivesDocuments where
  findOne given := .inr ⟨d, (Except.ok.inj given).symm⟩
  find given answer mem := by
    obtain rfl := Except.ok.inj given
    exact ⟨d, List.mem_singleton.1 mem⟩
  aggregate given answer mem := by
    obtain rfl := Except.ok.inj given
    exact ⟨d, List.mem_singleton.1 mem⟩

def order : Document :=
  let lines : Value := .list [.doc [("item", .objectId ⟨11⟩), ("count", .int 2)], .objectId ⟨12⟩]
  [("_id", .objectId ⟨10⟩), ("lines", lines), ("sent", lines)]

/-- The order where it lies, with one list of lines. -/
def shelf : Heap
  | 0 => .document [("_id", .value (.objectId ⟨10⟩) rfl), ("lines", .container 1),
      ("sent", .container 1)] (by decide)
  | 1 => .list [.container 2, .value (.objectId ⟨12⟩) rfl]
  | _ => .document [("item", .value (.objectId ⟨11⟩) rfl), ("count", .value (.int 2) rfl)]
      (by decide)

theorem holds_shelf : shelf.Holds 3 (.container 0) (.doc order) := by
  have line : shelf.Holds 1 (.container 2) (.doc [("item", .objectId ⟨11⟩), ("count", .int 2)]) :=
    ⟨[_, _], rfl, .cons rfl (.cons rfl .nil)⟩
  have lines : shelf.Holds 2 (.container 1)
      (.list [.doc [("item", .objectId ⟨11⟩), ("count", .int 2)], .objectId ⟨12⟩]) :=
    ⟨[_, _], rfl, .cons line (.cons rfl .nil)⟩
  exact ⟨[_, _, _], rfl, .cons rfl (.cons lines (.cons lines .nil))⟩

theorem answers_converted_order :
    let store : Store Unit :=
      ⟨{ host := .str "db", portNumber := .int 27017, database := .str "app" }, giving order⟩
    let c : Connection Unit := { driver := (), hasClient := true, hasDatabase := true }
    let g := shelf.convert 3 0
    store.driver.GivesDocuments ∧ shelf.Holds 3 (.container 0) (.doc order) ∧
    (g.Holds 3 (.container 0) (converted (.doc order)) ∧ shelf.Becomes g ∧ g.convert 3 0 = g) ∧
    (∃ v, (store.find "orders" .null .null c).1 = .ok v ∧ Converts (.doc order) v ∧
      v.HoldsNoId) ∧
    (∃ v, (store.query "orders" .null (.int 1) .null c).1 = .ok [v] ∧ Converts (.doc order) v ∧
      v.HoldsNoId) ∧
    (∃ v, (store.aggregate "orders" (.list []) .null c).1 = .ok [v] ∧ Converts (.doc order) v ∧
      v.HoldsNoId) := by
  intro store c g
  have documents : store.driver.GivesDocuments := givesDocuments_giving order
  obtain ⟨conversion, -, -, inPlace, finds, queries, aggregates⟩ :=
    answers_converted documents "orders" .null (.int 1) (.list []) .null c
  have converts : Converts (.doc order) (converted (.doc order)) := (conversion _ _ rfl).2 rfl
  obtain ⟨held, becomes, again, -⟩ := inPlace shelf 3 0 (.doc order) holds_shelf
  refine ⟨documents, holds_shelf, ⟨held, becomes, again⟩, ⟨_, ?_, converts, converts.free⟩,
    ⟨_, ?_, converts, converts.free⟩, ⟨_, ?_, converts, converts.free⟩⟩
  · exact (finds _).1.2 ⟨rfl, _, rfl, converts⟩
  · exact (queries _).1.2 ⟨rfl, [_], rfl, .cons converts .nil⟩
  · exact (aggregates _).1.2 ⟨rfl, [_], rfl, .cons converts .nil⟩

end Store
end Docbase.Server
