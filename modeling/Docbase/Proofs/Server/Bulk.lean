import Docbase.Proofs.Memory.Rejections
import Docbase.Proofs.Server.Store

/-!
# Bulk inserts into a store on a server

A server reports the positions of the documents that it has refused. What the store makes of the
report is what a store in memory would have said that refuses the same documents.

* `BulkReport.read_of_rejects`: the reading of a report.
* `Store.insertAll_agrees`: the two stores return the same keys, or fail alike.
-/

namespace Docbase

theorem Place.ofInt_inj {m n : Int} : Place.ofInt m = Place.ofInt n ↔ m = n := by
  have units : (unitsPerOne : Int) ≠ 0 := Int.natCast_ne_zero.2 (by decide +kernel)
  rw [Place.ofInt, Place.ofInt, Place.units.injEq, Int.mul_eq_mul_right_iff units]

theorem Value.same_ofNat (m n : Nat) : Value.same (.ofNat m) (.ofNat n) = (m == n) := by
  have numerals : Value.same (.ofNat m) (.ofNat n) =
      (Numeral.at (.ofInt m) == Numeral.at (.ofInt n)) := rfl
  rw [numerals, Bool.eq_iff_iff, beq_iff_eq, beq_iff_eq, Numeral.at.injEq, Place.ofInt_inj,
    Int.ofNat_inj]

namespace Server

open Memory (World SessionId kept kept_congr kept_none kept_take leavesOut)

variable {σ : Type} {documents : List Document} {positions : List Nat} {ordered : Bool}
  {position : Nat}

namespace BulkReport

/-! ## Reports -/

def IsAbout (position : Nat) (error : Value) : Prop :=
  ∃ fields, error = .doc fields ∧ fields.lookup "index" = some (.ofNat position)

/-- A report has one error for each of the documents at these positions, in any order, and tells of
nothing else. -/
def Rejects (positions : List Nat) (report : Value) : Prop :=
  ∃ fields reported errors, report = .doc fields ∧ reported.Perm positions ∧
    List.Forall₂ IsAbout reported errors ∧ fields.lookup "writeErrors" = some (.list errors) ∧
    (fields.lookup "writeConcernErrors").getD (.list []) = .list []

theorem mapM_failedPosition {errors : List Value} (about : List.Forall₂ IsAbout positions errors) :
    errors.mapM failedPosition = .ok (positions.map .ofNat) := by
  rw [Except.mapM_eq_ok, List.forall₂_map_right_iff]
  refine about.flip.imp ?_
  rintro error position ⟨fields, rfl, found⟩
  simp only [failedPosition, required, found]
  rfl

theorem exists_mapM_errorText {errors : List Value}
    (about : List.Forall₂ IsAbout positions errors) :
    ∃ texts, errors.mapM errorText = .ok texts ∧ texts.length = positions.length := by
  have each : ∀ error ∈ errors, ∃ text, errorText error = .ok text := by
    induction about with
    | nil => exact fun error mem => absurd mem List.not_mem_nil
    | cons here _ ih =>
      obtain ⟨fields, rfl, -⟩ := here
      exact List.forall_mem_cons.2 ⟨⟨_, rfl⟩, ih⟩
  obtain ⟨texts, run⟩ := Except.exists_mapM_eq_ok each
  exact ⟨texts, run, (Except.mapM_eq_ok.1 run).length_eq.symm.trans about.length_eq.symm⟩

/-! ## What was inserted -/

theorem insertedKeys_eq (failed : List Value)
    (keyed : ∀ d ∈ documents, ∃ key, d.lookup "_id" = some key) :
    insertedKeys failed position (documents.map .doc) =
      .ok (kept (fun i => failed.any (Value.same (.ofNat i))) position documents) := by
  induction documents generalizing position with
  | nil => rfl
  | cons d rest ih =>
    obtain ⟨⟨key, found⟩, others⟩ := List.forall_mem_cons.1 keyed
    rw [List.map_cons, insertedKeys, kept, ih others]
    by_cases out : failed.any (Value.same (.ofNat position)) = true
    · rw [if_pos out, if_pos out]
    · rw [if_neg out, if_neg out, required, found]
      exact Except.bind_eq_ok.2 ⟨key, rfl, Except.bind_eq_ok.2 ⟨_, rfl, rfl⟩⟩

theorem any_same_ofNat (reported : List Nat) :
    (reported.map Value.ofNat).any (Value.same (.ofNat position)) = reported.contains position := by
  induction reported with
  | nil => rfl
  | cons n rest ih => rw [List.map_cons, List.any_cons, Value.same_ofNat, ih, List.contains_cons]

theorem insertedKeys_unordered {reported : List Nat} (perm : reported.Perm positions)
    (keyed : ∀ d ∈ documents, ∃ key, d.lookup "_id" = some key) :
    insertedKeys (reported.map .ofNat) 0 (documents.map .doc) =
      .ok (kept (leavesOut false positions) 0 documents) := by
  rw [insertedKeys_eq _ keyed, kept_congr]
  intro i _
  rw [any_same_ofNat, leavesOut, if_neg (by decide), Bool.eq_iff_iff, List.contains_iff_mem,
    List.contains_iff_mem, perm.mem_iff]

theorem insertedKeys_ordered (first : Nat)
    (keyed : ∀ d ∈ documents, ∃ key, d.lookup "_id" = some key) :
    insertedKeys ([first].map .ofNat) 0 ((documents.take first).map .doc) =
      .ok (kept (leavesOut true [first]) 0 documents) := by
  rw [insertedKeys_eq _ fun d mem => keyed d (List.mem_of_mem_take mem), kept_take, kept_congr]
  intro i _
  rw [any_same_ofNat, leavesOut, if_pos rfl, Bool.eq_iff_iff]
  simp only [Bool.or_eq_true, List.contains_iff_mem, List.mem_singleton, decide_eq_true_iff,
    List.any_cons, List.any_nil, Bool.or_false]
  omega

theorem reached_first (count first : Nat) :
    reached count true ([first].map .ofNat) = .ok first := by
  have ahead : (0 : Int) ≤ first := Int.natCast_nonneg first
  simp only [List.map_singleton, reached, least, Value.ofNat, pure_bind, Value.index?, ahead,
    if_true, Int.toNat_natCast]
  rfl

theorem exists_reached {reported : List Nat} (perm : reported.Perm positions)
    (keyed : ∀ d ∈ documents, ∃ key, d.lookup "_id" = some key) (some : positions ≠ [])
    (once : ordered = true → positions.length ≤ 1) :
    ∃ count, reached documents.length ordered (reported.map .ofNat) = .ok count ∧
      insertedKeys (reported.map .ofNat) 0 ((documents.map .doc).take count) =
        .ok (kept (leavesOut ordered positions) 0 documents) := by
  cases ordered with
  | false =>
    refine ⟨documents.length, rfl, ?_⟩
    rw [List.take_of_length_le (Nat.le_of_eq (List.length_map _))]
    exact insertedKeys_unordered perm keyed
  | true =>
    have one : positions.length = 1 :=
      Nat.le_antisymm (once rfl) (List.length_pos_iff.2 some)
    obtain ⟨first, rfl⟩ := List.length_eq_one_iff.1 one
    rw [List.perm_singleton.1 perm]
    refine ⟨first, reached_first _ first, ?_⟩
    rw [← List.map_take]
    exact insertedKeys_ordered first keyed

theorem read_of_rejects {report : Value}
    (keyed : ∀ d ∈ documents, ∃ key, d.lookup "_id" = some key) (some : positions ≠ [])
    (once : ordered = true → positions.length ≤ 1) (rejects : Rejects positions report) :
    ∃ errors, errors.length = positions.length ∧
      read (.list (documents.map .doc)) ordered report =
        .ok { requested := documents.length
              inserted := kept (leavesOut ordered positions) 0 documents
              errors } := by
  obtain ⟨fields, reported, entries, rfl, perm, about, listed, nothingElse⟩ := rejects
  obtain ⟨texts, told, length⟩ := exists_mapM_errorText about
  obtain ⟨count, stop, inserted⟩ := exists_reached perm keyed some once
  have errors : part "writeErrors" (.doc fields) = .ok entries := by
    rw [part, listed]
    rfl
  have concerns : part "writeConcernErrors" (.doc fields) = .ok [] := by
    rw [part, nothingElse]
    rfl
  have failed := mapM_failedPosition about
  rw [← List.length_map Value.doc] at stop
  refine ⟨texts, length.trans perm.length_eq, ?_⟩
  refine Except.bind_eq_ok.2 ⟨entries, errors, Except.bind_eq_ok.2 ⟨_, failed, ?_⟩⟩
  refine Except.bind_eq_ok.2 ⟨count, stop, Except.bind_eq_ok.2 ⟨_, inserted, ?_⟩⟩
  refine Except.bind_eq_ok.2 ⟨texts, told, Except.bind_eq_ok.2 ⟨[], concerns, ?_⟩⟩
  rw [List.length_map, List.map_nil, List.append_nil]
  rfl

end BulkReport

/-! ## Two stores -/

/-- What a driver answers to a bulk insert of which it rejects the documents at these positions: the
keys of all documents if there are none, and a report otherwise. -/
inductive Answers (documents : List Document) : List Nat → Except Failure Value → Prop
  | accepted : Answers documents []
      (.ok (.list (documents.map fun d => (d.lookup "_id").getD .null)))
  | rejected {positions : List Nat} {failure : DriverFailure} (some : positions ≠ [])
      (fault : failure.fault = .bulkWrite)
      (report : BulkReport.Rejects positions failure.details) :
      Answers documents positions (.error (.driver failure))

namespace Store

variable {store : Store σ} {collection : String} {session : Value} {c : Connection σ}

theorem insertAll_apply {documents ordered : Value} (connected : c.hasDatabase = true) :
    (store.insertAll collection documents ordered session c).1 =
      match (store.driver.insertMany collection documents ordered session c.driver).1 with
      | .ok answer =>
        match answer.elements? with
        | some keys => .ok (keys.map Value.text)
        | none => .error (meaning .insertDocuments collection
            (partial? collection documents ordered.truthy) (.misuse .wrongType))
      | .error failure => .error (meaning .insertDocuments collection
          (partial? collection documents ordered.truthy) failure) := by
  rw [insertAll, perform_apply, if_pos connected, Action.bind_apply]
  rcases store.driver.insertMany collection documents ordered session c.driver with
    ⟨failure | answer, s⟩
  · rfl
  · dsimp only
    cases answer.elements? <;> rfl

theorem insertAll_of_answers (keyed : ∀ d ∈ documents, ∃ key, d.lookup "_id" = some key)
    (once : ordered = true → positions.length ≤ 1) (connected : c.hasDatabase = true)
    (answers : Answers documents positions (store.driver.insertMany collection
      (.list (documents.map .doc)) (.bool ordered) session c.driver).1) :
    let inserted := kept (leavesOut ordered positions) 0 documents
    let outcome :=
      (store.insertAll collection (.list (documents.map .doc)) (.bool ordered) session c).1
    (positions = [] ∧ outcome = .ok inserted) ∨
      (positions ≠ [] ∧ ∃ errors, errors.length = positions.length ∧
        outcome = .error (.bulkInsert collection (documents.length - inserted.length)
          (inserted.map .str) errors)) := by
  dsimp only
  rw [insertAll_apply connected]
  generalize (store.driver.insertMany collection (.list (documents.map .doc)) (.bool ordered)
    session c.driver).1 = answer at answers ⊢
  cases answers with
  | accepted =>
    refine .inl ⟨rfl, ?_⟩
    rw [kept_none fun i => by cases ordered <;> rfl]
    simp only [Value.elements?, List.map_map]
    rfl
  | rejected nonempty fault report =>
    obtain ⟨errors, length, read⟩ := BulkReport.read_of_rejects keyed nonempty once report
    refine .inr ⟨nonempty, errors, length, ?_⟩
    simp only [meaning, partial?, fault, Value.truthy, read]
    rfl

/-- A store on a server whose driver rejects the documents that a store in memory rejects returns
the same keys, or fails in the same words with the same documents inserted and as many errors. -/
theorem insertAll_agrees {home : String} {caller : Option SessionId} {w : World}
    (keyed : ∀ d ∈ documents, ∃ key, d.lookup "_id" = some key)
    (nothingWorse : ∀ failure,
      (World.insertAll home collection (documents.map .doc) ordered caller w).1 =
        .error failure → failure.kind = .bulkInsert)
    (connected : c.hasDatabase = true)
    (answers : Answers documents (w.rejections home collection (documents.map .doc) ordered)
      (store.driver.insertMany collection (.list (documents.map .doc)) (.bool ordered) session
        c.driver).1) :
    let here := (World.insertAll home collection (documents.map .doc) ordered caller w).1
    let there :=
      (store.insertAll collection (.list (documents.map .doc)) (.bool ordered) session c).1
    (∃ keys, here = .ok keys ∧ there = .ok keys) ∨
      ∃ count inserted errors errors',
        here = .error (.bulkInsert collection count inserted errors) ∧
        there = .error (.bulkInsert collection count inserted errors') ∧
        Failure.message (.bulkInsert collection count inserted errors) =
          Failure.message (.bulkInsert collection count inserted errors') ∧
        errors.length = errors'.length := by
  have once : ordered = true →
      (w.rejections home collection (documents.map .doc) ordered).length ≤ 1 := by
    rintro rfl
    exact Memory.Contents.length_rejections_ordered
  rcases World.insertAll_of_rejections keyed nothingWorse with
    ⟨none, here⟩ | ⟨some, errors, about, here⟩ <;>
    rcases insertAll_of_answers keyed once connected answers with
      ⟨none', there⟩ | ⟨some', errors', length, there⟩
  · exact .inl ⟨_, here, there⟩
  · exact absurd none some'
  · exact absurd none' some
  · exact .inr ⟨_, _, errors, errors', here, there, rfl, about.length_eq.symm.trans length.symm⟩

def reporting (positions : List Nat) : Driver Unit :=
  let error (position : Nat) : Value := .doc [("index", .ofNat position),
    ("code", .int 11000), ("errmsg", .str "E11000 duplicate key error")]
  { Driver.idle with
    insertMany := fun _ _ _ _ => throw (.driver {
      fault := .bulkWrite
      name := "BulkWriteError"
      message := "batch op errors occurred"
      details := .doc [("writeErrors", .list (positions.map error)),
        ("writeConcernErrors", .list [])] }) }

def arrivals : List Document :=
  [[("_id", .str "a")], [("_id", .str "b")], [("_id", .str "b")], [("_id", .str "c")]]

theorem insertAll_agrees_reversed :
    let w := (World.empty true).replay
      [.write "main" (.insert "users" (.doc [("_id", .str "a")])) none]
    let store : Store Unit :=
      ⟨{ host := .str "db", portNumber := .int 27017, database := .str "app" }, reporting [2, 0]⟩
    let here := (World.insertAll "main" "users" (arrivals.map .doc) false none w).1
    let there := (store.insertAll "users" (.list (arrivals.map .doc)) (.bool false) .null
      { driver := (), hasClient := true, hasDatabase := true }).1
    w.rejections "main" "users" (arrivals.map .doc) false = [0, 2] ∧
    ((∃ keys, here = .ok keys ∧ there = .ok keys) ∨
      ∃ count inserted errors errors',
        here = .error (.bulkInsert "users" count inserted errors) ∧
        there = .error (.bulkInsert "users" count inserted errors') ∧
        Failure.message (.bulkInsert "users" count inserted errors) =
          Failure.message (.bulkInsert "users" count inserted errors') ∧
        errors.length = errors'.length) := by
  intro w store here there
  have rejected : w.rejections "main" "users" (arrivals.map .doc) false = [0, 2] := by
    decide +kernel
  have keyed : ∀ d ∈ arrivals, ∃ key, d.lookup "_id" = some key := by
    have present : ∀ d ∈ arrivals, (d.lookup "_id").isSome = true := by decide +kernel
    exact fun d mem => Option.isSome_iff_exists.1 (present d mem)
  have nothingWorse : ∀ failure, here = .error failure → failure.kind = .bulkInsert := by
    intro failure run
    have kind : (match here with
        | .error failure => failure.kind
        | .ok _ => .bulkInsert) = .bulkInsert := by
      decide +kernel
    rwa [run] at kind
  refine ⟨rejected, insertAll_agrees keyed nothingWorse rfl ?_⟩
  rw [rejected]
  refine .rejected (by decide) rfl ⟨_, [2, 0], _, rfl, List.Perm.swap 0 2 [], ?_, rfl, rfl⟩
  exact .cons ⟨_, rfl, rfl⟩ (.cons ⟨_, rfl, rfl⟩ .nil)

end Store
end Server
end Docbase
