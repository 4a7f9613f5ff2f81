import Docbase.Proofs.Memory.WholeUpdate
import Docbase.Proofs.Repository.Shape
import Docbase.Proofs.Value.Entries

/-!
# Values in a unique index

An insert of a document under a fresh key is refused exactly if a unique index has its entry
already. Over one field this means that some document has a value there that is of the same rank and
level, as long as entries and the order of stores agree on the values.

* `Collection.insert_settles`: what an insert under a fresh key comes to.
* `World.insert_refused_iff`: when it is refused, by the values of one field.
* `World.insert_discordant`: values on which entries and the order of stores do not agree.
-/

namespace Docbase.Memory

open Contents (generatedKey)

namespace Collection

variable {c : Collection} {field : String} {fallback : Value} {d : Document}

/-- Under a fresh key, an insert is refused if a unique index has the entry, and only then. -/
theorem insert_settles (name : String) (consistent : c.Consistent)
    (hashable : (recordOf fallback d).1.hashable = true)
    (fresh : c.hasKey (recordOf fallback d).1 = false)
    (readable : ∀ i ∈ c.indexes, i.2.unique = true →
      ∃ entry, Index.entryOf i.2.keys (recordOf fallback d).2 = .ok entry) :
    (c.Taken (recordOf fallback d).2 none ∧
        ∃ failure, c.insert name fallback d = .error failure ∧ failure.kind = .duplicateKey) ∨
      ¬c.Taken (recordOf fallback d).2 none ∧
        c.insert name fallback d = .ok ((recordOf fallback d).1,
          { c with records := c.records ++ [recordOf fallback d] }) := by
  have indexed (i) (mem : i ∈ c.indexes) (unique : i.2.unique = true) :=
    (consistent.enforced i mem unique).indexed
  have settled : Except.FailsBy _ (c.checkUnique name (recordOf fallback d).2 none) :=
    checkUnique_failsBy indexed readable
  cases checked : c.checkUnique name (recordOf fallback d).2 none with
  | error failure =>
    obtain ⟨kind, taken⟩ := settled failure checked
    refine .inl ⟨taken, failure, ?_, kind⟩
    rw [recordOf] at hashable fresh checked
    simp only [insert, hashable, fresh, checked]
    rfl
  | ok =>
    refine .inr ⟨?_, insert_eq_ok.2 ⟨hashable, fresh, checked, rfl, rfl⟩⟩
    rintro ⟨i, mem, unique, r, there, -, conflict⟩
    obtain ⟨entry, read, others⟩ := checkUnique_eq_ok.1 checked i mem unique
    obtain ⟨e, read', differ⟩ := others r there rfl
    obtain ⟨x, y, left, right, equal⟩ := Index.not_apart_iff.1 conflict
    obtain rfl := Except.ok.inj (left.symm.trans read')
    obtain rfl := Except.ok.inj (right.symm.trans read)
    rw [differ] at equal
    cases equal

structure IsUniqueOver (field : String) (c : Collection) : Prop where
  plain : Path.IsName field
  single : ∃ name, c.indexes.filter (·.2.unique) = [(name, { keys := [field], unique := true })]

/-- Neither a document nor any of a collection has a list in a field, and entries and the order of
stores agree on the values there. -/
structure IsConcordant (field : String) (d : Document) (c : Collection) : Prop where
  unlisted : (Value.field field d).isUnlisted = true
  records : ∀ r ∈ c.records, (Value.field field r.2).isUnlisted = true ∧
    Value.areConcordant (Value.field field r.2) (Value.field field d) = true

/-- Some document has a value in a field that is of the same rank and level. -/
def Meets (field : String) (d : Document) (c : Collection) : Prop :=
  ∃ r ∈ c.records, (Value.field field r.2).rank = (Value.field field d).rank ∧
    Value.compare (Value.field field r.2) (Value.field field d) = .eq

instance (field : String) (d : Document) (c : Collection) : Decidable (c.Meets field d) :=
  inferInstanceAs (Decidable (∃ r ∈ c.records, _))

theorem entryOf_name (plain : Path.IsName field) (d : Document) :
    Index.entryOf [field] d = .ok [(Value.field field d).entry] := by
  simp [Index.entryOf, Pipeline.get_name plain]

theorem IsUniqueOver.eq {i : String × Index} (indexed : c.IsUniqueOver field) (mem : i ∈ c.indexes)
    (unique : i.2.unique = true) : i.2.keys = [field] := by
  obtain ⟨name, single⟩ := indexed.single
  have there : i ∈ c.indexes.filter (·.2.unique) := List.mem_filter.2 ⟨mem, unique⟩
  rw [single] at there
  rw [List.mem_singleton.1 there]

theorem taken_iff_meets (indexed : c.IsUniqueOver field) (concordant : c.IsConcordant field d) :
    c.Taken d none ↔ c.Meets field d := by
  have conflict {r : Value × Document} (mem : r ∈ c.records) :
      ¬Index.Apart [field] r.2 d ↔ (Value.field field r.2).rank = (Value.field field d).rank ∧
        Value.compare (Value.field field r.2) (Value.field field d) = .eq := by
    obtain ⟨unlisted, agree⟩ := concordant.records r mem
    rw [← Value.same_entry_iff unlisted concordant.unlisted agree, Index.not_apart_iff]
    simp [entryOf_name indexed.plain, Value.sameItems]
  constructor
  · rintro ⟨i, mem, unique, r, there, -, taken⟩
    rw [indexed.eq mem unique] at taken
    exact ⟨r, there, (conflict there).1 taken⟩
  · rintro ⟨r, there, meets⟩
    obtain ⟨name, single⟩ := indexed.single
    obtain ⟨mem, unique⟩ := List.mem_filter.1 (single ▸ List.mem_singleton.2 rfl)
    exact ⟨_, mem, unique, r, there, rfl, (conflict there).2 meets⟩

end Collection

theorem Contents.insert_doc (name : String) (number : Nat) (d : Document) (contents : Contents) :
    insert name number (.doc d) contents =
      match (contents.collection name).insert name (.str (generatedKey number)) d with
      | .ok (key, c) => (.ok key.text, contents.put name c)
      | .error failure => (.error failure, contents) := by
  rw [insert, insertKeyed, Action.bind_apply, change_apply]
  cases (contents.collection name).insert name (.str (generatedKey number)) d <;> rfl

namespace World

open Collection (recordOf)

theorem insert_apply {w : World} {store : String} {caller : Option SessionId}
    (allowed : w.refusal store caller = none) (name : String) (document : Value) :
    insert store name document caller w =
      ((Contents.insert name w.generated document (w.contents store)).1,
        { w with generated := w.generated + 1 }.setContents store
          (Contents.insert name w.generated document (w.contents store)).2) := by
  simp only [insert, check_bind_apply, allowed]
  rfl

/-- An insert under a fresh key into a collection with one unique index, over one field, raises a
duplicate exactly if some document has a value there of the same rank that is level with the new
one. If none has, the document is there after the insert. -/
theorem insert_refused_iff {w : World} {store name field : String} {caller : Option SessionId}
    {d : Document} (allowed : w.refusal store caller = none)
    (consistent : ((w.contents store).collection name).Consistent)
    (indexed : ((w.contents store).collection name).IsUniqueOver field)
    (hashable : (recordOf (.str (generatedKey w.generated)) d).1.hashable = true)
    (fresh : ((w.contents store).collection name).hasKey
      (recordOf (.str (generatedKey w.generated)) d).1 = false)
    (concordant : ((w.contents store).collection name).IsConcordant field
      (recordOf (.str (generatedKey w.generated)) d).2) :
    let c := (w.contents store).collection name
    let new := recordOf (.str (generatedKey w.generated)) d
    let run := insert store name (.doc d) caller w
    ((∃ failure, run.1 = .error failure ∧ failure.kind = .duplicateKey) ↔ c.Meets field new.2) ∧
      (¬c.Meets field new.2 → run.1 = .ok new.1.text ∧
        (run.2.contents store).collection name = { c with records := c.records ++ [new] }) := by
  intro c new run
  have readable (i : String × Index) (mem : i ∈ c.indexes) (unique : i.2.unique = true) :
      ∃ entry, Index.entryOf i.2.keys new.2 = .ok entry := by
    rw [indexed.eq mem unique]
    exact ⟨_, Collection.entryOf_name indexed.plain _⟩
  have settled := Collection.insert_settles name consistent hashable fresh readable
  rw [Collection.taken_iff_meets indexed concordant] at settled
  have there : run = _ := insert_apply allowed name (.doc d)
  rw [Contents.insert_doc] at there
  rcases settled with ⟨meets, failure, refused, kind⟩ | ⟨none, inserted⟩
  · rw [refused] at there
    refine ⟨⟨fun _ => meets, fun _ => ⟨failure, by rw [there], kind⟩⟩, fun none => ?_⟩
    exact absurd meets none
  · rw [inserted] at there
    refine ⟨⟨?_, fun meets => absurd meets none⟩, fun _ => ⟨by rw [there], ?_⟩⟩
    · rintro ⟨failure, failed, -⟩
      rw [there] at failed
      cases failed
    · rw [there, contents_setContents_self, Contents.collection_put_self]

def sensors : World :=
  let corner : Value := .doc [("room", .int 2), ("wall", .str "north")]
  (empty true).replay
    [.write "main" (.createIndex "sensors" [.str "place"] true) none,
      .write "main" (.insertAll "sensors" [.doc [("_id", .str "s1"), ("place", corner)],
        .doc [("_id", .str "s2")], .doc [("_id", .str "s3"), ("place", .str "hall")]] true) none]

theorem sensors_consistent : sensors.Consistent := by
  apply replay_preserves (fun _ _ proper h => h.after proper) _ (consistent_empty true)
  decide

/-- A sensor whose place is null is refused, as there is one without a place. One whose place names
the wall before the room is not. -/
theorem insert_refused_sensors :
    let c := (sensors.contents "main").collection "sensors"
    let sensor (place : Value) : Document := [("_id", .str "s4"), ("place", place)]
    let corner : Value := .doc [("wall", .str "north"), ("room", .int 2)]
    let put (place : Value) := insert "main" "sensors" (.doc (sensor place)) none sensors
    c.IsUniqueOver "place" ∧ c.IsConcordant "place" (sensor .null) ∧
      (∃ failure, (put .null).1 = .error failure ∧ failure.kind = .duplicateKey) ∧
      c.IsConcordant "place" (sensor corner) ∧ (put corner).1 = .ok "s4" := by
  intro c sensor corner put
  have allowed : sensors.refusal "main" none = none := by decide +kernel
  have consistent : c.Consistent := sensors_consistent.contents "main" "sensors"
  have indexed : c.IsUniqueOver "place" :=
    ⟨by decide, "place_1", by decide +kernel⟩
  have fresh : c.hasKey (.str "s4") = false := by decide +kernel
  have missing : c.IsConcordant "place" (sensor .null) := by constructor <;> decide +kernel
  have turned : c.IsConcordant "place" (sensor corner) := by constructor <;> decide +kernel
  have refused := insert_refused_iff (d := sensor .null) allowed consistent indexed rfl fresh
    missing
  have taken := insert_refused_iff (d := sensor corner) allowed consistent indexed rfl fresh turned
  have meets : c.Meets "place" (sensor .null) := by decide +kernel
  have free : ¬c.Meets "place" (sensor corner) := by decide +kernel
  exact ⟨indexed, missing, refused.1.2 meets, turned, (taken.2 free).1⟩

def mixedUsers : World :=
  let pair : Value := .doc [("x", .doc [("p", .int 1), ("q", .int 2)])]
  (empty true).replay
    [.write "main" (.createIndex "users" [.str "a"] true) none,
      .write "main" (.insertAll "users" [.doc [("_id", .str "u1"), ("a", .int 1)],
        .doc [("_id", .str "u2"), ("a", pair)]] true) none]

/-- A truth value is refused for the number it counts as, though of another rank, and a document is
taken beside one that is level with it. -/
theorem insert_discordant :
    let c := (mixedUsers.contents "main").collection "users"
    let user (a : Value) : Document := [("_id", .str "u3"), ("a", a)]
    let pair : Value := .doc [("x", .doc [("q", .int 2), ("p", .int 1)])]
    let put (a : Value) := insert "main" "users" (.doc (user a)) none mixedUsers
    ((∃ failure, (put (.bool true)).1 = .error failure ∧ failure.kind = .duplicateKey) ∧
        ¬c.Meets "a" (user (.bool true))) ∧
      (put pair).1.toOption = some "u3" ∧ c.Meets "a" (user pair) := by
  intro c user pair put
  have failed : (match (put (.bool true)).1 with
      | .error failure => decide (failure.kind = .duplicateKey)
      | .ok _ => false) = true := by decide +kernel
  refine ⟨⟨?_, by decide +kernel⟩, by decide +kernel, by decide +kernel⟩
  cases run : (put (.bool true)).1 with
  | error failure => exact ⟨failure, rfl, by simpa [run] using failed⟩
  | ok key => simp [run] at failed

end World
end Docbase.Memory
