import Docbase.Proofs.Memory.WholeUpdate
import Docbase.Proofs.Value.Order

/-!
# What an update has written

After an update that returns, the values of its patch can be read in all documents that its filter
has accepted. A document that was equal to what it should become is not replaced, though, and may
read as another value that is equal: a filter takes the one for the other if they are of one kind.

* `Document.follow_of_holds`, `Document.follow_of_same`: what is read in a patched document, and in
  one that is equal to it.
* `World.update_assigns`: what each document reads as.
* `World.update_passed_over`: an update that writes nothing, and whose value is not found.
-/

namespace Docbase

open Memory.Contents (patched)

namespace Filter

theorem holds_equal {d x v : Value} {path : String} (field : isOperator path = false)
    (read : d.get path = .ok x) :
    holds d (.doc [(path, .doc [("$eq", v)])]) = .ok (isEqual x v) := by
  have plain : Connective.ofKey? path = none := by
    cases known : Connective.ofKey? path with
    | none => rfl
    | some connective =>
      rw [isOperator_of_ofKey? known] at field
      cases field
  have operator : isOperator "$eq" = true := by decide
  have operators : isOperators [("$eq", v)] = true := by simp [isOperators, operator]
  have met : meets x (.doc [("$eq", v)]) = .ok (isEqual x v) := by
    have known : Operator.ofKey? "$eq" = some .equal := rfl
    rw [meets, if_pos operators, meetsOperators.eq_def]
    simp only [known]
    cases isEqual x v <;> rfl
  rw [holds, holdsFields_path plain field, read]
  change (do if ← meets x (.doc [("$eq", v)]) then holdsFields d [] else return false) = _
  rw [met]
  cases isEqual x v <;> rfl

end Filter

namespace Document

open Value (follow same)

variable {parts : List String} {v : Value} {d e patch : Document}

theorem follow_of_holds (h : Holds v parts d) : follow parts (.doc d) = .ok v := by
  induction parts generalizing d with
  | nil => exact h.elim
  | cons key rest ih =>
    cases rest with
    | nil =>
      rw [Holds] at h
      rw [Value.follow_cons, Value.field, h]
      rfl
    | cons next rest =>
      obtain ⟨inner, found, held⟩ := holds_cons_cons.1 h
      rw [Value.follow_cons, Value.field, found]
      exact ih held

theorem follow_of_same (h : Holds v parts e) (equal : same (.doc e) (.doc d) = true) :
    ∃ x, follow parts (.doc d) = .ok x ∧ same v x = true := by
  induction parts generalizing d e with
  | nil => exact h.elim
  | cons key rest ih =>
    have fields := Value.sameFields_iff.1 (Bool.and_eq_true _ _ ▸ equal).2
    cases rest with
    | nil =>
      obtain ⟨x, found, equal⟩ := fields key v (Fields.mem_of_lookup h)
      refine ⟨x, ?_, equal⟩
      rw [Value.follow_cons, Value.field, found]
      rfl
    | cons next rest =>
      obtain ⟨inner, found, held⟩ := holds_cons_cons.1 h
      obtain ⟨y, found', equal⟩ := fields key _ (Fields.mem_of_lookup found)
      rw [Value.follow_cons, Value.field, found']
      cases y with
      | doc fields => exact ih held equal
      | _ => cases equal

/-- Where a document has a value that equals the one of a patch, it is one of the same kind. -/
def Kindred (patch d : Document) : Prop :=
  ∀ f ∈ patch, ∀ x, Value.get (.doc d) f.1 = .ok x → same x f.2 = true →
    Value.kindred x f.2 = true

instance (patch d : Document) : Decidable (Kindred patch d) :=
  decidable_of_iff (∀ f ∈ patch, (Value.get (.doc d) f.1).toOption.all fun x =>
      !same x f.2 || Value.kindred x f.2) <| by
    refine forall_congr' fun f => imp_congr_right fun _ => ?_
    cases Value.get (.doc d) f.1 with
    | error misuse => simp [Except.toOption]
    | ok x => cases equal : same x f.2 <;> simp [Except.toOption, equal]

/-- A document reads as a patch says: what its paths lead to passes for the values. -/
def Reads (patch d : Document) : Prop :=
  ∀ f ∈ patch, ∃ x, Value.get (.doc d) f.1 = .ok x ∧ Filter.isEqual x f.2 = true

theorem Reads.holds (h : Reads patch d) {f : String × Value} (mem : f ∈ patch)
    (field : Filter.isOperator f.1 = false) :
    Filter.holds (.doc d) (.doc [(f.1, .doc [("$eq", f.2)])]) = .ok true := by
  obtain ⟨x, read, equal⟩ := h f mem
  rw [Filter.holds_equal field read, equal]

theorem reads_patched (proper : patch.Proper) (apart : ApartPaths patch) (d : Document) :
    Reads patch (patched d patch) := by
  intro f mem
  refine ⟨f.2, Document.follow_of_holds (Document.holds_patched apart d f mem), ?_⟩
  exact Filter.isEqual_self (proper.values f mem)

theorem reads_of_same (proper : patch.Proper) (apart : ApartPaths patch) (h : d.Proper)
    (kindred : Kindred patch d) (same : Value.same (.doc (patched d patch)) (.doc d) = true) :
    Reads patch d := by
  intro f mem
  obtain ⟨x, read, equal⟩ :=
    Document.follow_of_same (Document.holds_patched apart d f mem) same
  have value := proper.values f mem
  rw [Value.same_comm value (Value.follow_isProper (Value.isProper_doc.2 h) read)] at equal
  exact ⟨x, read, Filter.isEqual_of_same value (kindred f mem x read equal) equal⟩

end Document

namespace Memory

open Document (ApartPaths Kindred Reads reads_patched reads_of_same)

theorem Collection.reads_revised {filter : Value} {patch : Document} {r : Value × Document}
    (proper : patch.Proper) (apart : ApartPaths patch) (h : r.2.Proper)
    (kindred : Value.same (.doc (patched r.2 patch)) (.doc r.2) = true → Kindred patch r.2)
    (matched : Filter.holds (.doc r.2) filter = .ok true) :
    Reads patch (revised filter patch r).2 := by
  -- A document that equals its patched copy is passed over.
  cases same : Value.same (.doc (patched r.2 patch)) (.doc r.2) with
  | true =>
    rw [revised_of_unchanged (by rw [changes, same, Bool.not_true, Bool.and_false])]
    exact reads_of_same proper apart h (kindred same) same
  | false =>
    rw [revised, if_pos (by rw [changes, matched, same]; rfl)]
    exact reads_patched proper apart r.2

namespace World

/-- After an update that returns, every document that it has accepted reads as the patch says, and
is found by it. -/
theorem update_assigns {w v : World} {store name : String} {filter : Value} {patch : Document}
    {caller : Option SessionId} {n : Nat}
    (table : ((w.contents store).collection name).IsTable)
    (documents : ∀ r ∈ ((w.contents store).collection name).records, Document.Proper r.2)
    (proper : patch.Proper) (apart : ApartPaths patch)
    (kindred : ∀ r ∈ ((w.contents store).collection name).records,
      Filter.holds (.doc r.2) filter = .ok true →
        Value.same (.doc (patched r.2 patch)) (.doc r.2) = true → Kindred patch r.2)
    (run : update store name filter (.doc patch) caller w = (.ok n, v)) :
    ∀ r ∈ ((w.contents store).collection name).records,
      Filter.holds (.doc r.2) filter = .ok true →
        ∃ d, (r.1, d) ∈ ((v.contents store).collection name).records ∧ Reads patch d ∧
          ∀ f ∈ patch, Filter.isOperator f.1 = false →
            Filter.holds (.doc d) (.doc [(f.1, .doc [("$eq", f.2)])]) = .ok true := by
  intro r mem matched
  obtain ⟨after, here, rfl⟩ := update_returns run
  have done := Contents.update_returns table here
  have reads := Collection.reads_revised proper apart (documents r mem)
    (kindred r mem matched) matched
  refine ⟨(Collection.revised filter patch r).2, ?_, reads, fun f => reads.holds⟩
  rw [contents_setContents_self, done]
  have there := List.mem_map_of_mem (f := Collection.revised filter patch) mem
  rwa [← Collection.revised_fst filter patch r]

/-- Two guests are served at one table. -/
theorem update_assigns_seating :
    let c := (seating.contents "main").collection "guests"
    let filter : Value := .doc [("table", .str "b")]
    let serve : Document := [("place.seat", .int 4), ("served", .bool true)]
    let run := update "main" "guests" filter (.doc serve) none seating
    c.IsTable ∧ (∀ r ∈ c.records, Document.Proper r.2) ∧ serve.Proper ∧ ApartPaths serve ∧
      (∀ r ∈ c.records, Kindred serve r.2) ∧ run.1.toOption = some 2 ∧
      ∀ r ∈ c.records, Filter.holds (.doc r.2) filter = .ok true →
        ∃ d, (r.1, d) ∈ ((run.2.contents "main").collection "guests").records ∧
          Reads serve d := by
  intro c filter serve run
  have consistent : c.Consistent := seating_consistent.contents "main" "guests"
  have proper : serve.Proper := Value.isProper_doc.1 (by decide)
  have apart : ApartPaths serve := by decide +kernel
  have kindred : ∀ r ∈ c.records, Kindred serve r.2 := by decide +kernel
  have served : run.1.toOption = some 2 := by decide +kernel
  refine ⟨consistent.isTable, consistent.proper, proper, apart, kindred, served, ?_⟩
  have made : update "main" "guests" filter (.doc serve) none seating = run := rfl
  clear_value run
  rcases run with ⟨_ | n, v⟩
  · cases served
  · intro r mem matched
    obtain ⟨d, there, reads, -⟩ := update_assigns consistent.isTable consistent.proper proper apart
      (fun r mem _ _ => kindred r mem) made r mem matched
    exact ⟨d, there, reads⟩

/-- A guest in the first row is to be in row "true". The two are equal, so nothing is written, and
the guest is not found in row "true". -/
theorem update_passed_over :
    let c := (seating.contents "main").collection "guests"
    let filter : Value := .doc [("_id", .str "g1")]
    let move : Document := [("place.row", .bool true)]
    let run := update "main" "guests" filter (.doc move) none seating
    let found : Value := .doc [("place.row", .doc [("$eq", .bool true)])]
    c.Consistent ∧ move.Proper ∧ ApartPaths move ∧ "_id" ∉ Fields.keys move ∧
      run.1.toOption = some 0 ∧
      (∃ r ∈ c.records, (Filter.holds (.doc r.2) filter).toOption = some true) ∧
      ∀ r ∈ ((run.2.contents "main").collection "guests").records,
        (Filter.holds (.doc r.2) found).toOption = some false := by
  intro c filter move run found
  have consistent : c.Consistent := seating_consistent.contents "main" "guests"
  have proper : move.Proper := Value.isProper_doc.1 (by decide)
  refine ⟨consistent, proper, ?_⟩
  decide +kernel

end World
end Memory
end Docbase
