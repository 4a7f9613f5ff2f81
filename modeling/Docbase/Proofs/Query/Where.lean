import Docbase.Filter
import Docbase.Identity
import Docbase.Proofs.Action
import Docbase.Query.Where
import Mathlib.Data.List.Forall2

/-!
# The meaning of where clauses

`Where.holds` evaluates a clause on a document as it stands, without a filter being made of it.

* `Where.toFilter_clause`: a predicate that was read has the filter of the clause it was read from.
* `Where.holds_toFilter`: the filter of a clause, under stored names, holds of the documents that
  the clause holds of, and fails on those that it fails on.
-/

namespace Docbase

def Predicate.clause (p : Option Predicate) : Value := (p.map Predicate.toValue).getD .null

namespace Where

variable {key : String} {v : Value} {kind : Junction}

/-! ## Documents with one field -/

theorem read_field_of_none (plain : Junction.ofKey? key = none) :
    read (.doc [(key, v)]) = .ok (some (.flat [(key, v)])) := by
  rw [read, plain]

theorem filterOf_field_of_none (plain : Junction.ofKey? key = none) :
    filterOf (.doc [(key, v)]) = .ok [(key, v)] := by
  rw [filterOf, plain]

theorem read_field_of_some (junction : Junction.ofKey? key = some kind) {p : Option Predicate}
    (h : read (.doc [(key, v)]) = .ok p) :
    ∃ items members, (v = .list items ∨ v = .tuple items) ∧ readAll items = .ok members ∧
      p = some (.junction kind members) := by
  have items (items : List Value) (h : (do return some (Predicate.junction kind (← readAll items)) :
      Except QueryFault (Option Predicate)) = .ok p) :
      ∃ members, readAll items = .ok members ∧ p = some (.junction kind members) := by
    obtain ⟨members, all, h⟩ := Except.bind_eq_ok.1 h
    exact ⟨members, all, (Except.pure_eq_ok.1 h).symm⟩
  rw [read, junction] at h
  cases v with
  | list values =>
    cases values with
    | nil => cases h
    | cons first rest =>
      obtain ⟨members, all, rfl⟩ := items (first :: rest) h
      exact ⟨first :: rest, members, .inl rfl, all, rfl⟩
  | tuple values =>
    cases values with
    | nil => cases h
    | cons first rest =>
      obtain ⟨members, all, rfl⟩ := items (first :: rest) h
      exact ⟨first :: rest, members, .inr rfl, all, rfl⟩
  | _ => cases h

theorem filterOf_field_of_some (junction : Junction.ofKey? key = some kind) {items : List Value}
    (list : v = .list items ∨ v = .tuple items) :
    filterOf (.doc [(key, v)]) =
      (do return [(kind.operator, .list (← filtersOf items))]) := by
  rw [filterOf, junction]
  rcases list with rfl | rfl <;> rfl

theorem read_fields {fields : Document} (several : fields.length ≠ 1) {p : Option Predicate}
    (h : read (.doc fields) = .ok p) : p = some (.flat fields) := by
  match fields, several with
  | [], _ => exact (Except.ok.inj h).symm
  | first :: second :: rest, _ =>
    rw [read] at h
    · split at h
      · cases h
      · exact (Except.ok.inj h).symm
    · simp

theorem filterOf_fields {fields : Document} (several : fields.length ≠ 1) :
    filterOf (.doc fields) = .ok fields := by
  match fields, several with
  | [], _ => rfl
  | first :: second :: rest, _ => rfl

/-! ## Clauses that were read -/

theorem read_clause (p : Option Predicate) : read (Predicate.clause p) = .ok p := by
  cases p with
  | none => rfl
  | some p =>
    cases p with
    | flat conditions => rfl
    | junction kind members => cases kind <;> rfl

mutual

theorem filterOf_clause : ∀ {clause : Value} {p : Option Predicate}, read clause = .ok p →
    filterOf (Predicate.clause p) = filterOf clause
  | .null, p, h | .flat _, p, h | .anyOf _, p, h | .allOf _, p, h => by
    obtain rfl := Except.ok.inj h
    rfl
  | .doc [(key, v)], p, h => by
    cases junction : Junction.ofKey? key with
    | none =>
      rw [read_field_of_none junction] at h
      obtain rfl := Except.ok.inj h
      rw [filterOf_field_of_none junction]
      rfl
    | some kind =>
      obtain ⟨items, members, list, all, rfl⟩ := read_field_of_some junction h
      have smaller : sizeOf items < sizeOf v := by
        rcases list with rfl | rfl <;> simp
      have filters := readFiltersOf_clauses all
      rw [filterOf_field_of_some junction list, ← filters]
      cases kind <;> rfl
  | .doc [], p, h | .doc (_ :: _ :: _), p, h => by
    obtain rfl := read_fields (by simp) h
    rw [filterOf_fields (by simp)]
    rfl

theorem readFiltersOf_clauses : ∀ {clauses members : List Value}, readAll clauses = .ok members →
    readFiltersOf members = filtersOf clauses
  | [], members, h => by
    obtain rfl := Except.ok.inj h
    rfl
  | clause :: rest, members, h => by
    obtain ⟨p, here, h⟩ := Except.bind_eq_ok.1 h
    obtain ⟨others, there, h⟩ := Except.bind_eq_ok.1 h
    obtain rfl := Except.pure_eq_ok.1 h
    change readFiltersOf (Predicate.clause p :: others) = _
    rw [readFiltersOf, read_clause, filterOf_clause here, readFiltersOf_clauses there]
    rfl

end

/-- Reading a clause again, after it was read, changes nothing. -/
theorem toFilter_clause {clause : Value} {p : Option Predicate} (h : read clause = .ok p) :
    toFilter (Predicate.clause p) = toFilter clause := by
  unfold toFilter
  rw [h, read_clause, filterOf_clause h]

/-! ## Evaluating a clause -/

mutual

/-- Whether a document meets a clause. A flat predicate is tested under stored names; the members
of a junction are evaluated from left to right until one decides. -/
def holds (identity : Identity) (d : Value) : Value → Except Failure Bool
  | .null => .ok true
  | .flat conditions => Filter.holds d (.doc (identity.toInternal conditions))
  | .anyOf members => holdsSome identity d members
  | .allOf members => holdsEvery identity d members
  | .doc [(key, v)] =>
    match Junction.ofKey? key with
    | none => Filter.holds d (.doc (identity.toInternal [(key, v)]))
    | some kind =>
      match v with
      | .list items | .tuple items =>
        match kind with
        | .any => holdsSome identity d items
        | .all => holdsEvery identity d items
      | _ => .error (.query (.membersNotList kind))
  | .doc fields => Filter.holds d (.doc (identity.toInternal fields))
  | v => .error (.query (.notMapping v.typeName))
termination_by structural clause => clause

def holdsSome (identity : Identity) (d : Value) : List Value → Except Failure Bool
  | [] => .ok false
  | clause :: rest => do
    if ← holds identity d clause then return true else holdsSome identity d rest
termination_by structural clauses => clauses

def holdsEvery (identity : Identity) (d : Value) : List Value → Except Failure Bool
  | [] => .ok true
  | clause :: rest => do
    if ← holds identity d clause then holdsEvery identity d rest else return false
termination_by structural clauses => clauses

end

def holdsMembers (identity : Identity) (d : Value) : Junction → List Value → Except Failure Bool
  | .any => holdsSome identity d
  | .all => holdsEvery identity d

variable {identity : Identity} {d : Value}

theorem holds_field_of_none (plain : Junction.ofKey? key = none) :
    holds identity d (.doc [(key, v)]) =
      Filter.holds d (.doc (identity.toInternal [(key, v)])) := by
  rw [holds, plain]

theorem holds_field_of_some (junction : Junction.ofKey? key = some kind) {items : List Value}
    (list : v = .list items ∨ v = .tuple items) :
    holds identity d (.doc [(key, v)]) = holdsMembers identity d kind items := by
  rw [holds, junction]
  rcases list with rfl | rfl <;> cases kind <;> rfl

/-! ## The filter of a clause -/

theorem filtersOf_eq_ok {clauses filters : List Value} (h : filtersOf clauses = .ok filters) :
    ∃ fs : List Document, filters = fs.map .doc ∧
      List.Forall₂ (fun clause f => filterOf clause = .ok f) clauses fs := by
  induction clauses generalizing filters with
  | nil =>
    obtain rfl := Except.ok.inj h
    exact ⟨[], rfl, .nil⟩
  | cons clause rest ih =>
    obtain ⟨f, here, h⟩ := Except.bind_eq_ok.1 h
    obtain ⟨others, there, h⟩ := Except.bind_eq_ok.1 h
    obtain rfl := Except.pure_eq_ok.1 h
    obtain ⟨fs, rfl, each⟩ := ih there
    exact ⟨f :: fs, rfl, .cons here each⟩

theorem readFiltersOf_eq_ok {clauses filters : List Value}
    (h : readFiltersOf clauses = .ok filters) :
    ∃ fs : List Document, filters = fs.map .doc ∧
      List.Forall₂ (fun clause f => filterOf clause = .ok f) clauses fs := by
  induction clauses generalizing filters with
  | nil =>
    obtain rfl := Except.ok.inj h
    exact ⟨[], rfl, .nil⟩
  | cons clause rest ih =>
    obtain ⟨-, -, h⟩ := Except.bind_eq_ok.1 h
    obtain ⟨f, here, h⟩ := Except.bind_eq_ok.1 h
    obtain ⟨others, there, h⟩ := Except.bind_eq_ok.1 h
    obtain rfl := Except.pure_eq_ok.1 h
    obtain ⟨fs, rfl, each⟩ := ih there
    exact ⟨f :: fs, rfl, .cons here each⟩

def holdsFilters (d : Value) : Junction → List Value → Except Failure Bool
  | .any => Filter.holdsSome d
  | .all => Filter.holdsEvery d

theorem holds_junction (kind : Junction) (filters : List Value) :
    Filter.holds d (.doc [(kind.operator, .list filters)]) = holdsFilters d kind filters := by
  have once (x : Except Failure Bool) :
      (do if ← x then Filter.holdsFields d [] else return false) = x := by
    rcases x with e | b
    · rfl
    · cases b <;> rfl
  cases kind with
  | any => exact once (Filter.holdsSome d filters)
  | all => exact once (Filter.holdsEvery d filters)

theorem toInternal_junction (free : Identity.isConnective identity.external = false)
    (kind : Junction) (filters : List Value) :
    identity.toInternal [(kind.operator, .list filters)] =
      [(kind.operator, .list (identity.renameItems filters))] := by
  have connective : Identity.isConnective kind.operator = true := by cases kind <;> rfl
  have ne : kind.operator ≠ identity.external := by
    intro eq
    rw [eq, free] at connective
    cases connective
  simp [Identity.toInternal, Identity.renameFields, ne, connective, Fields.ofWrites, Fields.set]

theorem renameItems_map_doc (identity : Identity) (filters : List Document) :
    identity.renameItems (filters.map .doc) =
      filters.map fun f => .doc (identity.toInternal f) := by
  induction filters with
  | nil => simp [Identity.renameItems]
  | cons f rest ih =>
    rw [List.map_cons, Identity.renameItems, ih]
    rfl

theorem holdsFilters_eq (kind : Junction) {clauses : List Value} {filters : List Document}
    (each : List.Forall₂ (fun clause f => filterOf clause = .ok f) clauses filters)
    (means : ∀ clause ∈ clauses, ∀ f, filterOf clause = .ok f →
      Filter.holds d (.doc (identity.toInternal f)) = holds identity d clause) :
    holdsFilters d kind (identity.renameItems (filters.map .doc)) =
      holdsMembers identity d kind clauses := by
  rw [renameItems_map_doc]
  induction each with
  | nil => cases kind <;> rfl
  | @cons clause f rest others here there ih =>
    obtain ⟨meansHere, meansThere⟩ := List.forall_mem_cons.1 means
    have first := meansHere f here
    have last := ih meansThere
    cases kind with
    | any =>
      simp only [holdsFilters, holdsMembers] at last ⊢
      rw [List.map_cons, Filter.holdsSome, holdsSome, first, last]
    | all =>
      simp only [holdsFilters, holdsMembers] at last ⊢
      rw [List.map_cons, Filter.holdsEvery, holdsEvery, first, last]

theorem holds_filterOf (free : Identity.isConnective identity.external = false) :
    ∀ {clause : Value} {filter : Document}, filterOf clause = .ok filter →
      Filter.holds d (.doc (identity.toInternal filter)) = holds identity d clause
  | .null, filter, h => by
    obtain rfl := Except.ok.inj h
    simp [Identity.toInternal, Identity.renameFields, Fields.ofWrites, holds, Filter.holds,
      Filter.holdsFields]
  | .flat _, filter, h => by
    obtain rfl := Except.ok.inj h
    rfl
  | .anyOf members, filter, h => by
    obtain ⟨filters, all, h⟩ := Except.bind_eq_ok.1 h
    obtain rfl := Except.pure_eq_ok.1 h
    obtain ⟨fs, rfl, each⟩ := readFiltersOf_eq_ok all
    rw [toInternal_junction free .any, holds_junction .any]
    exact holdsFilters_eq .any each fun _ _ _ h => holds_filterOf free h
  | .allOf members, filter, h => by
    obtain ⟨filters, all, h⟩ := Except.bind_eq_ok.1 h
    obtain rfl := Except.pure_eq_ok.1 h
    obtain ⟨fs, rfl, each⟩ := readFiltersOf_eq_ok all
    rw [toInternal_junction free .all, holds_junction .all]
    exact holdsFilters_eq .all each fun _ _ _ h => holds_filterOf free h
  | .doc [(key, v)], filter, h => by
    cases junction : Junction.ofKey? key with
    | none =>
      rw [filterOf_field_of_none junction] at h
      obtain rfl := Except.ok.inj h
      rw [holds_field_of_none junction]
    | some kind =>
      obtain ⟨items, list⟩ : ∃ items, v = .list items ∨ v = .tuple items := by
        rw [filterOf, junction] at h
        cases v with
        | list items => exact ⟨items, .inl rfl⟩
        | tuple items => exact ⟨items, .inr rfl⟩
        | _ => cases h
      rw [filterOf_field_of_some junction list] at h
      obtain ⟨filters, all, h⟩ := Except.bind_eq_ok.1 h
      obtain rfl := Except.pure_eq_ok.1 h
      obtain ⟨fs, rfl, each⟩ := filtersOf_eq_ok all
      rw [toInternal_junction free, holds_junction, holds_field_of_some junction list]
      refine holdsFilters_eq kind each fun clause mem _ h => ?_
      have smaller : sizeOf clause < sizeOf (Value.doc [(key, v)]) := by
        have member := List.sizeOf_lt_of_mem mem
        rcases list with rfl | rfl <;> simp <;> omega
      exact holds_filterOf free h
  | .doc [], filter, h | .doc (_ :: _ :: _), filter, h => by
    rw [filterOf_fields (by simp)] at h
    obtain rfl := Except.ok.inj h
    rfl
termination_by clause => sizeOf clause
decreasing_by
  · decreasing_tactic
  · decreasing_tactic
  · exact smaller

/-- The filter of a clause means what the clause means: on every document both come to the same,
be it an answer or a failure. -/
theorem holds_toFilter {clause : Value} {filter : Document} (h : toFilter clause = .ok filter)
    (identity : Identity) (free : Identity.isConnective identity.external = false) (d : Value) :
    Filter.holds d (.doc (identity.toInternal filter)) = holds identity d clause := by
  obtain ⟨-, -, h⟩ := Except.bind_eq_ok.1 h
  exact holds_filterOf free h

def firstOrUnknown : Value :=
  .doc [("and", .list [.null,
    .anyOf [.doc [("id", .str "k1")], .flat [("$unknown", .null)]]])]

theorem holds_toFilter_firstOrUnknown :
    ∃ filter, toFilter firstOrUnknown = .ok filter ∧
      Identity.isConnective (default : Identity).external = false ∧
      (∀ d, Filter.holds d (.doc ((default : Identity).toInternal filter)) =
        holds default d firstOrUnknown) ∧
      holds default (.doc [("_id", .str "k1")]) firstOrUnknown = .ok true ∧
      holds default (.doc [("_id", .str "k2")]) firstOrUnknown =
        .error (.unsupportedFilter "$unknown") :=
  have free : Identity.isConnective (default : Identity).external = false := by decide
  ⟨_, rfl, free, fun d => holds_toFilter rfl default free d, by with_unfolding_all rfl,
    by with_unfolding_all rfl⟩

end Where
end Docbase
