import Docbase.Proofs.Memory.Data
import Docbase.Proofs.Query.Where

/-!
# The grammar of where clauses

A where clause of plain data is null, a document with none of the keys of junctions, or a document
that has such a key alone, with a list of clauses that is not empty.

* `Where.IsClause` is the grammar, and `Where.IsFilterOf` ties a clause to the filter that is
  written for it.
* `Where.read_iff_isClause`: exactly the clauses of the grammar are accepted, and each one has its
  filter.
-/

namespace Docbase

namespace Junction

variable {key : String} {kind : Junction}

theorem ofKey?_eq_some_iff : ofKey? key = some kind ↔ key = kind.key := by
  constructor
  · intro known
    unfold ofKey? at known
    split at known
    · rename_i same
      obtain rfl := Option.some.inj known
      exact same
    · split at known
      · rename_i same
        obtain rfl := Option.some.inj known
        exact same
      · cases known
  · rintro rfl
    cases kind <;> decide

theorem key_inj {kind kind' : Junction} (same : kind.key = kind'.key) : kind = kind' := by
  rw [← ofKey?_eq_some_iff] at same
  exact Option.some.inj ((ofKey?_eq_some_iff.2 rfl).symm.trans same)

theorem ofKey?_eq_none_iff : ofKey? key = none ↔ ∀ kind : Junction, kind.key ≠ key := by
  rw [Option.eq_none_iff_forall_not_mem]
  refine forall_congr' fun kind => not_congr ?_
  rw [Option.mem_def, ofKey?_eq_some_iff]
  exact eq_comm

end Junction

namespace Where

inductive IsClause : Value → Prop
  | null : IsClause .null
  | flat {fields : Document} (plain : ∀ kind : Junction, kind.key ∉ Fields.keys fields) :
    IsClause (.doc fields)
  | junction (kind : Junction) {members : List Value} (nonempty : members ≠ [])
      (each : ∀ member ∈ members, IsClause member) :
    IsClause (.doc [(kind.key, .list members)])

/-- The filter has the shape of the clause: operators stand for the keys of junctions, empty
filters for null, and flat documents for themselves. -/
inductive IsFilterOf : Value → Document → Prop
  | null : IsFilterOf .null []
  | flat {fields : Document} (plain : ∀ kind : Junction, kind.key ∉ Fields.keys fields) :
    IsFilterOf (.doc fields) fields
  | junction (kind : Junction) {members : List Value} {filters : List Document}
      (nonempty : members ≠ []) (each : List.Forall₂ IsFilterOf members filters) :
    IsFilterOf (.doc [(kind.key, .list members)]) [(kind.operator, .list (filters.map .doc))]

variable {clause : Value} {fields filter : Document} {kind : Junction} {members : List Value}

/-! ## Acceptance -/

theorem plain_iff : (∀ kind : Junction, kind.key ∉ Fields.keys fields) ↔
    (fields.any fun field => (Junction.ofKey? field.1).isSome) = false := by
  rw [List.any_eq_false]
  simp only [Bool.not_eq_true, Option.isSome_eq_false_iff, Option.isNone_iff_eq_none,
    Junction.ofKey?_eq_none_iff, Fields.keys, List.mem_map, not_exists, not_and]
  exact ⟨fun plain field mem kind same => plain kind field mem same.symm,
    fun plain kind field mem same => plain field mem kind same.symm⟩

theorem isClause_doc_iff : IsClause (.doc fields) ↔
    (∀ kind : Junction, kind.key ∉ Fields.keys fields) ∨
      ∃ kind members, fields = [(Junction.key kind, .list members)] ∧ members ≠ [] ∧
        ∀ member ∈ members, IsClause member := by
  constructor
  · intro h
    cases h with
    | flat plain => exact .inl plain
    | junction kind nonempty each => exact .inr ⟨kind, _, rfl, nonempty, each⟩
  · rintro (plain | ⟨kind, members, rfl, nonempty, each⟩)
    · exact .flat plain
    · exact .junction kind nonempty each

theorem isClause_field_iff {key : String} {v : Value} : IsClause (.doc [(key, v)]) ↔
    Junction.ofKey? key = none ∨ (∃ kind, Junction.ofKey? key = some kind) ∧
      ∃ members, v = .list members ∧ members ≠ [] ∧ ∀ member ∈ members, IsClause member := by
  rw [isClause_doc_iff, plain_iff]
  simp only [List.any_cons, List.any_nil, Bool.or_false, Option.isSome_eq_false_iff,
    Option.isNone_iff_eq_none]
  refine or_congr_right ?_
  constructor
  · rintro ⟨kind, members, same, nonempty, each⟩
    obtain ⟨rfl, rfl⟩ := Prod.mk.inj (List.singleton_inj.1 same)
    exact ⟨⟨kind, Junction.ofKey?_eq_some_iff.2 rfl⟩, members, rfl, nonempty, each⟩
  · rintro ⟨⟨kind, known⟩, members, rfl, nonempty, each⟩
    obtain rfl := Junction.ofKey?_eq_some_iff.1 known
    exact ⟨kind, members, rfl, nonempty, each⟩

theorem exists_readAll_iff {clauses : List Value} :
    (∃ members, readAll clauses = .ok members) ↔ ∀ clause ∈ clauses, ∃ p, read clause = .ok p := by
  induction clauses with
  | nil => exact ⟨fun _ _ mem => absurd mem List.not_mem_nil, fun _ => ⟨[], rfl⟩⟩
  | cons clause rest ih =>
    rw [List.forall_mem_cons, ← ih]
    constructor
    · rintro ⟨members, h⟩
      obtain ⟨p, here, h⟩ := Except.bind_eq_ok.1 h
      obtain ⟨others, there, -⟩ := Except.bind_eq_ok.1 h
      exact ⟨⟨p, here⟩, others, there⟩
    · rintro ⟨⟨p, here⟩, others, there⟩
      exact ⟨_, Except.bind_eq_ok.2 ⟨p, here, Except.bind_eq_ok.2 ⟨others, there, rfl⟩⟩⟩

theorem exists_read_junction_iff {key : String} (known : Junction.ofKey? key = some kind) :
    (∃ p, read (.doc [(key, .list members)]) = .ok p) ↔
      members ≠ [] ∧ ∀ member ∈ members, ∃ p, read member = .ok p := by
  rw [← exists_readAll_iff, read, known]
  cases members with
  | nil =>
    constructor
    · rintro ⟨p, h⟩
      cases h
    · rintro ⟨nonempty, -⟩
      exact absurd rfl nonempty
  | cons first rest =>
    constructor
    · rintro ⟨p, h⟩
      obtain ⟨read, all, -⟩ := Except.bind_eq_ok.1 h
      exact ⟨List.cons_ne_nil first rest, read, all⟩
    · rintro ⟨-, read, all⟩
      exact ⟨_, Except.bind_eq_ok.2 ⟨read, all, rfl⟩⟩

theorem exists_read_fields_iff (several : fields.length ≠ 1) :
    (∃ p, read (.doc fields) = .ok p) ↔ ∀ kind : Junction, kind.key ∉ Fields.keys fields := by
  rw [plain_iff]
  rcases fields with - | ⟨first, - | ⟨second, rest⟩⟩
  · exact ⟨fun _ => rfl, fun _ => ⟨_, rfl⟩⟩
  · exact absurd rfl several
  · rw [read]
    · split
      · rename_i mixed
        rw [mixed]
        constructor
        · rintro ⟨p, h⟩
          cases h
        · intro plain
          cases plain
      · rename_i plain
        exact ⟨fun _ => Bool.eq_false_iff.2 plain, fun _ => ⟨_, rfl⟩⟩
    · simp

theorem exists_read_iff : ∀ {clause : Value}, clause.isData = true →
    ((∃ p, read clause = .ok p) ↔ IsClause clause)
  | .null, _ => ⟨fun _ => .null, fun _ => ⟨none, rfl⟩⟩
  | .doc [(key, v)], data => by
    rw [isClause_field_iff]
    cases known : Junction.ofKey? key with
    | none => simp [read_field_of_none known]
    | some kind =>
      have data : v.isData = true := Value.isData_doc.1 data _ List.mem_cons_self
      have each (members : List Value) (list : v = .list members) :
          ∀ member ∈ members, (∃ p, read member = .ok p) ↔ IsClause member := by
        intro member mem
        rw [list] at data
        -- The recursion goes into the members, which are parts of the document.
        have smaller : sizeOf member < sizeOf (Value.doc [(key, v)]) := by
          have inside := List.sizeOf_lt_of_mem mem
          simp only [list, Value.doc.sizeOf_spec, List.cons.sizeOf_spec, Prod.mk.sizeOf_spec,
            Value.list.sizeOf_spec]
          omega
        exact exists_read_iff (Value.areData_iff.1 data member mem)
      cases v with
      | list members =>
        rw [exists_read_junction_iff known]
        simp only [Value.list.injEq, exists_eq_left', reduceCtorEq, false_or, Option.some.injEq,
          exists_eq', true_and]
        exact and_congr_right fun _ => forall₂_congr (each members rfl)
      | tuple members => cases data
      | _ => simp [read, known]
  | .doc [], _ => by
    rw [exists_read_fields_iff (by simp), isClause_doc_iff]
    simp
  | .doc (first :: second :: rest), _ => by
    rw [exists_read_fields_iff (by simp), isClause_doc_iff]
    simp
  | .missing, _ | .bool _, _ | .int _, _ | .double _, _ | .str _, _ | .bytes _, _
  | .timestamp _, _ | .objectId _, _ | .pattern _, _ | .list _, _ =>
    ⟨fun ⟨p, h⟩ => (nomatch h), fun h => (nomatch h)⟩
termination_by clause => sizeOf clause
decreasing_by exact smaller

/-! ## Filters -/

theorem filtersOf_eq_ok_iff {clauses : List Value} {filters : List Document} :
    filtersOf clauses = .ok (filters.map .doc) ↔
      List.Forall₂ (fun clause f => filterOf clause = .ok f) clauses filters := by
  constructor
  · intro h
    obtain ⟨fs, same, each⟩ := filtersOf_eq_ok h
    obtain rfl := List.map_injective_iff.2 (fun _ _ => Value.doc.inj) same
    exact each
  · intro each
    induction each with
    | nil => rfl
    | cons here there ih =>
      exact Except.bind_eq_ok.2 ⟨_, here, Except.bind_eq_ok.2 ⟨_, ih, rfl⟩⟩

theorem filterOf_flat (plain : ∀ kind : Junction, kind.key ∉ Fields.keys fields) :
    filterOf (.doc fields) = .ok fields := by
  match fields with
  | [(key, v)] =>
    rw [plain_iff] at plain
    exact filterOf_field_of_none (by simpa using plain)
  | [] => rfl
  | _ :: _ :: _ => exact filterOf_fields (by simp)

theorem isFilterOf_doc_iff : IsFilterOf (.doc fields) filter ↔
    ((∀ kind : Junction, kind.key ∉ Fields.keys fields) ∧ filter = fields) ∨
      ∃ kind members filters, fields = [(Junction.key kind, .list members)] ∧ members ≠ [] ∧
        List.Forall₂ IsFilterOf members filters ∧
        filter = [(kind.operator, .list (filters.map .doc))] := by
  constructor
  · intro h
    cases h with
    | flat plain => exact .inl ⟨plain, rfl⟩
    | junction kind nonempty each => exact .inr ⟨kind, _, _, rfl, nonempty, each, rfl⟩
  · rintro (⟨plain, rfl⟩ | ⟨kind, members, filters, rfl, nonempty, each, rfl⟩)
    · exact .flat plain
    · exact .junction kind nonempty each

theorem filterOf_junction (kind : Junction) (members : List Value) :
    filterOf (.doc [(kind.key, .list members)]) =
      (do return [(kind.operator, .list (← filtersOf members))]) :=
  filterOf_field_of_some (Junction.ofKey?_eq_some_iff.2 rfl) (.inl rfl)

theorem forall₂_congr_left {α β : Type} {R S : α → β → Prop} {as : List α} {bs : List β}
    (same : ∀ a ∈ as, ∀ b, R a b ↔ S a b) : List.Forall₂ R as bs ↔ List.Forall₂ S as bs := by
  constructor
  · intro each
    exact ((List.forall₂_and_left as bs).2 ⟨same, each⟩).imp fun a b ⟨same, h⟩ => (same b).1 h
  · intro each
    exact ((List.forall₂_and_left as bs).2 ⟨same, each⟩).imp fun a b ⟨same, h⟩ => (same b).2 h

theorem filterOf_eq_ok_iff (h : IsClause clause) :
    filterOf clause = .ok filter ↔ IsFilterOf clause filter := by
  induction h generalizing filter with
  | null =>
    constructor
    · intro made
      obtain rfl := Except.ok.inj made
      exact .null
    · intro written
      cases written
      rfl
  | @flat fields plain =>
    rw [filterOf_flat plain, isFilterOf_doc_iff]
    constructor
    · intro same
      exact .inl ⟨plain, (Except.ok.inj same).symm⟩
    · rintro (⟨-, rfl⟩ | ⟨kind, members, filters, rfl, -⟩)
      · rfl
      · exact absurd List.mem_cons_self (plain kind)
  | @junction kind members nonempty each ih =>
    have written {filters : List Document} : filtersOf members = .ok (filters.map .doc) ↔
        List.Forall₂ IsFilterOf members filters := by
      rw [filtersOf_eq_ok_iff]
      exact forall₂_congr_left fun member mem filter => ih member mem
    rw [filterOf_junction, isFilterOf_doc_iff]
    constructor
    · intro made
      obtain ⟨values, all, made⟩ := Except.bind_eq_ok.1 made
      obtain rfl := Except.pure_eq_ok.1 made
      obtain ⟨filters, rfl, -⟩ := filtersOf_eq_ok all
      exact .inr ⟨kind, members, filters, rfl, nonempty, written.1 all, rfl⟩
    · rintro (⟨plain, -⟩ | ⟨kind', members', filters, same, -, each, rfl⟩)
      · exact absurd List.mem_cons_self (plain kind)
      · obtain ⟨key, list⟩ := Prod.mk.inj (List.singleton_inj.1 same)
        obtain rfl := Value.list.inj list
        obtain rfl := Junction.key_inj key
        exact Except.bind_eq_ok.2 ⟨_, written.2 each, rfl⟩

theorem exists_filterOf (h : IsClause clause) : ∃ filter, filterOf clause = .ok filter := by
  induction h with
  | null => exact ⟨[], rfl⟩
  | @flat fields plain => exact ⟨fields, filterOf_flat plain⟩
  | @junction kind members nonempty each ih =>
    have all : ∃ filters, filtersOf members = .ok filters := by
      clear nonempty each
      induction members with
      | nil => exact ⟨[], rfl⟩
      | cons member rest rests =>
        obtain ⟨⟨filter, here⟩, others⟩ := List.forall_mem_cons.1 ih
        obtain ⟨filters, there⟩ := rests others
        exact ⟨_, Except.bind_eq_ok.2 ⟨filter, here, Except.bind_eq_ok.2 ⟨filters, there, rfl⟩⟩⟩
    obtain ⟨filters, all⟩ := all
    rw [filterOf_junction]
    exact ⟨_, Except.bind_eq_ok.2 ⟨filters, all, rfl⟩⟩

/-- Plain data is accepted as a where clause if it is one of the grammar, and refused as an invalid
query if not. An accepted clause has a filter, which is the one of its shape. -/
theorem read_iff_isClause (data : clause.isData = true) :
    ((∃ p, read clause = .ok p) ↔ IsClause clause) ∧
    (¬IsClause clause → ∃ fault, read clause = .error fault ∧
      (Failure.query fault).kind = .invalidQuery) ∧
    ∀ p, read clause = .ok p →
      (∃ filter, toFilter clause = .ok filter) ∧
        ∀ filter, toFilter clause = .ok filter ↔ IsFilterOf clause filter := by
  refine ⟨exists_read_iff data, fun other => ?_, fun p accepted => ?_⟩
  · rw [← exists_read_iff data] at other
    cases outcome : read clause with
    | ok p => exact absurd ⟨p, outcome⟩ other
    | error fault => exact ⟨fault, rfl, rfl⟩
  · have written : toFilter clause = filterOf clause := by
      unfold toFilter
      rw [accepted]
      rfl
    have grammar : IsClause clause := (exists_read_iff data).1 ⟨p, accepted⟩
    rw [written]
    exact ⟨exists_filterOf grammar, fun filter => filterOf_eq_ok_iff grammar⟩

def nested : Value :=
  .doc [("and", .list [.null, .doc [("or", .list [.doc [("or.x", .int 3)], .doc []])],
    .doc [("$or", .list [.doc [("or", .null)]])]])]

def spoilt : Value := .doc [("and", .list [.null, .doc [("or", .list [])]])]

theorem read_iff_isClause_nested :
    nested.isData = true ∧ spoilt.isData = true ∧ IsClause nested ∧
      IsFilterOf nested [("$and", .list [.doc [],
        .doc [("$or", .list [.doc [("or.x", .int 3)], .doc []])],
        .doc [("$or", .list [.doc [("or", .null)]])]])] ∧
      ¬IsClause spoilt ∧ ∃ fault, read spoilt = .error fault ∧
        (Failure.query fault).kind = .invalidQuery := by
  have plain : nested.isData = true := by decide
  have plain' : spoilt.isData = true := by decide
  obtain ⟨accepted, -, written⟩ := read_iff_isClause plain
  obtain ⟨refused, fault, -⟩ := read_iff_isClause plain'
  have other : ¬IsClause spoilt := fun h => by
    obtain ⟨p, h⟩ := refused.2 h
    cases h
  exact ⟨plain, plain', accepted.1 ⟨_, rfl⟩, ((written _ rfl).2 _).1 rfl, other, fault other⟩

end Where
end Docbase
