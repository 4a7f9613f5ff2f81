import Docbase.Proofs.Fields
import Docbase.Proofs.Query.Where
import Docbase.Query.Read

namespace Docbase

namespace Query

variable {fields : Document} {q : Query} {key : String} {v : Value}

theorem ofFields_eq_ok :
    ofFields fields = .ok q ↔
      Where.read ((fields.lookup "where").getD .null) = .ok q.filter ∧
      readSelect ((fields.lookup "select").getD .null) = .ok q.select ∧
      readJoin ((fields.lookup "join").getD .null) = .ok q.join ∧
      readSort ((fields.lookup "sort").getD .null) = .ok q.sort ∧
      readCount "limit" ((fields.lookup "limit").getD .null) = .ok q.limit ∧
      readCount "skip" ((fields.lookup "skip").getD .null) = .ok q.skip ∧
      q.joinConditions = (fields.lookup "join_conditions").getD .null ∧
      q.aliases = (fields.lookup "aliases").getD .null := by
  simp only [ofFields, Except.bind_eq_ok, Except.pure_eq_ok, Except.liftFault_eq_ok]
  constructor
  · rintro ⟨filter, hf, select, hs, join, hj, sort, ho, limit, hl, skip, hk, rfl⟩
    exact ⟨hf, hs, hj, ho, hl, hk, rfl, rfl⟩
  · rintro ⟨hf, hs, hj, ho, hl, hk, hc, ha⟩
    exact ⟨_, hf, _, hs, _, hj, _, ho, _, hl, _, hk, by rw [← hc, ← ha]⟩

/-! ## Unknown names -/

def isUnknown (name : Value) : Bool :=
  !(("joinConditions" :: fieldNames).map Value.str).any (Value.same name)

theorem unknownNames_congr {names others : List Value} (hn : names.all Value.hashable = true)
    (ho : others.all Value.hashable = true)
    (same : names.filter isUnknown = others.filter isUnknown) :
    unknownNames names = unknownNames others := by
  unfold isUnknown at same
  simp only [unknownNames, hn, ho, same]

def names (fields : Document) : List Value := fields.map fun field => .str field.1

theorem names_hashable (fields : Document) : (names fields).all Value.hashable = true := by
  simp [names, Value.hashable]

theorem filter_names_set (known : isUnknown (.str key) = false) (v : Value) (fields : Document) :
    (names (Fields.set key v fields)).filter isUnknown = (names fields).filter isUnknown := by
  have of_keys (fields : Document) : names fields = (Fields.keys fields).map .str := by
    simp [names, Fields.keys]
  rw [of_keys, of_keys, Fields.keys_set]
  split
  · rfl
  · rw [List.map_append, List.filter_append]
    simp [known]

theorem filter_names_erase (known : isUnknown (.str key) = false) (fields : Document) :
    (names (Fields.erase key fields)).filter isUnknown = (names fields).filter isUnknown := by
  rw [names, names, Fields.erase, List.filter_map, List.filter_map, List.filter_filter]
  congr 1
  refine List.filter_congr fun field _ => ?_
  by_cases h : field.1 = key
  · simp [h, known]
  · simp [h]

/-! ## Queries as data -/

theorem ofData_doc_eq_ok :
    ofData (.doc fields) = .ok q ↔
      unknownNames (names fields) = .ok [] ∧
      ofFields (Fields.set "join_conditions" ((fields.lookup "join_conditions").getD
        ((fields.lookup "joinConditions").getD .null)) fields) = .ok q := by
  have opened : ofData (.doc fields) = (do
      let unknown ← unknownNames (names fields)
      if !unknown.isEmpty then throw (.query (.unknownKeys unknown))
      ofFields (Fields.set "join_conditions" ((fields.lookup "join_conditions").getD
        ((fields.lookup "joinConditions").getD .null)) fields)) := rfl
  rw [opened, Except.bind_eq_ok]
  constructor
  · rintro ⟨unknown, named, h⟩
    cases unknown with
    | nil => exact ⟨named, h⟩
    | cons name rest => cases h
  · rintro ⟨named, h⟩
    exact ⟨[], named, h⟩

theorem ofData_eq_ok {v : Value} (h : ofData v = .ok q) : ∃ fields, v = .doc fields := by
  unfold ofData at h
  split at h
  · cases h
  · obtain ⟨unknown, -, h⟩ := Except.bind_eq_ok.1 h
    cases v with
    | doc fields => exact ⟨fields, rfl⟩
    | _ =>
      dsimp only at h
      split at h
      · cases h
      · cases h

theorem filter_of_ofData (h : ofData (.doc fields) = .ok q) :
    Where.read ((fields.lookup "where").getD .null) = .ok q.filter := by
  have read := (ofFields_eq_ok.1 (ofData_doc_eq_ok.1 h).2).1
  rwa [Fields.lookup_set_of_ne (by decide)] at read

/-! ## Pages -/

def boundValue : Option Int → Value
  | none => .null
  | some n => .int n

theorem readCount_boundValue (name : String) (bound : Option Int) :
    readCount name (boundValue bound) = .ok bound := by
  cases bound with
  | none => rfl
  | some n => rfl

def pageFields (skip limit : Option Int) (fields : Document) : Document :=
  Fields.set "limit" (boundValue limit) (Fields.set "skip" (boundValue skip) fields)

theorem lookup_pageFields_of_ne (skip limit : Option Int) (notLimit : key ≠ "limit")
    (notSkip : key ≠ "skip") : (pageFields skip limit fields).lookup key = fields.lookup key := by
  rw [pageFields, Fields.lookup_set_of_ne notLimit, Fields.lookup_set_of_ne notSkip]

theorem ofData_page (h : ofData (.doc fields) = .ok q) {others : Document} {skip limit : Option Int}
    (unknown : (names others).filter isUnknown = (names fields).filter isUnknown)
    (same : ∀ key, key ≠ "limit" → key ≠ "skip" → others.lookup key = fields.lookup key)
    (limited : readCount "limit" ((others.lookup "limit").getD .null) = .ok limit)
    (skipped : readCount "skip" ((others.lookup "skip").getD .null) = .ok skip) :
    ofData (.doc others) = .ok { q with skip, limit } := by
  obtain ⟨known, read⟩ := ofData_doc_eq_ok.1 h
  have named : unknownNames (names others) = .ok [] := by
    rw [← known]
    exact unknownNames_congr (names_hashable _) (names_hashable _) unknown
  refine ofData_doc_eq_ok.2 ⟨named, ofFields_eq_ok.2 ?_⟩
  have parts := ofFields_eq_ok.1 read
  simp only [Fields.lookup_set_self, ne_eq, String.reduceEq, not_false_eq_true,
    Fields.lookup_set_of_ne, same, skipped, limited, Option.getD_some] at parts ⊢
  tauto

theorem ofData_pageFields (h : ofData (.doc fields) = .ok q) (skip limit : Option Int) :
    ofData (.doc (pageFields skip limit fields)) = .ok { q with skip, limit } := by
  have skipped : (pageFields skip limit fields).lookup "skip" = some (boundValue skip) := by
    rw [pageFields, Fields.lookup_set_of_ne (by decide), Fields.lookup_set_self]
  have limited : (pageFields skip limit fields).lookup "limit" = some (boundValue limit) := by
    rw [pageFields, Fields.lookup_set_self]
  refine ofData_page h ?_ (fun key => lookup_pageFields_of_ne skip limit) ?_ ?_
  · rw [pageFields, filter_names_set (by decide), filter_names_set (by decide)]
  · rw [limited, Option.getD_some, readCount_boundValue]
  · rw [skipped, Option.getD_some, readCount_boundValue]

def unpagedFields (fields : Document) : Document :=
  Fields.erase "limit" (Fields.erase "skip" fields)

theorem ofData_unpagedFields (h : ofData (.doc fields) = .ok q) :
    ofData (.doc (unpagedFields fields)) = .ok { q with skip := none, limit := none } := by
  refine ofData_page h ?_ (fun key notLimit notSkip => ?_) ?_ ?_
  · rw [unpagedFields, filter_names_erase (by decide), filter_names_erase (by decide)]
  · rw [unpagedFields, Fields.lookup_erase_of_ne notLimit, Fields.lookup_erase_of_ne notSkip]
  · rw [unpagedFields, Fields.lookup_erase_self]
    rfl
  · rw [unpagedFields, Fields.lookup_erase_of_ne (by decide), Fields.lookup_erase_self]
    rfl

end Query

namespace QueryInput

/-- The same query for another page. Without a query all documents are asked for. -/
def paged (skip limit : Option Int) : QueryInput → QueryInput
  | built q => built { q with skip, limit }
  | data .null => data (.doc (Query.pageFields skip limit []))
  | data (.doc fields) => data (.doc (Query.pageFields skip limit fields))
  | data v => data v

def unpaged : QueryInput → QueryInput
  | built q => built { q with skip := none, limit := none }
  | data (.doc fields) => data (.doc (Query.unpagedFields fields))
  | data v => data v

/-- The where clause of a query, as it was handed over. -/
def clause : QueryInput → Value
  | built q => Predicate.clause q.filter
  | data (.doc fields) => (fields.lookup "where").getD .null
  | data _ => .null

theorem read_cases {input : QueryInput} {query : Option Query} (h : input.read = .ok query) :
    (input = data .null ∧ query = none) ∨
      (∃ q, input = built q ∧ query = some q) ∨
      ∃ fields q, input = data (.doc fields) ∧ Query.ofData (.doc fields) = .ok q ∧
        query = some q := by
  cases input with
  | built q => exact .inr (.inl ⟨q, rfl, (Except.ok.inj h).symm⟩)
  | data v =>
    by_cases absent : v = .null
    · subst absent
      exact .inl ⟨rfl, (Except.ok.inj h).symm⟩
    · rw [read] at h
      · obtain ⟨q, ofData, returned⟩ := Except.bind_eq_ok.1 h
        obtain ⟨fields, rfl⟩ := Query.ofData_eq_ok ofData
        exact .inr (.inr ⟨fields, q, rfl, ofData, (Except.pure_eq_ok.1 returned).symm⟩)
      · exact absent

theorem read_paged {input : QueryInput} {query : Option Query} (h : input.read = .ok query)
    (skip limit : Option Int) :
    (input.paged skip limit).read = .ok (some { query.getD {} with skip, limit }) := by
  rcases read_cases h with ⟨rfl, rfl⟩ | ⟨q, rfl, rfl⟩ | ⟨fields, q, rfl, ofData, rfl⟩
  · have all : Query.ofData (.doc []) = .ok {} := by with_unfolding_all rfl
    have page := Query.ofData_pageFields all skip limit
    simp only [paged, read, page]
    rfl
  · rfl
  · have page := Query.ofData_pageFields ofData skip limit
    simp only [paged, read, page]
    rfl

theorem read_unpaged {input : QueryInput} {query : Option Query} (h : input.read = .ok query) :
    input.unpaged.read = .ok (query.map fun q => { q with skip := none, limit := none }) := by
  rcases read_cases h with ⟨rfl, rfl⟩ | ⟨q, rfl, rfl⟩ | ⟨fields, q, rfl, ofData, rfl⟩
  · rfl
  · rfl
  · simp only [unpaged, read, Query.ofData_unpagedFields ofData]
    rfl

theorem read_where {clause : Value} {p : Option Predicate} (h : Where.read clause = .ok p) :
    (data (.doc [("where", clause)])).read = .ok (some { filter := p }) := by
  have known : Query.unknownNames (Query.names [("where", clause)]) = .ok [] := by
    with_unfolding_all rfl
  have fields : Query.ofFields (Fields.set "join_conditions" .null [("where", clause)]) =
      .ok { filter := p } := Query.ofFields_eq_ok.2 ⟨h, rfl, rfl, rfl, rfl, rfl, rfl, rfl⟩
  have query : Query.ofData (.doc [("where", clause)]) = .ok { filter := p } :=
    Query.ofData_doc_eq_ok.2 ⟨known, fields⟩
  simp only [read, query]
  rfl

theorem toFilter_clause_of_read {input : QueryInput} {query : Option Query}
    (h : input.read = .ok query) :
    Where.toFilter (Predicate.clause (query.getD {}).filter) = Where.toFilter input.clause := by
  rcases read_cases h with ⟨rfl, rfl⟩ | ⟨q, rfl, rfl⟩ | ⟨fields, q, rfl, ofData, rfl⟩
  · rfl
  · rfl
  · exact Where.toFilter_clause (Query.filter_of_ofData ofData)

end QueryInput
end Docbase
