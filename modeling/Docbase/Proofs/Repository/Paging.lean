import Docbase.Proofs.Repository.Reading

/-!
# Pages of a query

The pages of a query are the parts of what it returns without a page, and each reports the number
of all documents that the where clause selects.
-/

namespace Docbase.Repository

open Memory (World SessionId)

variable {store : String} {r : Repository World SessionId} {caller : Option SessionId} {w : World}
  {input : QueryInput} {page : Page}

theorem results_page {identity : Identity} {foreign : String → List Document}
    {documents found : List Document} {q : Query} {total : Nat}
    (h : results identity foreign documents q = .ok (found, total))
    (noSkip : q.skip.getD 0 ≤ 0) (noLimit : q.limit.getD 0 ≤ 0) (skip limit : Option Int) :
    results identity foreign documents { q with skip, limit } =
      .ok (Pipeline.cut skip limit found, total) := by
  obtain ⟨filter, shape, kept, shaped, filtered, shapes, keeps, run, rfl, rfl⟩ := results_eq_ok.1 h
  refine results_eq_ok.2 ⟨filter, shape, kept, shaped, filtered, ?_, keeps, run, ?_, rfl⟩
  · rw [Plan.shaping_page, shapes]
  · rw [Pipeline.cut_of_nonpos noSkip noLimit, Pipeline.cut_map]

theorem length_found {identity : Identity} {foreign : String → List Document}
    {documents found : List Document} {q : Query} {total : Nat}
    (h : results identity foreign documents q = .ok (found, total))
    (noSkip : q.skip.getD 0 ≤ 0) (noLimit : q.limit.getD 0 ≤ 0) : found.length = total := by
  obtain ⟨filter, shape, kept, shaped, -, shapes, -, run, rfl, rfl⟩ := results_eq_ok.1 h
  rw [Pipeline.cut_of_nonpos noSkip noLimit, List.length_map, Pipeline.length_shaped shapes run]

/-- What a query without a page finds is what its pages hold, one after the other. -/
theorem findMany_pages (stored : r.backend = Memory.backend store)
    (unpaged : ∀ q, input.read = .ok (some q) → q.skip.getD 0 ≤ 0 ∧ q.limit.getD 0 ≤ 0)
    (found : (r.findMany input caller w).1 = .ok page) :
    page.total = .int page.documents.length ∧
      (r.count input.clause caller w).1 = .ok page.total ∧
      (∀ skip limit : Option Int, (r.findMany (input.paged skip limit) caller w).1 =
        .ok { page with documents := Pipeline.cut skip limit page.documents }) ∧
      ∀ size count : Nat, 0 < size → page.documents.length ≤ count * size →
        ∃ pages, (List.range count).mapM (fun i =>
            (r.findMany (input.paged (some ↑(i * size)) (some ↑size)) caller w).1) = .ok pages ∧
          pages.flatMap Page.documents = page.documents := by
  obtain ⟨query, read⟩ := read_of_findMany found
  obtain ⟨accepted, documents, total, run, rfl⟩ := (findMany_eq_ok stored read).1 found
  obtain ⟨noSkip, noLimit⟩ : (query.getD {}).skip.getD 0 ≤ 0 ∧
      (query.getD {}).limit.getD 0 ≤ 0 := by
    cases query with
    | none => exact ⟨Int.le_refl 0, Int.le_refl 0⟩
    | some q => exact unpaged q read
  have length := length_found run noSkip noLimit
  have pages (skip limit : Option Int) :
      (r.findMany (input.paged skip limit) caller w).1 =
        .ok { documents := Pipeline.cut skip limit (documents.map r.identity.toExternal)
              total := .int total } := by
    have page := results_page run noSkip noLimit skip limit
    refine (findMany_eq_ok stored (QueryInput.read_paged read skip limit)).2
      ⟨accepted, _, _, page, ?_⟩
    rw [Pipeline.cut_map]
  refine ⟨?_, ?_, pages, fun size count positive enough => ?_⟩
  · simp only [List.length_map, length]
  · obtain ⟨filter, shape, kept, shaped, filtered, shapes, keeps, -, -, rfl⟩ :=
      results_eq_ok.1 run
    rw [Plan.filterStages_congr (QueryInput.toFilter_clause_of_read read)] at filtered
    exact (count_eq_ok stored).2 ⟨accepted, filter, kept, filtered, keeps, rfl⟩
  · simp only [pages]
    refine ⟨_, List.mapM_pure, ?_⟩
    rw [List.flatMap_map]
    exact (Pipeline.flatMap_cut positive count _).trans (List.take_of_length_le enough)

/-- The two notes with a rank, and the second of them on a page of its own. -/
theorem findMany_pages_ranked :
    ∃ page, (notes.findMany (.built ranked) none notebook).1 = .ok page ∧
      page.documents.map (fun d => (Value.field "id" d).text) = ["c", "a"] ∧
      (notes.count (QueryInput.built ranked).clause none notebook).1 = .ok page.total ∧
      (notes.findMany ((QueryInput.built ranked).paged (some 1) (some 5)) none notebook).1 =
        .ok { page with documents := Pipeline.cut (some 1) (some 5) page.documents } := by
  have returns : ((notes.findMany (.built ranked) none notebook).1.toOption.map fun page =>
      page.documents.map fun d => (Value.field "id" d).text) = some ["c", "a"] := by
    decide +kernel
  obtain ⟨page, found, identifiers⟩ := Except.exists_ok_of_map returns
  have unpaged : ∀ q, (QueryInput.built ranked).read = .ok (some q) →
      q.skip.getD 0 ≤ 0 ∧ q.limit.getD 0 ≤ 0 := by
    intro q read
    obtain rfl := Option.some.inj (Except.ok.inj read)
    decide
  obtain ⟨-, counted, pages, -⟩ := findMany_pages rfl unpaged found
  exact ⟨page, found, identifiers, counted, pages (some 1) (some 5)⟩

end Docbase.Repository
