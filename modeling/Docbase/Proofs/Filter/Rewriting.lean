import Docbase.Proofs.Filter
import Mathlib.Logic.Relation

/-!
# Rewriting filters

A filter can be taken apart: several conditions become a conjunction of single ones, and so do
several operators on one path; `$in`, `$nin`, `$ne` and `$not` become connectives of what they
stand for. Operators that share a `$regex` with its `$options` stay together.

* `Filter.Rewrites` is one such step, at any depth below connectives.
* `Filter.Rewrites.weight_lt`: each step makes a filter lighter, so that rewriting comes to an end.
* `Filter.holds_rewritten`: a filter that has been rewritten comes to the same on every document
  that its paths can be read on, be it an answer or a failure.
-/

namespace Docbase.Filter

/-! ## Single conditions -/

section
variable {d v : Value} {key path : String} {field : String × Value}
  {rest operators : List (String × Value)} {options options' : Option Value} {items : List Value}

theorem plain_of_field (field : isOperator path = false) : Connective.ofKey? path = none := by
  cases known : Connective.ofKey? path with
  | none => rfl
  | some connective =>
    rw [isOperator_of_ofKey? known] at field
    cases field

theorem bind_true_or (x : Except Failure Bool) :
    (do if ← x then .ok true else return false) = x := by
  rcases x with e | b
  · rfl
  · cases b <;> rfl

theorem holdsFields_cons : holdsFields d (field :: rest) =
    (do if ← holds d (.doc [field]) then holdsFields d rest else return false) := by
  obtain ⟨key, condition⟩ := field
  rw [holds, holdsFields.eq_def, holdsFields.eq_def d [(key, condition)]]
  simp only [holdsFields_nil, bind_true_or]

theorem holdsFields_eq_holdsEvery (fields : Document) :
    holdsFields d fields = holdsEvery d (fields.map fun field => .doc [field]) := by
  induction fields with
  | nil => rw [holdsFields_nil, List.map_nil, holdsEvery]
  | cons field rest ih => rw [holdsFields_cons, List.map_cons, holdsEvery, ih]

theorem holds_single_list {connective : Connective}
    (known : Connective.ofKey? key = some connective) (filters : List Value) :
    holds d (.doc [(key, .list filters)]) = holdsList d connective filters := by
  rw [holds, holdsFields_list known, holdsFields_nil, bind_true_or]

theorem holds_single_path (field : isOperator path = false) (read : d.get path = .ok v)
    (condition : Value) : holds d (.doc [(path, condition)]) = meets v condition := by
  rw [holds, holdsFields_path (plain_of_field field) field, holdsFields_nil, read]
  exact bind_true_or (meets v condition)

theorem holdsSome_singleton (filter : Value) : holdsSome d [filter] = holds d filter := by
  rw [holdsSome, holdsSome]
  rcases holds d filter with e | b
  · rfl
  · cases b <;> rfl

theorem holdsSome_conditions (field : isOperator path = false) (read : d.get path = .ok v) :
    holdsSome d (items.map fun condition => .doc [(path, condition)]) = meetsSome v items := by
  induction items with
  | nil => simp [holdsSome, meetsSome]
  | cons condition rest ih =>
    rw [List.map_cons, holdsSome, meetsSome, holds_single_path field read, ih]

/-! ## Single operators -/

theorem isOperators_singleton (operator : isOperator key = true) (operand : Value) :
    isOperators [(key, operand)] = true := by
  simp [isOperators, operator]

theorem meetsOperators_nil : meetsOperators v options [] = .ok true := rfl

theorem meetsOperators_cons : meetsOperators v options (field :: rest) =
    (do if ← meetsOperators v options [field] then meetsOperators v options rest
        else return false) := by
  obtain ⟨key, operand⟩ := field
  rw [meetsOperators.eq_def, meetsOperators.eq_def v options [(key, operand)]]
  simp only [meetsOperators_nil, bind_true_or]

theorem isOperators_of_forall (some : 2 ≤ operators.length)
    (all : ∀ o ∈ operators, isOperator o.1 = true) : isOperators operators = true := by
  rw [isOperators, Bool.and_eq_true, List.all_eq_true]
  refine ⟨?_, all⟩
  cases operators with
  | nil => simp at some
  | cons first rest => rfl

theorem meetsOperators_options (plain : key ≠ "$regex") (operand : Value) :
    meetsOperators v options [(key, operand)] = meetsOperators v options' [(key, operand)] := by
  have other : Operator.ofKey? key ≠ some .regex := by
    unfold Operator.ofKey?
    split <;> simp_all
  rw [meetsOperators.eq_def, meetsOperators.eq_def v options' [(key, operand)]]
  simp only [meetsOperators_nil]
  cases known : Operator.ofKey? key with
  | none => rfl
  | some operator => cases operator <;> first | rfl | exact absurd known other

theorem meetsOperators_eq_holdsEvery (field : isOperator path = false)
    (read : d.get path = .ok v) (all : ∀ o ∈ operators, isOperator o.1 = true)
    (plain : ∀ o ∈ operators, o.1 ≠ "$regex") :
    meetsOperators v options operators =
      holdsEvery d (operators.map fun operator => .doc [(path, .doc [operator])]) := by
  induction operators with
  | nil => rw [meetsOperators_nil, List.map_nil, holdsEvery]
  | cons operator rest ih =>
    obtain ⟨here, there⟩ := List.forall_mem_cons.1 all
    obtain ⟨plainHere, plainThere⟩ := List.forall_mem_cons.1 plain
    have first : holds d (.doc [(path, .doc [operator])]) =
        meetsOperators v options [operator] := by
      rw [holds_single_path field read, meets, if_pos (isOperators_singleton here _)]
      exact meetsOperators_options plainHere _
    rw [meetsOperators_cons, List.map_cons, holdsEvery, first, ih there plainThere]

end

section
variable (v operand : Value) (items : List Value)

theorem meets_among : meets v (.doc [("$in", .list items)]) = meetsSome v items := by
  rw [meets, if_pos (isOperators_singleton (by decide) _), meetsOperators.eq_def]
  exact bind_true_or (meetsSome v items)

theorem meets_notAmong :
    meets v (.doc [("$nin", .list items)]) = Bool.not <$> meetsSome v items := by
  rw [meets, if_pos (isOperators_singleton (by decide) _), meetsOperators.eq_def]
  exact bind_true_or (Bool.not <$> meetsSome v items)

theorem meets_equal : meets v (.doc [("$eq", operand)]) = .ok (isEqual v operand) := by
  rw [meets, if_pos (isOperators_singleton (by decide) _), meetsOperators.eq_def]
  exact bind_true_or (.ok (isEqual v operand))

theorem meets_unequal : meets v (.doc [("$ne", operand)]) = .ok (!isEqual v operand) := by
  rw [meets, if_pos (isOperators_singleton (by decide) _), meetsOperators.eq_def]
  exact bind_true_or (.ok (!isEqual v operand))

theorem meets_not : meets v (.doc [("$not", operand)]) = Bool.not <$> meets v operand := by
  rw [meets, if_pos (isOperators_singleton (by decide) _), meetsOperators.eq_def]
  exact bind_true_or (Bool.not <$> meets v operand)

end

/-! ## Steps -/

/-- A step in the rewriting of a filter: of a mapping as a whole, or of a filter in the list of a
connective. -/
inductive Rewrites : Value → Value → Prop
  | conditions {fields : Document} (several : 2 ≤ fields.length) :
    Rewrites (.doc fields) (.doc [("$and", .list (fields.map fun field => .doc [field]))])
  | operators {path : String} {operators : Document} (field : isOperator path = false)
      (several : 2 ≤ operators.length) (all : ∀ o ∈ operators, isOperator o.1 = true)
      (plain : ∀ o ∈ operators, o.1 ≠ "$regex" ∧ o.1 ≠ "$options") :
    Rewrites (.doc [(path, .doc operators)])
      (.doc [("$and", .list (operators.map fun operator => .doc [(path, .doc [operator])]))])
  | among {path : String} (field : isOperator path = false) (items : List Value) :
    Rewrites (.doc [(path, .doc [("$in", .list items)])])
      (.doc [("$or", .list (items.map fun v => .doc [(path, v)]))])
  | notAmong {path : String} (field : isOperator path = false) (items : List Value) :
    Rewrites (.doc [(path, .doc [("$nin", .list items)])])
      (.doc [("$nor", .list (items.map fun v => .doc [(path, v)]))])
  | unequal {path : String} (field : isOperator path = false) (v : Value) :
    Rewrites (.doc [(path, .doc [("$ne", v)])])
      (.doc [("$nor", .list [.doc [(path, .doc [("$eq", v)])]])])
  | not {path : String} (field : isOperator path = false) (v : Value) :
    Rewrites (.doc [(path, .doc [("$not", v)])]) (.doc [("$nor", .list [.doc [(path, v)]])])
  | within {key : String} {connective : Connective} {filter other : Value}
      (known : Connective.ofKey? key = some connective) (step : Rewrites filter other)
      (before after : Document) (left right : List Value) :
    Rewrites (.doc (before ++ (key, .list (left ++ filter :: right)) :: after))
      (.doc (before ++ (key, .list (left ++ other :: right)) :: after))

abbrev RewritesTo : Value → Value → Prop := Relation.ReflTransGen Rewrites

/-! ## An end of rewriting -/

def isRewritten (key : String) : Bool := ["$in", "$nin", "$ne", "$not"].contains key

mutual

/-- How many steps a filter can be rewritten by at most. -/
def weight : Value → Nat
  | .list items => itemsWeight items
  | .doc fields => fieldsWeight fields + (fields.length - 1)
  | _ => 0

def itemsWeight : List Value → Nat
  | [] => 0
  | v :: rest => weight v + itemsWeight rest

def fieldsWeight : List (String × Value) → Nat
  | [] => 0
  | (key, v) :: rest => (if isRewritten key then 1 else 0) + weight v + fieldsWeight rest

end

theorem itemsWeight_append (left right : List Value) :
    itemsWeight (left ++ right) = itemsWeight left + itemsWeight right := by
  induction left with
  | nil => simp [itemsWeight]
  | cons v rest ih => simp only [List.cons_append, itemsWeight, ih, Nat.add_assoc]

theorem fieldsWeight_append (before after : Document) :
    fieldsWeight (before ++ after) = fieldsWeight before + fieldsWeight after := by
  induction before with
  | nil => simp [fieldsWeight]
  | cons field rest ih => simp only [List.cons_append, fieldsWeight, ih, Nat.add_assoc]

theorem itemsWeight_singles (fields : Document) :
    itemsWeight (fields.map fun field => .doc [field]) = fieldsWeight fields := by
  induction fields with
  | nil => rfl
  | cons field rest ih => simp [itemsWeight, fieldsWeight, weight, ih]

theorem isRewritten_of_field {path : String} (field : isOperator path = false) :
    isRewritten path = false := by
  by_contra rewritten
  simp only [isRewritten, Bool.not_eq_false, List.contains_iff_mem, List.mem_cons,
    List.not_mem_nil, or_false] at rewritten
  rcases rewritten with rfl | rfl | rfl | rfl <;> exact absurd field (by decide)

theorem itemsWeight_conditions {path : String} (field : isOperator path = false)
    (items : List Value) :
    itemsWeight (items.map fun v => .doc [(path, v)]) = itemsWeight items := by
  induction items with
  | nil => rfl
  | cons v rest ih =>
    simp [itemsWeight, fieldsWeight, weight, isRewritten_of_field field, ih]

theorem itemsWeight_operators {path : String} (field : isOperator path = false)
    (operators : Document) :
    itemsWeight (operators.map fun operator => .doc [(path, .doc [operator])]) =
      fieldsWeight operators := by
  have inner := itemsWeight_conditions field (operators.map fun operator => .doc [operator])
  rw [itemsWeight_singles, List.map_map] at inner
  exact inner

theorem Rewrites.weight_lt {filter other : Value} (h : Rewrites filter other) :
    weight other < weight filter := by
  have and : isRewritten "$and" = false := by decide
  have or : isRewritten "$or" = false := by decide
  have nor : isRewritten "$nor" = false := by decide
  induction h with
  | conditions several =>
    simp only [weight, fieldsWeight, itemsWeight_singles, and]
    simp
    omega
  | operators field several all plain =>
    simp only [weight, fieldsWeight, itemsWeight_operators field, and, isRewritten_of_field field]
    simp
    omega
  | among field items =>
    have rewritten : isRewritten "$in" = true := by decide
    simp [weight, fieldsWeight, itemsWeight_conditions field, isRewritten_of_field field, or,
      rewritten]
  | notAmong field items =>
    have rewritten : isRewritten "$nin" = true := by decide
    simp [weight, fieldsWeight, itemsWeight_conditions field, isRewritten_of_field field, nor,
      rewritten]
  | unequal field v =>
    have rewritten : isRewritten "$ne" = true := by decide
    have kept : isRewritten "$eq" = false := by decide
    simp [weight, fieldsWeight, itemsWeight, isRewritten_of_field field, nor, rewritten, kept]
  | not field v =>
    have rewritten : isRewritten "$not" = true := by decide
    simp [weight, fieldsWeight, itemsWeight, isRewritten_of_field field, nor, rewritten]
  | within known step before after left right ih =>
    simp only [weight, fieldsWeight_append, fieldsWeight, itemsWeight_append, itemsWeight,
      List.length_append, List.length_cons]
    omega

theorem exists_normal (filter : Value) :
    ∃ normal, RewritesTo filter normal ∧ ∀ other, ¬Rewrites normal other := by
  by_cases done : ∀ other, ¬Rewrites filter other
  · exact ⟨filter, .refl, done⟩
  · obtain ⟨other, step⟩ := not_forall_not.1 done
    have lighter := step.weight_lt
    obtain ⟨normal, steps, stops⟩ := exists_normal other
    exact ⟨normal, .head step steps, stops⟩
termination_by weight filter

/-! ## Paths -/

/-- Whether the paths of a mapping can be read on a document. -/
def readsOn (d : Value) (fields : Document) : Bool :=
  fields.all fun field => isOperator field.1 || (d.get field.1).isOk

section
variable {p : Document → Bool} {d filter other : Value} {path : String}

theorem everyMappingOf_append (before after : Document) :
    everyMappingOf p (before ++ after) = (everyMappingOf p before && everyMappingOf p after) := by
  induction before with
  | nil => simp [everyMappingOf]
  | cons field rest ih =>
    obtain ⟨key, v⟩ := field
    cases v <;> simp only [List.cons_append, everyMappingOf, ih, Bool.and_assoc]

theorem everyMappingIn_iff {items : List Value} :
    everyMappingIn p items = true ↔ ∀ v ∈ items, everyMapping p v = true := by
  induction items with
  | nil => simp [everyMappingIn]
  | cons v rest ih => simp [everyMappingIn, ih]

theorem isConnective_of_field (field : isOperator path = false) :
    Identity.isConnective path = false := by
  rw [← isSome_ofKey?, plain_of_field field]
  rfl

theorem everyMapping_single_path (field : isOperator path = false) (condition : Value) :
    everyMapping (readsOn d) (.doc [(path, condition)]) = (d.get path).isOk := by
  have below : everyMappingOf (readsOn d) [(path, condition)] = true := by
    cases condition <;> simp [everyMappingOf, isConnective_of_field field]
  simp [everyMapping, below, readsOn, field]

theorem everyMapping_single_list {connective : Connective} {key : String}
    (known : Connective.ofKey? key = some connective) (items : List Value) :
    everyMapping (readsOn d) (.doc [(key, .list items)]) = everyMappingIn (readsOn d) items := by
  have listed : Identity.isConnective key = true := by
    rw [← isSome_ofKey?, known]
    rfl
  simp [everyMapping, everyMappingOf, readsOn, isOperator_of_ofKey? known, listed]

theorem everyMapping_singles {fields : Document} :
    everyMapping (readsOn d) (.doc fields) = true ↔
      ∀ field ∈ fields, everyMapping (readsOn d) (.doc [field]) = true := by
  induction fields with
  | nil => simp [everyMapping, everyMappingOf, readsOn]
  | cons field rest ih =>
    have split : everyMapping (readsOn d) (.doc (field :: rest)) = true ↔
        everyMapping (readsOn d) (.doc [field]) = true ∧
          everyMapping (readsOn d) (.doc rest) = true := by
      have below := everyMappingOf_append (p := readsOn d) [field] rest
      rw [List.singleton_append] at below
      simp only [everyMapping, below, readsOn, List.all_cons, List.all_nil, Bool.and_true,
        Bool.and_eq_true]
      exact and_and_and_comm
    rw [split, ih, List.forall_mem_cons]

theorem Rewrites.readable (h : Rewrites filter other)
    (readable : everyMapping (readsOn d) filter = true) :
    everyMapping (readsOn d) other = true := by
  have and : Connective.ofKey? "$and" = some .and := rfl
  have or : Connective.ofKey? "$or" = some .or := rfl
  have nor : Connective.ofKey? "$nor" = some .nor := rfl
  induction h with
  | conditions several =>
    rw [everyMapping_single_list and, everyMappingIn_iff, List.forall_mem_map]
    exact everyMapping_singles.1 readable
  | operators field several all plain =>
    rw [everyMapping_single_path field] at readable
    rw [everyMapping_single_list and, everyMappingIn_iff, List.forall_mem_map]
    intro operator mem
    rw [everyMapping_single_path field, readable]
  | among field items =>
    rw [everyMapping_single_path field] at readable
    rw [everyMapping_single_list or, everyMappingIn_iff, List.forall_mem_map]
    intro v mem
    rw [everyMapping_single_path field, readable]
  | notAmong field items =>
    rw [everyMapping_single_path field] at readable
    rw [everyMapping_single_list nor, everyMappingIn_iff, List.forall_mem_map]
    intro v mem
    rw [everyMapping_single_path field, readable]
  | unequal field v =>
    rw [everyMapping_single_path field] at readable
    rw [everyMapping_single_list nor, everyMappingIn_iff, List.forall_mem_singleton,
      everyMapping_single_path field, readable]
  | not field v =>
    rw [everyMapping_single_path field] at readable
    rw [everyMapping_single_list nor, everyMappingIn_iff, List.forall_mem_singleton,
      everyMapping_single_path field, readable]
  | within known step before after left right ih =>
    rw [everyMapping_singles, List.forall_mem_append, List.forall_mem_cons,
      everyMapping_single_list known, everyMappingIn_iff, List.forall_mem_append,
      List.forall_mem_cons] at readable ⊢
    obtain ⟨early, ⟨first, here, last⟩, late⟩ := readable
    exact ⟨early, ⟨first, ih here, last⟩, late⟩

end

/-! ## What rewriting keeps -/

section
variable {d filter other : Value} {path : String}

theorem holdsFields_congr {field field' : String × Value} (after : Document)
    (same : holds d (.doc [field']) = holds d (.doc [field])) (before : Document) :
    holdsFields d (before ++ field' :: after) = holdsFields d (before ++ field :: after) := by
  induction before with
  | nil =>
    rw [List.nil_append, List.nil_append, holdsFields_cons, same, ← holdsFields_cons]
  | cons first rest ih =>
    rw [List.cons_append, List.cons_append, holdsFields_cons, ih, ← holdsFields_cons]

theorem holdsEvery_congr (right : List Value) (same : holds d other = holds d filter)
    (left : List Value) :
    holdsEvery d (left ++ other :: right) = holdsEvery d (left ++ filter :: right) := by
  induction left with
  | nil => rw [List.nil_append, List.nil_append, holdsEvery, holdsEvery, same]
  | cons first rest ih => rw [List.cons_append, List.cons_append, holdsEvery, holdsEvery, ih]

theorem holdsSome_congr (right : List Value) (same : holds d other = holds d filter)
    (left : List Value) :
    holdsSome d (left ++ other :: right) = holdsSome d (left ++ filter :: right) := by
  induction left with
  | nil => rw [List.nil_append, List.nil_append, holdsSome, holdsSome, same]
  | cons first rest ih => rw [List.cons_append, List.cons_append, holdsSome, holdsSome, ih]

theorem holdsList_congr (connective : Connective) (left right : List Value)
    (same : holds d other = holds d filter) :
    holdsList d connective (left ++ other :: right) =
      holdsList d connective (left ++ filter :: right) := by
  cases connective with
  | and => exact holdsEvery_congr right same left
  | or => exact holdsSome_congr right same left
  | nor => exact congrArg (Bool.not <$> ·) (holdsSome_congr right same left)

theorem Rewrites.holds_eq (h : Rewrites filter other)
    (readable : everyMapping (readsOn d) filter = true) : holds d other = holds d filter := by
  have and : Connective.ofKey? "$and" = some .and := rfl
  have or : Connective.ofKey? "$or" = some .or := rfl
  have nor : Connective.ofKey? "$nor" = some .nor := rfl
  induction h with
  | @conditions fields several =>
    rw [holds_single_list and, holds]
    exact (holdsFields_eq_holdsEvery fields).symm
  | operators field several all plain =>
    -- Without patterns there are no options to share, so each operator says the same on its own.
    rw [everyMapping_single_path field] at readable
    obtain ⟨v, read⟩ := Except.exists_ok readable
    rw [holds_single_list and, holds_single_path field read, meets,
      if_pos (isOperators_of_forall several all)]
    exact (meetsOperators_eq_holdsEvery field read all fun o mem => (plain o mem).1).symm
  | among field items =>
    rw [everyMapping_single_path field] at readable
    obtain ⟨v, read⟩ := Except.exists_ok readable
    rw [holds_single_list or, holds_single_path field read, meets_among]
    exact holdsSome_conditions field read
  | notAmong field items =>
    rw [everyMapping_single_path field] at readable
    obtain ⟨v, read⟩ := Except.exists_ok readable
    rw [holds_single_list nor, holds_single_path field read, meets_notAmong]
    exact congrArg (Bool.not <$> ·) (holdsSome_conditions field read)
  | unequal field operand =>
    rw [everyMapping_single_path field] at readable
    obtain ⟨v, read⟩ := Except.exists_ok readable
    rw [holds_single_list nor, holds_single_path field read, meets_unequal, holdsList,
      holdsSome_singleton, holds_single_path field read, meets_equal]
    rfl
  | not field operand =>
    rw [everyMapping_single_path field] at readable
    obtain ⟨v, read⟩ := Except.exists_ok readable
    rw [holds_single_list nor, holds_single_path field read, meets_not, holdsList,
      holdsSome_singleton, holds_single_path field read]
  | within known step before after left right ih =>
    rw [everyMapping_singles, List.forall_mem_append, List.forall_mem_cons,
      everyMapping_single_list known, everyMappingIn_iff, List.forall_mem_append,
      List.forall_mem_cons] at readable
    obtain ⟨-, ⟨-, here, -⟩, -⟩ := readable
    rw [holds, holds]
    refine holdsFields_congr after ?_ before
    rw [holds_single_list known, holds_single_list known]
    exact holdsList_congr _ left right (ih here)

/-- Rewriting keeps what a filter comes to on a document that its paths can be read on, and leads to
a filter that cannot be rewritten. -/
theorem holds_rewritten (readable : everyMapping (readsOn d) filter = true) :
    (∀ other, RewritesTo filter other → holds d other = holds d filter) ∧
      ∃ normal, RewritesTo filter normal ∧ ∀ other, ¬Rewrites normal other := by
  have keeps {other : Value} (steps : RewritesTo filter other) :
      everyMapping (readsOn d) other = true ∧ holds d other = holds d filter := by
    induction steps with
    | refl => exact ⟨readable, rfl⟩
    | tail _ step ih =>
      obtain ⟨readable, same⟩ := ih
      exact ⟨step.readable readable, (step.holds_eq readable).trans same⟩
  exact ⟨fun _ steps => (keeps steps).2, exists_normal filter⟩

end

def catalogued : Value :=
  .doc [("shelf", .doc [("$in", .list [.str "a", .doc [("$gt", .str "m"), ("$lt", .str "p")]]),
      ("$not", .doc [("$exists", .bool false)])]),
    ("$nor", .list [.doc [("by", .doc [("$nin", .list [.str "ann", .null])]),
      ("title", .doc [("$near", .str "x")])]])]

/-- Rewritten as far as it goes, the filter still reaches the operator on the same documents. -/
theorem holds_rewritten_catalogued :
    let ann : Value := .doc [("shelf", .str "n"), ("by", .str "ann")]
    let bob : Value := .doc [("shelf", .str "a"), ("by", .str "bob")]
    everyMapping (readsOn ann) catalogued = true ∧ everyMapping (readsOn bob) catalogued = true ∧
      ∃ normal, RewritesTo catalogued normal ∧ (∀ other, ¬Rewrites normal other) ∧
        holds ann normal = .ok true ∧ holds bob normal = .error (.unsupportedOperator "$near") := by
  intro ann bob
  have readAnn : everyMapping (readsOn ann) catalogued = true := by decide +kernel
  have readBob : everyMapping (readsOn bob) catalogued = true := by decide +kernel
  obtain ⟨keepsAnn, normal, steps, stops⟩ := holds_rewritten readAnn
  obtain ⟨keepsBob, -⟩ := holds_rewritten readBob
  refine ⟨readAnn, readBob, normal, steps, stops, ?_, ?_⟩
  · rw [keepsAnn normal steps]
    with_unfolding_all rfl
  · rw [keepsBob normal steps]
    with_unfolding_all rfl

end Docbase.Filter
