import Docbase.Proofs.Memory.Consistency
import Docbase.Proofs.Repository.Agreement
import Docbase.Proofs.Repository.Selection
import Docbase.Proofs.Value.Scalar

/-!
# Selecting by a value

A condition that is a truth value, a number or a text asks for a value of its kind that is equal to
it. The order of stores decides, and to it a NaN is level with every number, so between numbers the
condition is equality as long as neither is a NaN.

* `Filter.holds_value`: what such a filter tests.
* `Memory.World.selects_by_value`: what is counted, updated and deleted by a value holds the value.
* `Memory.World.selects_notANumber`: a delete by a number that takes a NaN.
-/

namespace Docbase

namespace Document

variable {d : Document} {path : String} {v : Value}

def anyAt (path : String) (p : Value → Bool) (d : Document) : Bool :=
  ((Value.doc d).get path).toOption.any fun x => (Filter.candidates x).any p

/-- Whether what the path leads to, or one of its items if it is a list, equals a value. -/
def showsAt (path : String) (v : Value) (d : Document) : Bool := d.anyAt path (·.equals v)

theorem anyAt_iff {p : Value → Bool} : d.anyAt path p = true ↔
    ∃ x, (Value.doc d).get path = .ok x ∧ ∃ c ∈ Filter.candidates x, p c = true := by
  unfold anyAt
  cases (Value.doc d).get path with
  | error misuse => simp [Except.toOption]
  | ok x => simp [Except.toOption]

end Document

namespace Filter

variable {d : Document} {x v : Value} {path : String}

theorem isEqual_eq_any (basic : v.isBasic = true) : isEqual x v =
    (candidates x).any fun c => c.rank == v.rank && c.compare v == .eq := by
  cases v <;> first | rfl | cases basic

theorem meets_of_isBasic (basic : v.isBasic = true) : meets x v = .ok (isEqual x v) := by
  cases v with
  | bool | int | double | str => rw [meets] <;> simp
  | _ => cases basic

theorem isEqual_of_isBasic (basic : v.isBasic = true) (number : v.isNaN = false)
    (numbers : (candidates x).any Value.isNaN = false) :
    isEqual x v = (candidates x).any fun c => c.rank == v.rank && c.equals v := by
  rw [isEqual_eq_any basic, Bool.eq_iff_iff, List.any_eq_true, List.any_eq_true]
  refine exists_congr fun c => and_congr_right fun mem => ?_
  have counts := Bool.eq_false_iff.2 (List.any_eq_false.1 numbers c mem)
  simp only [Bool.and_eq_true, beq_iff_eq]
  refine and_congr_right fun level => ?_
  rw [Value.compare_eq_iff basic level]
  simp [counts, number]

theorem holds_value_iff (basic : v.isBasic = true) (field : isOperator path = false)
    (number : v.isNaN = false) (numbers : d.anyAt path Value.isNaN = false) :
    holds (.doc d) (.doc [(path, v)]) = .ok true ↔
      d.anyAt path (fun c => c.rank == v.rank && c.equals v) = true := by
  have plain : Connective.ofKey? path = none := by
    cases known : Connective.ofKey? path with
    | none => rfl
    | some connective =>
      rw [isOperator_of_ofKey? known] at field
      cases field
  rw [holds, holdsFields_path plain field]
  unfold Document.anyAt at numbers ⊢
  cases read : (Value.doc d).get path with
  | error misuse => constructor <;> intro h <;> cases h
  | ok x =>
    rw [read] at numbers
    change (do if ← meets x v then holdsFields _ [] else return false) = _ ↔ _
    rw [meets_of_isBasic basic, isEqual_of_isBasic basic number numbers]
    simp only [Except.toOption, Option.any_some]
    cases (candidates x).any fun c => c.rank == v.rank && c.equals v with
    | true => exact ⟨fun _ => rfl, fun _ => rfl⟩
    | false => constructor <;> intro h <;> cases h

theorem elements_of_isBasic (basic : v.isBasic = true) (more : v ≠ .str "") :
    (∃ failure, elements v = .error failure) ∨
      ∃ item rest failure, elements v = .ok (item :: rest) ∧ holdsPlain item = .error failure := by
  cases v with
  | bool | int | double => exact .inl ⟨_, rfl⟩
  | str s =>
    cases chars : s.toList with
    | nil => exact absurd (congrArg Value.str (String.toList_eq_nil_iff.1 chars)) more
    | cons c rest =>
      have items : elements (.str s) =
          .ok ((c :: rest).map fun c => .str (String.singleton c)) := by
        rw [← chars]
        rfl
      have word : (Value.str (String.singleton c)).truthy = true := by simp [Value.truthy]
      exact .inr ⟨_, _, _, items, if_pos word⟩
  | _ => cases basic

theorem holds_connective (basic : v.isBasic = true) (more : v ≠ .str "")
    {connective : Connective} (known : Connective.ofKey? path = some connective) :
    holds (.doc d) (.doc [(path, v)]) ≠ .ok true := by
  have list (items : List Value) : v ≠ .list items ∧ v ≠ .tuple items := by
    cases v <;> simp_all [Value.isBasic]
  intro h
  rw [holds, holdsFields.eq_def] at h
  cases connective <;> simp [known, list] at h
  all_goals
    obtain ⟨items, read, tested⟩ := Except.bind_eq_ok.1 h
    rcases elements_of_isBasic basic more with ⟨failure, run⟩ | ⟨item, rest, failure, run, here⟩
    · rw [run] at read
      cases read
    · rw [run] at read
      obtain rfl := Except.ok.inj read
      first | rw [List.allM, here] at tested | rw [List.anyM, here] at tested
      cases tested

theorem showsAt_of_holds (basic : v.isBasic = true)
    (plain : Connective.ofKey? path = none ∨ v ≠ .str "") (number : v.isNaN = false)
    (numbers : d.anyAt path Value.isNaN = false)
    (h : holds (.doc d) (.doc [(path, v)]) = .ok true) : d.showsAt path v = true := by
  cases operator : isOperator path with
  | false =>
    have held := (holds_value_iff basic operator number numbers).1 h
    obtain ⟨x, read, c, mem, shown⟩ := Document.anyAt_iff.1 held
    exact Document.anyAt_iff.2 ⟨x, read, c, mem, (Bool.and_eq_true _ _ ▸ shown).2⟩
  | true =>
    cases known : Connective.ofKey? path with
    | none =>
      rw [holds, holdsFields_operator known operator] at h
      cases h
    | some connective =>
      exact absurd h (holds_connective basic (plain.resolve_left (by simp [known])) known)

end Filter

namespace Memory.World

variable {w : World} {store name path : String} {filter v : Value} {r : Value × Document}

theorem stays_of_refused (table : ((w.contents store).collection name).IsTable)
    (mem : r ∈ ((w.contents store).collection name).records)
    (refused : Filter.holds (.doc r.2) filter ≠ .ok true) (caller : Option SessionId) :
    r ∈ (((delete store name filter caller w).2.contents store).collection name).records ∧
      ∀ patch, r ∈
        (((update store name filter patch caller w).2.contents store).collection name).records := by
  have stays : (w.contents store).HasRecord name r := table.stays mem
  have deleting : Action.Preserves (fun w => (w.contents store).HasRecord name r)
      (delete store name filter caller) :=
    (preserves_check store caller).bind fun _ =>
      preserves_onContents fun _ => Contents.preserves_stays_delete refused
  refine ⟨(deleting w stays).mem, fun patch => ?_⟩
  have updating : Action.Preserves (fun w => (w.contents store).HasRecord name r)
      (update store name filter patch caller) :=
    (preserves_check store caller).bind fun _ =>
      preserves_onContents fun _ => Contents.preserves_stays_update refused
  exact (updating w stays).mem

theorem count_returns {n : Nat} {caller : Option SessionId}
    (run : (count store name filter caller w).1 = .ok n) :
    n = ((w.contents store).documents name).countP fun d =>
      Except.accepts (Filter.holds (.doc d) filter) := by
  unfold count at run
  rw [check_reading_apply] at run
  cases allowed : w.refusal store caller with
  | some failure =>
    rw [allowed] at run
    cases run
  | none =>
    rw [allowed] at run
    obtain ⟨found, selected, run⟩ := Except.bind_eq_ok.1 run
    obtain ⟨-, rfl⟩ := Except.filterM_eq_ok.1 selected
    rw [← Except.pure_eq_ok.1 run, List.countP_eq_length_filter]

/-- A filter by a truth value, a number or a text selects no document that does not hold it, as long
as no NaN is met: none is counted, deleted or updated by it. -/
theorem selects_by_value (table : ((w.contents store).collection name).IsTable)
    (basic : v.isBasic = true) (plain : Filter.Connective.ofKey? path = none ∨ v ≠ .str "")
    (number : v.isNaN = false) :
    (∀ d : Document, d.anyAt path Value.isNaN = false →
      Filter.holds (.doc d) (.doc [(path, v)]) = .ok true → d.showsAt path v = true) ∧
    (∀ caller n, (count store name (.doc [(path, v)]) caller w).1 = .ok n →
      (∀ d ∈ (w.contents store).documents name, d.anyAt path Value.isNaN = false) →
        n ≤ ((w.contents store).documents name).countP (·.showsAt path v)) ∧
    ∀ r ∈ ((w.contents store).collection name).records, r.2.anyAt path Value.isNaN = false →
      r.2.showsAt path v = false → ∀ caller,
        r ∈ (((delete store name (.doc [(path, v)]) caller w).2.contents store).collection
          name).records ∧
        ∀ patch, r ∈ (((update store name (.doc [(path, v)]) patch caller w).2.contents
          store).collection name).records := by
  have shows (d : Document) := Filter.showsAt_of_holds (d := d) basic plain number
  refine ⟨shows, ?_, ?_⟩
  · intro caller n counted numbers
    rw [count_returns counted]
    refine List.countP_mono_left fun d mem accepted => shows d (numbers d mem) ?_
    cases answer : Filter.holds (.doc d) (.doc [(path, v)]) with
    | error failure =>
      rw [answer] at accepted
      cases accepted
    | ok held =>
      rw [answer] at accepted
      exact congrArg Except.ok accepted
  · intro r mem numbers other
    refine stays_of_refused table mem fun held => ?_
    rw [shows r.2 numbers held] at other
    cases other

def gauges : World :=
  let gauge (id : String) (level : Value) : Value := .doc [("_id", .str id), ("level", level)]
  let five : Double := .finite false (5 * unitsPerOne)
  (empty true).replay [.write "main" (.insertAll "gauges"
    [gauge "g1" (.int 5), gauge "g2" (.list [.double (.infinite false), .double five]),
      gauge "g3" (.double (.nan 0)), gauge "g4" (.bool true)] true) none]

theorem gauges_consistent : gauges.Consistent := by
  apply replay_preserves (fun _ _ proper h => h.after proper) _ (consistent_empty true)
  decide

/-- The gauge with a mark is not at five, and stays when those at five are deleted. -/
theorem selects_by_value_gauges :
    let c := (gauges.contents "main").collection "gauges"
    let five : Value := .doc [("level", .int 5)]
    c.IsTable ∧ (Value.int 5).isBasic = true ∧ Filter.Connective.ofKey? "level" = none ∧
      (Value.int 5).isNaN = false ∧ ∃ r ∈ c.records, r.1.text = "g4" ∧
        r.2.anyAt "level" Value.isNaN = false ∧ r.2.showsAt "level" (.int 5) = false ∧
        r ∈ (((delete "main" "gauges" five none gauges).2.contents "main").collection
          "gauges").records := by
  intro c five
  have table : c.IsTable := (gauges_consistent.contents "main" "gauges").isTable
  obtain ⟨r, mem, key, numbers, other⟩ : ∃ r ∈ c.records, r.1.text = "g4" ∧
      r.2.anyAt "level" Value.isNaN = false ∧ r.2.showsAt "level" (.int 5) = false := by
    decide +kernel
  have plain : Filter.Connective.ofKey? "level" = none := rfl
  obtain ⟨-, -, stays⟩ := selects_by_value (v := .int 5) table rfl (.inl plain) rfl
  exact ⟨table, rfl, plain, rfl, r, mem, key, numbers, other, (stays r mem numbers other none).1⟩

/-- A gauge at no number is selected by every number: a delete of the gauges at five takes it. -/
theorem selects_notANumber :
    let d : Document := [("_id", .str "g3"), ("level", .double (.nan 0))]
    let five : Value := .doc [("level", .int 5)]
    (Filter.holds (.doc d) five).toOption = some true ∧ d.showsAt "level" (.int 5) = false ∧
      (((delete "main" "gauges" five none gauges).2.contents "main").collection
        "gauges").records.map (fun r => r.1.text) = ["g4"] := by
  decide +kernel

end Memory.World
end Docbase
