import Docbase.Proofs.Pipeline.Spared

/-!
# Aliases

An alias copies what its source leads to in the document, and the copy is the part itself. All
sources are read before the first alias is written, so aliases do not see each other, except that an
alias with a path behind the source of another one writes into the part that the other one shares.

* `Plan.sourceValue` is the value that an alias copies.
* `Pipeline.addFields_aliases` is the stage that the aliases of a query come to.
* `Pipeline.aliases_copy` says what it leaves behind.
-/

namespace Docbase

open Docbase.Path (Unrelated)

namespace Plan

variable {identity : Identity}

/-- The text of a stored key; a key that is null or absent has none. -/
def keyText : Value → Value
  | .null | .missing => .null
  | v => .str v.text

def sourceExpression (identity : Identity) (source : String) : Value :=
  if source = identity.external then identifierText identity else .str ("$" ++ source)

/-- The value that an alias of a source copies from a document. -/
def sourceValue (identity : Identity) (d : Document) (source : String) : Except Misuse Value :=
  if source = identity.external then ((Value.doc d).get identity.internal).map keyText
  else (Value.doc d).get source

def sourcePart (identity : Identity) (root : Node) (source : String) : Except Misuse Node :=
  if source = identity.external then
    (Node.follow (Path.parts identity.internal) root).map Expression.textOf
  else Node.follow (Path.parts source) root

def aliasesOf (aliases : List (String × String)) : Value :=
  .doc (aliases.map fun a => (a.1, .str a.2))

theorem aliasFields_aliasesOf (identity : Identity) (aliases : List (String × String)) :
    aliasFields identity (aliasesOf aliases) =
      .ok (aliases.map fun a => (a.1, sourceExpression identity a.2)) := by
  cases aliases with
  | nil => rfl
  | cons first rest =>
    have expressed (a : String × String) :
        (a.1, if Value.same (.str a.2) (.str identity.external) then identifierText identity
          else .str ("$" ++ (Value.str a.2).text)) = (a.1, sourceExpression identity a.2) := by
      have same : Value.same (.str a.2) (.str identity.external) = (a.2 == identity.external) :=
        rfl
      simp [sourceExpression, same, Value.text]
    have planned : aliasFields identity (aliasesOf (first :: rest)) =
        .ok (((first :: rest).map fun a => (a.1, Value.str a.2)).map fun a =>
          (a.1, if Value.same a.2 (.str identity.external) then identifierText identity
            else .str ("$" ++ a.2.text))) := rfl
    rw [planned, List.map_map]
    exact congrArg Except.ok (List.map_congr_left fun a _ => expressed a)

theorem textOf_eq (node : Node) : Expression.textOf node = .leaf (keyText node.value) := by
  unfold Expression.textOf keyText
  cases node.value <;> rfl

theorem value_sourcePart (identity : Identity) (d : Document) (source : String) :
    (sourcePart identity (.doc 0 (Draft.ofDocument d).fields) source).map Node.value =
      sourceValue identity d source := by
  have read (path : String) : (Node.follow (Path.parts path) (.doc 0 (Draft.ofDocument d).fields)).map
      Node.value = (Value.doc d).get path := Node.value_follow_ofFields (Path.parts path) d 1
  unfold sourcePart sourceValue
  split
  · rw [← read]
    cases Node.follow (Path.parts identity.internal) (.doc 0 (Draft.ofDocument d).fields) with
    | error misuse => rfl
    | ok node => exact congrArg (fun node => Except.ok node.value) (textOf_eq node)
  · exact read source

/-- The name of an alias goes on behind a source at which a document is shared. -/
def Enters (identity : Identity) (d : Document) (source name : String) : Prop :=
  source ≠ identity.external ∧ Path.parts source <+: Path.parts name ∧
    Path.parts source ≠ Path.parts name ∧
    ∃ inside, (Value.doc d).get source = .ok (.doc inside)

instance (identity : Identity) (d : Document) (source name : String) :
    Decidable (Enters identity d source name) :=
  decidable_of_iff (source ≠ identity.external ∧ Path.parts source <+: Path.parts name ∧
      Path.parts source ≠ Path.parts name ∧
      ((Value.doc d).get source).toOption.any (·.rank == 4) = true) <| by
    unfold Enters
    refine and_congr_right fun _ => and_congr_right fun _ => and_congr_right fun _ => ?_
    cases (Value.doc d).get source with
    | error misuse => simp [Except.toOption]
    | ok v => cases v <;> simp [Except.toOption, Value.rank]

end Plan

namespace Pipeline

open Plan (sourceExpression sourcePart sourceValue)
open Node (follow absent Grown Unshared Through)

variable {identity : Identity} {aliases : List (String × String)} {parts : List (String × Node)}
  {root node : Node} {next next' : Nat} {d : Document} {source : String}

theorem read_eq (path : String) (next : Nat) :
    Expression.read root path next = match follow (Path.parts path) root with
      | .ok node => .ok (node, next)
      | .error misuse => .error (.misuse misuse) := by
  unfold Expression.read
  cases follow (Path.parts path) root <;> rfl

theorem evaluate_source (identity : Identity) (root : Node) (source : String) (next : Nat) :
    Expression.evaluate root (sourceExpression identity source) next =
      match sourcePart identity root source with
      | .ok node => .ok (node, next)
      | .error misuse => .error (.misuse misuse) := by
  unfold sourceExpression sourcePart
  split
  · rw [Plan.identifierText, Expression.evaluate, if_pos rfl, Expression.evaluate,
      Expression.path?_dollar]
    change ((Expression.read root identity.internal next).map fun made =>
      (Expression.textOf made.1, made.2)) = _
    rw [read_eq]
    cases follow (Path.parts identity.internal) root <;> rfl
  · rw [Expression.evaluate, Expression.path?_dollar]
    exact read_eq source next

theorem evaluateFields_aliases :
    Expression.evaluateFields root (aliases.map fun a => (a.1, sourceExpression identity a.2)) next =
        .ok (parts, next') ↔
      next' = next ∧ List.Forall₂ (fun a part => part.1 = a.1 ∧
        sourcePart identity root a.2 = .ok part.2) aliases parts := by
  induction aliases generalizing parts with
  | nil =>
    rw [List.forall₂_nil_left_iff]
    constructor
    · intro run
      obtain ⟨rfl, rfl⟩ := Prod.mk.inj (Except.ok.inj run)
      exact ⟨rfl, rfl⟩
    · rintro ⟨rfl, rfl⟩
      rfl
  | cons first rest ih =>
    have here := evaluate_source identity root first.2 next
    constructor
    · intro run
      obtain ⟨⟨node, between⟩, evaluated, run⟩ := Except.bind_eq_ok.1 run
      obtain ⟨⟨others, last⟩, later, run⟩ := Except.bind_eq_ok.1 run
      obtain ⟨rfl, rfl⟩ := Prod.mk.inj (Except.ok.inj run)
      rw [here] at evaluated
      cases read : sourcePart identity root first.2 with
      | error misuse =>
        rw [read] at evaluated
        cases evaluated
      | ok found =>
        rw [read] at evaluated
        obtain ⟨rfl, rfl⟩ := Prod.mk.inj (Except.ok.inj evaluated)
        obtain ⟨rfl, related⟩ := ih.1 later
        exact ⟨rfl, .cons ⟨rfl, read⟩ related⟩
    · rintro ⟨rfl, related⟩
      cases related with
      | @cons _ part _ others head tail =>
        obtain ⟨name, read⟩ := head
        obtain ⟨name', node⟩ := part
        obtain rfl : name' = first.1 := name
        rw [read] at here
        exact Except.bind_eq_ok.2 ⟨_, here, Except.bind_eq_ok.2 ⟨_, ih.2 ⟨rfl, tail⟩, rfl⟩⟩

def Sources (identity : Identity) (root : Node) (aliases : List (String × String))
    (parts : List (String × Node)) : Prop :=
  List.Forall₂ (fun a part => part.1 = a.1 ∧ sourcePart identity root a.2 = .ok part.2) aliases
    parts

/-- The stage of some aliases reads all sources and then writes them. -/
theorem addFields_aliases {draft result : Draft} :
    addFields (.doc (aliases.map fun a => (a.1, sourceExpression identity a.2))) draft =
        .ok result ↔
      ∃ parts, Sources identity (.doc 0 draft.fields) aliases parts ∧
        result = { next := (assign parts [] draft.fields draft.next).2
                   fields := (assign parts [] draft.fields draft.next).1 } := by
  constructor
  · intro run
    obtain ⟨⟨parts, between⟩, evaluated, run⟩ := Except.bind_eq_ok.1 run
    obtain ⟨rfl, sources⟩ := evaluateFields_aliases.1 evaluated
    exact ⟨parts, sources, (Except.ok.inj run).symm⟩
  · rintro ⟨parts, sources, rfl⟩
    exact Except.bind_eq_ok.2 ⟨_, evaluateFields_aliases.2 ⟨rfl, sources⟩, rfl⟩

theorem exists_of_forall₂ {α β : Type} {R : α → β → Prop} {xs : List α} {ys : List β}
    (related : List.Forall₂ R xs ys) {y : β} (mem : y ∈ ys) : ∃ x ∈ xs, R x y := by
  induction related with
  | nil => cases mem
  | cons head _ ih =>
    rcases List.mem_cons.1 mem with rfl | later
    · exact ⟨_, List.mem_cons_self, head⟩
    · obtain ⟨x, mem, found⟩ := ih later
      exact ⟨x, List.mem_cons_of_mem _ mem, found⟩

namespace Sources

theorem names (sources : Sources identity root aliases parts) :
    (parts.map fun part => Path.parts part.1) = aliases.map fun a => Path.parts a.1 := by
  induction sources with
  | nil => rfl
  | cons head _ ih => rw [List.map_cons, List.map_cons, ih, head.1]

theorem exists_alias (sources : Sources identity root aliases parts) {part : String × Node}
    (mem : part ∈ parts) :
    ∃ a ∈ aliases, part.1 = a.1 ∧ sourcePart identity root a.2 = .ok part.2 :=
  exists_of_forall₂ sources mem

theorem exists_part (sources : Sources identity root aliases parts) {a : String × String}
    (mem : a ∈ aliases) :
    ∃ part ∈ parts, part.1 = a.1 ∧ sourcePart identity root a.2 = .ok part.2 :=
  exists_of_forall₂ sources.flip mem

end Sources

theorem exists_sources :
    (∃ parts, Sources identity (.doc 0 (Draft.ofDocument d).fields) aliases parts) ↔
      ∀ a ∈ aliases, ∃ v, sourceValue identity d a.2 = .ok v := by
  constructor
  · rintro ⟨parts, sources⟩ a mem
    obtain ⟨part, -, -, read⟩ := sources.exists_part mem
    rw [← Plan.value_sourcePart, read]
    exact ⟨_, rfl⟩
  · intro readable
    induction aliases with
    | nil => exact ⟨[], .nil⟩
    | cons a rest ih =>
      obtain ⟨here, there⟩ := List.forall_mem_cons.1 readable
      obtain ⟨parts, sources⟩ := ih there
      obtain ⟨v, value⟩ := here
      rw [← Plan.value_sourcePart] at value
      cases read : sourcePart identity (.doc 0 (Draft.ofDocument d).fields) a.2 with
      | error misuse =>
        rw [read] at value
        cases value
      | ok node => exact ⟨(a.1, node) :: parts, .cons ⟨rfl, read⟩ sources⟩

/-! ## What aliases leave behind -/

theorem settled_source (found : sourcePart identity (.doc 0 (Draft.ofDocument d).fields) source =
      .ok node) (outside : ∀ a ∈ aliases, ¬Plan.Enters identity d source a.1) :
    Settled (.doc 0 (Draft.ofDocument d).fields) (Draft.ofDocument d).next
      (aliases.map fun a => Path.parts a.1) node := by
  have unshared := Node.unshared_ofDocument d
  have value := Plan.value_sourcePart identity d source
  rw [found] at value
  unfold sourcePart at found
  unfold sourceValue at value
  split at found
  · -- The text of the key is a value without documents.
    cases read : follow (Path.parts identity.internal) (.doc 0 (Draft.ofDocument d).fields) with
    | error misuse =>
      rw [read] at found
      cases found
    | ok key =>
      rw [read] at found
      obtain rfl := Except.ok.inj found
      rw [Plan.textOf_eq]
      exact fun m _ => trivial
  · rename_i stored
    rw [if_neg stored] at value
    rintro m (ge | ⟨n, mem, b, fields, le, ne, through, there⟩)
    · exact (Node.Each.follow unshared.below found).imp fun _ _ lt =>
        Nat.ne_of_lt (Nat.lt_of_lt_of_le lt ge)
    · obtain ⟨a, named, rfl⟩ := List.mem_map.1 mem
      refine unshared.apart through there (fun before => outside a named ?_) found
      refine ⟨stored, before.trans le, fun same => ?_, ?_⟩
      · rw [same] at before
        exact ne (le.eq_of_length (Nat.le_antisymm le.length_le before.length_le))
      · obtain ⟨m, inside, doc⟩ := through.exists_doc there before
        obtain rfl := Except.ok.inj (found.symm.trans doc)
        exact ⟨_, value.symm⟩

theorem noList_of_open {p b : List String} (opened : d.Open p) (le : b <+: p) (ne : b ≠ p)
    (items : List Node) : follow b (.doc 0 (Draft.ofDocument d).fields) ≠ .ok (.list items) := by
  intro found
  obtain ⟨was, list⟩ := Node.exists_list_of_follow found
  exact opened b le ne was list

theorem names_sourceExpression (identity : Identity) (source : String) :
    ∃ path, Expression.Names path (sourceExpression identity source) := by
  unfold sourceExpression
  split
  · exact ⟨identity.internal, .text⟩
  · exact ⟨source, .part⟩

section
variable (apart : (aliases.map fun a => Path.parts a.1).Pairwise Unrelated)
  (opened : ∀ a ∈ aliases, d.Open (Path.parts a.1))
include apart opened

theorem get_added_of_unrelated {result : Draft}
    (run : addFields (.doc (aliases.map fun a => (a.1, sourceExpression identity a.2)))
      (.ofDocument d) = .ok result) {q : String}
    (other : ∀ a ∈ aliases, Unrelated (Path.parts a.1) (Path.parts q)) :
    (Value.doc result.document).get q = (Value.doc d).get q := by
  have named : Fields.keys (aliases.map fun a => (a.1, sourceExpression identity a.2)) =
      aliases.map Prod.fst := List.map_map
  have within : ∀ path ∈ Fields.keys (aliases.map fun a => (a.1, sourceExpression identity a.2)),
      Path.parts path ∈ aliases.map fun a => Path.parts a.1 := by
    rw [named]
    exact List.forall_mem_map.2 fun a mem => List.mem_map_of_mem mem
  have written := (Draft.written_ofDocument d _ _).addFields apart (List.Subset.refl _) within
    (List.forall_mem_map.2 fun a _ => names_sourceExpression identity a.2) run
  refine written.get (List.forall_mem_map.2 fun a mem => ⟨other a mem, ?_⟩)
  rintro ⟨start, le, le', items, list⟩
  exact opened a mem start le (fun whole => (other a mem).1 (whole ▸ le')) items list

variable (sources : Sources identity (.doc 0 (Draft.ofDocument d).fields) aliases parts)
include sources

theorem get_added {a : String × String} (mem : a ∈ aliases)
    (outside : ∀ a ∈ aliases, ∀ b ∈ aliases, ¬Plan.Enters identity d a.2 b.1) :
    (Value.doc (Node.fieldValues
      (assign parts [] (Draft.ofDocument d).fields (Draft.ofDocument d).next).1)).get a.1 =
        sourceValue identity d a.2 := by
  have unshared := Node.unshared_ofDocument d
  have within : ∀ part ∈ parts, Path.parts part.1 ∈ aliases.map fun a => Path.parts a.1 := by
    rw [← sources.names]
    exact fun part mem => List.mem_map_of_mem mem
  have distinct : parts.Pairwise fun a b => Unrelated (Path.parts a.1) (Path.parts b.1) := by
    rw [← sources.names] at apart
    exact List.pairwise_map.1 apart
  have settled : ∀ part ∈ parts, Settled (.doc 0 (Draft.ofDocument d).fields)
      (Draft.ofDocument d).next (aliases.map fun a => Path.parts a.1) part.2 := by
    intro part mem
    obtain ⟨a, named, -, read⟩ := sources.exists_alias mem
    exact settled_source read (outside a named)
  have noList : ∀ n ∈ aliases.map fun a => Path.parts a.1, ∀ b, b <+: n → b ≠ n →
      ∀ items, follow b (.doc 0 (Draft.ofDocument d).fields) ≠ .ok (.list items) :=
    List.forall_mem_map.2 fun a mem b le ne => noList_of_open (opened a mem) le ne
  have start := Node.grown_self unshared (aliases.map fun a => Path.parts a.1)
    (aliases.map fun a => Path.parts a.1)
  have nothing : ∀ w ∈ ([] : List Write), Moves (.doc 0 (Draft.ofDocument d).fields)
      (Draft.ofDocument d).next (aliases.map fun a => Path.parts a.1) w.owner := nofun
  obtain ⟨part, there, name, read⟩ := sources.exists_part mem
  have held := assign_content unshared apart noList within distinct settled nothing start part there
  have grown : Grown _ _ _ _ _ (.doc 0 (assign parts [] _ _).1) :=
    assign_grown unshared apart (List.Subset.refl _) within start
  have after := grown.value_follow (c := Path.parts part.1) fun b le ne =>
    Node.free_of_pairwise apart (within part there) le ne
  rw [held, name] at after
  rw [← Plan.value_sourcePart, read]
  exact after.symm

end

/-- The stage of some aliases returns if all sources can be read. Paths that have nothing to do with
the names of the aliases then lead to what they led to before; and so each alias leads to what its
source led to, if no name goes on behind a source at which there is a document. -/
theorem aliases_copy (identity : Identity) (d : Document) (aliases : List (String × String))
    (apart : (aliases.map fun a => Path.parts a.1).Pairwise Unrelated)
    (opened : ∀ a ∈ aliases, d.Open (Path.parts a.1)) :
    ∃ fields, Plan.aliasFields identity (Plan.aliasesOf aliases) = .ok fields ∧
      ((∃ result, addFields (.doc fields) (.ofDocument d) = .ok result) ↔
        ∀ a ∈ aliases, ∃ v, sourceValue identity d a.2 = .ok v) ∧
      ∀ result, addFields (.doc fields) (.ofDocument d) = .ok result →
        (∀ q, (∀ a ∈ aliases, Unrelated (Path.parts a.1) (Path.parts q)) →
          (Value.doc result.document).get q = (Value.doc d).get q) ∧
        ((∀ a ∈ aliases, ∀ b ∈ aliases, ¬Plan.Enters identity d a.2 b.1) →
          ∀ a ∈ aliases, (Value.doc result.document).get a.1 = sourceValue identity d a.2) := by
  refine ⟨_, Plan.aliasFields_aliasesOf identity aliases, ?_, fun result run => ?_⟩
  · simp only [addFields_aliases, ← exists_sources]
    constructor
    · rintro ⟨result, parts, sources, -⟩
      exact ⟨parts, sources⟩
    · rintro ⟨parts, sources⟩
      exact ⟨_, parts, sources, rfl⟩
  · refine ⟨fun q other => get_added_of_unrelated apart opened run other, ?_⟩
    obtain ⟨parts, sources, rfl⟩ := addFields_aliases.1 run
    exact fun outside a mem => get_added apart opened sources mem outside

def nested : Document :=
  [("_id", .str "u1"), ("a", .doc [("b", .int 1)]), ("c", .int 2)]

/-- A name goes on behind a source that is a number, another source is absent, and a third is the
key. -/
theorem aliases_copy_nested :
    ([("x", "a"), ("c.d", "id"), ("y", "c"), ("z", "a.e")].map fun a =>
      Path.parts a.1).Pairwise Unrelated ∧
    (∀ a ∈ [("x", "a"), ("c.d", "id"), ("y", "c"), ("z", "a.e")], nested.Open (Path.parts a.1)) ∧
    ∃ fields, Plan.aliasFields {} (Plan.aliasesOf
        [("x", "a"), ("c.d", "id"), ("y", "c"), ("z", "a.e")]) = .ok fields ∧
      ∃ result, addFields (.doc fields) (.ofDocument nested) = .ok result ∧
        (Value.doc result.document).get "x" = .ok (.doc [("b", .int 1)]) ∧
        (Value.doc result.document).get "c.d" = .ok (.str "u1") ∧
        (Value.doc result.document).get "y" = .ok (.int 2) ∧
        (Value.doc result.document).get "z" = .ok .missing ∧
        (Value.doc result.document).get "a.b" = .ok (.int 1) := by
  have apart : ([("x", "a"), ("c.d", "id"), ("y", "c"), ("z", "a.e")].map fun a =>
      Path.parts a.1).Pairwise Unrelated := by decide
  have opened : ∀ a ∈ [("x", "a"), ("c.d", "id"), ("y", "c"), ("z", "a.e")],
      nested.Open (Path.parts a.1) := by decide +kernel
  have outside : ∀ a ∈ [("x", "a"), ("c.d", "id"), ("y", "c"), ("z", "a.e")],
      ∀ b ∈ [("x", "a"), ("c.d", "id"), ("y", "c"), ("z", "a.e")],
        ¬Plan.Enters {} nested a.2 b.1 := by decide +kernel
  obtain ⟨fields, planned, returns, left⟩ := aliases_copy {} nested _ apart opened
  have readable : ∀ a ∈ [("x", "a"), ("c.d", "id"), ("y", "c"), ("z", "a.e")],
      ∃ v, sourceValue {} nested a.2 = .ok v := by
    simp only [List.forall_mem_cons]
    exact ⟨⟨_, rfl⟩, ⟨_, rfl⟩, ⟨_, rfl⟩, ⟨_, rfl⟩, nofun⟩
  obtain ⟨result, run⟩ := returns.2 readable
  obtain ⟨kept, copied⟩ := left result run
  have copied := copied outside
  simp only [List.forall_mem_cons] at copied
  exact ⟨apart, opened, fields, planned, result, run, copied.1, copied.2.1, copied.2.2.1,
    copied.2.2.2.1, kept "a.b" (by decide)⟩

/-- Two names that do not go on from each other, of which one goes on behind the source of the other
alias: what it writes shows in the copy. -/
theorem alias_shows_in_copy :
    ([("x", "a"), ("a.b", "c")].map fun a => Path.parts a.1).Pairwise Unrelated ∧
    (∀ a ∈ [("x", "a"), ("a.b", "c")], nested.Open (Path.parts a.1)) ∧
    sourceValue {} nested "a" = .ok (.doc [("b", .int 1)]) ∧
    ∃ fields result, Plan.aliasFields {} (Plan.aliasesOf [("x", "a"), ("a.b", "c")]) = .ok fields ∧
      addFields (.doc fields) (.ofDocument nested) = .ok result ∧
      (Value.doc result.document).get "x" = .ok (.doc [("b", .int 2)]) :=
  ⟨by decide, by decide +kernel, rfl, _, _, rfl, rfl, rfl⟩

end Pipeline
end Docbase
