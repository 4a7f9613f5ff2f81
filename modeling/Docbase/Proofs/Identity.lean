import Docbase.Proofs.Filter
import Docbase.Proofs.Path
import Docbase.Proofs.Value.Proper

/-!
# Filters under stored names

A filter that names documents by their external identifiers, written over to the stored names,
holds of a stored document if the filter itself holds of the document under both names. For this no
mapping of the filter may name both identifiers, since only the later condition would stay.
-/

namespace Docbase

theorem Value.get_doc {path part : String} {rest : List String}
    (parts : Path.parts path = part :: rest) (d : Document) :
    (Value.doc d).get path = Value.follow rest (Value.field part d) := by
  rw [Value.get, parts]
  rfl

namespace Identity

variable {identity : Identity} {d : Document} {key : String}

def keyed : Identity := { external := "id", internal := "key" }

def revealed (identity : Identity) (d : Document) : Document :=
  match d.lookup identity.internal with
  | none => d
  | some key => Fields.set identity.external key d

theorem field_revealed_external (hidden : d.lookup identity.external = none) :
    Value.field identity.external (identity.revealed d) = Value.field identity.internal d := by
  unfold Value.field revealed
  cases stored : d.lookup identity.internal with
  | none => rw [hidden]
  | some key => rw [Fields.lookup_set_self]

theorem field_revealed_of_ne (other : key ≠ identity.external) (d : Document) :
    Value.field key (identity.revealed d) = Value.field key d := by
  unfold Value.field revealed
  cases d.lookup identity.internal with
  | none => rfl
  | some stored => simp only [Fields.lookup_set_of_ne other]

structure IsPlain (identity : Identity) : Prop where
  external : Path.IsName identity.external
  externalField : Filter.isOperator identity.external = false
  internal : Path.IsName identity.internal
  internalField : Filter.isOperator identity.internal = false

theorem IsPlain.ne_of_operator (plain : identity.IsPlain)
    (operator : Filter.isOperator key = true) : key ≠ identity.external := by
  rintro rfl
  rw [plain.externalField] at operator
  cases operator

/-! ## Filters that can be written over -/

/-- A connective has a list, and no path goes on behind the external name. -/
def isBuiltField (identity : Identity) : String × Value → Bool
  | (key, .list _) => isConnective key || !decide (Path.IsInside identity.external key)
  | (key, _) => !isConnective key && !decide (Path.IsInside identity.external key)

def isBuilt (identity : Identity) (fields : Document) : Bool :=
  decide (Fields.keys fields).Nodup && fields.all identity.isBuiltField

/-- The mapping does not name both identifiers. -/
def isApart (identity : Identity) (fields : Document) : Bool :=
  !(Fields.has identity.external fields && Fields.has identity.internal fields)

def rename (identity : Identity) (key : String) : String :=
  if key = identity.external then identity.internal else key

def renameOperand (identity : Identity) (key : String) : Value → Value
  | .list items => .list (if isConnective key then identity.renameItems items else items)
  | v => v

theorem renameFields_external (identity : Identity) (v : Value) (rest : List (String × Value)) :
    identity.renameFields ((identity.external, v) :: rest) =
      (identity.internal, v) :: identity.renameFields rest := by
  cases v <;> simp [renameFields]

theorem renameFields_of_ne (other : key ≠ identity.external) (v : Value)
    (rest : List (String × Value)) :
    identity.renameFields ((key, v) :: rest) =
      (key, identity.renameOperand key v) :: identity.renameFields rest := by
  cases v with
  | list items =>
    cases connective : isConnective key <;> simp [renameFields, renameOperand, other, connective]
  | _ => simp [renameFields, renameOperand, other]

theorem keys_renameFields (identity : Identity) (fields : Document) :
    Fields.keys (identity.renameFields fields) = (Fields.keys fields).map identity.rename := by
  induction fields with
  | nil => simp [renameFields, Fields.keys]
  | cons field rest ih =>
    obtain ⟨key, v⟩ := field
    by_cases external : key = identity.external
    · subst external
      rw [renameFields_external]
      simpa [Fields.keys, rename] using ih
    · rw [renameFields_of_ne external]
      simpa [Fields.keys, rename, external] using ih

theorem nodup_rename {keys : List String} (nodup : keys.Nodup)
    (apart : identity.external ∈ keys → identity.internal ∉ keys) :
    (keys.map identity.rename).Nodup := by
  refine nodup.map_on fun a ha b hb same => ?_
  unfold rename at same
  split at same
  · rename_i external
    split at same
    · rename_i external'
      rw [external, external']
    · subst external same
      exact absurd hb (apart ha)
  · split at same
    · rename_i external'
      subst external' same
      exact absurd ha (apart hb)
    · exact same

theorem isApart_iff {fields : Document} :
    identity.isApart fields = true ↔
      (identity.external ∈ Fields.keys fields → identity.internal ∉ Fields.keys fields) := by
  rw [isApart, Bool.not_eq_true', Bool.and_eq_false_imp, Fields.has_iff]
  refine imp_congr_right fun _ => ?_
  rw [← Fields.has_iff, Bool.not_eq_true]

theorem toInternal_of_apart {fields : Document} (nodup : (Fields.keys fields).Nodup)
    (apart : identity.isApart fields = true) :
    identity.toInternal fields = identity.renameFields fields := by
  apply Fields.ofWrites_of_nodup
  rw [keys_renameFields]
  exact nodup_rename nodup (isApart_iff.1 apart)

/-! ## The same answers -/

open Docbase.Filter (everyMapping everyMappingOf everyMappingIn holdsFields holdsEvery holdsSome holdsList)

theorem get_rename (plain : identity.IsPlain) (hidden : d.lookup identity.external = none)
    (outside : ¬Path.IsInside identity.external key) :
    (Value.doc d).get (identity.rename key) = (Value.doc (identity.revealed d)).get key := by
  unfold rename
  split
  · rename_i external
    subst external
    rw [Value.get_doc plain.internal.parts, Value.get_doc plain.external.parts,
      field_revealed_external hidden]
  · rename_i other
    obtain ⟨rest, parts⟩ := Path.exists_parts key
    have first : Path.first key ≠ identity.external := by
      intro same
      rcases Path.isWithin_of_first_eq same with whole | inside
      · exact other whole
      · exact outside inside
    rw [Value.get_doc parts, Value.get_doc parts, field_revealed_of_ne first]

theorem isOperator_rename (plain : identity.IsPlain) (field : Filter.isOperator key = false) :
    Filter.isOperator (identity.rename key) = false := by
  unfold rename
  split
  · exact plain.internalField
  · exact field

theorem ofKey?_eq_none (h : isConnective key = false) : Filter.Connective.ofKey? key = none := by
  rw [← Filter.isSome_ofKey?] at h
  exact Option.not_isSome_iff_eq_none.1 (Bool.eq_false_iff.1 h)

theorem renameFields_path (path : isConnective key = false) (v : Value)
    (rest : List (String × Value)) :
    identity.renameFields ((key, v) :: rest) =
      (identity.rename key, v) :: identity.renameFields rest := by
  by_cases external : key = identity.external
  · subst external
    rw [renameFields_external, rename, if_pos rfl]
  · have kept : identity.renameOperand key v = v := by
      cases v <;> simp [renameOperand, path]
    rw [renameFields_of_ne external, rename, if_neg external, kept]

theorem holdsFields_rename (plain : identity.IsPlain) (hidden : d.lookup identity.external = none)
    (path : isConnective key = false) (outside : ¬Path.IsInside identity.external key) (v : Value)
    {fields others : List (String × Value)}
    (later : holdsFields (.doc d) others = holdsFields (.doc (identity.revealed d)) fields) :
    holdsFields (.doc d) ((identity.rename key, v) :: others) =
      holdsFields (.doc (identity.revealed d)) ((key, v) :: fields) := by
  have none : Filter.Connective.ofKey? key = none := ofKey?_eq_none path
  cases field : Filter.isOperator key with
  | true =>
    have other := plain.ne_of_operator field
    have kept : identity.rename key = key := if_neg other
    rw [kept, Filter.holdsFields_operator none field, Filter.holdsFields_operator none field]
  | false =>
    have field' := isOperator_rename plain field
    have none' : Filter.Connective.ofKey? (identity.rename key) = Option.none := by
      cases known : Filter.Connective.ofKey? (identity.rename key) with
      | none => rfl
      | some connective =>
        rw [Filter.isOperator_of_ofKey? known] at field'
        cases field'
    rw [Filter.holdsFields_path none' field', Filter.holdsFields_path none field,
      get_rename plain hidden outside, later]

def renameItem (identity : Identity) : Value → Value
  | .doc fields => .doc (identity.toInternal fields)
  | v => v

theorem renameItems_cons (identity : Identity) (v : Value) (rest : List Value) :
    identity.renameItems (v :: rest) = identity.renameItem v :: identity.renameItems rest := by
  cases v <;> simp [renameItems, renameItem, toInternal]

mutual

theorem holds_renameItem (plain : identity.IsPlain) (hidden : d.lookup identity.external = none) :
    ∀ v : Value, everyMapping identity.isBuilt v = true → everyMapping identity.isApart v = true →
      Filter.holds (.doc d) (identity.renameItem v) =
        Filter.holds (.doc (identity.revealed d)) v
  | .doc fields, built, apart => by
    simp only [everyMapping, isBuilt, Bool.and_eq_true, decide_eq_true_eq] at built apart
    obtain ⟨⟨nodup, fieldsBuilt⟩, within⟩ := built
    simp only [renameItem, toInternal_of_apart nodup apart.1, Filter.holds]
    exact holdsFields_renameFields plain hidden fields fieldsBuilt within apart.2
  | .null, _, _ | .missing, _, _ | .bool _, _, _ | .int _, _, _ | .double _, _, _ | .str _, _, _
  | .bytes _, _, _ | .timestamp _, _, _ | .objectId _, _, _ | .pattern _, _, _ | .tuple _, _, _
  | .list _, _, _ | .flat _, _, _ | .anyOf _, _, _ | .allOf _, _, _ | .joinTo _ _, _, _ => rfl

theorem holdsFields_renameFields (plain : identity.IsPlain)
    (hidden : d.lookup identity.external = none) :
    ∀ fields : List (String × Value), fields.all identity.isBuiltField = true →
      everyMappingOf identity.isBuilt fields = true →
      everyMappingOf identity.isApart fields = true →
      holdsFields (.doc d) (identity.renameFields fields) =
        holdsFields (.doc (identity.revealed d)) fields
  | [], _, _, _ => by simp [renameFields, holdsFields]
  | (key, .list items) :: rest, built, within, apart => by
    simp only [List.all_cons, everyMappingOf, Bool.and_eq_true] at built within apart
    have later := holdsFields_renameFields plain hidden rest built.2 within.2 apart.2
    cases connective : isConnective key with
    | false =>
      have outside : ¬Path.IsInside identity.external key := by
        simpa [isBuiltField, connective] using built.1
      rw [renameFields_path connective]
      exact holdsFields_rename plain hidden connective outside _ later
    | true =>
      simp only [connective, Bool.not_true, Bool.false_or] at within apart
      have every := holdsEvery_renameItems plain hidden items within.1 apart.1
      have some := holdsSome_renameItems plain hidden items within.1 apart.1
      obtain ⟨c, known⟩ : ∃ c, Filter.Connective.ofKey? key = Option.some c :=
        Option.isSome_iff_exists.1 (Filter.isSome_ofKey? key ▸ connective)
      have other := plain.ne_of_operator (Filter.isOperator_of_ofKey? known)
      have lists : holdsList (.doc d) c (identity.renameItems items) =
          holdsList (.doc (identity.revealed d)) c items := by
        cases c with
        | and => exact every
        | or => exact some
        | nor => exact congrArg (Bool.not <$> ·) some
      rw [renameFields_of_ne other, renameOperand, connective, if_pos rfl,
        Filter.holdsFields_list known, Filter.holdsFields_list known, lists, later]
  | (key, .null) :: rest, built, within, apart | (key, .missing) :: rest, built, within, apart
  | (key, .bool _) :: rest, built, within, apart | (key, .int _) :: rest, built, within, apart
  | (key, .double _) :: rest, built, within, apart | (key, .str _) :: rest, built, within, apart
  | (key, .bytes _) :: rest, built, within, apart
  | (key, .timestamp _) :: rest, built, within, apart
  | (key, .objectId _) :: rest, built, within, apart
  | (key, .pattern _) :: rest, built, within, apart | (key, .tuple _) :: rest, built, within, apart
  | (key, .doc _) :: rest, built, within, apart | (key, .flat _) :: rest, built, within, apart
  | (key, .anyOf _) :: rest, built, within, apart | (key, .allOf _) :: rest, built, within, apart
  | (key, .joinTo _ _) :: rest, built, within, apart => by
    simp only [List.all_cons, Bool.and_eq_true, isBuiltField, Bool.not_eq_true',
      decide_eq_false_iff_not] at built
    have later := holdsFields_renameFields plain hidden rest built.2 within apart
    rw [renameFields_path built.1.1]
    exact holdsFields_rename plain hidden built.1.1 built.1.2 _ later

theorem holdsEvery_renameItems (plain : identity.IsPlain)
    (hidden : d.lookup identity.external = none) :
    ∀ items : List Value, everyMappingIn identity.isBuilt items = true →
      everyMappingIn identity.isApart items = true →
      holdsEvery (.doc d) (identity.renameItems items) =
        holdsEvery (.doc (identity.revealed d)) items
  | [], _, _ => by simp [renameItems, holdsEvery]
  | v :: rest, built, apart => by
    simp only [everyMappingIn, Bool.and_eq_true] at built apart
    rw [renameItems_cons, holdsEvery, holdsEvery,
      holds_renameItem plain hidden v built.1 apart.1,
      holdsEvery_renameItems plain hidden rest built.2 apart.2]

theorem holdsSome_renameItems (plain : identity.IsPlain)
    (hidden : d.lookup identity.external = none) :
    ∀ items : List Value, everyMappingIn identity.isBuilt items = true →
      everyMappingIn identity.isApart items = true →
      holdsSome (.doc d) (identity.renameItems items) =
        holdsSome (.doc (identity.revealed d)) items
  | [], _, _ => by simp [renameItems, holdsSome]
  | v :: rest, built, apart => by
    simp only [everyMappingIn, Bool.and_eq_true] at built apart
    rw [renameItems_cons, holdsSome, holdsSome,
      holds_renameItem plain hidden v built.1 apart.1,
      holdsSome_renameItems plain hidden rest built.2 apart.2]

end

theorem holds_toInternal (plain : identity.IsPlain) (hidden : d.lookup identity.external = none)
    {filter : Document} (built : everyMapping identity.isBuilt (.doc filter) = true)
    (apart : everyMapping identity.isApart (.doc filter) = true) :
    Filter.holds (.doc d) (.doc (identity.toInternal filter)) =
      Filter.holds (.doc (identity.revealed d)) (.doc filter) :=
  holds_renameItem plain hidden (.doc filter) built apart

end Identity
end Docbase
