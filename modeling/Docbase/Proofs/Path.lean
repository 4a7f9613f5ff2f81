import Docbase.Path
import Docbase.Proofs.Fields

namespace Docbase

namespace Path

theorem cut_cons_dot (chars : List Char) : cut ('.' :: chars) = [] :: cut chars := by
  rw [cut]

theorem cut_cons_of_ne {c : Char} (h : c ≠ '.') {chars part : List Char}
    {parts : List (List Char)} (rest : cut chars = part :: parts) :
    cut (c :: chars) = (c :: part) :: parts := by
  simp [cut, rest]

theorem cut_cases (chars : List Char) :
    cut chars = [chars] ∨
      ∃ part next rest, cut chars = part :: next :: rest ∧ part ++ ['.'] <+: chars := by
  induction chars with
  | nil => exact .inl rfl
  | cons c chars ih =>
    by_cases dot : c = '.'
    · subst dot
      rcases ih with whole | ⟨part, next, rest, parts, -⟩
      · exact .inr ⟨[], chars, [], by rw [cut_cons_dot, whole], ⟨chars, rfl⟩⟩
      · exact .inr ⟨[], part, next :: rest, by rw [cut_cons_dot, parts], ⟨chars, rfl⟩⟩
    · rcases ih with whole | ⟨part, next, rest, parts, behind, split⟩
      · exact .inl (cut_cons_of_ne dot whole)
      · have longer := cut_cons_of_ne dot parts
        exact .inr ⟨c :: part, next, rest, longer, behind, congrArg (c :: ·) split⟩

theorem parts_cases (path : String) :
    parts path = [path] ∨ ∃ part next rest, parts path = part :: next :: rest ∧
      part.toList ++ ['.'] <+: path.toList := by
  rcases cut_cases path.toList with whole | ⟨part, next, rest, several, behind⟩
  · left
    rw [parts, whole, List.map_singleton, String.ofList_toList]
  · right
    refine ⟨String.ofList part, String.ofList next, rest.map String.ofList, ?_, ?_⟩
    · rw [parts, several, List.map_cons, List.map_cons]
    · rwa [String.toList_ofList]

def IsName (path : String) : Prop := '.' ∉ path.toList

instance (path : String) : Decidable (IsName path) := inferInstanceAs (Decidable (_ ∉ _))

theorem IsName.parts {path : String} (h : IsName path) : parts path = [path] := by
  rcases parts_cases path with whole | ⟨part, next, rest, -, behind⟩
  · exact whole
  · have dot : '.' ∈ part.toList ++ ['.'] := List.mem_append_right _ List.mem_cons_self
    exact absurd (behind.subset dot) h

def first (path : String) : String := (parts path).headD ""

theorem exists_parts (path : String) : ∃ rest, parts path = first path :: rest := by
  rcases parts_cases path with whole | ⟨part, next, rest, several, -⟩
  · exact ⟨[], by rw [first, whole, List.headD_cons]⟩
  · exact ⟨next :: rest, by rw [first, several, List.headD_cons]⟩

theorem parts_ne_nil (path : String) : parts path ≠ [] := by
  obtain ⟨rest, parts⟩ := exists_parts path
  rw [parts]
  exact List.cons_ne_nil _ _

def IsInside (name path : String) : Prop := name.toList ++ ['.'] <+: path.toList

def IsWithin (name path : String) : Prop := path = name ∨ IsInside name path

instance (name path : String) : Decidable (IsInside name path) :=
  inferInstanceAs (Decidable (_ <+: _))

instance (name path : String) : Decidable (IsWithin name path) :=
  inferInstanceAs (Decidable (_ ∨ _))

theorem isWithin_of_first_eq {name path : String} (h : first path = name) :
    IsWithin name path := by
  subst h
  rcases parts_cases path with whole | ⟨part, next, rest, several, behind⟩
  · left
    rw [first, whole, List.headD_cons]
  · right
    rwa [first, several, List.headD_cons]

theorem exists_parts_of_ne {name path : String} (h : first path = name) (other : path ≠ name) :
    ∃ next rest, parts path = name :: next :: rest := by
  subst h
  rcases parts_cases path with whole | ⟨part, next, rest, several, -⟩
  · have first_eq : first path = path := by rw [first, whole, List.headD_cons]
    exact absurd first_eq.symm other
  · exact ⟨next, rest, by rw [first, several, List.headD_cons]⟩

end Path

namespace Document

variable {name : String} {d : Document}

theorem lookup_set_of_ne {key : String} (h : name ≠ key) (rest : List String) (v : Value) :
    (Document.set (key :: rest) v d).lookup name = d.lookup name := by
  cases rest with
  | nil =>
    rw [Document.set]
    exact Fields.lookup_set_of_ne h _ _
  | cons next rest =>
    rw [Document.set]
    · exact Fields.lookup_set_of_ne h _ _
    · simp

theorem lookup_set_of_first_ne {path : String} (h : Path.first path ≠ name) (v : Value) :
    (Document.set (Path.parts path) v d).lookup name = d.lookup name := by
  obtain ⟨rest, parts⟩ := Path.exists_parts path
  rw [parts]
  exact lookup_set_of_ne h.symm rest v

theorem has_set (h : Fields.has name d = true) (parts : List String) (v : Value) :
    Fields.has name (Document.set parts v d) = true := by
  have kept (key : String) (u : Value) : Fields.has name (Fields.set key u d) = true := by
    rw [Fields.has_iff] at h ⊢
    rw [Fields.keys_set]
    split
    · exact h
    · exact List.mem_append_left _ h
  match parts with
  | [] => exact h
  | [key] => exact kept key v
  | key :: next :: rest => exact kept key _

end Document
end Docbase
