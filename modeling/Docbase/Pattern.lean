import Docbase.Pattern.Parser

/-!
# Patterns

A compiled pattern: its written form and its flags. `Pattern.compile?` makes sure that the written
form can be read.

The pattern language is not read in full. A written form with a backreference, a conditional or an
atomic group, flags for a group or flags other than `imsxu`, an octal escape that does not begin with
zero or a character by its name is read as no pattern. A possessive repetition is read as a greedy
one, and what is looked for behind a position may have any width. Nothing is stated about texts and
patterns beyond whether a pattern occurs in a text.
-/

namespace Docbase

structure Pattern where
  source : String
  flags : PatternFlags := {}
  deriving DecidableEq, Repr, Inhabited

namespace Pattern

def compile? (source : String) (flags : PatternFlags) : Option Pattern :=
  (Regex.parse? flags source).map fun _ => ⟨source, flags⟩

def occursIn (p : Pattern) (text : String) : Bool :=
  match Regex.parse? p.flags p.source with
  | some (r, flags) => r.occursIn flags text
  | none => false

end Pattern
end Docbase
