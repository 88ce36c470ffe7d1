/-!
# Visibility of members

The four levels of Java access with their labels, and the symbol each one has
in a diagram.  Records may come with a label outside the four; it is kept and
shown like package access.
-/

namespace JavaUml.Model

/-- Who may see a member. -/
inductive Visibility where
  | publicAccess
  | privateAccess
  | protectedAccess
  | packageAccess
  | labelled (label : String)
  deriving DecidableEq, Repr

namespace Visibility

/-- The written label of a level. -/
def label : Visibility → String
  | publicAccess => "public"
  | privateAccess => "private"
  | protectedAccess => "protected"
  | packageAccess => "package-private"
  | labelled label => label

/-- The level with a given label. -/
def ofLabel (label : String) : Visibility :=
  if label = "public" then publicAccess
  else if label = "private" then privateAccess
  else if label = "protected" then protectedAccess
  else if label = "package-private" then packageAccess
  else labelled label

/-- The symbol in front of a member in a class diagram. -/
def symbol : Visibility → String
  | publicAccess => "+"
  | privateAccess => "-"
  | protectedAccess => "#"
  | packageAccess => "~"
  | labelled _ => "~"

/-- The level that a list of modifiers gives: the widest one named. -/
def ofModifiers (modifiers : List String) : Visibility :=
  if modifiers.contains "public" then publicAccess
  else if modifiers.contains "private" then privateAccess
  else if modifiers.contains "protected" then protectedAccess
  else packageAccess

end Visibility

end JavaUml.Model
