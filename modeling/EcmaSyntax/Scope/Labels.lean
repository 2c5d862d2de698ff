/-!
The labels of the statements around a place, oldest first. A label names at
most one open statement, and is marked when that statement is a loop.
-/

namespace EcmaSyntax.Scope

structure Label where
  name : String
  isIteration : Bool
deriving DecidableEq, Repr

abbrev Labels := List Label

namespace Labels

def contains (labels : Labels) (name : String) : Bool :=
  labels.any fun label => label.name == name

/-- Whether the innermost label of a name is that of a loop. -/
def isIteration? (labels : Labels) (name : String) : Option Bool :=
  (labels.reverse.find? fun label => label.name == name).map Label.isIteration

/-- Open a label, unless the name is open already. -/
def push? (labels : Labels) (name : String) : Option Labels :=
  if labels.contains name then none else some (List.append labels [⟨name, false⟩])

def pop (labels : Labels) : Labels := labels.dropLast

/-- Mark every label from an index on as that of a loop. -/
def markIteration (labels : Labels) (first : Nat) : Labels :=
  List.append (labels.take first)
    ((labels.drop first).map fun label => { label with isIteration := true })

theorem names_markIteration (labels : Labels) (first : Nat) :
    (labels.markIteration first).map Label.name = List.map Label.name labels := by
  simp [markIteration, Function.comp_def]

end Labels

end EcmaSyntax.Scope
