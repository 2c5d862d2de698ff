/-!
A table that gives each name a handle, the same for equal names. Handles count
the names in the order in which they were first seen.
-/

namespace EcmaSyntax.Text

structure NameTable where
  names : List String
deriving DecidableEq, Repr

namespace NameTable

def empty : NameTable := ⟨[]⟩

def size (table : NameTable) : Nat := table.names.length

def isEmpty (table : NameTable) : Bool := table.names.isEmpty

/-- The handle of a name that was seen. -/
def find? (table : NameTable) (name : String) : Option Nat := table.names.idxOf? name

def resolve? (table : NameTable) (handle : Nat) : Option String := table.names[handle]?

/-- The handle of a name, which is added if it is new. -/
def intern (table : NameTable) (name : String) : Nat × NameTable :=
  match table.find? name with
  | some handle => (handle, table)
  | none => (table.size, ⟨table.names ++ [name]⟩)

/-- A description that counts the names. -/
def describe (table : NameTable) : String :=
  "StringInterner(" ++ toString table.size ++ " names)"

end NameTable

end EcmaSyntax.Text
