import EcmaSyntax.Scope.Stack

/-!
Names that a module exports. Each may be exported once, and a name exported
from the module's own bindings must be declared at its top level by the time
the module ends.
-/

namespace EcmaSyntax.Scope

structure Exports where
  names : List String
  locals : List (String × Nat)
deriving DecidableEq, Repr

namespace Exports

def empty : Exports := ⟨[], []⟩

def has (exports : Exports) (name : String) : Bool := exports.names.contains name

def add (exports : Exports) (name : String) (offset : Nat) : Except Error Exports :=
  if exports.has name then .error ⟨.duplicateExport, name, offset⟩
  else .ok { exports with names := exports.names ++ [name] }

/-- Note that a local binding is exported. -/
def addLocal (exports : Exports) (name : String) (offset : Nat) : Exports :=
  { exports with locals := exports.locals ++ [(name, offset)] }

/-- The first local export that the top level does not declare. -/
def undeclared? (exports : Exports) (scopes : Stack) : Option Error :=
  (exports.locals.find? fun entry => !scopes.isDeclaredAtTop entry.1).map fun entry =>
    ⟨.undeclaredExport, entry.1, entry.2⟩

end Exports

end EcmaSyntax.Scope
