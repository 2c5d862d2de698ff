import EcmaSyntax.Scope.Stack

/-!
Private names of classes. A name may be referred to before it is declared, so
references wait until their class ends; those it does not declare are handed
to the class around it, and fail when there is none.
-/

namespace EcmaSyntax.Scope

inductive PrivateKind where
  | field
  | method
  | getter
  | setter
deriving DecidableEq, Repr

/-- A getter and a setter may share a name. -/
def PrivateKind.pairs : PrivateKind → PrivateKind → Bool
  | .getter, .setter | .setter, .getter => true
  | _, _ => false

structure PrivateEntry where
  name : String
  kind : PrivateKind
  isStatic : Bool
  /-- The other accessor was declared too. -/
  paired : Bool
deriving DecidableEq, Repr

structure PrivateReference where
  name : String
  offset : Nat
deriving DecidableEq, Repr

structure ClassNames where
  declared : List PrivateEntry
  pending : List PrivateReference
deriving DecidableEq, Repr

namespace ClassNames

def empty : ClassNames := ⟨[], []⟩

def declares (names : ClassNames) (name : String) : Bool :=
  names.declared.any fun entry => entry.name == name

/-- Declare a name for the first time, or as the other half of an accessor
pair. -/
def declare? (names : ClassNames) (name : String) (kind : PrivateKind) (isStatic : Bool) :
    Option ClassNames :=
  match names.declared.find? fun entry => entry.name == name with
  | none => some { names with declared := names.declared ++ [⟨name, kind, isStatic, false⟩] }
  | some existing =>
    if existing.kind.pairs kind && !existing.paired && existing.isStatic == isStatic then
      some { names with
        declared := names.declared.map fun entry =>
          if entry.name == name then { entry with paired := true } else entry }
    else none

def refer (names : ClassNames) (references : List PrivateReference) : ClassNames :=
  { names with pending := names.pending ++ references }

/-- The references that the class itself does not answer. -/
def unresolved (names : ClassNames) : List PrivateReference :=
  names.pending.filter fun reference => !names.declares reference.name

end ClassNames

/-- The open classes, innermost first. -/
abbrev PrivateNames := List ClassNames

namespace PrivateNames

def inClass (classes : PrivateNames) : Bool := !classes.isEmpty

def enterClass (classes : PrivateNames) : PrivateNames := ClassNames.empty :: classes

def declare (classes : PrivateNames) (name : String) (kind : PrivateKind) (isStatic : Bool)
    (offset : Nat) : Except Error PrivateNames :=
  if name == "constructor" then .error ⟨.privateConstructor, name, offset⟩
  else
    match classes with
    | [] => .error ⟨.unexpectedPrivateName, name, offset⟩
    | innermost :: outer =>
      match innermost.declare? name kind isStatic with
      | some declared => .ok (declared :: outer)
      | none => .error ⟨.duplicatePrivateName, name, offset⟩

def reference (classes : PrivateNames) (name : String) (offset : Nat) :
    Except Error PrivateNames :=
  match classes with
  | [] => .error ⟨.undeclaredPrivateName, name, offset⟩
  | innermost :: outer => .ok (innermost.refer [⟨name, offset⟩] :: outer)

/-- Close the innermost class. Without a class around it the first unanswered
reference is an error; the class is closed all the same. -/
def exitClass (classes : PrivateNames) : Except Error Unit × PrivateNames :=
  match classes with
  | [] => (.ok (), [])
  | [last] =>
    match last.unresolved with
    | [] => (.ok (), [])
    | reference :: _ => (.error ⟨.undeclaredPrivateName, reference.name, reference.offset⟩, [])
  | innermost :: around :: outer =>
    (.ok (), around.refer innermost.unresolved :: outer)

end PrivateNames

end EcmaSyntax.Scope
