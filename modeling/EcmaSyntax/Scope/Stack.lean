import EcmaSyntax.Diagnostic.Failure

/-!
Nested scopes and redeclarations. A conflict between names tells what is wrong, with which name, and
where. A declaration of a hoisted variable is recorded in every scope from where it stands out to
the nearest boundary, so that a lexical declaration made later in any of these scopes still sees it
after the inner scopes are closed. A repeated parameter is no error by itself: the first repetition
is kept with the scope, for the function to judge once its body is known.
-/

namespace EcmaSyntax.Scope

open EcmaSyntax.Diagnostic

inductive Fault where
  | duplicateBinding
  | duplicateParameter
  | duplicateExport
  | undeclaredExport
  | duplicatePrivateName
  | undeclaredPrivateName
  | unexpectedPrivateName
  | privateConstructor
deriving DecidableEq, Repr

structure Error where
  fault : Fault
  name : String
  offset : Nat
deriving DecidableEq, Repr

/-- The cause that reports a fault about a name. -/
def Fault.cause (fault : Fault) (name : String) : Cause :=
  match fault with
  | .duplicateBinding => .duplicateBinding name
  | .duplicateParameter => .duplicateParameter
  | .duplicateExport => .duplicateExport name
  | .undeclaredExport => .undeclaredExport name
  | .duplicatePrivateName => .duplicatePrivateName name
  | .undeclaredPrivateName => .undeclaredPrivateName name
  | .unexpectedPrivateName => .unexpectedPrivateName
  | .privateConstructor => .privateConstructor

def Error.failure (error : Error) : Failure :=
  ⟨error.fault.cause error.name, error.offset⟩

/-- What a scope is for. -/
inductive Role where
  | topLevel
  | functionParams
  | functionBody
  | arrowParams
  | block
  | catchParam
  | catchBody
  | forHead
  | switch
  | staticBlock
  | classScope
deriving DecidableEq, Repr

namespace Role

/-- Declarations of hoisted variables go no further out. -/
def isVarBoundary : Role → Bool
  | .topLevel | .functionBody | .staticBlock => true
  | _ => false

def isParams : Role → Bool
  | .functionParams | .arrowParams => true
  | _ => false

/-- The place of a role in a set of roles written as a number. -/
def index : Role → Nat
  | .topLevel => 0
  | .functionParams => 1
  | .functionBody => 2
  | .arrowParams => 3
  | .block => 4
  | .catchParam => 5
  | .catchBody => 6
  | .forHead => 7
  | .switch => 8
  | .staticBlock => 9
  | .classScope => 10

end Role

inductive BindingKind where
  | varName
  | letName
  | constName
  | className
  /-- A function declared at the top of a program or function body. -/
  | functionVar
  /-- A function declared in a block. -/
  | functionLexical
  | parameter
  | catchSimple
  | catchPattern
  | importName
deriving DecidableEq, Repr

namespace BindingKind

def isLexical : BindingKind → Bool
  | .letName | .constName | .className | .functionLexical | .importName => true
  | _ => false

def isVarLike : BindingKind → Bool
  | .varName | .functionVar => true
  | _ => false

/-- A hoisted variable may not have the name of such a binding. -/
def refusesVar (kind : BindingKind) : Bool := kind.isLexical || kind == .catchPattern

end BindingKind

/-- The bound names of a scope, each with the kind of its binding. -/
abbrev Bindings := List (String × BindingKind)

namespace Bindings

def find? (bindings : Bindings) (name : String) : Option BindingKind := bindings.lookup name

/-- Bind a name, in place of any earlier binding of it. -/
def insert (bindings : Bindings) (name : String) (kind : BindingKind) : Bindings :=
  match bindings with
  | [] => [(name, kind)]
  | (other, old) :: rest =>
    if other == name then (other, kind) :: rest else (other, old) :: insert rest name kind

end Bindings

structure Frame where
  roles : List Role
  bindings : Bindings
  /-- The first repeated parameter. -/
  deferred : Option Error
deriving DecidableEq, Repr

namespace Frame

def ofRoles (roles : List Role) : Frame := ⟨roles, [], none⟩

def has (frame : Frame) (test : Role → Bool) : Bool := frame.roles.any test

/-- The roles as one number, a bit for each. -/
def roleBits (frame : Frame) : Nat :=
  frame.roles.foldr (fun role sum => Nat.pow 2 role.index + sum) 0

def find? (frame : Frame) (name : String) : Option BindingKind := frame.bindings.find? name

def bind (frame : Frame) (name : String) (kind : BindingKind) : Frame :=
  { frame with bindings := frame.bindings.insert name kind }

/-- Keep an error for later, unless one is kept already. -/
def defer (frame : Frame) (error : Error) : Frame :=
  { frame with deferred := frame.deferred <|> some error }

/-- Record a hoisted variable, unless the scope refuses it. -/
def recordVar? (frame : Frame) (name : String) (kind : BindingKind) : Option Frame :=
  match frame.find? name with
  | some existing => if existing.refusesVar then none else some frame
  | none => some (frame.bind name kind)

end Frame

/-- The open scopes: the current one and those around it, from the inside out. -/
structure Stack where
  current : Frame
  outer : List Frame
deriving DecidableEq, Repr

namespace Stack

def initial : Stack := ⟨Frame.ofRoles [.topLevel], []⟩

def depth (stack : Stack) : Nat := stack.outer.length

def frames (stack : Stack) : List Frame := stack.current :: stack.outer

def push (stack : Stack) (roles : List Role) : Stack :=
  ⟨Frame.ofRoles roles, stack.frames⟩

/-- Close the current scope; the outermost one stays open. -/
def pop? (stack : Stack) : Option (Frame × Stack) :=
  match stack.outer with
  | [] => none
  | frame :: rest => some (stack.current, ⟨frame, rest⟩)

def pop (stack : Stack) : Stack :=
  match stack.pop? with
  | some (_, rest) => rest
  | none => stack

/-- The outermost scope. -/
def top (stack : Stack) : Frame := stack.frames.getLast (by simp [frames])

def isDeclaredAtTop (stack : Stack) (name : String) : Bool := (stack.top.find? name).isSome

/-- Record a hoisted variable in scopes from the inside out, to the nearest
boundary. A refusal leaves what was recorded further in. -/
def recordVar (name : String) : BindingKind → List Frame → List Frame × Bool
  | _, [] => ([], true)
  | kind, frame :: outer =>
    match frame.recordVar? name kind with
    | none => (frame :: outer, false)
    | some recorded =>
      if recorded.has Role.isVarBoundary then (recorded :: outer, true)
      else
        let (rest, accepted) := recordVar name .varName outer
        (recorded :: rest, accepted)

def ofFrames (frames : List Frame) (fallback : Stack) : Stack :=
  match frames with
  | [] => fallback
  | current :: outer => ⟨current, outer⟩

def declareVar (stack : Stack) (name : String) (kind : BindingKind) (offset : Nat) :
    Except Error Unit × Stack :=
  let (frames, accepted) := recordVar name kind stack.frames
  (if accepted then .ok () else .error ⟨.duplicateBinding, name, offset⟩, ofFrames frames stack)

def declareParameter (stack : Stack) (name : String) (offset : Nat) : Stack :=
  let bound := stack.current.bind name .parameter
  match stack.current.find? name with
  | some _ => { stack with current := bound.defer ⟨.duplicateParameter, name, offset⟩ }
  | none => { stack with current := bound }

/-- The scope around a body holds parameters of the name. -/
def shadowsParameter (stack : Stack) (name : String) : Bool :=
  stack.current.has (fun role => role == .functionBody || role == .catchBody) &&
    match stack.outer with
    | [] => false
    | around :: _ =>
      around.has (fun role => role.isParams || role == .catchParam) && (around.find? name).isSome

/-- A lexical name is new in its scope and no parameter of the body it stands
in; with `repeatFunctions` a function of a block may be declared again. -/
def declareLexical (stack : Stack) (name : String) (kind : BindingKind) (offset : Nat)
    (repeatFunctions : Bool) : Except Error Unit × Stack :=
  let conflict := match stack.current.find? name with
    | some existing =>
      !(repeatFunctions && existing == .functionLexical && kind == .functionLexical)
    | none => false
  if conflict || stack.shadowsParameter name then
    (.error ⟨.duplicateBinding, name, offset⟩, stack)
  else (.ok (), { stack with current := stack.current.bind name kind })

def declare (stack : Stack) (name : String) (kind : BindingKind) (offset : Nat)
    (repeatFunctions : Bool) : Except Error Unit × Stack :=
  match kind with
  | .varName | .functionVar => stack.declareVar name kind offset
  | .parameter => (.ok (), stack.declareParameter name offset)
  | _ => stack.declareLexical name kind offset repeatFunctions

/-- Take the error kept with the scope at a depth, counted from the outermost. -/
def takeDeferred (stack : Stack) (depth : Nat) : Option Error × Stack :=
  let frames := stack.frames
  if depth ≤ stack.depth then
    let index := stack.depth - depth
    let cleared := frames.modify index fun frame => { frame with deferred := none }
    ((frames[index]?).bind Frame.deferred, ofFrames cleared stack)
  else (none, stack)

end Stack

end EcmaSyntax.Scope
