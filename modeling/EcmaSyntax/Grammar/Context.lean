import EcmaSyntax.Token.Basic

/-!
What the place of a phrase allows. A context is handed down to the parts of a
phrase, and a part cannot change the context around it.
-/

namespace EcmaSyntax.Grammar

structure Context where
  strict : Bool
  module : Bool
  /-- `return` is allowed. -/
  inFunction : Bool
  /-- `yield` is an operator. -/
  inGenerator : Bool
  /-- `await` is an operator. -/
  inAsync : Bool
  inIteration : Bool
  inSwitch : Bool
  /-- The operator `in` is left alone, as in the head of a loop. -/
  disallowIn : Bool
  /-- `super` has properties. -/
  inMethod : Bool
  /-- `super` can be called. -/
  inDerivedConstructor : Bool
  /-- A field initializer or static block, without `arguments`. -/
  inClassField : Bool
  /-- `await` is no name. -/
  inStaticBlock : Bool
  /-- Parameters, without `yield` and `await` expressions. -/
  inParameters : Bool
  newTarget : Bool
  /-- The top level of a module, where imports and exports stand. -/
  topLevel : Bool
deriving DecidableEq, Repr

namespace Context

def ofList (given : List Bool) : Context where
  strict := given.getD 0 false
  module := given.getD 1 false
  inFunction := given.getD 2 false
  inGenerator := given.getD 3 false
  inAsync := given.getD 4 false
  inIteration := given.getD 5 false
  inSwitch := given.getD 6 false
  disallowIn := given.getD 7 false
  inMethod := given.getD 8 false
  inDerivedConstructor := given.getD 9 false
  inClassField := given.getD 10 false
  inStaticBlock := given.getD 11 false
  inParameters := given.getD 12 false
  newTarget := given.getD 13 false
  topLevel := given.getD 14 false

def toList (ctx : Context) : List Bool :=
  [ctx.strict, ctx.module, ctx.inFunction, ctx.inGenerator, ctx.inAsync, ctx.inIteration,
    ctx.inSwitch, ctx.disallowIn, ctx.inMethod, ctx.inDerivedConstructor, ctx.inClassField,
    ctx.inStaticBlock, ctx.inParameters, ctx.newTarget, ctx.topLevel]

theorem ofList_toList (ctx : Context) : ofList ctx.toList = ctx := rfl

def none : Context := ofList []

/-- The context with one flag, by its place. -/
def single (index : Nat) : Context := ofList (List.replicate index false ++ [true])

/-- Every flag of either context. -/
def union (a b : Context) : Context := ofList (List.zipWith (· || ·) a.toList b.toList)

/-- The flags of the first context that the second lacks. -/
def diff (a b : Context) : Context := ofList (List.zipWith (· && !·) a.toList b.toList)

def bitsOf : List Bool → Nat
  | [] => 0
  | flag :: rest => (if flag then 1 else 0) + 2 * bitsOf rest

/-- The flags as one number, a bit for each. -/
def toBits (ctx : Context) : Nat := bitsOf ctx.toList

/-- Flags that end at any function. -/
def functionReset : Context :=
  { none with
    inGenerator := true
    inAsync := true
    inIteration := true
    inSwitch := true
    disallowIn := true
    inParameters := true
    inStaticBlock := true
    topLevel := true }

/-- Flags that end at a function with its own `this`. -/
def thisBound : Context :=
  { none with inMethod := true, inDerivedConstructor := true, inClassField := true }

def allowsIn (ctx : Context) : Bool := !ctx.disallowIn

/-- `await` is reserved in modules, async functions and static blocks. -/
def awaitIsReserved (ctx : Context) : Bool := ctx.module || ctx.inAsync || ctx.inStaticBlock

/-- `yield` is reserved in strict code and generators. -/
def yieldIsReserved (ctx : Context) : Bool := ctx.strict || ctx.inGenerator

/-- The context of the parameters and body of a function that is no arrow. -/
def enterFunction (ctx : Context) (isAsync isGenerator : Bool) : Context :=
  { (ctx.diff functionReset).diff thisBound with
    inFunction := true
    newTarget := true
    inAsync := isAsync
    inGenerator := isGenerator }

/-- The context of the parameters and body of an arrow function, which keeps
`this`, `super` and `new.target`. -/
def enterArrow (ctx : Context) (isAsync : Bool) : Context :=
  { ctx.diff functionReset with inFunction := true, inAsync := isAsync }

/-- Strength of a token as a binary operator here. -/
def binaryStrength (ctx : Context) (t : Token) : Nat :=
  if t == .inKeyword && ctx.disallowIn then 0 else t.strength

end Context

end EcmaSyntax.Grammar
