import EcmaSyntax.Print.Literal
import EcmaSyntax.Tree.Basic

/-!
Where parentheses are needed. An expression is written for a place, which
says how tightly it must bind, what it must not look like at its start, and
whether a bare `in` would end the head of a loop.
-/

namespace EcmaSyntax.Print

open EcmaSyntax.Tree

/-- How tightly an expression binds. A `new` expression counts as a member,
since it is always written with arguments. -/
def precedence : Expression → Precedence
  | .sequence _ _ => .comma
  | .assignment _ _ _ _ | .arrow _ _ _ _ | .blockArrow _ _ _ _ _ | .yield _ _ _ => .assignment
  | .conditional _ _ _ _ => .conditional
  | .logical _ _ operator _ => (Precedence.ofBinary? operator.token).getD .logicalOr
  | .binary _ _ operator _ => (Precedence.ofBinary? operator.token).getD .relational
  | .unary _ _ _ | .await _ _ => .unary
  | .update _ _ isBefore _ => if isBefore then .unary else .update
  | .call _ _ _ _ | .importCall _ _ _ | .chain _ _ => .leftHandSide
  | .newCall _ _ _ | .member _ _ _ _ _ | .taggedTemplate _ _ _ _ _ | .metaProperty _ _ _ =>
    .member
  | _ => .primary

/-- What an expression must not start with. -/
inductive Guard where
  | none
  /-- An expression statement: a brace, `function`, `class` or `let`. -/
  | statement
  /-- The body of an arrow function: a brace. -/
  | arrowBody
  /-- A default export: `function` or `class`. -/
  | exportDefault
  /-- The head of a loop: `let`. -/
  | forHead
deriving DecidableEq, Repr

def isLetName : Expression → Bool
  | .identifier id => id.name == "let"
  | _ => false

def isObject : Expression → Bool
  | .object _ _ => true
  | _ => false

/-- An assignment to an object pattern starts with a brace. -/
def assignsObject : Expression → Bool
  | .assignment _ _ (.object _ _) _ => true
  | _ => false

def isFunctionOrClass : Expression → Bool
  | .function _ | .classExpression _ => true
  | _ => false

/-- The expression would be read as something else. -/
def Guard.refuses (guard : Guard) (e : Expression) : Bool :=
  match guard with
  | .none => false
  | .statement => isObject e || isFunctionOrClass e || isLetName e || assignsObject e
  | .arrowBody => isObject e || assignsObject e
  | .exportDefault => isFunctionOrClass e
  | .forHead => isLetName e

structure Place where
  /-- Levels of indentation. -/
  level : Nat
  least : Precedence
  guard : Guard
  /-- A bare `in` would be misread. -/
  noIn : Bool
  /-- Parentheses are written in any case. -/
  forced : Bool
deriving DecidableEq, Repr

namespace Place

/-- A place with nothing before it to be confused with. -/
def free (level : Nat) (least : Precedence) : Place := ⟨level, least, .none, false, false⟩

/-- A place at the start of something. -/
def guarded (level : Nat) (least : Precedence) (guard : Guard) : Place :=
  ⟨level, least, guard, false, false⟩

/-- The place of the first part of what stands here. -/
def first (p : Place) (least : Precedence) : Place := { p with least := least, forced := false }

/-- The place of a later part. -/
def inner (p : Place) (least : Precedence) : Place :=
  { p with least := least, guard := .none, forced := false }

/-- The place of a later part that gets parentheses. -/
def enclosed (p : Place) : Place := { p with guard := .none, forced := true }

/-- The place inside of a body, where the head of a loop is far away. -/
def deeper (p : Place) (least : Precedence) (guard : Guard) : Place :=
  { p with least := least, guard := guard, forced := false }

def isInOperation : Expression → Bool
  | .binary _ _ operator _ => operator == .inOperator
  | _ => false

/-- The expression needs parentheses here. -/
def encloses (p : Place) (e : Expression) : Bool :=
  p.forced || decide (precedence e < p.least) || p.guard.refuses e || (p.noIn && isInOperation e)

/-- The place of the parts of an expression, given whether it has parentheses. -/
def within (p : Place) (isEnclosed : Bool) : Place :=
  if isEnclosed then free p.level .comma else p

/-- The place of an expression to which something is applied. A finished
optional chain has to stay closed off. -/
def callee (p : Place) (e : Expression) : Place :=
  match e with
  | .chain _ _ => { p with forced := true }
  | _ => p.first .leftHandSide

/-- The place of an object before one of its members. -/
def object (p : Place) (computed : Bool) (e : Expression) : Place :=
  match e with
  | .literal lit =>
    if !computed && isBareInteger (numericText lit) then { p with forced := true }
    else p.callee e
  | _ => p.callee e

end Place

/-- A call anywhere along a path would end the callee of `new` early. -/
def containsCall : Expression → Bool
  | .call _ _ _ _ | .chain _ _ | .importCall _ _ _ => true
  | .member _ object _ _ _ => containsCall object
  | .taggedTemplate _ tag _ _ _ => containsCall tag
  | _ => false

/-- A decorator without parentheses: a path, perhaps called. -/
def isPlainDecorator : Expression → Bool
  | .identifier _ => true
  | .member _ object _ computed optional => !computed && !optional && isPlainDecorator object
  | .call _ callee _ optional => !optional && isPlainDecorator callee
  | _ => false

/-- The place of the callee of `new`. -/
def Place.constructor (p : Place) (e : Expression) : Place :=
  if containsCall e then p.enclosed else p.inner .member

/-- The place of a decorator. -/
def Place.decorator (p : Place) (e : Expression) : Place :=
  if isPlainDecorator e then p.inner .leftHandSide else p.enclosed

/-- Coalescing is not mixed with the other logical operators. -/
def mixes (operator : LogicalOperator) : Expression → Bool
  | .logical _ _ other _ => (operator == .coalesce) != (other == .coalesce)
  | _ => false

/-- Text with parentheses if they are needed. -/
def parens (isEnclosed : Bool) (text : String) : String :=
  if isEnclosed then "(" ++ text ++ ")" else text

end EcmaSyntax.Print
