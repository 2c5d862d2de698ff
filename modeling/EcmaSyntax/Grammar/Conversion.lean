import EcmaSyntax.Grammar.Name
import EcmaSyntax.Tree.Basic

/-!
Literals turned into patterns, and what keeps a literal from being an expression. The left side of
an assignment and the parameters of an arrow function are read as expressions first. Turning one
into a pattern needs the tree, the places of parentheses, and the places where a comma follows a
spread element. A shorthand property with an initializer, or a second prototype, keeps a literal
from being an expression: the cover state says that there is one, and the tree says where.
-/

namespace EcmaSyntax.Grammar

open EcmaSyntax.Diagnostic EcmaSyntax.Text EcmaSyntax.Tree

variable {version : Nat} [Unicode.IdentifierChars version]

/-- What a pattern is for. -/
inductive PatternUse where
  /-- Members are targets too. -/
  | assignment
  /-- Only names are bound. -/
  | binding
deriving DecidableEq, Repr

structure Conversion where
  use : PatternUse
  ctx : Context
  uniqueKeys : Bool
  parenthesized : List Nat
  spreadsBeforeComma : List Nat

namespace Conversion

def standsInParens (c : Conversion) (e : Expression) : Bool := c.parenthesized.contains e.start

def invalidTarget {α : Type} (offset : Nat) : Except Failure α :=
  .error ⟨.invalidDestructuringTarget, offset⟩

/-- A name may be the target of the pattern. -/
def checkName (c : Conversion) (id : Identifier) : Except Failure Unit :=
  refuse id.span.start <|
    match c.use with
    | .binding => bindingFault? c.ctx .parameter id.name
    | .assignment => targetFault? c.ctx id.name

/-- A target in parentheses: only names and members that are assigned to. -/
def parenthesizedTarget (c : Conversion) (e : Expression) : Except Failure Pattern :=
  match c.use, e.withoutParens with
  | .assignment, .identifier id => do
    c.checkName id
    return .identifier id
  | .assignment, .member span object property computed optional =>
    return .member span object property computed optional
  | _, _ => invalidTarget e.start

/-- A rest element stands last, and no comma follows it. -/
def checkRest (c : Conversion) (span : Span) (isLast : Bool) : Except Failure Unit :=
  if c.spreadsBeforeComma.contains span.start then .error ⟨.restTrailingComma, span.stop⟩
  else if isLast then .ok ()
  else .error ⟨.restMustBeLast, span.start⟩

/-- A rest element has no initializer. -/
def checkRestArgument (c : Conversion) (e : Expression) : Except Failure Unit :=
  match e with
  | .assignment _ _ _ _ =>
    if c.standsInParens e then .ok () else .error ⟨.restWithInitializer, e.start⟩
  | _ => .ok ()

end Conversion

/-- The property names of a pattern seen so far with one more, which must be
new if names are to be unique. -/
def noteKey (unique : Bool) (keys : List String) (key : Expression) :
    Except Failure (List String) :=
  match key.staticKey? with
  | none => .ok keys
  | some name =>
    if unique && keys.contains name then .error ⟨.duplicatePatternKey name, key.start⟩
    else .ok (name :: keys)

mutual

/-- A pattern made earlier for an assignment may be used as this one is. -/
def checkPattern (c : Conversion) : Pattern → Except Failure Unit
  | .identifier id => c.checkName id
  | .member span _ _ _ _ =>
    match c.use with
    | .assignment => .ok ()
    | .binding => Conversion.invalidTarget span.start
  | .array _ elements => checkPatterns c elements
  | .object _ properties => checkPatternProperties c properties
  | .rest _ argument => checkPattern c argument
  | .withDefault _ left _ => checkPattern c left
  | .hole => .ok ()

def checkPatterns (c : Conversion) : List Pattern → Except Failure Unit
  | [] => .ok ()
  | pattern :: rest => do
    checkPattern c pattern
    checkPatterns c rest

def checkPatternProperties (c : Conversion) : List PatternProperty → Except Failure Unit
  | [] => .ok ()
  | .property _ _ value _ _ :: rest => do
    checkPattern c value
    checkPatternProperties c rest
  | .rest _ argument :: rest => do
    checkPattern c argument
    checkPatternProperties c rest

end

mutual

/-- The pattern that an expression stands for. -/
def toPattern (c : Conversion) (e : Expression) : Except Failure Pattern :=
  match e with
  | .parenthesized _ _ => c.parenthesizedTarget e
  | .identifier id =>
    if c.standsInParens e then c.parenthesizedTarget e
    else do
      c.checkName id
      return .identifier id
  | .member span object property computed optional =>
    if c.standsInParens e then c.parenthesizedTarget e
    else if c.use == .assignment then return .member span object property computed optional
    else Conversion.invalidTarget e.start
  | .array span elements =>
    if c.standsInParens e then c.parenthesizedTarget e
    else do return .array span (← toPatterns c elements)
  | .object span members =>
    if c.standsInParens e then c.parenthesizedTarget e
    else do return .object span (← toProperties c [] members)
  | .assignment span operator left right =>
    if c.standsInParens e then c.parenthesizedTarget e
    else if operator == .assign then do
      checkPattern c left
      return .withDefault span left right
    else Conversion.invalidTarget e.start
  | _ => Conversion.invalidTarget e.start

def toPatterns (c : Conversion) : List Element → Except Failure (List Pattern)
  | [] => .ok []
  | .hole :: rest => do return .hole :: (← toPatterns c rest)
  | .item e :: rest => do
    let pattern ← toPattern c e
    return pattern :: (← toPatterns c rest)
  | .spread span e :: rest => do
    c.checkRest span rest.isEmpty
    c.checkRestArgument e
    let target ← toPattern c e
    return .rest ⟨span.start, e.span.stop⟩ target :: (← toPatterns c rest)

/-- Properties of a pattern after those with the names `keys`. -/
def toProperties (c : Conversion) (keys : List String) :
    List ObjectMember → Except Failure (List PatternProperty)
  | [] => .ok []
  | .property span key value kind method shorthand computed :: rest =>
    if method || kind != .init then Conversion.invalidTarget span.start
    else do
      let keys ← if computed then pure keys else noteKey c.uniqueKeys keys key
      let target ← toPattern c value
      return .property span key target shorthand computed :: (← toProperties c keys rest)
  | .spread span e :: rest => do
    c.checkRest span rest.isEmpty
    let target ← toPattern c e
    match target with
    | .identifier _ | .member _ _ _ _ _ =>
      return .rest span target :: (← toProperties c keys rest)
    | _ => Conversion.invalidTarget e.start

end

/-- The pattern of the rest parameter that starts at an offset. -/
def toRestPattern (c : Conversion) (start : Nat) (e : Expression) : Except Failure Pattern := do
  c.checkRestArgument e
  let target ← toPattern c e
  return .rest ⟨start, e.span.stop⟩ target

mutual

/-- Where the first shorthand property with an initializer stands. -/
def shorthandInitializer? : Expression → Option Nat
  | .array _ elements => shorthandInitializerOfElements? elements
  | .object _ members => shorthandInitializerOfMembers? members
  | _ => none

def shorthandInitializerOfElements? : List Element → Option Nat
  | [] => none
  | .item e :: rest => shorthandInitializer? e <|> shorthandInitializerOfElements? rest
  | .spread _ e :: rest => shorthandInitializer? e <|> shorthandInitializerOfElements? rest
  | .hole :: rest => shorthandInitializerOfElements? rest

def shorthandInitializerOfMembers? : List ObjectMember → Option Nat
  | [] => none
  | .property _ _ value _ _ shorthand _ :: rest =>
    if shorthand then
      match value with
      | .assignment span _ _ _ => some span.start
      | _ => shorthandInitializerOfMembers? rest
    else shorthandInitializer? value <|> shorthandInitializerOfMembers? rest
  | .spread _ e :: rest => shorthandInitializer? e <|> shorthandInitializerOfMembers? rest

end

/-- A property that sets the prototype, which an object may do once. -/
def setsProto : ObjectMember → Bool
  | .property _ key _ kind method shorthand computed =>
    !computed && !shorthand && !method && kind == .init && key.staticKey? == some "__proto__"
  | .spread _ _ => false

/-- Where the second prototype of an object stands. -/
def secondProto? (members : List ObjectMember) : Option Nat :=
  match (members.filter setsProto).drop 1 with
  | .property _ key _ _ _ _ _ :: _ => some key.start
  | _ => none

mutual

/-- Where the first literal with two prototypes has the second. -/
def repeatedProto? : Expression → Option Nat
  | .array _ elements => repeatedProtoOfElements? elements
  | .object _ members => secondProto? members <|> repeatedProtoOfMembers? members
  | _ => none

def repeatedProtoOfElements? : List Element → Option Nat
  | [] => none
  | .item e :: rest => repeatedProto? e <|> repeatedProtoOfElements? rest
  | .spread _ e :: rest => repeatedProto? e <|> repeatedProtoOfElements? rest
  | .hole :: rest => repeatedProtoOfElements? rest

def repeatedProtoOfMembers? : List ObjectMember → Option Nat
  | [] => none
  | .property _ _ value _ _ _ _ :: rest => repeatedProto? value <|> repeatedProtoOfMembers? rest
  | .spread _ e :: rest => repeatedProto? e <|> repeatedProtoOfMembers? rest

end

/-- Refuse expressions whose cover state makes sense only in a pattern. -/
def checkCovers (cover : Cover) (expressions : List Expression) : Parser Unit := do
  let here ← currentStart
  let fallback := (expressions.head?.map Expression.start).getD here
  if cover.mustDestruct then
    failAt .invalidShorthandInitializer
      ((expressions.findSome? shorthandInitializer?).getD fallback)
  else if cover.repeatsProto then
    failAt .duplicateProto ((expressions.findSome? repeatedProto?).getD fallback)

/-- Refuse the expression just read if it makes sense only as a pattern. -/
def checkCover (e : Expression) : Parser Unit := do checkCovers (← takeCover) [e]

/-- The expression stood in parentheses. -/
def isParenthesized (e : Expression) : Parser Bool :=
  return (← get).parenthesized.contains e.start

/-- An arrow function without parentheses, to which nothing can be applied. -/
def isBareArrow (e : Expression) : Parser Bool :=
  match e with
  | .arrow _ _ _ _ | .blockArrow _ _ _ _ _ => return !(← isParenthesized e)
  | _ => return false

/-- The way to turn expressions into patterns at this point of a parse. -/
def conversion (options : Options) (use : PatternUse) (ctx : Context) : Parser Conversion := do
  let s ← get
  return ⟨use, ctx, options.uniqueKeysInPatterns, s.parenthesized, s.spreadsBeforeComma⟩

end EcmaSyntax.Grammar
