import EcmaSyntax.Grammar.Phrases
import EcmaSyntax.Grammar.Function

/-!
Classes and decorators. Class code is strict.
-/

namespace EcmaSyntax.Grammar

open EcmaSyntax.Diagnostic EcmaSyntax.Scope EcmaSyntax.Text EcmaSyntax.Tree

variable {version : Nat} [Unicode.IdentifierChars version]

variable (g : Phrases)

/-- The words before the name of a class element. -/
structure Modifiers where
  isStatic : Bool
  isAsync : Bool
  generator : Bool
  accessor : Option PropertyKind
deriving DecidableEq, Repr

namespace Modifiers

/-- Only plain elements can be fields or constructors. -/
def isPlain (m : Modifiers) : Bool := !m.isAsync && !m.generator && m.accessor.isNone

/-- What a constructor cannot be. -/
def role (m : Modifiers) : String :=
  match m.accessor with
  | some .get => "getter"
  | some .set => "setter"
  | _ => if m.generator then "generator" else "async method"

def methodKind (m : Modifiers) : MethodKind :=
  match m.accessor with
  | some .get => .get
  | some .set => .set
  | _ => .method

def shape (m : Modifiers) : FunctionShape :=
  match m.accessor with
  | some .get => .getter
  | some .set => .setter
  | _ => .method

def privateKind (m : Modifiers) : PrivateKind :=
  match m.accessor with
  | some .get => .getter
  | some .set => .setter
  | _ => .method

end Modifiers

/-- After such a token a word was the name of a class element. -/
def endsElementName (token : Token) : Bool :=
  token == .assign || token == .semicolon || token == .rightBrace || token == .leftParen ||
    token == .endOfSource

/-- The current word says something about the element that follows. -/
def atModifier (token : Token) : Parser Bool :=
  atWord token <&&> return !endsElementName (← peekToken)

/-- The context of field initializers and static blocks, which have their own
`this` and properties of `super`. -/
def initializerContext (ctx : Context) : Context :=
  { ctx.diff Context.functionReset with
    inDerivedConstructor := false
    inFunction := false
    inClassField := true
    inMethod := true
    newTarget := true }

/-- The words before the name of an element that is no static block. -/
def modifiers (isStatic : Bool) : Parser Modifiers := do
  let isAsync ← atModifier .asyncKeyword <&&> return !(← peekNext).2.lineBreakBefore
  if isAsync then next
  let generator ← accept .multiply
  if isAsync || generator then return ⟨isStatic, isAsync, generator, none⟩
  if ← atModifier .getKeyword then
    next
    return ⟨isStatic, false, false, some .get⟩
  if ← atModifier .setKeyword then
    next
    return ⟨isStatic, false, false, some .set⟩
  return ⟨isStatic, false, false, none⟩

/-- Declare a private name of the current class. -/
def declarePrivate (key : Expression) (kind : PrivateKind) (isStatic : Bool) (offset : Nat) :
    Parser Unit := do
  match key with
  | .privateIdentifier id =>
    match (← get).privateNames.declare id.name kind isStatic offset with
    | .error error => throw error.failure
    | .ok names => modify fun s => { s with privateNames := names }
  | _ => pure ()

def isConstructor : ClassElement → Bool
  | .method _ _ _ _ kind _ _ => kind == .constructor
  | _ => false

/-- A static block, at its brace. -/
def staticBlock (ctx : Context) (start : Nat) : Parser ClassElement := do
  expect .leftBrace
  let inner := { initializerContext ctx with inStaticBlock := true }
  let saved ← get
  modify fun s => { s with labels := [], labelChain := none }
  let body ← inScope [.staticBlock] do
    let body ← g.itemsUpTo .rightBrace (g.listItem inner)
    next
    return body
  modify fun s => { s with labels := saved.labels, labelChain := saved.labelChain }
  return .staticBlock (← spanFrom start) body

/-- A decorator after its sign. -/
def decoratorExpression (ctx : Context) : Parser Expression := do
  let start ← currentStart
  if ← accept .leftParen then
    let e ← g.expression ctx.withIn
    expect .rightParen
    return e
  if !(← currentToken).isIdentifier then unexpected
  checkReference ctx (← currentValue) start
  let name ← identifier
  let path ← iterate (fun object => do
    if ← accept .dot then
      let property ← memberName
      return some (.member (← spanFrom start) object property false false)
    else return none) g.size (Expression.identifier name)
  if ← atToken .leftParen then
    let args ← arguments g ctx
    return .call (← spanFrom start) path args false
  else return path

def decorators (ctx : Context) : Parser (List Decorator) :=
  g.collect fun _ => do
    let start ← currentStart
    if ← accept .at then
      let e ← decoratorExpression g ctx
      return .more ⟨← spanFrom start, e⟩
    else return .stop

/-- A method after its name. -/
def classMethod (ctx : Context) (derived : Bool) (earlier : List ClassElement)
    (decorators : List Decorator) (start : Nat) (m : Modifiers) (key : Expression)
    (computed : Bool) (keyStart : Nat) : Parser ClassElement := do
  let name := if computed then none else key.staticKey?
  let isConstructing := !m.isStatic && name == some "constructor"
  if isConstructing then
    if !m.isPlain then failAt (.invalidConstructor m.role) keyStart
    if earlier.any isConstructor then failAt .duplicateConstructor keyStart
  let kind := if isConstructing then .constructor else m.methodKind
  let shape :=
    if isConstructing then if derived then .derivedConstructor else .constructor else m.shape
  declarePrivate key m.privateKind m.isStatic keyStart
  let value ← methodFunction g ctx m.isAsync m.generator shape
  return .method (← spanFrom start) m.isStatic computed key kind value decorators

/-- A field after its name. -/
def classField (ctx : Context) (decorators : List Decorator) (start : Nat) (m : Modifiers)
    (key : Expression) (computed : Bool) (keyStart : Nat) : Parser ClassElement := do
  if !m.isPlain then unexpected
  if !computed && key.staticKey? == some "constructor" then failAt .constructorField keyStart
  declarePrivate key .field m.isStatic keyStart
  let value ←
    if ← accept .assign then some <$> g.assignment (initializerContext ctx) else pure none
  endStatement
  return .field (← spanFrom start) m.isStatic computed key value decorators

/-- An element of a class that has the earlier ones already. -/
def classElement (ctx : Context) (derived : Bool) (earlier : List ClassElement) :
    Parser ClassElement := do
  let start ← currentStart
  let found ←
    if g.options.next && (← atToken .at) then decorators g ctx else pure []
  let isStatic ← atModifier .staticKeyword
  if isStatic then
    next
    if ← atToken .leftBrace then
      if !found.isEmpty then failAt .invalidDecoratorPosition start
      return ← staticBlock g ctx start
  let m ← modifiers isStatic
  let keyStart ← currentStart
  let (key, computed) ← propertyKey g ctx true
  if isStatic && !computed && key.staticKey? == some "prototype" then
    failAt .staticPrototype keyStart
  if ← atToken .leftParen then
    classMethod g ctx derived earlier found start m key computed keyStart
  else classField g ctx found start m key computed keyStart

/-- The braces of a class and what stands between them. -/
def classBody (ctx : Context) (derived : Bool) : Parser (Span × List ClassElement) := do
  let start ← currentStart
  expect .leftBrace
  modify fun s => { s with privateNames := s.privateNames.enterClass }
  let elements ← inScope [.classScope] do
    let elements ← g.collect fun (earlier : List (Option ClassElement)) => do
      if ← atToken .rightBrace then return .stop
      if ← accept .semicolon then return .more none
      if ← atToken .endOfSource then unexpected
      return .more (some (← classElement g ctx derived (earlier.filterMap id)))
    next
    return elements.filterMap id
  let (found, names) := (← get).privateNames.exitClass
  modify fun s => { s with privateNames := names }
  ofScope found
  return (← spanFrom start, elements)

/-- A class, which may lack a name as an expression or a default export. -/
def classDefinition (ctx : Context) (start : Nat) (isDeclaration : Bool)
    (decorators : List Decorator) (isDefaultExport : Bool) : Parser ClassDefinition := do
  expect .classKeyword
  let inner := { ctx with strict := true }
  let id : Option Identifier ←
    if (← currentToken).isIdentifier then
      let nameStart ← currentStart
      let name ← currentValue
      checkBinding inner .className name nameStart
      if isDeclaration then declare g.options inner .className name nameStart
      some <$> identifier
    else if isDeclaration && !isDefaultExport then fail .classNameRequired
    else pure none
  let superClass : Option Expression ←
    if ← accept .extendsKeyword then
      let heritage ← g.leftHandSide inner
      checkCover heritage
      pure (some heritage)
    else pure none
  let (bodySpan, elements) ← classBody g inner superClass.isSome
  plainExpression
  return ⟨← spanFrom start, id, superClass, bodySpan, elements, decorators⟩

end EcmaSyntax.Grammar
