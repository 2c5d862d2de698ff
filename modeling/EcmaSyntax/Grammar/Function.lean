import EcmaSyntax.Grammar.Binding

/-!
Bodies with directives, and functions. Whether repeated parameters are an
error is known only after the body, which may turn strict.
-/

namespace EcmaSyntax.Grammar

open EcmaSyntax.Diagnostic EcmaSyntax.Scope EcmaSyntax.Text EcmaSyntax.Tree

variable {version : Nat} [Unicode.IdentifierChars version]

variable (g : Phrases)

structure Prologue where
  ctx : Context
  /-- Where the first directive with an octal escape stands. -/
  octalEscape : Option Nat

/-- Take a directive into account: `use strict` makes the code strict. -/
def Prologue.add (prologue : Prologue) (simpleParams : Bool) (directive : String) (start : Nat)
    (hasOctalEscape : Bool) : Parser Prologue := do
  let octalEscape := prologue.octalEscape <|> if hasOctalEscape then some start else none
  if directive == "use strict" then
    if !simpleParams then failAt .illegalUseStrict start
    match octalEscape with
    | some offset => failAt .strictOctalEscape offset
    | none => return ⟨{ prologue.ctx with strict := true }, none⟩
  else return ⟨prologue.ctx, octalEscape⟩

/-- The text between the quotation marks of a string. -/
def unquoted (raw : List Char) : String := String.ofList ((raw.drop 1).dropLast)

/-- A statement at a string, and whether it is a directive. -/
def directive (ctx : Context) : Parser (Statement × Bool) := do
  let s ← get
  let statement ← g.listItem ctx
  match statement with
  | .expression span (.literal lit) _ =>
    if lit.span == s.lexer.span then
      return (.expression span (.literal lit) (some (unquoted s.lexer.raw)), true)
    else return (statement, false)
  | _ => return (statement, false)

/-- The directives at the start of a body, followed by at most one statement
that starts with a string, and the context after them. -/
def prologue (ctx : Context) (simpleParams : Bool) : Parser (List Statement × Context) := do
  let found ← g.collect fun (earlier : List (Statement × Prologue)) => do
    let before := (earlier.head?.map Prod.snd).getD ⟨ctx, none⟩
    if !(← atToken .stringLiteral) then return .stop
    let s ← get
    let (statement, isDirective) ← directive g before.ctx
    if isDirective then
      let after ← before.add simpleParams (unquoted s.lexer.raw) s.start s.lexer.flags.octalEscape
      return .more (statement, after)
    else return .last (statement, before)
  return (found.map Prod.fst, (found.getLast?.map fun entry => entry.2.ctx).getD ctx)

/-- Directives and statements up to a closing token, and the context after the
directives. -/
def bodyStatements (ctx : Context) (simpleParams : Bool) (close : Token) :
    Parser (List Statement × Context) := do
  let (directives, ctx) ← prologue g ctx simpleParams
  let statements ← g.itemsUpTo close (g.listItem ctx)
  return (directives ++ statements, ctx)

/-- A phrase that labels outside it do not reach, nor marks of `yield` and
`await`. -/
def asFunction {α : Type} (phrase : Parser α) : Parser α := do
  let saved ← get
  modify fun s => { s with
    labels := []
    labelChain := none
    lastYield := none
    lastAwait := none
    lastAwaitName := none }
  let a ← phrase
  modify fun s => { s with
    labels := saved.labels
    labelChain := saved.labelChain
    lastYield := saved.lastYield
    lastAwait := saved.lastAwait
    lastAwaitName := saved.lastAwaitName }
  return a

def formalParameters (ctx : Context) : Parser (List Pattern) := do
  expect .leftParen
  let params ← g.collect fun _ => do
    match ← currentToken with
    | .rightParen => return .stop
    | .ellipsis =>
      let (span, argument) ← bindingRest g ctx .parameter .rightParen
      return .last (.rest span argument)
    | _ =>
      let param ← bindingElement g ctx .parameter
      Phrases.separator .rightParen
      return .more param
  expect .rightParen
  return params

/-- A getter has no parameter and a setter has one. -/
def checkParameterCount (shape : FunctionShape) (params : List Pattern) (start : Nat) :
    Parser Unit :=
  match shape, params with
  | .getter, [] => pure ()
  | .getter, _ => failAt .getterParameters start
  | .setter, [.rest span _] => failAt .setterRestParameter span.start
  | .setter, [_] => pure ()
  | .setter, _ => failAt .setterParameters start
  | _, _ => pure ()

/-- Fail over parameters, which are kept for whoever asks about the failure. -/
def refuseParameters (list : ParameterList) (failure : Failure) : Parser Unit := do
  modify fun s => { s with refused := some list }
  throw failure

/-- Fail with the first repeated parameter of the scope at a depth, if there
is one and parameters are unique. -/
def settleParameters (depth : Nat) (list : ParameterList) : Parser Unit := do
  let (deferred, scopes) := (← get).scopes.takeDeferred depth
  modify fun s => { s with scopes := scopes }
  match deferred with
  | some error => if list.isUnique then refuseParameters list error.failure
  | none => pure ()

structure FunctionParts where
  params : List Pattern
  bodySpan : Span
  body : List Statement

/-- Parameters and body of a function that is no arrow, whose own context is
given. -/
def functionParts (ctx : Context) (shape : FunctionShape) (name : Option Identifier) :
    Parser FunctionParts := asFunction <| inScope [.functionParams] do
  let depth := (← get).scopes.depth
  let paramsStart ← currentStart
  let params ← formalParameters g { ctx with inParameters := true }
  checkParameterCount shape params paramsStart
  let simple := params.all Pattern.isSimple
  let bodyStart ← currentStart
  expect .leftBrace
  let (body, bodyCtx) ← inScope [.functionBody] do
    let found ← bodyStatements g ctx simple .rightBrace
    expect .rightBrace
    return found
  settleParameters depth ⟨paramsStart, .function shape bodyCtx.strict, ctx, params⟩
  if bodyCtx.strict && !ctx.strict then
    params.forM (checkBoundNames bodyCtx .parameter)
    name.forM fun id => checkBinding bodyCtx .varName id.name id.span.start
  return ⟨params, ← spanFrom bodyStart, body⟩

/-- Functions declared directly in a function or script belong to it; others
belong to their block. -/
def functionBindingKind (ctx : Context) : Parser BindingKind := do
  let frame := (← get).scopes.current
  if frame.has (fun role => role == .functionBody || role == .staticBlock) ||
      (frame.has (· == .topLevel) && !ctx.module) then
    return .functionVar
  else return .functionLexical

/-- The words that start a function, and whether it is a generator. -/
def functionStart (isAsync : Bool) : Parser Bool := do
  if isAsync then next
  expect .functionKeyword
  accept .multiply

/-- A function declaration, which may lack a name only as a default export. -/
def functionDeclaration (ctx : Context) (isAsync nameRequired : Bool) :
    Parser Tree.Function := do
  let start ← currentStart
  let generator ← functionStart isAsync
  let token ← currentToken
  let id : Option Identifier ←
    if token.isIdentifier then
      let nameStart ← currentStart
      let name ← currentValue
      let kind ← functionBindingKind ctx
      checkBinding ctx kind name nameStart
      declare g.options ctx kind name nameStart
      some <$> identifier
    else if nameRequired then
      if token.isReserved && !(← isEscaped) then fail (.unexpectedReservedWord (← currentRaw))
      else fail .functionNameRequired
    else pure none
  let parts ← functionParts g (ctx.enterFunction isAsync generator) .plain id
  return ⟨← spanFrom start, id, generator, isAsync, parts.params, parts.bodySpan, parts.body⟩

/-- A function expression. Its name obeys the rules inside the function. -/
def functionExpression (ctx : Context) (start : Nat) (isAsync : Bool) : Parser Expression := do
  let generator ← functionStart isAsync
  let inner := ctx.enterFunction isAsync generator
  let id : Option Identifier ←
    if (← currentToken).isIdentifier then
      checkBinding inner .varName (← currentValue) (← currentStart)
      some <$> identifier
    else pure none
  let parts ← functionParts g inner .plain id
  plainExpression
  return .function
    ⟨← spanFrom start, id, generator, isAsync, parts.params, parts.bodySpan, parts.body⟩

/-- A method from its parameters on. -/
def methodFunction (ctx : Context) (isAsync generator : Bool) (shape : FunctionShape) :
    Parser Tree.Function := do
  let start ← currentStart
  let inner := { ctx.enterFunction isAsync generator with
    inMethod := true
    inDerivedConstructor := shape == .derivedConstructor }
  let parts ← functionParts g inner shape none
  return ⟨← spanFrom start, none, generator, isAsync, parts.params, parts.bodySpan, parts.body⟩

end EcmaSyntax.Grammar
