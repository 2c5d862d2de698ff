import EcmaSyntax.Grammar.Operation

/-!
Statements, declarations of functions and classes, and imports and exports. What follows the first
part of the head of a loop decides which of the three forms it has.
-/

namespace EcmaSyntax.Grammar

open EcmaSyntax.Diagnostic EcmaSyntax.Scope EcmaSyntax.Text EcmaSyntax.Tree

variable {version : Nat} [Unicode.IdentifierChars version]

variable (g : Phrases)

/-- After `let` such a token starts a declaration. -/
def startsLetDeclaration (token : Token) : Bool :=
  token.isIdentifier || token == .leftBracket || token == .leftBrace

def atLetDeclaration : Parser Bool :=
  atWord .letKeyword <&&> return startsLetDeclaration (← peekToken)

/-- `async function` on one line. -/
def atAsyncFunction : Parser Bool :=
  atWord .asyncKeyword <&&> do
    let (token, flags) ← peekNext
    return token == .functionKeyword && !flags.lineBreakBefore

/-- `let` that cannot start an expression statement. -/
def atMisplacedLet : Parser Bool :=
  atWord .letKeyword <&&> do
    let (token, flags) ← peekNext
    return token == .leftBracket || (startsLetDeclaration token && !flags.lineBreakBefore)

/-- `import` that is no expression. -/
def atImportDeclaration : Parser Bool :=
  atToken .importKeyword <&&> do
    let token ← peekToken
    return token != .leftParen && token != .dot

/-- Statements in braces, in a scope of their own. -/
def block (ctx : Context) (role : Role) : Parser (Span × List Statement) := do
  let start ← currentStart
  expect .leftBrace
  let body ← inScope [role] do
    let body ← g.itemsUpTo .rightBrace (g.listItem { ctx with topLevel := false })
    next
    return body
  return (← spanFrom start, body)

def variableBinding : VariableKind → BindingKind
  | .varKind => .varName
  | .letKind => .letName
  | .constKind => .constName

/-- Constants and patterns have initializers. -/
def checkInitializer (kind : VariableKind) (declarator : VariableDeclarator) : Parser Unit :=
  if declarator.init.isSome then pure ()
  else if kind == .constKind then failAt .missingConstInitializer declarator.span.start
  else if declarator.id.isSimple then pure ()
  else failAt .missingDestructuringInitializer declarator.span.start

def variableDeclarator (ctx : Context) (kind : VariableKind) : Parser VariableDeclarator := do
  let start ← currentStart
  let target ← g.bindingTarget ctx (variableBinding kind)
  let init ← if ← accept .assign then some <$> g.assignment ctx else pure none
  return ⟨← spanFrom start, target, init⟩

/-- Declarators with commas between them. In the head of a loop initializers
are checked later. -/
def variableDeclarators (ctx : Context) (kind : VariableKind) (inHead : Bool) :
    Parser (List VariableDeclarator) :=
  g.collect fun _ => do
    let declarator ← variableDeclarator g ctx kind
    if !inHead then checkInitializer kind declarator
    if ← accept .comma then return .more declarator
    else return .last declarator

def variableStatement (ctx : Context) (kind : VariableKind) : Parser Statement := do
  let start ← currentStart
  next
  let declarations ← variableDeclarators g ctx kind false
  endStatement
  return .variables (← spanFrom start) kind declarations

def parenExpression (ctx : Context) : Parser Expression := do
  expect .leftParen
  let e ← g.expression ctx.withIn
  expect .rightParen
  return e

def ifStatement (ctx : Context) (start : Nat) : Parser Statement := do
  next
  let test ← parenExpression g ctx
  let consequent ← g.statement ctx .ifBody
  if ← accept .elseKeyword then
    let alternate ← g.statement ctx .ifBody
    return .ifElse (← spanFrom start) test consequent alternate
  else return .ifStatement (← spanFrom start) test consequent

/-- The body of a loop. -/
def loopBody (ctx : Context) : Parser Statement :=
  g.statement { ctx with inIteration := true } .single

def whileStatement (ctx : Context) (start : Nat) : Parser Statement := do
  next
  let test ← parenExpression g ctx
  let body ← loopBody g ctx
  return .whileStatement (← spanFrom start) test body

/-- A semicolon is always inserted after the loop if none stands there. -/
def doWhileStatement (ctx : Context) (start : Nat) : Parser Statement := do
  next
  let body ← loopBody g ctx
  expect .whileKeyword
  let test ← parenExpression g ctx
  if !(← accept .semicolon) then modify State.insertSemicolon
  return .doWhileStatement (← spanFrom start) body test

/-- The label of a jump, which must be open, and that of a loop to continue. -/
def jumpLabel (isContinue : Bool) : Parser Identifier := do
  let name ← currentValue
  match (← get).labels.isIteration? name with
  | none => fail (.undefinedLabel name)
  | some isIteration =>
    if isContinue && !isIteration then fail (.continueTargetNotIteration name)
    identifier

/-- A jump without label stands in a loop, or a switch if it is a break. -/
def checkJump (ctx : Context) (start : Nat) (isContinue : Bool) : Parser Unit :=
  if isContinue then
    if ctx.inIteration then pure () else failAt .illegalContinue start
  else if ctx.inIteration || ctx.inSwitch then pure ()
  else failAt .illegalBreak start

def jump (ctx : Context) (start : Nat) (isContinue : Bool) : Parser Statement := do
  next
  let label : Option Identifier ←
    if (← currentToken).isIdentifier && !(← afterLineBreak) then some <$> jumpLabel isContinue
    else
      checkJump ctx start isContinue
      pure none
  endStatement
  let span ← spanFrom start
  return if isContinue then .continueStatement span label else .breakStatement span label

def returnStatement (ctx : Context) (start : Nat) : Parser Statement := do
  if !ctx.inFunction then fail .illegalReturn
  next
  let token ← currentToken
  let argument : Option Expression ←
    if token == .semicolon || token == .rightBrace || token == .endOfSource ||
        (← afterLineBreak) then pure none
    else some <$> g.expression ctx
  endStatement
  return .returnStatement (← spanFrom start) argument

/-- The statement `"use strict"` with nothing around it. -/
def isUseStrict : Statement → Bool
  | .expression _ (.literal lit) _ => lit.string? == some "use strict" && lit.span.length == 12
  | _ => false

/-- The body may not start like strict code. -/
def withStatement (ctx : Context) (start : Nat) : Parser Statement := do
  if ctx.strict then fail .strictWith
  next
  let object ← parenExpression g ctx
  let body ← g.statement ctx .single
  match body with
  | .block _ (first :: _) => if isUseStrict first then failAt .strictWith start
  | _ => pure ()
  return .withStatement (← spanFrom start) object body

/-- The test of a case, none for the one default. -/
def caseTest (ctx : Context) (earlier : List SwitchCase) : Parser (Option Expression) := do
  match ← currentToken with
  | .caseKeyword =>
    next
    some <$> g.expression ctx.withIn
  | .defaultKeyword =>
    if earlier.any fun c => c.test.isNone then fail .multipleDefaultsInSwitch
    next
    return none
  | _ => unexpected

def endsCase (token : Token) : Bool :=
  token == .caseKeyword || token == .defaultKeyword || token == .rightBrace ||
    token == .endOfSource

def switchCase (ctx : Context) (earlier : List SwitchCase) : Parser SwitchCase := do
  let start ← currentStart
  let test ← caseTest g ctx earlier
  expect .colon
  let inner := { ctx with inSwitch := true, topLevel := false }
  let consequent ← g.collect fun _ => do
    if endsCase (← currentToken) then return .stop
    return .more (← g.listItem inner)
  return ⟨← spanFrom start, test, consequent⟩

def switchStatement (ctx : Context) (start : Nat) : Parser Statement := do
  next
  let discriminant ← parenExpression g ctx
  expect .leftBrace
  let cases ← inScope [.switch] do
    let cases ← g.collect fun earlier => do
      if ← atToken .rightBrace then return .stop
      return .more (← switchCase g ctx earlier)
    next
    return cases
  return .switchStatement (← spanFrom start) discriminant cases

def throwStatement (ctx : Context) (start : Nat) : Parser Statement := do
  next
  if ← afterLineBreak then fail .newlineAfterThrow
  let argument ← g.expression ctx
  endStatement
  return .throwStatement (← spanFrom start) argument

/-- A handler, at its keyword. -/
def catchClause (ctx : Context) : Parser CatchClause := do
  let start ← currentStart
  next
  inScope [.catchParam] do
    let param : Option Pattern ←
      if ← accept .leftParen then
        let kind := if (← currentToken).isIdentifier then .catchSimple else .catchPattern
        let param ← g.bindingTarget ctx kind
        expect .rightParen
        pure (some param)
      else pure none
    let (bodySpan, body) ← block g ctx .catchBody
    match param with
    | none => return .plain (← spanFrom start) bodySpan body
    | some param => return .binding (← spanFrom start) param bodySpan body

def tryStatement (ctx : Context) (start : Nat) : Parser Statement := do
  next
  let (blockSpan, body) ← block g ctx .block
  let handler : Option CatchClause ←
    if ← atWord .catchKeyword then some <$> catchClause g ctx else pure none
  let finalizer : Option (Span × List Statement) ←
    if ← accept .finallyKeyword then some <$> block g ctx .block else pure none
  let span ← spanFrom start
  match handler, finalizer with
  | none, none => fail .missingCatchOrFinally
  | some handler, none => return .tryCatch span blockSpan body handler
  | none, some (finalSpan, final) => return .tryFinally span blockSpan body finalSpan final
  | some handler, some (finalSpan, final) =>
    return .tryCatchFinally span blockSpan body handler finalSpan final

def startsLoop (token : Token) : Bool :=
  token == .forKeyword || token == .whileKeyword || token == .doKeyword

/-- Where the statement after a label stands. -/
def Position.afterLabel : Position → Position
  | .listItem | .labeled => .labeled
  | _ => .single

/-- Open a label. Labels that follow each other name the same statement. -/
def openLabel (name : String) (start : Nat) : Parser Unit := do
  let s ← get
  let chain := s.labelChain.getD s.labels.length
  modify fun s => { s with labelChain := none }
  match s.labels.push? name with
  | none => failAt (.duplicateLabel name) start
  | some labels =>
    modify fun s => { s with labels := labels }
    let token ← currentToken
    if startsLoop token && !(← isEscaped) then
      modify fun s => { s with labels := s.labels.markIteration chain }
    else if token.isIdentifier then
      if (← peekToken) == .colon then modify fun s => { s with labelChain := some chain }

def labeledStatement (ctx : Context) (start : Nat) (position : Position) : Parser Statement := do
  checkReference ctx (← currentValue) start
  let label ← identifier
  expect .colon
  openLabel label.name start
  let body ← g.statement ctx position.afterLabel
  modify fun s => { s with labels := s.labels.pop }
  return .labeled (← spanFrom start) label body

def expressionOrLabeled (ctx : Context) (start : Nat) (position : Position) :
    Parser Statement := do
  let token ← currentToken
  let isLabel ← pure token.isIdentifier <&&> return (← peekToken) == .colon
  if isLabel then return ← labeledStatement g ctx start position
  let e ← g.expression ctx
  endStatement
  return .expression (← spanFrom start) e none

/-- A function where only a statement is expected, which the legacy syntax
allows in an `if` and after a label. -/
def misplacedFunction (ctx : Context) (position : Position) : Parser Statement := do
  if (← peekToken) == .multiply then fail .generatorInSingleStatement
  let allowed := !ctx.strict && g.options.webCompat &&
    (position == .ifBody || position == .labeled)
  if !allowed then fail .functionInSingleStatement
  if position == .ifBody then
    return .function (← inScope [.block] (functionDeclaration g ctx false true))
  else return .function (← functionDeclaration g ctx false true)

/-- A loop with two semicolons, at the first. -/
def forRest (ctx : Context) (start : Nat) (init : ForHead) : Parser Statement := do
  expect .semicolon
  let test ← if ← atToken .semicolon then pure none else some <$> g.expression ctx.withIn
  expect .semicolon
  let update ← if ← atToken .rightParen then pure none else some <$> g.expression ctx.withIn
  expect .rightParen
  let body ← loopBody g ctx
  return .forStatement (← spanFrom start) init test update body

/-- A loop over keys or values, at its keyword. -/
def forEach (ctx : Context) (start : Nat) (left : ForHead) (isOf isAwait : Bool) :
    Parser Statement := do
  next
  let right ← if isOf then g.assignment ctx.withIn else g.expression ctx.withIn
  expect .rightParen
  let body ← loopBody g ctx
  let span ← spanFrom start
  return if isOf then .forOfStatement span isAwait left right body
    else .forInStatement span left right body

/-- A loop over keys or values declares one variable. Only the legacy syntax
has an initializer there. -/
def checkForDeclarators (ctx : Context) (start : Nat) (kind : VariableKind) (isOf : Bool)
    (declarations : List VariableDeclarator) : Parser Unit :=
  let word := if isOf then "of" else "in"
  match declarations with
  | [declarator] =>
    let isLegacy := !isOf && kind == .varKind && g.options.webCompat && !ctx.strict &&
      declarator.id.isSimple
    if declarator.init.isSome && !isLegacy then
      failAt (.forInOfInitializer word) declarator.span.start
    else pure ()
  | _ => failAt (.forInOfSingleBinding word) start

/-- The keyword of a loop over keys or values: whether it is `of`, if there is
one. -/
def forKeyword? : Parser (Option Bool) := do
  if ← atWord .ofKeyword then return some true
  else if ← atToken .inKeyword then return some false
  else return none

/-- An asynchronous loop is over values. -/
def checkAwait (isAwait : Bool) (isOf : Option Bool) : Parser Unit := do
  if isAwait && isOf != some true then fail .forAwaitRequiresOf

/-- A head with a declaration. -/
def forVariables (ctx : Context) (start : Nat) (isAwait : Bool) (kind : VariableKind) :
    Parser Statement := do
  let initStart ← currentStart
  next
  let declarations ← variableDeclarators g { ctx with disallowIn := true } kind true
  let head := ForHead.variables (← spanFrom initStart) kind declarations
  let isOf ← forKeyword?
  checkAwait isAwait isOf
  match isOf with
  | some isOf =>
    checkForDeclarators g ctx initStart kind isOf declarations
    forEach g ctx start head isOf isAwait
  | none =>
    declarations.forM (checkInitializer kind)
    forRest g ctx start head

/-- The name `async` at an offset. -/
def isBareAsync (e : Expression) (start : Nat) : Bool :=
  match e with
  | .identifier id => id.name == "async" && id.span == ⟨start, start + 5⟩
  | _ => false

/-- A head with an expression. -/
def forExpression (ctx : Context) (start : Nat) (isAwait : Bool) : Parser Statement := do
  let initStart ← currentStart
  let startsWithLet ← atWord .letKeyword
  let inner := { ctx with disallowIn := true }
  let e ← g.assignmentCover inner
  let isOf ← forKeyword?
  checkAwait isAwait isOf
  match isOf with
  | some isOf =>
    if isOf && startsWithLet then failAt .forOfLet initStart
    if isOf && !isAwait && isBareAsync e initStart && !(← isParenthesized e) then
      failAt .forOfAsync initStart
    let target ← patternTarget g ctx e (.invalidForInOfTarget (if isOf then "of" else "in"))
    forEach g ctx start (.pattern target) isOf isAwait
  | none =>
    checkCover e
    let init ← g.sequenceAfter inner initStart e
    forRest g ctx start (.expression init)

/-- The kind of the declaration in a head, if there is one. -/
def forDeclaration? : Parser (Option VariableKind) := do
  if ← atToken .varKeyword then return some .varKind
  else if ← atWord .constKeyword then return some .constKind
  else if ← atLetDeclaration then return some .letKind
  else return none

def forHead (ctx : Context) (start : Nat) (isAwait : Bool) : Parser Statement := do
  if ← atToken .semicolon then
    checkAwait isAwait none
    return ← forRest g ctx start .nothing
  match ← forDeclaration? with
  | some kind => forVariables g ctx start isAwait kind
  | none => forExpression g ctx start isAwait

def forStatement (ctx : Context) (start : Nat) : Parser Statement := do
  next
  let isAwait ← atWord .awaitKeyword
  if isAwait then
    if !ctx.inAsync then unexpected
    let offset ← currentStart
    modify fun s => { s with lastAwait := some offset }
    next
  expect .leftParen
  inScope [.forHead] (forHead g ctx start isAwait)

end EcmaSyntax.Grammar
