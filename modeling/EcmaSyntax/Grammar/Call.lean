import EcmaSyntax.Grammar.Primary

/-!
Members, calls, tagged templates and optional chains, `new`, `super`, and the
two expressions that start with `import`.
-/

namespace EcmaSyntax.Grammar

open EcmaSyntax.Diagnostic EcmaSyntax.Text EcmaSyntax.Tree

variable {version : Nat} [Unicode.IdentifierChars version]

variable (g : Phrases)

/-- An expression with what has been applied to it so far. -/
structure Chain where
  expression : Expression
  /-- A part of it is optional. -/
  isOptional : Bool

/-- The property between brackets, at the opening one. -/
def computedProperty (ctx : Context) : Parser Expression := do
  next
  let property ← g.expression ctx.withIn
  expect .rightBracket
  return property

/-- What follows the sign of an optional part. -/
def optionalLink (ctx : Context) (start : Nat) (object : Expression) : Parser Expression := do
  match ← currentToken with
  | .leftParen =>
    let args ← arguments g ctx
    return .call (← spanFrom start) object args true
  | .leftBracket =>
    let property ← computedProperty g ctx
    return .member (← spanFrom start) object property true true
  | .noSubstitutionTemplate | .templateHead => fail .optionalChainTemplate
  | _ =>
    let property ← memberName
    return .member (← spanFrom start) object property false true

/-- One more application to an expression that starts at an offset, if there
is one. -/
def chainLink (ctx : Context) (start : Nat) (allowCalls : Bool) (chain : Chain) :
    Parser (Option Chain) := do
  let object := chain.expression
  match ← currentToken with
  | .dot =>
    checkCover object
    next
    let property ← memberName
    setAssignable !chain.isOptional
    return some { chain with expression := .member (← spanFrom start) object property false false }
  | .leftBracket =>
    checkCover object
    let property ← computedProperty g ctx
    setAssignable !chain.isOptional
    return some { chain with expression := .member (← spanFrom start) object property true false }
  | .leftParen =>
    if allowCalls then
      checkCover object
      let args ← arguments g ctx
      setAssignable false
      return some { chain with expression := .call (← spanFrom start) object args false }
    else return none
  | .questionDot =>
    if !allowCalls then fail .optionalChainNew
    checkCover object
    next
    let e ← optionalLink g ctx start object
    setAssignable false
    return some ⟨e, true⟩
  | .noSubstitutionTemplate | .templateHead =>
    if chain.isOptional then fail .optionalChainTemplate
    checkCover object
    let parts ← template g ctx true
    setAssignable false
    let span ← spanFrom start
    return some { chain with
      expression := .taggedTemplate span object parts.span parts.quasis parts.expressions }
  | _ => return none

/-- Everything applied to an expression that starts at an offset. -/
def callTail (ctx : Context) (start : Nat) (e : Expression) (allowCalls : Bool) :
    Parser Expression := do
  let chain ← iterate (chainLink g ctx start allowCalls) g.size ⟨e, false⟩
  if chain.isOptional then
    setAssignable false
    return .chain (← spanFrom start) chain.expression
  else return chain.expression

/-- `super`, of which only a property or, in some constructors, a call makes
sense. -/
def superExpression (ctx : Context) (allowCall : Bool) : Parser Expression := do
  let start ← currentStart
  next
  let token ← currentToken
  if token == .leftParen && allowCall then
    if !ctx.inDerivedConstructor then failAt .superCallNotAllowed start
  else if token == .dot || token == .leftBracket then
    if !ctx.inMethod then failAt .superPropertyNotAllowed start
    let isPrivate ← pure (token == .dot) <&&> return (← peekToken) == .privateName
    if isPrivate then failAt .unexpectedPrivateName start
  else failAt .superUnexpected start
  plainExpression
  return .superKeyword (← spanFrom start)

/-- A call of `import`, at its parenthesis. -/
def importCall (ctx : Context) (start : Nat) : Parser Expression := do
  next
  if (← atToken .rightParen) || (← atToken .ellipsis) then fail .importCallArguments
  let source ← g.assignment ctx.withIn
  let hasOptions ← accept .comma <&&> return !(← atToken .rightParen)
  let options : Option Expression ←
    if hasOptions then
      if ← atToken .ellipsis then fail .importCallArguments
      let e ← g.assignment ctx.withIn
      let _ ← accept .comma
      pure (some e)
    else pure none
  if !(← atToken .rightParen) then fail .importCallArguments
  next
  setAssignable false
  return .importCall (← spanFrom start) source options

def importExpression (ctx : Context) : Parser Expression := do
  let span := (← get).lexer.span
  next
  plainExpression
  match ← currentToken with
  | .dot =>
    next
    if !(← atWord .metaKeyword) then fail (.invalidMetaProperty "import" (← currentRaw))
    if !ctx.module then failAt .importMetaOutsideModule span.start
    let property ← identifier
    return .metaProperty (← spanFrom span.start) ⟨span, "import"⟩ property
  | .leftParen => importCall g ctx span.start
  | _ => unexpected

/-- The callee of `new`. -/
def newCallee (ctx : Context) : Parser Expression := do
  let start ← currentStart
  if ← atWord .newKeyword then g.newCall ctx
  else if ← atWord .superKeyword then superExpression ctx false
  else if ← atWord .importKeyword then
    match ← importExpression g ctx with
    | .importCall _ _ _ => failAt (.unexpectedToken "import") start
    | e => return e
  else primary g ctx

/-- `new` with its callee and arguments, or `new.target`. -/
def newCall (ctx : Context) : Parser Expression := nested do
  let span := (← get).lexer.span
  next
  if ← accept .dot then
    if !(← atWord .targetKeyword) then fail (.invalidMetaProperty "new" (← currentRaw))
    if !ctx.newTarget then failAt .newTargetNotAllowed span.start
    let property ← identifier
    setAssignable false
    return .metaProperty (← spanFrom span.start) ⟨span, "new"⟩ property
  let calleeStart ← currentStart
  let callee ← newCallee g ctx
  let callee ← callTail g ctx calleeStart callee false
  let args ← if ← atToken .leftParen then arguments g ctx else pure []
  setAssignable false
  return .newCall (← spanFrom span.start) callee args

def leftHandSide (ctx : Context) : Parser Expression := do
  let start ← currentStart
  let e ←
    if ← atWord .newKeyword then newCall g ctx
    else if ← atWord .superKeyword then superExpression ctx true
    else if ← atWord .importKeyword then importExpression g ctx
    else primary g ctx
  if ← isBareArrow e then return e
  callTail g ctx start e true

end EcmaSyntax.Grammar
