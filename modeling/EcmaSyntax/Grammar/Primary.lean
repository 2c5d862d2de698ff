import EcmaSyntax.Grammar.Class
import EcmaSyntax.Grammar.Markup

/-!
Primary expressions: names, literals, arrays, objects, groups in parentheses,
functions, classes and markup. A group or a name that an arrow follows is the
parameter list of an arrow function.
-/

namespace EcmaSyntax.Grammar

open EcmaSyntax.Diagnostic EcmaSyntax.Scope EcmaSyntax.Text EcmaSyntax.Tree

variable {version : Nat} [Unicode.IdentifierChars version]

variable (g : Phrases)

def arrayLiteral (ctx : Context) : Parser Expression := do
  let start ← currentStart
  next
  let elements ← g.collect fun _ => do
    if ← atToken .rightBracket then return .stop
    if ← accept .comma then return .more (Element.hole, Cover.none)
    let elementStart ← currentStart
    let isSpread ← accept .ellipsis
    let (e, cover) ← g.covered ctx.withIn
    let element ← elementFrom elementStart isSpread e
    Phrases.separator .rightBracket
    return .more (element, cover)
  next
  setAssignable false
  setCover (Cover.unionAll (elements.map Prod.snd))
  return .array (← spanFrom start) (elements.map Prod.fst)

/-- Such a token can start the name of a property. -/
def startsPropertyKey (token : Token) : Bool :=
  token.isWord || token == .stringLiteral || token == .numericLiteral ||
    token == .bigIntLiteral || token == .leftBracket || token == .privateName

/-- The words before the name of a property. -/
structure PropertyHead where
  isAsync : Bool
  generator : Bool
  kind : PropertyKind
deriving DecidableEq, Repr

def propertyHead : Parser PropertyHead := do
  let isAsync ← atWord .asyncKeyword <&&> do
    let (token, flags) ← peekNext
    return !flags.lineBreakBefore && (startsPropertyKey token || token == .multiply)
  if isAsync then next
  let generator ← accept .multiply
  if isAsync || generator then return ⟨isAsync, generator, .init⟩
  let token ← currentToken
  let isAccessor ← (atWord .getKeyword <||> atWord .setKeyword) <&&>
    return startsPropertyKey (← peekToken)
  if isAccessor then
    next
    return ⟨false, false, if token == .getKeyword then .get else .set⟩
  return ⟨false, false, .init⟩

def accessorShape : PropertyKind → FunctionShape
  | .init => .method
  | .get => .getter
  | .set => .setter

/-- Remember where `await` was used as a name. -/
def noteAwaitName (name : String) (offset : Nat) : Parser Unit := do
  if name == "await" then modify fun s => { s with lastAwaitName := some offset }

/-- A property that is just a name, after the name. An initializer is for
patterns only. -/
def shorthandProperty (ctx : Context) (start keyStart : Nat) (id : Identifier) :
    Parser (ObjectMember × Cover) := do
  checkReference ctx id.name keyStart
  noteAwaitName id.name keyStart
  if ← accept .assign then
    let right ← g.assignment ctx
    let value := Expression.assignment (← spanFrom keyStart) .assign (.identifier id) right
    return (.property (← spanFrom start) (.identifier id) value .init false true false,
      { Cover.none with mustDestruct := true })
  else
    return (.property (← spanFrom start) (.identifier id) (.identifier id) .init false true false,
      Cover.none)

def objectProperty (ctx : Context) : Parser (ObjectMember × Cover) := do
  let start ← currentStart
  let head ← propertyHead
  let keyToken ← currentToken
  let keyStart ← currentStart
  let (key, computed) ← propertyKey g ctx false
  if head.isAsync || head.generator || head.kind != .init || (← atToken .leftParen) then
    let value ← methodFunction g ctx head.isAsync head.generator (accessorShape head.kind)
    return (.property (← spanFrom start) key (.function value) head.kind (head.kind == .init)
      false computed, Cover.none)
  if ← accept .colon then
    let (value, cover) ← g.covered ctx
    return (.property (← spanFrom start) key value .init false false computed, cover)
  match key with
  | .identifier id =>
    if !computed && keyToken.isIdentifier then shorthandProperty g ctx start keyStart id
    else unexpected
  | _ => unexpected

def objectMember (ctx : Context) : Parser (ObjectMember × Cover) := do
  let start ← currentStart
  if ← accept .ellipsis then
    let (e, cover) ← g.covered ctx
    noteSpread start
    return (.spread (← spanFrom start) e, cover)
  else objectProperty g ctx

def objectLiteral (ctx : Context) : Parser Expression := do
  let start ← currentStart
  next
  let members ← g.listed .rightBrace fun _ => objectMember g ctx.withIn
  next
  let inner := Cover.unionAll (members.map Prod.snd)
  let members := members.map Prod.fst
  setAssignable false
  setCover { inner with
    repeatsProto := inner.repeatsProto || (members.filter setsProto).length > 1 }
  return .object (← spanFrom start) members

/-- The body of an arrow function and whether the code in it is strict. -/
inductive ArrowBody where
  | concise (expression : Expression)
  | block (span : Span) (body : List Statement) (strict : Bool)

def arrowBody (ctx inner : Context) (simple : Bool) : Parser ArrowBody := do
  let start ← currentStart
  if ← accept .leftBrace then
    let (body, bodyCtx) ← inScope [.functionBody] do
      let found ← bodyStatements g inner simple .rightBrace
      expect .rightBrace
      return found
    return .block (← spanFrom start) body bodyCtx.strict
  else return .concise (← g.assignment { inner with disallowIn := ctx.disallowIn })

/-- An arrow function from its arrow on, with parameters that start at an
offset. -/
def arrowFunction (ctx : Context) (start : Nat) (params : List Pattern) (isAsync : Bool) :
    Parser Expression := do
  expect .arrow
  let inner := ctx.enterArrow isAsync
  let body ← inScope [.arrowParams] do
    params.forM (declarePattern g.options ctx .parameter)
    settleParameters (← get).scopes.depth ⟨start, .arrow, inner, params⟩
    let body ← asFunction (arrowBody g ctx inner (params.all Pattern.isSimple))
    let strict := match body with
      | .concise _ => inner.strict
      | .block _ _ strict => strict
    if strict && !ctx.strict then
      params.forM (checkBoundNames { ctx with strict := true } .parameter)
    return body
  plainExpression
  let span ← spanFrom start
  match body with
  | .concise e => return .arrow span isAsync params e
  | .block bodySpan statements _ => return .blockArrow span isAsync params bodySpan statements

/-- Nothing noted at or after an offset. -/
def checkNone (noted : Option Nat) (start : Nat) (cause : Cause) : Parser Unit :=
  match noted with
  | some offset => if start ≤ offset then failAt cause offset else pure ()
  | none => pure ()

/-- The current token is an arrow and may be one. -/
def checkArrow : Parser Unit := do
  if ← afterLineBreak then fail .lineTerminatorBeforeArrow

/-- An item of a group in parentheses. -/
structure GroupItem where
  start : Nat
  isRest : Bool
  expression : Expression
  cover : Cover
  /-- A comma follows the item. -/
  comma : Bool

def groupItem (ctx : Context) : Parser (Round GroupItem) := do
  if ← atToken .rightParen then return .stop
  let start ← currentStart
  if ← accept .ellipsis then
    let (e, cover) ← g.covered ctx
    if ← atToken .comma then
      let comma ← currentStart
      next
      if ← atToken .rightParen then failAt .restTrailingComma comma
      else failAt .restMustBeLast start
    return .last ⟨start, true, e, cover, false⟩
  let (e, cover) ← g.covered ctx
  if ← atToken .rightParen then return .last ⟨start, false, e, cover, false⟩
  expect .comma
  return .more ⟨start, false, e, cover, true⟩

def groupParameter (c : Conversion) (item : GroupItem) : Except Failure Pattern :=
  if item.isRest then toRestPattern c item.start item.expression else toPattern c item.expression

/-- A group in parentheses as parameters, at the arrow. -/
def groupArrow (ctx : Context) (start : Nat) (items : List GroupItem) : Parser Expression := do
  checkArrow
  checkNone (← get).lastYield start .yieldInParameter
  checkNone (← get).lastAwait start .awaitInParameter
  let c ← conversion g.options .binding ctx
  let params ← ofExcept (items.mapM (groupParameter c))
  arrowFunction g ctx start params false

/-- The expression that a group stands for. -/
def groupExpression (first : Expression) (rest : List Expression) : Expression :=
  match rest.getLast? with
  | none => first
  | some last => .sequence ⟨first.start, last.span.stop⟩ (first :: rest)

/-- A group in parentheses as an expression, after it. -/
def groupValue (start close : Nat) (items : List GroupItem) : Parser Expression := do
  match items.find? GroupItem.isRest with
  | some item => failAt (.unexpectedToken "...") item.start
  | none => pure ()
  match items with
  | [] => failAt (.unexpectedToken ")") close
  | first :: rest =>
    if items.getLast?.any GroupItem.comma then failAt (.unexpectedToken ")") close
    checkCovers (Cover.unionAll (items.map GroupItem.cover)) (items.map GroupItem.expression)
    let e := groupExpression first.expression (rest.map GroupItem.expression)
    modify fun s => { s with assignable := rest.isEmpty && s.assignable, cover := Cover.none }
    if g.options.preserveParens then return .parenthesized (← spanFrom start) e
    modify fun s => { s with parenthesized := e.start :: s.parenthesized }
    return e

/-- A group in parentheses, which is a parameter list if an arrow follows. -/
def parenGroup (ctx : Context) (start : Nat) (canArrow : Bool) : Parser Expression := do
  next
  let items ← g.collect fun _ => groupItem g ctx.withIn
  let close ← currentStart
  expect .rightParen
  if canArrow && (← atToken .arrow) then groupArrow g ctx start items
  else groupValue g start close items

/-- An async arrow function with one name as its parameter, at `async`. -/
def asyncNameArrow (ctx : Context) (start : Nat) : Parser Expression := do
  next
  let id ← identifier
  if !(← atToken .arrow) then unexpected
  checkArrow
  checkBinding { ctx with inAsync := true } .parameter id.name id.span.start
  arrowFunction g ctx start [.identifier id] true

/-- A call of `async`, or an async arrow function if an arrow follows. -/
def asyncCallOrArrow (ctx : Context) (start : Nat) (canArrow : Bool) : Parser Expression := do
  let callee ← identifier
  let lineBreak ← afterLineBreak
  let found ← coveredArguments g ctx
  let elements := found.map Prod.fst
  if canArrow && !lineBreak && (← atToken .arrow) then
    checkArrow
    checkNone (← get).lastAwait start .awaitInParameter
    checkNone (← get).lastAwaitName start .awaitAsIdentifier
    checkNone (← get).lastYield start .yieldInParameter
    let c ← conversion g.options .binding { ctx with inAsync := true }
    let params ← ofExcept (toPatterns c elements)
    arrowFunction g ctx start params true
  else
    checkCovers (Cover.unionAll (found.map Prod.snd)) (elements.filterMap Element.expression?)
    setAssignable false
    return .call (← spanFrom start) (.identifier callee) elements false

/-- A name by itself, or the one parameter of an arrow function. -/
def plainName (ctx : Context) (start : Nat) (canArrow : Bool) : Parser Expression := do
  let id ← identifier
  if canArrow && (← atToken .arrow) then
    checkArrow
    checkBinding ctx .parameter id.name start
    arrowFunction g ctx start [.identifier id] false
  else
    checkReference ctx id.name start
    noteAwaitName id.name start
    setAssignable true
    return .identifier id

/-- What starts with a name. -/
def namePrimary (ctx : Context) (start : Nat) (canArrow : Bool) : Parser Expression := do
  if ← atWord .asyncKeyword then
    let (token, flags) ← peekNext
    let sameLine := !flags.lineBreakBefore
    if sameLine && token == .functionKeyword then
      return ← functionExpression g ctx start true
    -- Without an arrow these are the words of a loop over the values of a list.
    let isLoop ← pure (token == .ofKeyword) <&&> return (← peekSecond) != .arrow
    if sameLine && canArrow && token.isIdentifier && !isLoop then
      return ← asyncNameArrow g ctx start
    if token == .leftParen then return ← asyncCallOrArrow g ctx start canArrow
  plainName g ctx start canArrow

/-- What does not start with a name. -/
def otherPrimary (ctx : Context) (start : Nat) (canArrow : Bool) : Parser Expression := do
  match ← currentToken with
  | .stringLiteral | .numericLiteral | .bigIntLiteral | .trueKeyword | .falseKeyword
  | .nullKeyword => return .literal (← literal g.options ctx)
  | .divide | .divideAssign => return .literal (← regexLiteral g.options)
  | .thisKeyword =>
    next
    return .thisKeyword (← spanFrom start)
  | .noSubstitutionTemplate | .templateHead =>
    let parts ← template g ctx false
    return .template parts.span parts.quasis parts.expressions
  | .leftBracket => arrayLiteral g ctx
  | .leftBrace => objectLiteral g ctx
  | .leftParen => parenGroup g ctx start canArrow
  | .functionKeyword => functionExpression g ctx start false
  | .classKeyword => return .classExpression (← classDefinition g ctx start false [] false)
  | .at =>
    if g.options.next then
      let found ← decorators g ctx
      if !(← atToken .classKeyword) then fail .invalidDecoratorPosition
      return .classExpression (← classDefinition g ctx start false found false)
    else unexpected
  | .lessThan => if g.options.jsx then markupExpression g ctx else unexpected
  | .privateName =>
    if (← peekToken) == .inKeyword then return .privateIdentifier (← privateReference)
    else fail .unexpectedPrivateName
  | _ => unexpected

def primary (ctx : Context) : Parser Expression := do
  let start ← currentStart
  let canArrow := (← get).assignmentStart == some start
  plainExpression
  let token ← currentToken
  if token.isIdentifier then namePrimary g ctx start canArrow
  else if token.isReserved && (← isEscaped) then fail .escapedKeyword
  else otherPrimary g ctx start canArrow

end EcmaSyntax.Grammar
