import EcmaSyntax.Grammar.Literal

/-!
Embedded markup: elements and fragments with their attributes and contents.
The token after a part decides how the text is read, so each part knows what
follows it.
-/

namespace EcmaSyntax.Grammar

open EcmaSyntax.Diagnostic EcmaSyntax.Lexer EcmaSyntax.Text EcmaSyntax.Tree

variable {version : Nat} [Unicode.IdentifierChars version]

variable (g : Phrases)

/-- Take the bracket that ends an element or fragment. -/
def leaveTag : MarkupExit → Parser Unit
  | .expression => next
  | .child => nextChild
  | .attribute => nextInTag

def markupIdentifier : Parser MarkupIdentifier := do
  if !(← currentToken).isWord then fail .identifierExpected
  withLexer scanMarkupName
  let span := (← get).lexer.span
  let name ← currentValue
  nextInTag
  return ⟨span, name⟩

def markupName : Parser MarkupName := do
  let start ← currentStart
  let first ← markupIdentifier
  if ← atToken .colon then
    nextInTag
    let name ← markupIdentifier
    return .namespaced ⟨← spanFrom start, first, name⟩
  let steps ← iterate (fun object => do
    if ← atToken .dot then
      nextInTag
      let property ← markupIdentifier
      return some (.member (← spanFrom start) object property)
    else return none) g.size (MarkupPath.identifier first)
  return .path steps

/-- The current token is a closing brace, which is not taken. -/
def expectClosingBrace : Parser Unit := do
  if !(← atToken .rightBrace) then fail (.expectedToken "\x7d")

def attributeValue (ctx : Context) : Parser MarkupAttributeValue := do
  let start ← currentStart
  match ← currentToken with
  | .stringLiteral =>
    let span := (← get).lexer.span
    let value ← currentValue
    let raw ← keptRaw g.options
    nextInTag
    return .string ⟨span, .string value, raw⟩
  | .leftBrace =>
    next
    if ← atToken .rightBrace then failAt .markupEmptyAttribute start
    let e ← g.assignment ctx.withIn
    expectClosingBrace
    let span ← spanThrough start
    nextInTag
    return .container span e
  | .lessThan => return .markup (← g.markup ctx .attribute)
  | _ => unexpected

/-- An attribute, at its name. -/
def namedAttribute (ctx : Context) : Parser MarkupAttribute := do
  let start ← currentStart
  let first ← markupIdentifier
  let name : MarkupAttributeName ←
    if ← atToken .colon then
      nextInTag
      let name ← markupIdentifier
      pure (.namespaced ⟨← spanFrom start, first, name⟩)
    else pure (.identifier first)
  let value ←
    if ← atToken .assign then
      nextAttributeValue
      attributeValue g ctx
    else pure .absent
  return .attribute (← spanFrom start) name value

/-- Attributes given by an object, at the brace. -/
def spreadAttribute (ctx : Context) : Parser MarkupAttribute := do
  let start ← currentStart
  next
  expect .ellipsis
  let e ← g.assignment ctx.withIn
  expectClosingBrace
  let span ← spanThrough start
  nextInTag
  return .spread span e

/-- Attributes up to what ends the opening tag. -/
def attributes (ctx : Context) : Parser (List MarkupAttribute) :=
  g.collect fun _ => do
    match ← currentToken with
    | .divide | .greaterThan => return .stop
    | .leftBrace => return .more (← spreadAttribute g ctx)
    | .endOfSource => fail .markupUnterminated
    | token => if token.isWord then return .more (← namedAttribute g ctx) else unexpected

/-- A child in braces. -/
def childExpression (ctx : Context) : Parser MarkupChild := do
  let span := (← get).lexer.span
  next
  if ← accept .ellipsis then
    let e ← g.expression ctx.withIn
    expectClosingBrace
    let whole ← spanThrough span.start
    nextChild
    return .spread whole e
  if ← atToken .rightBrace then
    let inner : Span := ⟨span.stop, ← currentStart⟩
    let whole ← spanThrough span.start
    nextChild
    return .emptyContainer whole inner
  let e ← g.expression ctx.withIn
  expectClosingBrace
  let whole ← spanThrough span.start
  nextChild
  return .container whole e

/-- The contents of an element, up to the bracket of the closing tag. -/
def children (ctx : Context) : Parser (List MarkupChild) :=
  g.collect fun _ => do
    match ← currentToken with
    | .jsxText =>
      let span := (← get).lexer.span
      let value ← currentValue
      let raw ← currentRaw
      nextChild
      return .more (.text span value raw)
    | .leftBrace => return .more (← childExpression g ctx)
    | .lessThan =>
      if (← peekToken) == .divide then return .stop
      return .more (.markup (← g.markup ctx .child))
    | .endOfSource => fail .markupUnterminated
    | _ => unexpected

/-- A fragment, at the bracket that ends its opening tag. -/
def fragmentFrom (ctx : Context) (exit : MarkupExit) (start : Nat) : Parser Markup := do
  let openingSpan ← spanThrough start
  nextChild
  let children ← children g ctx
  let closingStart ← currentStart
  nextInTag
  nextInTag
  if !(← atToken .greaterThan) then fail (.markupClosingTagMismatch "<>")
  let closingSpan ← spanThrough closingStart
  leaveTag exit
  return .fragment (← spanFrom start) openingSpan children closingSpan

/-- The closing tag of an element of some name, at its opening bracket. -/
def closingTag (name : MarkupName) : Parser MarkupClosing := do
  let start ← currentStart
  nextInTag
  nextInTag
  let closing ← if ← atToken .greaterThan then pure none else some <$> markupName g
  match closing with
  | none => failAt (.markupClosingTagMismatch name.text) start
  | some found =>
    if found.text != name.text then failAt (.markupClosingTagMismatch name.text) start
    if !(← atToken .greaterThan) then unexpected
    return ⟨← spanThrough start, found⟩

/-- An element, at its name. -/
def markupElement (ctx : Context) (exit : MarkupExit) (start : Nat) : Parser Markup := do
  let name ← markupName g
  let found ← attributes g ctx
  let selfClosing ← atToken .divide
  if selfClosing then nextInTag
  if !(← atToken .greaterThan) then unexpected
  let openingSpan ← spanThrough start
  if selfClosing then
    leaveTag exit
    return .element (← spanFrom start) openingSpan name found true [] none
  nextChild
  let children ← children g ctx
  let closing ← closingTag g name
  leaveTag exit
  return .element (← spanFrom start) openingSpan name found false children (some closing)

/-- An element or fragment, at its opening bracket. -/
def markup (ctx : Context) (exit : MarkupExit) : Parser Markup := nested do
  let start ← currentStart
  nextInTag
  if ← atToken .greaterThan then fragmentFrom g ctx exit start
  else markupElement g ctx exit start

/-- Markup as an expression, which no other may follow directly. -/
def markupExpression (ctx : Context) : Parser Expression := do
  let value ← markup g ctx .expression
  if ← atToken .lessThan then fail .markupAdjacentElements
  setAssignable false
  return .markup value

end EcmaSyntax.Grammar
