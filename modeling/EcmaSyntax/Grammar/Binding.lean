import EcmaSyntax.Grammar.Literal
import EcmaSyntax.Tree.Basic

/-!
Binding patterns of declarations, parameters and `catch`, which declare their
names as they are read.
-/

namespace EcmaSyntax.Grammar

open EcmaSyntax.Diagnostic EcmaSyntax.Scope EcmaSyntax.Text EcmaSyntax.Tree

variable {version : Nat} [Unicode.IdentifierChars version]

variable (g : Phrases)

/-- A target, which may have an initializer. -/
def bindingElement (ctx : Context) (kind : BindingKind) : Parser Pattern := do
  let start ← currentStart
  let target ← g.bindingTarget ctx kind
  if ← accept .assign then
    let right ← g.assignment ctx.withIn
    return .withDefault (← spanFrom start) target right
  else return target

/-- A rest element, at its dots. It stands last, without initializer. -/
def bindingRest (ctx : Context) (kind : BindingKind) (close : Token) :
    Parser (Span × Pattern) := do
  let start ← currentStart
  next
  let argument ←
    if close == .rightBrace then
      Pattern.identifier <$> bindingIdentifier g.options ctx kind
    else g.bindingTarget ctx kind
  if ← atToken .assign then fail .restWithInitializer
  if ← atToken .comma then
    let comma ← currentStart
    next
    if ← atToken close then failAt .restTrailingComma comma
    else failAt .restMustBeLast start
  return (← spanFrom start, argument)

def arrayBinding (ctx : Context) (kind : BindingKind) : Parser Pattern := do
  let start ← currentStart
  next
  let elements ← g.collect fun _ => do
    match ← currentToken with
    | .rightBracket => return .stop
    | .comma =>
      next
      return .more .hole
    | .ellipsis =>
      let (span, argument) ← bindingRest g ctx kind .rightBracket
      return .last (.rest span argument)
    | _ =>
      let element ← bindingElement g ctx kind
      Phrases.separator .rightBracket
      return .more element
  expect .rightBracket
  return .array (← spanFrom start) elements

/-- The name of a property that is also the name it binds. -/
def shorthandName (token : Token) (escaped : Bool) (start : Nat) (key : Expression) :
    Parser Identifier :=
  match key with
  | .identifier id =>
    if token.isIdentifier then return id
    else if token.isReserved && !escaped then failAt (.unexpectedReservedWord id.name) start
    else unexpected
  | _ => unexpected

/-- A property whose name is also the name it binds, after the name. -/
def shorthandBinding (ctx : Context) (kind : BindingKind) (start : Nat) (id : Identifier) :
    Parser Pattern := do
  checkBinding ctx kind id.name start
  declare g.options ctx kind id.name start
  if ← accept .assign then
    let right ← g.assignment ctx.withIn
    return .withDefault (← spanFrom start) (.identifier id) right
  else return .identifier id

/-- A property of an object pattern, after those with the names `keys`, and
the names seen up to here. -/
def propertyBinding (ctx : Context) (kind : BindingKind) (keys : List String) :
    Parser (PatternProperty × List String) := do
  let start ← currentStart
  let token ← currentToken
  let escaped ← isEscaped
  let (key, computed) ← propertyKey g ctx false
  let keys ←
    if computed then pure keys else ofExcept (noteKey g.options.uniqueKeysInPatterns keys key)
  if ← accept .colon then
    let value ← bindingElement g ctx kind
    return (.property (← spanFrom start) key value false computed, keys)
  else
    let id ← shorthandName token escaped start key
    let value ← shorthandBinding g ctx kind start id
    return (.property (← spanFrom start) key value true computed, keys)

def objectBinding (ctx : Context) (kind : BindingKind) : Parser Pattern := do
  let start ← currentStart
  next
  let properties ← g.collect fun earlier => do
    match ← currentToken with
    | .rightBrace => return .stop
    | .ellipsis =>
      let (span, argument) ← bindingRest g ctx kind .rightBrace
      return .last (.rest span argument, [])
    | _ =>
      let keys := (earlier.head?.map Prod.snd).getD []
      let property ← propertyBinding g ctx kind keys
      Phrases.separator .rightBrace
      return .more property
  expect .rightBrace
  return .object (← spanFrom start) (properties.map Prod.fst)

/-- A name or a pattern that binds names. -/
def bindingTarget (ctx : Context) (kind : BindingKind) : Parser Pattern := nested do
  match ← currentToken with
  | .leftBracket => arrayBinding g ctx kind
  | .leftBrace => objectBinding g ctx kind
  | _ => return .identifier (← bindingIdentifier g.options ctx kind)

/-- Declare the names of a pattern that was read as an expression. -/
def declarePattern (options : Options) (ctx : Context) (kind : BindingKind)
    (pattern : Pattern) : Parser Unit :=
  pattern.boundNames.forM fun id => declare options ctx kind id.name id.span.start

/-- The names of a pattern can be bound in a context that turned strict. -/
def checkBoundNames (ctx : Context) (kind : BindingKind) (pattern : Pattern) : Parser Unit :=
  pattern.boundNames.forM fun id => checkBinding ctx kind id.name id.span.start

end EcmaSyntax.Grammar
