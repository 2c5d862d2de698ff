import EcmaSyntax.Grammar.Phrases

/-!
Literals, templates and the names of properties.
-/

namespace EcmaSyntax.Grammar

open EcmaSyntax.Diagnostic EcmaSyntax.Lexer EcmaSyntax.Text EcmaSyntax.Tree

variable {version : Nat} [Unicode.IdentifierChars version]

/-- The text of the current token, if literals keep it. -/
def keptRaw (options : Options) : Parser (Option String) := do
  if options.raw then return some (← currentRaw) else return none

/-- The value of the current token as a literal. -/
def literalValue (ctx : Context) : Parser LiteralValue := do
  let flags ← currentFlags
  match ← currentToken with
  | .stringLiteral =>
    if ctx.strict && flags.octalEscape then fail .strictOctalEscape
    else return .string (← currentValue)
  | .numericLiteral =>
    if ctx.strict && flags.isLegacyNumber then fail .strictOctalLiteral
    else return .number (← get).lexer.number
  | .bigIntLiteral => return .bigint (← currentValue)
  | .trueKeyword => return .boolean true
  | .falseKeyword => return .boolean false
  | .nullKeyword => return .null
  | _ => unexpected

def literal (options : Options) (ctx : Context) : Parser Literal := do
  let start ← currentStart
  let raw ← keptRaw options
  let value ← literalValue ctx
  next
  return ⟨← spanFrom start, value, raw⟩

/-- A regular expression, at the slash that starts it. -/
def regexLiteral (options : Options) : Parser Literal := do
  let start ← currentStart
  let _ ← withLexer rescanRegex
  let pattern ← currentValue
  let flags := (← get).lexer.regexFlags
  let raw ← keptRaw options
  next
  return ⟨← spanFrom start, .regex pattern flags, raw⟩

/-- The current chunk of a template. A chunk without a value is an error in a
template that no function reads. -/
def templateElement (tagged isTail : Bool) : Parser TemplateElement := do
  let s ← get
  let span := s.lexer.span
  let inner : Span :=
    ⟨span.start + 1, max (span.stop - (if isTail then 1 else 2)) (span.start + 1)⟩
  let raw := String.ofList s.lexer.templateRaw
  if s.lexer.flags.invalidTemplateEscape then
    if tagged then return ⟨inner, raw, none, isTail⟩
    else failAt .invalidTemplateEscape s.lexer.invalidEscape
  else return ⟨inner, raw, some s.lexer.value.text, isTail⟩

structure TemplateParts where
  span : Span
  quasis : List TemplateElement
  expressions : List Expression

/-- A template from its first chunk on. -/
def template (g : Phrases) (ctx : Context) (tagged : Bool) : Parser TemplateParts := do
  let start ← currentStart
  let parts ← g.collect fun _ => do
    let token ← currentToken
    let isTail := token == .noSubstitutionTemplate || token == .templateTail
    let quasi ← templateElement tagged isTail
    next
    if isTail then return .last (quasi, none)
    let e ← g.expression ctx.withIn
    if !(← atToken .rightBrace) then
      if ← atToken .endOfSource then fail .unterminatedTemplateLiteral
      else fail (.expectedToken "\x7d")
    let _ ← withLexer rescanTemplate
    return .more (quasi, some e)
  return ⟨← spanFrom start, parts.map Prod.fst, parts.filterMap Prod.snd⟩

/-- The name of a property and whether it is computed. -/
def propertyKey (g : Phrases) (ctx : Context) (allowPrivate : Bool) :
    Parser (Expression × Bool) := do
  match ← currentToken with
  | .leftBracket =>
    next
    let key ← g.assignment ctx.withIn
    expect .rightBracket
    return (key, true)
  | .stringLiteral | .numericLiteral | .bigIntLiteral =>
    return (.literal (← literal g.options ctx), false)
  | .privateName =>
    if allowPrivate then return (.privateIdentifier (← privateName), false)
    else fail .unexpectedPrivateName
  | token =>
    if token.isWord then return (.identifier (← identifier), false)
    else unexpected

/-- The name after a point. -/
def memberName : Parser Expression := do
  let token ← currentToken
  if token == .privateName then return .privateIdentifier (← privateReference)
  else if token.isWord then return .identifier (← identifier)
  else unexpected

end EcmaSyntax.Grammar
