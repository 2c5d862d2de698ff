import EcmaSyntax.Grammar.Statement
import EcmaSyntax.Lexer.Escape

/-!
Imports and exports. A module exports each name once; names that it exports
from its own bindings are checked when all of it has been read.
-/

namespace EcmaSyntax.Grammar

open EcmaSyntax.Diagnostic EcmaSyntax.Scope EcmaSyntax.Text EcmaSyntax.Tree

variable {version : Nat} [Unicode.IdentifierChars version]

variable (g : Phrases)

/-- A word or a string that names an import or export. -/
def moduleName (ctx : Context) : Parser ModuleName := do
  let token ← currentToken
  if token == .stringLiteral then
    if Lexer.hasLoneSurrogate (← get).lexer.raw then fail .invalidModuleName
    return .literal (← literal g.options ctx)
  if !token.isWord then unexpected
  return .identifier (← identifier)

def expectString (ctx : Context) : Parser Literal := do
  if !(← atToken .stringLiteral) then fail (.expectedToken "string literal")
  literal g.options ctx

/-- The key of an attribute of an import. -/
def attributeKey (ctx : Context) : Parser ModuleName := do
  let token ← currentToken
  if token == .stringLiteral then return .literal (← literal g.options ctx)
  else if token.isWord then return .identifier (← identifier)
  else unexpected

def importAttribute (ctx : Context) (earlier : List ImportAttribute) : Parser ImportAttribute := do
  let start ← currentStart
  let key ← attributeKey g ctx
  if earlier.any fun other => other.key.text == key.text then
    failAt (.duplicateImportAttribute key.text) start
  expect .colon
  let value ← expectString g ctx
  return ⟨← spanFrom start, key, value⟩

/-- The attributes after the source of a module, if there are any. -/
def importAttributes (ctx : Context) : Parser (List ImportAttribute) := do
  if ← atWord .withKeyword then
    next
    expect .leftBrace
    let attributes ← g.listed .rightBrace (importAttribute g ctx)
    next
    return attributes
  else return []

structure ModuleSource where
  source : Literal
  attributes : List ImportAttribute

def moduleSource (ctx : Context) : Parser ModuleSource := do
  let source ← expectString g ctx
  return ⟨source, ← importAttributes g ctx⟩

/-- The source after `from`. -/
def fromClause (ctx : Context) : Parser ModuleSource := do
  if !(← atWord .fromKeyword) then fail (.expectedToken "from")
  next
  moduleSource g ctx

def importBinding (ctx : Context) : Parser Identifier := do
  let token ← currentToken
  if token.isIdentifier then bindingIdentifier g.options ctx .importName
  else if token.isReserved then fail (.unexpectedReservedWord (← currentRaw))
  else fail .identifierExpected

/-- The binding of an import that has no other name for it. -/
def sameBinding (ctx : Context) (isName : Bool) : ModuleName → Parser Identifier
  | .identifier id => do
    if !isName then failAt (.unexpectedReservedWord id.name) id.span.start
    checkBinding ctx .importName id.name id.span.start
    declare g.options ctx .importName id.name id.span.start
    return id
  | .literal _ => fail (.expectedToken "as")

def importSpecifier (ctx : Context) : Parser ImportSpecifier := do
  let start ← currentStart
  let isName := (← currentToken).isIdentifier
  let imported ← moduleName g ctx
  let binding ←
    if ← atWord .asKeyword then
      next
      importBinding g ctx
    else sameBinding g ctx isName imported
  return .named (← spanFrom start) imported binding

/-- All of a module under one name, at the star. -/
def importAll (ctx : Context) : Parser ImportSpecifier := do
  let start ← currentStart
  next
  if !(← atWord .asKeyword) then unexpected
  next
  let binding ← importBinding g ctx
  return .all (← spanFrom start) binding

/-- What an import takes besides a default. -/
def importSpecifiers (ctx : Context) : Parser (List ImportSpecifier) := do
  match ← currentToken with
  | .multiply => return [← importAll g ctx]
  | .leftBrace =>
    next
    let specifiers ← g.listed .rightBrace fun _ => importSpecifier g ctx
    next
    return specifiers
  | _ => unexpected

/-- Everything that an import takes. -/
def importClause (ctx : Context) : Parser (List ImportSpecifier) := do
  if (← currentToken).isIdentifier then
    let start ← currentStart
    let binding ← importBinding g ctx
    let first := ImportSpecifier.default (← spanFrom start) binding
    if ← accept .comma then return first :: (← importSpecifiers g ctx)
    else return [first]
  else importSpecifiers g ctx

def importDeclaration (ctx : Context) : Parser Statement := do
  let start ← currentStart
  expect .importKeyword
  let (specifiers, found) ←
    if ← atToken .stringLiteral then pure ([], ← moduleSource g ctx)
    else do
      let specifiers ← importClause g ctx
      pure (specifiers, ← fromClause g ctx)
  endStatement
  return .importDeclaration ⟨← spanFrom start, specifiers, found.source, found.attributes⟩

def addExport (name : String) (offset : Nat) : Parser Unit := do
  match (← get).exports.add name offset with
  | .error error => throw error.failure
  | .ok exports => modify fun s => { s with exports := exports }

/-- All names of a module, or a name for all of it, at the star. -/
def exportAll (ctx : Context) (start : Nat) : Parser Statement := do
  next
  let exported : Option ModuleName ←
    if ← atWord .asKeyword then
      next
      let nameStart ← currentStart
      let name ← moduleName g ctx
      addExport name.text nameStart
      pure (some name)
    else pure none
  let found ← fromClause g ctx
  endStatement
  return .exportAll ⟨← spanFrom start, exported, found.source, found.attributes⟩

/-- Decorators before or after the keyword of an export, but not both. -/
def exportDecorators (ctx : Context) (before : List Decorator) : Parser (List Decorator) := do
  if g.options.next && (← atToken .at) then
    if !before.isEmpty then fail .invalidDecoratorPosition
    decorators g ctx
  else return before

/-- A default export, at its keyword. -/
def exportDefault (ctx : Context) (start : Nat) (before : List Decorator) : Parser Statement := do
  let keywordStart ← currentStart
  next
  let found ← exportDecorators g ctx before
  addExport "default" keywordStart
  let valueStart ← currentStart
  if ← atToken .classKeyword then
    let value ← classDefinition g ctx valueStart true found true
    return .exportDefaultClass (← spanFrom start) value
  if !found.isEmpty then fail .invalidDecoratorPosition
  if ← atWord .functionKeyword then
    let value ← functionDeclaration g ctx false false
    return .exportDefaultFunction (← spanFrom start) value
  if ← atAsyncFunction then
    let value ← functionDeclaration g ctx true false
    return .exportDefaultFunction (← spanFrom start) value
  let e ← g.assignment ctx
  endStatement
  return .exportDefault (← spanFrom start) e

/-- An export of a name, and why the name cannot refer to a local binding. -/
structure ExportEntry where
  specifier : ExportSpecifier
  fault : Option Failure

/-- Why the current token cannot name a local binding. -/
def localFault? (ctx : Context) : Parser (Option Failure) := do
  let start ← currentStart
  let token ← currentToken
  if token == .stringLiteral then return some ⟨.stringExportWithoutFrom, start⟩
  if token.isReserved || (token.isStrictReserved && ctx.strict) ||
      (ctx.awaitIsReserved && (← atWord .awaitKeyword)) then
    let word := (← get).lexer.raw.takeWhile (· != '\\')
    return some ⟨.unexpectedReservedWord (String.ofList word), start⟩
  return none

def exportEntry (ctx : Context) : Parser ExportEntry := do
  let start ← currentStart
  let fault ← localFault? ctx
  let binding ← moduleName g ctx
  let exported ←
    if ← atWord .asKeyword then
      next
      moduleName g ctx
    else pure binding
  return ⟨⟨← spanFrom start, binding, exported⟩, fault⟩

/-- Note what an entry exports; without a source it is a local binding. -/
def noteExport (isLocal : Bool) (specifier : ExportSpecifier) : Parser Unit := do
  addExport specifier.exported.text specifier.exported.span.start
  if isLocal then
    let binding := specifier.binding
    modify fun s => { s with exports := s.exports.addLocal binding.text binding.span.start }

/-- Names in braces, at the opening one. -/
def exportNames (ctx : Context) (start : Nat) : Parser Statement := do
  next
  let entries ← g.listed .rightBrace fun _ => exportEntry g ctx
  next
  let found : Option ModuleSource ←
    if ← atWord .fromKeyword then
      next
      some <$> moduleSource g ctx
    else pure none
  if found.isNone then
    (entries.findSome? ExportEntry.fault).forM fun failure => throw failure
  entries.forM fun entry => noteExport found.isNone entry.specifier
  endStatement
  return .exportNames ⟨← spanFrom start, entries.map ExportEntry.specifier,
    found.map ModuleSource.source, (found.map ModuleSource.attributes).getD []⟩

def isDeclaration : Statement → Bool
  | .variables _ _ _ | .function _ | .classDeclaration _ => true
  | _ => false

/-- A declaration that is exported. -/
def exportedDeclaration (ctx : Context) (decorators : List Decorator) : Parser Statement := do
  let start ← currentStart
  match ← currentToken with
  | .varKeyword | .constKeyword | .functionKeyword => g.listItem ctx
  | .letKeyword => if ← isEscaped then unexpected else g.listItem ctx
  | .asyncKeyword => if ← atAsyncFunction then g.listItem ctx else unexpected
  | .classKeyword =>
    return .classDeclaration (← classDefinition g ctx start true decorators false)
  | _ => unexpected

def exportDeclaration (ctx : Context) (start : Nat) (decorators : List Decorator) :
    Parser Statement := do
  let declarationStart ← currentStart
  let declaration ← exportedDeclaration g ctx decorators
  if !isDeclaration declaration then failAt (.unexpectedToken "let") declarationStart
  declaration.declaredNames.forM fun id => addExport id.name id.span.start
  return .exportDeclaration (← spanFrom start) declaration

/-- Any export, at its keyword, after the decorators before it. -/
def exportStatement (ctx : Context) (start : Nat) (before : List Decorator) :
    Parser Statement := do
  expect .exportKeyword
  let found ← exportDecorators g ctx before
  let token ← currentToken
  if !found.isEmpty && token != .classKeyword && token != .defaultKeyword then
    fail .invalidDecoratorPosition
  match token with
  | .multiply => exportAll g ctx start
  | .defaultKeyword => exportDefault g ctx start found
  | .leftBrace => exportNames g ctx start
  | _ => exportDeclaration g ctx start found

end EcmaSyntax.Grammar
