import EcmaSyntax.Grammar.Statement
import EcmaSyntax.Grammar.Module
import EcmaSyntax.Text.Measure

/-!
Programs. Here the phrases of the grammar are tied together. A phrase inside
another has less fuel than that one, and there is enough of it for every text:
between two phrases of the same kind some token is taken.
-/

namespace EcmaSyntax.Grammar

open EcmaSyntax.Diagnostic EcmaSyntax.Text EcmaSyntax.Tree

variable {version : Nat} [Unicode.IdentifierChars version]

variable (g : Phrases)

/-- A statement by its first token. -/
def statementBody (ctx : Context) (position : Position) : Parser Statement := do
  let start ← currentStart
  let token ← currentToken
  if token.isReserved && (← isEscaped) then fail .escapedKeyword
  match token with
  | .leftBrace =>
    let (span, body) ← block g ctx .block
    return .block span body
  | .semicolon =>
    next
    return .empty (← spanFrom start)
  | .varKeyword => variableStatement g ctx .varKind
  | .ifKeyword => ifStatement g ctx start
  | .forKeyword => forStatement g ctx start
  | .whileKeyword => whileStatement g ctx start
  | .doKeyword => doWhileStatement g ctx start
  | .continueKeyword => jump ctx start true
  | .breakKeyword => jump ctx start false
  | .returnKeyword => returnStatement g ctx start
  | .withKeyword => withStatement g ctx start
  | .switchKeyword => switchStatement g ctx start
  | .throwKeyword => throwStatement g ctx start
  | .tryKeyword => tryStatement g ctx start
  | .debuggerKeyword =>
    next
    endStatement
    return .debugger (← spanFrom start)
  | .functionKeyword => misplacedFunction g ctx position
  | .classKeyword | .constKeyword => fail .lexicalInSingleStatement
  | .exportKeyword => fail (.importExportOutsideModule "export")
  | .importKeyword =>
    if ← atImportDeclaration then fail (.importExportOutsideModule "import")
    else expressionOrLabeled g ctx start position
  | .asyncKeyword =>
    if ← atAsyncFunction then fail .generatorInSingleStatement
    else expressionOrLabeled g ctx start position
  | .letKeyword =>
    if ← atMisplacedLet then fail .lexicalInSingleStatement
    else expressionOrLabeled g ctx start position
  | _ => expressionOrLabeled g ctx start position

def statement (ctx : Context) (position : Position) : Parser Statement :=
  nested (statementBody g ctx position)

/-- What decorators in a list of statements belong to. -/
def decoratedItem (ctx : Context) (start : Nat) : Parser Statement := do
  let found ← decorators g ctx
  match ← currentToken with
  | .classKeyword => return .classDeclaration (← classDefinition g ctx start true found false)
  | .exportKeyword =>
    if ctx.topLevel then exportStatement g ctx start found else fail .invalidDecoratorPosition
  | _ => fail .invalidDecoratorPosition

/-- Imports and exports stand at the top level of a module. -/
def topLevelItem (ctx : Context) (word : String) (phrase : Parser Statement) :
    Parser Statement := do
  if !ctx.topLevel then fail (.importExportOutsideModule word)
  phrase

/-- A statement or declaration in a list of statements. -/
def listItem (ctx : Context) : Parser Statement := do
  let start ← currentStart
  if ← atWord .functionKeyword then
    return .function (← nested (functionDeclaration g ctx false true))
  if ← atAsyncFunction then
    return .function (← nested (functionDeclaration g ctx true true))
  if ← atWord .classKeyword then
    return .classDeclaration (← nested (classDefinition g ctx start true [] false))
  if g.options.next && (← atToken .at) then return ← decoratedItem g ctx start
  if ← atWord .constKeyword then return ← variableStatement g ctx .constKind
  if ← atLetDeclaration then return ← variableStatement g ctx .letKind
  if ← atWord .importKeyword <&&> atImportDeclaration then
    return ← topLevelItem ctx "import" (importDeclaration g ctx)
  if ← atWord .exportKeyword then
    return ← topLevelItem ctx "export" (exportStatement g ctx start [])
  statement g ctx .listItem

/-- The phrases of the grammar, nested no deeper than the fuel allows. -/
def phrases (options : Options) (size : Nat) : Nat → Phrases
  | 0 =>
    { options := options
      size := size
      assignmentCover := fun _ => fail .exhausted
      unary := fun _ => fail .exhausted
      binary := fun _ _ _ _ => fail .exhausted
      newCall := fun _ => fail .exhausted
      leftHandSide := fun _ => fail .exhausted
      markup := fun _ _ => fail .exhausted
      bindingTarget := fun _ _ => fail .exhausted
      statement := fun _ _ => fail .exhausted
      listItem := fun _ => fail .exhausted }
  | fuel + 1 =>
    { options := options
      size := size
      assignmentCover := fun ctx => assignmentCover (phrases options size fuel) ctx
      unary := fun ctx => unary (phrases options size fuel) ctx
      binary := fun ctx start left minimum =>
        binary (phrases options size fuel) ctx start left minimum
      newCall := fun ctx => newCall (phrases options size fuel) ctx
      leftHandSide := fun ctx => leftHandSide (phrases options size fuel) ctx
      markup := fun ctx exit => markup (phrases options size fuel) ctx exit
      bindingTarget := fun ctx kind => bindingTarget (phrases options size fuel) ctx kind
      statement := fun ctx position => statement (phrases options size fuel) ctx position
      listItem := fun ctx => listItem (phrases options size fuel) ctx }

/-- The context in which a program starts. -/
def startContext (options : Options) : Context :=
  { Context.none with
    strict := options.module || options.impliedStrict
    module := options.module
    topLevel := options.module
    inAsync := options.module
    inFunction := options.globalReturn }

/-- Every local name that a module exports is declared. -/
def checkExports (options : Options) : Parser Unit := do
  if options.module then
    let s ← get
    (s.exports.undeclared? s.scopes).forM fun error => throw error.failure

/-- A program in a text of some length in bytes. -/
def program (g : Phrases) (length : Nat) : Parser Program := do
  next
  let (body, _) ← bodyStatements g (startContext g.options) true .endOfSource
  checkExports g.options
  return ⟨⟨0, length⟩, g.options.module, body⟩

/-- The result of reading a text, and the state in which the reading ended. -/
def run (options : Options) (observing : Bool) (text : List Char) :
    EStateM.Result Failure State Program :=
  let size := text.length + 2
  program (phrases options size (8 * size)) (byteLength text)
    (State.initial options observing text)

end EcmaSyntax.Grammar

namespace EcmaSyntax

open EcmaSyntax.Diagnostic EcmaSyntax.Grammar EcmaSyntax.Tree

variable {version : Nat} [Unicode.IdentifierChars version]

/-- The program that a text spells, or why it spells none. -/
def parse (options : Options) (text : String) : Except Failure Program :=
  match run options false text.toList with
  | .ok program _ => .ok program
  | .error failure _ => .error failure

/-- As `parse`, with what was observed up to the end or the failure. -/
def observe (options : Options) (text : String) : Except Failure Program × Observations :=
  match run options true text.toList with
  | .ok program s => (.ok program, s.observations)
  | .error failure s => (.error failure, s.observations)

end EcmaSyntax
