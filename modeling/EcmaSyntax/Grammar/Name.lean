import EcmaSyntax.Grammar.Context
import EcmaSyntax.Grammar.Step
import EcmaSyntax.Tree.Leaf

/-!
Names. Whether a word may be a name depends on the context alone, so the
tests are functions of the name and the context.
-/

namespace EcmaSyntax.Grammar

open EcmaSyntax.Diagnostic EcmaSyntax.Scope EcmaSyntax.Text EcmaSyntax.Tree

variable {version : Nat} [Unicode.IdentifierChars version]

def isEvalOrArguments (name : String) : Bool := name == "eval" || name == "arguments"

/-- Why a name cannot be referred to here, or be a label. -/
def referenceFault? (ctx : Context) (name : String) : Option Cause :=
  match Token.ofKeyword? name with
  | none =>
    if name == "arguments" && ctx.inClassField then some .argumentsInInitializer else none
  | some token =>
    if token.isReserved then some (.unexpectedReservedWord name)
    else if token == .yieldKeyword && ctx.inGenerator then some .yieldAsIdentifier
    else if token == .awaitKeyword && ctx.inStaticBlock then some .awaitInStaticBlock
    else if token == .awaitKeyword && ctx.awaitIsReserved then some .awaitAsIdentifier
    else if token.isStrictReserved && ctx.strict then some (.unexpectedStrictReservedWord name)
    else none

/-- Why strict code cannot assign to a name. -/
def targetFault? (ctx : Context) (name : String) : Option Cause :=
  if ctx.strict && isEvalOrArguments name then some .strictEvalArguments else none

/-- Why a name cannot be bound here. -/
def bindingFault? (ctx : Context) (kind : BindingKind) (name : String) : Option Cause :=
  referenceFault? ctx name <|> targetFault? ctx name <|>
    if kind.isLexical && name == "let" then some .letInLexicalBinding else none

/-- Fail at an offset if there is a cause to. -/
def refuse (offset : Nat) : Option Cause → Except Failure Unit
  | none => .ok ()
  | some cause => .error ⟨cause, offset⟩

def ofExcept {α : Type} : Except Failure α → Parser α
  | .ok a => pure a
  | .error failure => throw failure

def checkReference (ctx : Context) (name : String) (offset : Nat) : Parser Unit :=
  ofExcept (refuse offset (referenceFault? ctx name))

def checkTarget (ctx : Context) (id : Identifier) : Parser Unit :=
  ofExcept (refuse id.span.start (targetFault? ctx id.name))

def checkBinding (ctx : Context) (kind : BindingKind) (name : String) (offset : Nat) :
    Parser Unit :=
  ofExcept (refuse offset (bindingFault? ctx kind name))

/-- Declare a name in the current scope. -/
def declare (options : Options) (ctx : Context) (kind : BindingKind) (name : String)
    (offset : Nat) : Parser Unit := do
  let (found, scopes) :=
    (← get).scopes.declare name kind offset (options.webCompat && !ctx.strict)
  modify fun s => { s with scopes := scopes }
  ofScope found

/-- The current token as a name. -/
def identifier : Parser Identifier := do
  let start ← currentStart
  let name ← currentValue
  next
  return ⟨← spanFrom start, name⟩

/-- The current token, a name, as a binding. -/
def bindingIdentifier (options : Options) (ctx : Context) (kind : BindingKind) :
    Parser Identifier := do
  let token ← currentToken
  if !token.isIdentifier then
    if token.isReserved && !(← isEscaped) then fail (.unexpectedReservedWord (← currentRaw))
    else unexpected
  else
    let start ← currentStart
    let name ← currentValue
    checkBinding ctx kind name start
    declare options ctx kind name start
    identifier

/-- The current token as a private name, wherever it is declared. -/
def privateName : Parser PrivateIdentifier := do
  let start ← currentStart
  let name ← currentValue
  next
  return ⟨← spanFrom start, name⟩

/-- The current token as a use of a private name. -/
def privateReference : Parser PrivateIdentifier := do
  match (← get).privateNames.reference (← currentValue) (← currentStart) with
  | .error error => throw error.failure
  | .ok names =>
    modify fun s => { s with privateNames := names }
    privateName

end EcmaSyntax.Grammar
