import EcmaSyntax.Grammar.Context
import EcmaSyntax.Lexer.Scan
import EcmaSyntax.Options
import EcmaSyntax.Scope.Exports
import EcmaSyntax.Scope.Labels
import EcmaSyntax.Scope.PrivateNames
import EcmaSyntax.Tree.Basic

/-!
The state of a parse. Besides the lexer and the tables of names it holds
registers that describe the expression just read, since a literal or a group
may turn out to be a pattern only when the token after it is seen.
-/

namespace EcmaSyntax.Grammar

open EcmaSyntax.Diagnostic EcmaSyntax.Lexer EcmaSyntax.Text EcmaSyntax.Tree

variable {version : Nat} [Unicode.IdentifierChars version]

/-- Why a literal just read is no expression by itself. -/
structure Cover where
  /-- A shorthand property has an initializer, so this must be a pattern. -/
  mustDestruct : Bool
  /-- A prototype is given twice, which only a pattern may do. -/
  repeatsProto : Bool
deriving DecidableEq, Repr

namespace Cover

def none : Cover := ⟨false, false⟩

def union (a b : Cover) : Cover :=
  ⟨a.mustDestruct || b.mustDestruct, a.repeatsProto || b.repeatsProto⟩

def unionAll (covers : List Cover) : Cover := covers.foldr union none

end Cover

structure TokenRecord where
  token : Token
  raw : String
  span : Span
deriving DecidableEq, Repr

/-- What a parse reports while it goes on. -/
structure Observations where
  comments : Array Comment
  tokens : Array TokenRecord
  /-- Where semicolons were inserted. -/
  semicolons : Array Nat
deriving Repr

def Observations.none : Observations := ⟨#[], #[], #[]⟩

/-- What a function is. All but plain functions have unique parameters. -/
inductive FunctionShape where
  | plain
  | method
  | getter
  | setter
  | constructor
  | derivedConstructor
deriving DecidableEq, Repr

/-- Whose parameters they are. The code of a function that is no arrow is known, when its
parameters are settled, to be strict or not. -/
inductive FunctionKind where
  | arrow
  | function (shape : FunctionShape) (isStrict : Bool)
deriving DecidableEq, Repr

/-- The parameters of a function, with what decides whether they may repeat a name. -/
structure ParameterList where
  start : Nat
  kind : FunctionKind
  /-- The context that the function gives to its parts. -/
  ctx : Context
  params : List Pattern

namespace ParameterList

/-- No name may be repeated. -/
def isUnique (list : ParameterList) : Bool :=
  match list.kind with
  | .arrow => true
  | .function shape isStrict =>
    isStrict || !list.params.all Pattern.isSimple || shape != .plain ||
      list.ctx.inGenerator || list.ctx.inAsync

end ParameterList

structure State where
  lexer : Lexer.State
  /-- Tokens, comments and inserted semicolons are recorded. -/
  observing : Bool
  observations : Observations
  scopes : Scope.Stack
  privateNames : Scope.PrivateNames
  labels : Scope.Labels
  /-- Index of the first label when labels follow each other. -/
  labelChain : Option Nat
  exports : Scope.Exports
  /-- The expression just read is a simple target of assignment. -/
  assignable : Bool
  /-- The cover state of the literal just read. -/
  cover : Cover
  /-- Starts of the expressions that stood in parentheses. -/
  parenthesized : List Nat
  /-- Starts of the spread elements that a comma follows. -/
  spreadsBeforeComma : List Nat
  /-- The last `yield` of the current function. -/
  lastYield : Option Nat
  /-- The last `await` of the current function. -/
  lastAwait : Option Nat
  /-- The last name `await` of the current function. -/
  lastAwaitName : Option Nat
  /-- Start of the innermost assignment expression, the one place where an
  arrow function may begin. -/
  assignmentStart : Option Nat
  /-- End of the last token taken. -/
  previousEnd : Nat
  /-- Open statements, expressions and patterns. -/
  depth : Nat
  /-- The parameters that were refused, since one of them repeats a name. -/
  refused : Option ParameterList

namespace State

def initial (options : Options) (observing : Bool) (text : List Char) : State where
  lexer := Lexer.State.initial text (options.webCompat && !options.module) observing
  observing := observing
  observations := Observations.none
  scopes := Scope.Stack.initial
  privateNames := []
  labels := []
  labelChain := Option.none
  exports := Scope.Exports.empty
  assignable := false
  cover := Cover.none
  parenthesized := []
  spreadsBeforeComma := []
  lastYield := Option.none
  lastAwait := Option.none
  lastAwaitName := Option.none
  assignmentStart := Option.none
  previousEnd := 0
  depth := 0
  refused := Option.none

def token (s : State) : Token := s.lexer.token

/-- Start of the current token. -/
def start (s : State) : Nat := s.lexer.start.offset

def raw (s : State) : String := String.ofList s.lexer.raw

/-- Record that the current token is taken. -/
def recordToken (s : State) : State :=
  if s.observing && s.token != .endOfSource then
    { s with observations := { s.observations with
        tokens := s.observations.tokens.push ⟨s.token, s.raw, s.lexer.span⟩ } }
  else s

def recordComments (s : State) (comments : List Comment) : State :=
  if s.observing then
    { s with observations := { s.observations with
        comments := s.observations.comments ++ comments.toArray } }
  else s

/-- Record a semicolon inserted after the last token taken. -/
def insertSemicolon (s : State) : State :=
  if s.observing then
    { s with observations := { s.observations with
        semicolons := s.observations.semicolons.push s.previousEnd } }
  else s

end State

end EcmaSyntax.Grammar

namespace EcmaSyntax

/-- A step of a parse, which may fail. -/
abbrev Parser := EStateM Diagnostic.Failure Grammar.State

end EcmaSyntax
