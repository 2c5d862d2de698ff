import EcmaSyntax.Grammar.State

/-!
The steps that every phrase is made of: look at the current token, take it,
expect it, end a statement, and fail where it stands.
-/

namespace EcmaSyntax.Grammar

open EcmaSyntax.Diagnostic EcmaSyntax.Lexer EcmaSyntax.Text

variable {version : Nat} [Unicode.IdentifierChars version]

/-- Phrases nested deeper than this are refused. -/
def maxDepth : Nat := 256

def currentToken : Parser Token := return (← get).token

def currentStart : Parser Nat := return (← get).start

/-- End of the current token. -/
def currentEnd : Parser Nat := return (← get).lexer.cursor.offset

def currentFlags : Parser TokenFlags := return (← get).lexer.flags

/-- Decoded value of the current token. -/
def currentValue : Parser String := return (← get).lexer.value.text

def currentRaw : Parser String := return (← get).raw

def isEscaped : Parser Bool := return (← currentFlags).escaped

/-- A line break stands before the current token. -/
def afterLineBreak : Parser Bool := return (← currentFlags).lineBreakBefore

/-- The current token is of this kind. -/
def atToken (token : Token) : Parser Bool := return (← currentToken) == token

/-- The current token is this word, spelled without escapes. -/
def atWord (token : Token) : Parser Bool := return (← currentToken) == token && !(← isEscaped)

def failAt {α : Type} (cause : Cause) (offset : Nat) : Parser α := throw ⟨cause, offset⟩

/-- Fail at the current token. -/
def fail {α : Type} (cause : Cause) : Parser α := do failAt cause (← currentStart)

/-- Why the current token cannot stand here. -/
def unexpectedCause (s : State) : Cause :=
  if s.token == .endOfSource then .unexpectedEnd
  else if s.token.isWord && s.lexer.flags.escaped then .escapedKeyword
  else .unexpectedToken s.raw

def unexpected {α : Type} : Parser α := do fail (unexpectedCause (← get))

/-- A step that does nothing when a table of names accepts. -/
def ofScope (found : Except Scope.Error Unit) : Parser Unit :=
  match found with
  | .ok () => pure ()
  | .error error => throw error.failure

/-- A step of the lexer. -/
def withLexer {α : Type} (step : Lexer α) : Parser α := fun s =>
  match step s.lexer with
  | .ok a lexer => .ok a { s with lexer := lexer }
  | .error failure lexer => .error failure { s with lexer := lexer }

/-- Take the current token and read the next one as the lexer step does. -/
def advance (step : Lexer Token) : Parser Unit := do
  modify fun s => { s.recordToken with previousEnd := s.lexer.cursor.offset }
  let _ ← withLexer step
  if (← get).observing then
    let comments ← withLexer takeComments
    modify fun s => s.recordComments comments

def next : Parser Unit := advance do
  let _ ← scan
  rescanGreaterThan

/-- The next token of a tag, where an angle bracket stands for itself. -/
def nextInTag : Parser Unit := advance scan

/-- The next part of the contents of a markup element. -/
def nextChild : Parser Unit := advance scanMarkupChild

def nextAttributeValue : Parser Unit := advance scanMarkupAttributeValue

/-- Kind and attributes of the token after the current one. -/
def peekNext : Parser (Token × TokenFlags) := withLexer peek

def peekToken : Parser Token := return (← peekNext).1

/-- Kind of the token two after the current one. -/
def peekSecond : Parser Token := do
  let found ← withLexer (lookAhead do
    let _ ← scan
    scan)
  match found with
  | .ok token => return token
  | .error _ => return .endOfSource

/-- Take the current token if it is of this kind. -/
def accept (token : Token) : Parser Bool := do
  if ← atToken token then
    next
    return true
  else return false

def expect (token : Token) : Parser Unit := do
  if ← atToken token then next
  else if ← atToken .endOfSource then fail .unexpectedEnd
  else fail (.expectedToken token.text)

/-- End a statement. A missing semicolon is inserted before a closing brace,
at the end, and after a line break. -/
def endStatement : Parser Unit := do
  let token ← currentToken
  if token == .semicolon then next
  else if token == .rightBrace || token == .endOfSource || (← afterLineBreak) then
    modify State.insertSemicolon
  else unexpected

/-- Open a level of nesting. -/
def enterNesting : Parser Unit := do
  modify fun s => { s with depth := s.depth + 1 }
  if (← get).depth > maxDepth then fail .nestingTooDeep

def leaveNesting : Parser Unit := modify fun s => { s with depth := s.depth - 1 }

/-- A phrase one level deeper. -/
def nested {α : Type} (phrase : Parser α) : Parser α := do
  enterNesting
  let a ← phrase
  leaveNesting
  return a

/-- The span from a start to the end of the last token taken. -/
def spanFrom (start : Nat) : Parser Span := return ⟨start, (← get).previousEnd⟩

/-- The span from a start to the end of the current token. -/
def spanThrough (start : Nat) : Parser Span := return ⟨start, ← currentEnd⟩

def setAssignable (assignable : Bool) : Parser Unit :=
  modify fun s => { s with assignable := assignable }

def setCover (cover : Cover) : Parser Unit := modify fun s => { s with cover := cover }

/-- The cover state of the literal just read, which is cleared. -/
def takeCover : Parser Cover := modifyGet fun s => (s.cover, { s with cover := Cover.none })

/-- Note that the expression just read is neither a target nor a literal. -/
def plainExpression : Parser Unit := do
  setAssignable false
  setCover Cover.none

/-- A phrase in a scope of its own. -/
def inScope {α : Type} (roles : List Scope.Role) (phrase : Parser α) : Parser α := do
  modify fun s => { s with scopes := s.scopes.push roles }
  let a ← phrase
  modify fun s => { s with scopes := s.scopes.pop }
  return a

end EcmaSyntax.Grammar
