import EcmaSyntax.Lexer.Markup
import EcmaSyntax.Lexer.Regex
import EcmaSyntax.Lexer.State

/-!
The steps of a lexer: the next token, and the second readings of a token that
only the grammar can ask for.
-/

namespace EcmaSyntax.Lexer

open EcmaSyntax.Diagnostic EcmaSyntax.Number EcmaSyntax.Text

variable {version : Nat} [Unicode.IdentifierChars version]

/-- Fail where a fault stands in the token that starts at a cursor. -/
def raise {α : Type} (start : Cursor) (found : Fault) : Lexer α := do
  match found.invalidEscape with
  | some index => modify fun s => { s with invalidEscape := (start.advance index).offset }
  | none => pure ()
  throw ⟨found.cause, (start.advance found.index).offset⟩

/-- The value of a reading of the token that starts at a cursor. -/
def ofReading {α : Type} (start : Cursor) (reading : Reading α) : Lexer α :=
  match reading with
  | .ok a => pure a
  | .error found => raise start found

/-- Skip trivia and stand before the next token. -/
def beginToken : Lexer Unit := do
  let s ← get
  match readTrivia s.htmlComments s.atLineStart s.cursor.offset s.cursor.rest with
  | .error failure => throw failure
  | .ok trivia =>
    let cursor := s.cursor.advance trivia.length
    set { s with
      cursor := cursor
      start := cursor
      flags := { TokenFlags.none with lineBreakBefore := trivia.hasLineBreak }
      value := TokenValue.empty
      comments := if s.collectComments then s.comments ++ trivia.comments else s.comments
      atLineStart := trivia.atLineStart }

/-- Take in a token that starts at the cursor `start`. -/
def accept (start : Cursor) (lexeme : Lexeme) : Lexer Unit :=
  modify fun s => { s with
    cursor := start.advance lexeme.length
    token := lexeme.token
    flags := { s.flags with
      escaped := s.flags.escaped || lexeme.escaped
      octalEscape := s.flags.octalEscape || lexeme.octalEscape
      legacyOctal := s.flags.legacyOctal || lexeme.legacyOctal
      nonOctalDecimal := s.flags.nonOctalDecimal || lexeme.nonOctalDecimal
      invalidTemplateEscape := lexeme.invalidEscape.isSome }
    value := lexeme.value
    number := lexeme.number.getD s.number
    invalidEscape := match lexeme.invalidEscape with
      | some index => (start.advance index).offset
      | none => s.invalidEscape }

/-- The next token. -/
def scan : Lexer Token := do
  beginToken
  let start := (← get).cursor
  if start.rest.isEmpty then
    modify fun s => { s with token := .endOfSource }
    return .endOfSource
  let lexeme ← ofReading start (readLexeme start.rest)
  accept start lexeme
  modify fun s => { s with atLineStart := false }
  return lexeme.token

/-- Run a step, keep its result and forget what it did. -/
def lookAhead {α : Type} (step : Lexer α) : Lexer (Except Failure α) := fun s =>
  match step s with
  | .ok a after => .ok (.ok a) (s.restore after)
  | .error failure after => .ok (.error failure) (s.restore after)

/-- Kind and attributes of the token after the current one. A token that cannot
be read counts as the end. -/
def peek : Lexer (Token × TokenFlags) := do
  let found ← lookAhead do
    let token ← scan
    return (token, (← get).flags)
  match found with
  | .ok next => return next
  | .error _ => return (.endOfSource, TokenFlags.none)

/-- Hand over the comments collected so far. -/
def takeComments : Lexer (List Comment) :=
  modifyGet fun s => (s.comments, { s with comments := [] })

/-- Read a closing angle bracket together with what follows it. -/
def rescanGreaterThan : Lexer Token := do
  let s ← get
  if s.token == .greaterThan then
    let (token, length) := mergeGreaterThan s.cursor.rest
    set { s with token := token, cursor := s.cursor.advance length }
    return token
  else return s.token

/-- Read the brace that ends a substitution as the next template chunk. -/
def rescanTemplate : Lexer Token := do
  let start := (← get).start
  let lexeme ← ofReading start (readChunkLexeme false start.rest)
  accept start lexeme
  return lexeme.token

/-- Read a slash as a regular expression. -/
def rescanRegex : Lexer Token := do
  let start := (← get).start
  let literal ← ofReading start (readRegex start.rest)
  modify fun s => { s with
    cursor := start.advance literal.stop
    token := .regularExpression
    value := TokenValue.slice literal.body
    regexFlags := String.ofList literal.flags }
  return .regularExpression

/-- The value of markup text; text without an ampersand is kept as it is. -/
def markupValue (text : List Char) : TokenValue :=
  ⟨String.ofList (decodeEntities text), !text.contains '&'⟩

/-- The next part of markup contents: text, an opening brace or bracket, or
the end. Nothing is skipped before it. -/
def scanMarkupChild : Lexer Token := do
  let start := (← get).cursor
  modify fun s => { s with flags := TokenFlags.none, start := start }
  let found : Token × Nat × Option TokenValue ← match start.rest with
    | [] => pure (.endOfSource, 0, none)
    | '\x7b' :: _ => pure (.leftBrace, 1, none)
    | '<' :: _ => pure (.lessThan, 1, none)
    | text => do
      let body ← ofReading start (readMarkupText 0 text)
      pure (.jsxText, body.length, some (markupValue body))
  modify fun s => { s with
    token := found.1
    cursor := start.advance found.2.1
    value := found.2.2.getD s.value }
  return found.1

/-- Extend the current word over hyphens and make it a plain name. -/
def scanMarkupName : Lexer Unit := modify fun s =>
  if s.token.isWord then
    let more := s.cursor.rest.takeWhile isMarkupNamePart
    if more.isEmpty && s.token == .identifier then s
    else
      let cursor := s.cursor.advance more.length
      { s with
        cursor := cursor
        token := .identifier
        value := TokenValue.slice (s.start.textTo cursor.offset) }
  else s

/-- An attribute value: a string without escapes, or else an ordinary token. -/
def scanMarkupAttributeValue : Lexer Token := do
  beginToken
  let start := (← get).cursor
  match start.rest with
  | quote :: text =>
    if quote == '"' || quote == '\'' then
      let body := text.takeWhile (· != quote)
      if body.length < text.length then
        modify fun s => { s with
          cursor := start.advance (body.length + 2)
          token := .stringLiteral
          value := markupValue body }
        return .stringLiteral
      else throw ⟨.unterminatedStringLiteral, start.offset⟩
    else scan
  | [] => scan

end EcmaSyntax.Lexer
