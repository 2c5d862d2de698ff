import EcmaSyntax.Lexer.Scan
import EcmaSyntax.Scanner.Numeral
import EcmaSyntax.Scanner.Quoted

/-!
The steps of a scanner on bytes: the next token, which is told by its first byte, and the second
readings of a token.
-/

namespace EcmaSyntax.Scanner

open EcmaSyntax.Diagnostic EcmaSyntax.Lexer EcmaSyntax.Unicode

variable {version : Nat} [Unicode.IdentifierChars version]

/-- A token of a number of bytes. -/
def op (length : Nat) (token : Token) : Scanner Token := do
  bump length
  return token

section Punctuation

def scanDot : Scanner Token := do
  let s ← get
  if s.byteAt 1 == '.' && s.byteAt 2 == '.' then op 3 .ellipsis
  else if isAsciiDigit (s.byteAt 1) then scanNumber
  else op 1 .dot

def scanQuestion : Scanner Token := do
  let s ← get
  if s.byteAt 1 == '?' && s.byteAt 2 == '=' then op 3 .coalesceAssign
  else if s.byteAt 1 == '?' then op 2 .coalesce
  else if s.byteAt 1 == '.' && !isAsciiDigit (s.byteAt 2) then op 2 .questionDot
  else op 1 .question

def scanEquals : Scanner Token := do
  let s ← get
  if s.byteAt 1 == '=' && s.byteAt 2 == '=' then op 3 .strictEqual
  else if s.byteAt 1 == '=' then op 2 .looseEqual
  else if s.byteAt 1 == '>' then op 2 .arrow
  else op 1 .assign

def scanExclamation : Scanner Token := do
  let s ← get
  if s.byteAt 1 == '=' && s.byteAt 2 == '=' then op 3 .strictNotEqual
  else if s.byteAt 1 == '=' then op 2 .looseNotEqual
  else op 1 .negate

/-- A punctuator that can be doubled or have an equals sign after it. -/
def scanRepeatable (b : Char) (single double assigned : Token) : Scanner Token := do
  let s ← get
  if s.byteAt 1 == b then op 2 double
  else if s.byteAt 1 == '=' then op 2 assigned
  else op 1 single

/-- A punctuator that an equals sign can follow. -/
def scanCompound (single assigned : Token) : Scanner Token := do
  if (← byteAt 1) == '=' then op 2 assigned else op 1 single

/-- A punctuator that can be doubled, with an equals sign after either form. -/
def scanDoubled (b : Char) (single assigned double doubleAssign : Token) : Scanner Token := do
  let s ← get
  if s.byteAt 1 == b && s.byteAt 2 == '=' then op 3 doubleAssign
  else if s.byteAt 1 == b then op 2 double
  else if s.byteAt 1 == '=' then op 2 assigned
  else op 1 single

end Punctuation

/-- A name that starts with a character beyond ASCII. -/
def scanWideWord : Scanner Token := do
  if (← currentChar).any isIdentifierStart then scanWord
  else fail .invalidCharacter (← position)

/-- A number or a name that starts with the byte `b`. -/
def scanOther (b : Char) : Scanner Token := do
  if isAsciiDigit b then scanNumber
  else if isAsciiLetter b || b == '$' || b == '_' then scanWord
  else if !isAscii b then scanWideWord
  else fail .invalidCharacter (← position)

/-- The token at the position. -/
def scanToken : Scanner Token := do
  let b ← byte
  match b with
  | '(' => op 1 .leftParen
  | ')' => op 1 .rightParen
  | '\x7b' => op 1 .leftBrace
  | '\x7d' => op 1 .rightBrace
  | '[' => op 1 .leftBracket
  | ']' => op 1 .rightBracket
  | ';' => op 1 .semicolon
  | ',' => op 1 .comma
  | ':' => op 1 .colon
  | '~' => op 1 .complement
  | '@' => op 1 .at
  | '>' => op 1 .greaterThan
  | '.' => scanDot
  | '?' => scanQuestion
  | '<' => scanDoubled '<' .lessThan .lessThanOrEqual .shiftLeft .shiftLeftAssign
  | '=' => scanEquals
  | '!' => scanExclamation
  | '+' => scanRepeatable '+' .add .increment .addAssign
  | '-' => scanRepeatable '-' .subtract .decrement .subtractAssign
  | '*' => scanDoubled '*' .multiply .multiplyAssign .exponentiate .exponentiateAssign
  | '/' => scanCompound .divide .divideAssign
  | '%' => scanCompound .modulo .moduloAssign
  | '^' => scanCompound .bitwiseXor .bitwiseXorAssign
  | '&' => scanDoubled '&' .bitwiseAnd .bitwiseAndAssign .logicalAnd .logicalAndAssign
  | '|' => scanDoubled '|' .bitwiseOr .bitwiseOrAssign .logicalOr .logicalOrAssign
  | '\'' | '"' => scanStringLiteral b
  | '\x60' => do
    bump 1
    scanTemplateChunk true
  | '#' => scanPrivateName
  | '\\' => scanWord
  | _ => scanOther b

/-- Skip trivia and stand before the next token. -/
def beginToken : Scanner Unit := do
  modify fun s => { s with flags := TokenFlags.none }
  skipTrivia
  modify fun s => { s with tokenStart := s.pos, value := .slice s.pos s.pos }

def setToken (token : Token) : Scanner Unit := modify fun s => { s with token := token }

/-- The next token. -/
def scan : Scanner Token := do
  beginToken
  if ← isEof then
    setToken .endOfSource
    return .endOfSource
  let token ← scanToken
  modify fun s => { s with token := token, atLineStart := false }
  return token

/-- Run a step, keep its result and forget what it did. -/
def lookAhead {α : Type} (step : Scanner α) : Scanner α := do
  let saved ← get
  let a ← step
  modify fun s => saved.restore s
  return a

/-- Kind and attributes of the next token. One that cannot be read counts as the end. -/
def scanOrEnd : Scanner (Token × TokenFlags) := do
  match ← attempt scan with
  | .ok token => return (token, (← get).flags)
  | .error _ => return (.endOfSource, TokenFlags.none)

/-- Kind and attributes of the token after the current one. -/
def peek : Scanner (Token × TokenFlags) := lookAhead scanOrEnd

/-- What a closing angle bracket becomes with the bytes after it. -/
def mergeNext : Scanner Token := do
  let s ← get
  if s.byteAt 0 == '>' && (s.byteAt 1 == '>' && s.byteAt 2 == '=') then
    op 3 .logicalShiftRightAssign
  else if s.byteAt 0 == '>' && s.byteAt 1 == '>' then op 2 .logicalShiftRight
  else if s.byteAt 0 == '>' && s.byteAt 1 == '=' then op 2 .shiftRightAssign
  else if s.byteAt 0 == '>' then op 1 .shiftRight
  else if s.byteAt 0 == '=' then op 1 .greaterThanOrEqual
  else return .greaterThan

/-- Read a closing angle bracket together with what follows it. -/
def rescanGreaterThan : Scanner Token := do
  if (← get).token != .greaterThan then return (← get).token
  let token ← mergeNext
  setToken token
  return token

/-- Read the brace that ends a substitution as the next template chunk. -/
def rescanTemplate : Scanner Token := do
  ensure ((← get).token == .rightBrace)
  modify fun s => { s with
    pos := s.tokenStart + 1
    flags := { s.flags with invalidTemplateEscape := false } }
  let token ← scanTemplateChunk false
  setToken token
  return token

/-- Read a slash as a regular expression. -/
def rescanRegex : Scanner Token := do
  let s ← get
  ensure (s.token == .divide || s.token == .divideAssign)
  let start := s.tokenStart
  moveTo (start + 1)
  loop (scanRegexBodyRound start) false
  setValue (.slice (start + 1) (← position))
  bump 1
  scanRegexFlags
  setToken .regularExpression
  return .regularExpression

section Markup

/-- The value of markup text between two offsets. -/
def setMarkupValue (start stop : Nat) : Scanner Unit := do
  let text ← slice start stop
  if text.contains '&' then
    clearBuffer
    push (decodeEntities text)
    setValue .buffer
  else setValue (.slice start stop)

def scanMarkupTextRound : Round Unit Unit := fun _ => do
  if ← isEof then return .inr ()
  let b ← byte
  if b == '\x7b' || b == '<' then return .inr ()
  else if b == '>' || b == '\x7d' then
    fail (.unexpectedToken (String.singleton b)) (← position)
  else
    bump 1
    return .inl ()

/-- The text up to the next tag or brace. -/
def scanMarkupText : Scanner Token := do
  let start ← position
  loop scanMarkupTextRound ()
  setMarkupValue start (← position)
  return .jsxText

/-- The part of markup contents that starts with the byte `b`. -/
def scanMarkupPart (b : Char) : Scanner Token :=
  match b with
  | '\x7b' => op 1 .leftBrace
  | '<' => op 1 .lessThan
  | _ => scanMarkupText

/-- The next part of markup contents: text, an opening brace or bracket, or the end. -/
def scanMarkupChild : Scanner Token := do
  modify fun s => { s with flags := TokenFlags.none, tokenStart := s.pos }
  if ← isEof then
    setToken .endOfSource
    return .endOfSource
  let token ← scanMarkupPart (← byte)
  setToken token
  return token

/-- A markup name goes on over letters and hyphens. The state tells that it has gone on. -/
def scanMarkupNameRound : Round Bool Bool := fun extended => do
  if ← isEof then return .inr extended
  let b ← byte
  if b == '-' || isIdentifierPartByte b then
    bump 1
    return .inl true
  else if !isAscii b then
    match ← currentChar with
    | some c =>
      if isIdentifierPart c then
        bump c.utf8Size
        return .inl true
      else return .inr extended
    | none => return .inr extended
  else return .inr extended

/-- Extend the current word over hyphens and make it a plain name. -/
def scanMarkupName : Scanner Unit := do
  if (← get).token.isWord then
    let extended ← loop scanMarkupNameRound false
    if extended || (← get).token != .identifier then
      modify fun s => { s with value := .slice s.tokenStart s.pos, token := .identifier }

/-- Bytes before the first one of a kind, if there is one. -/
def findByte? (b : Char) (bytes : List UInt8) : Option Nat :=
  bytes.findIdx? (· == b.toUInt8)

/-- An attribute value: a string without escapes, or else an ordinary token. -/
def scanMarkupAttributeValue : Scanner Token := do
  beginToken
  let quote ← byteAt 0
  if quote != '"' && quote != '\'' then scan
  else
    let start ← position
    bump 1
    let s ← get
    match findByte? quote (s.bytesFrom s.pos) with
    | some length =>
      setMarkupValue s.pos (s.pos + length)
      moveTo (s.pos + length + 1)
      setToken .stringLiteral
      return .stringLiteral
    | none => fail .unterminatedStringLiteral start

end Markup

end EcmaSyntax.Scanner
