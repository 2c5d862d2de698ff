import EcmaSyntax.Lexer.Quoted
import EcmaSyntax.Lexer.Regex
import EcmaSyntax.Scanner.Trivia
import EcmaSyntax.Scanner.Word

/-!
Strings, templates and regular expressions on bytes. Text is gone through byte by byte, so that
the position stands inside of characters on the way; escapes are read as characters.
-/

namespace EcmaSyntax.Scanner

open EcmaSyntax.Diagnostic EcmaSyntax.Lexer EcmaSyntax.Number EcmaSyntax.Unicode

variable {version : Nat} [Unicode.IdentifierChars version]

/-- An escape without value in a template. The place of the first one in a chunk is noted. -/
def noteInvalidEscape (escapePos : Nat) : Scanner Unit := modify fun s =>
  { s with
    invalidEscape := if s.flags.invalidTemplateEscape then s.invalidEscape else escapePos
    flags := { s.flags with invalidTemplateEscape := true } }

def noteOctalEscape : Scanner Unit := modify fun s =>
  { s with flags := { s.flags with octalEscape := true } }

/-- Up to a number of octal digits after those that spell `value`. -/
def scanOctalDigits : Nat → Nat → Scanner Nat
  | 0, value => return value
  | count + 1, value => do
    let b ← byteAt 0
    if isOctalDigit b then
      bump 1
      scanOctalDigits count (value * 8 + digitValue b)
    else return value

/-- The characters that stand for another one after a backslash. -/
def simpleEscapes : List (Char × Char) :=
  [('n', '\n'), ('t', '\t'), ('r', '\r'), ('b', '\x08'), ('f', '\x0c'), ('v', '\x0b')]

/-- An octal escape that starts with `c`. A template notes it as one without value. -/
def scanLegacyEscape (inTemplate : Bool) (escapePos : Nat) (c : Char) : Scanner Unit := do
  if inTemplate then noteInvalidEscape escapePos
  else
    noteOctalEscape
    if isOctalDigit c then
      let value ← scanOctalDigits (if c ≤ '3' then 2 else 1) (digitValue c)
      push [scalarOrReplacement value]
    else push [c]

/-- Two hexadecimal digits. -/
def scanHexEscape (inTemplate : Bool) (escapePos : Nat) : Scanner Unit := do
  match hexValue? (← byteAt 0), hexValue? (← byteAt 1) with
  | some high, some low =>
    bump 2
    push [scalarOrReplacement (high * 16 + low)]
  | _, _ =>
    if inTemplate then noteInvalidEscape escapePos else fail .invalidHexEscape escapePos

/-- A code point after `u`. A template goes back behind the `u` where it has no value. -/
def scanUnicodeEscape (inTemplate : Bool) (escapePos : Nat) : Scanner Unit := do
  let saved ← position
  match ← attempt (scanCodePoint escapePos) with
  | .ok code => push [scalarOrReplacement code]
  | .error failure =>
    if inTemplate then
      moveTo saved
      noteInvalidEscape escapePos
    else throw (.failure failure)

/-- The escape whose backslash is at the position. Its value is added to the buffer. -/
def scanEscape (inTemplate : Bool) : Scanner Unit := do
  let escapePos ← position
  bump 1
  match ← currentChar with
  | none =>
    fail (if inTemplate then .unterminatedTemplateLiteral else .unterminatedStringLiteral)
      (← get).tokenStart
  | some c =>
    bump c.utf8Size
    match simpleEscapes.lookup c with
    | some meaning => push [meaning]
    | none =>
      if c == '\r' then
        if (← byteAt 0) == '\n' then bump 1
      else if isLineTerminator c then pure ()
      else if c == '0' && !isAsciiDigit (← byteAt 0) then push ['\x00']
      else if isOctalDigit c || c == '8' || c == '9' then scanLegacyEscape inTemplate escapePos c
      else if c == 'x' then scanHexEscape inTemplate escapePos
      else if c == 'u' then scanUnicodeEscape inTemplate escapePos
      else push [c]

/-- A string or template chunk that is being read. -/
structure QuotedState where
  /-- Where the text begins that is not in the buffer yet. -/
  chunkStart : Nat
  /-- The value is in the buffer. -/
  buffered : Bool
deriving DecidableEq, Repr

/-- The text before the position, after what is in the buffer, ends the value. -/
def endQuoted (q : QuotedState) : Scanner Unit := do
  if q.buffered then
    copyFrom q.chunkStart
    setValue .buffer
  else setValue (.slice q.chunkStart (← position))

def scanStringRound (start : Nat) (quote : Char) : Round QuotedState Unit := fun q => do
  if ← isEof then fail .unterminatedStringLiteral start
  else
    let b ← byte
    if b == quote then
      endQuoted q
      bump 1
      return .inr ()
    else if b == '\\' then
      flush q.chunkStart q.buffered
      scanEscape false
      return .inl ⟨← position, true⟩
    else if b == '\n' || b == '\r' then fail .unterminatedStringLiteral start
    else
      bump 1
      return .inl q

def scanStringLiteral (quote : Char) : Scanner Token := do
  let start ← position
  bump 1
  loop (scanStringRound start quote) ⟨← position, false⟩
  return .stringLiteral

def scanTemplateRound (isFirst : Bool) (start : Nat) : Round QuotedState Token := fun q => do
  if ← isEof then fail .unterminatedTemplateLiteral start
  else
    let b ← byte
    if b == '\x60' then
      endQuoted q
      bump 1
      return .inr (if isFirst then .noSubstitutionTemplate else .templateTail)
    else if b == '$' && (← byteAt 1) == '\x7b' then
      endQuoted q
      bump 2
      return .inr (if isFirst then .templateHead else .templateMiddle)
    else if b == '\\' then
      copyFrom q.chunkStart
      scanEscape true
      return .inl ⟨← position, true⟩
    else if b == '\r' then
      copyFrom q.chunkStart
      push ['\n']
      bump 1
      if (← byteAt 0) == '\n' then bump 1
      return .inl ⟨← position, true⟩
    else
      bump 1
      return .inl q

/-- A template chunk after its opening delimiter. -/
def scanTemplateChunk (isFirst : Bool) : Scanner Token := do
  let start := (← get).tokenStart
  let chunkStart ← position
  clearBuffer
  loop (scanTemplateRound isFirst start) ⟨chunkStart, false⟩

/-- The body of a regular expression up to its closing slash. -/
def scanRegexBodyRound (start : Nat) : Round Bool Unit := fun inClass => do
  if ← isEof then fail .unterminatedRegex start
  else
    let b ← byte
    let s ← get
    if b == '\n' || b == '\r' || startsSeparator (s.bytesFrom s.pos) then
      fail .unterminatedRegex start
    else if b == '\\' then
      bump 1
      match ← currentChar with
      | some c =>
        if isLineTerminator c then fail .unterminatedRegex start
        else
          bump c.utf8Size
          return .inl inClass
      | none => fail .unterminatedRegex start
    else if b == '/' && !inClass then return .inr ()
    else
      bump 1
      return .inl (b == '[' || (inClass && b != ']'))

/-- The flags of a regular expression; `seen` are those before the position. -/
def scanRegexFlagsRound : Round (List Char) (List Char) := fun seen => do
  match ← currentChar with
  | none => return .inr seen
  | some c =>
    if !isIdentifierPart c then
      if c == '\\' then fail (.invalidRegexFlag "\\") (← position)
      else return .inr seen
    else if !regexFlagLetters.contains c then
      fail (.invalidRegexFlag (String.singleton c)) (← position)
    else if seen.contains c then fail (.duplicateRegexFlag (String.singleton c)) (← position)
    else
      bump 1
      return .inl (seen ++ [c])

/-- The flags at the position, of which two exclude each other. -/
def scanRegexFlags : Scanner Unit := do
  let start ← position
  let flags ← loop scanRegexFlagsRound []
  if flags.contains 'u' && flags.contains 'v' then fail (.invalidRegexFlag "v") start
  else modify fun s => { s with regexFlags := (start, s.pos) }

end EcmaSyntax.Scanner
