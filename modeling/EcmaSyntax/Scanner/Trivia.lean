import EcmaSyntax.Scanner.State

/-!
Trivia on bytes. The end of a line or of a block comment is looked for byte by byte; only white
space beyond ASCII is read as characters.
-/

namespace EcmaSyntax.Scanner

open EcmaSyntax.Diagnostic EcmaSyntax.Lexer EcmaSyntax.Unicode

/-- The first byte of both line separators. -/
def separatorLead : UInt8 := 0xE2

/-- The bytes of a line separator or paragraph separator come first. -/
def startsSeparator : List UInt8 → Bool
  | 0xE2 :: 0x80 :: last :: _ => last == 0xA8 || last == 0xA9
  | _ => false

def isLineBreakByte (b : UInt8) : Bool := b == '\n'.toUInt8 || b == '\r'.toUInt8

/-- Bytes before the first line terminator. -/
def lineEnd : List UInt8 → Nat
  | [] => 0
  | b :: rest => if isLineBreakByte b || startsSeparator (b :: rest) then 0 else lineEnd rest + 1

/-- Bytes before the first asterisk that a slash follows. -/
def blockEnd? : List UInt8 → Option Nat
  | a :: b :: rest =>
    if a == '*'.toUInt8 && b == '/'.toUInt8 then some 0 else (blockEnd? (b :: rest)).map (· + 1)
  | _ => none

/-- The offset of the next line terminator, or the end of the source. -/
def findLineEnd (start : Nat) : Scanner Nat := do
  let s ← get
  ensure (start ≤ s.bytes.length)
  return start + lineEnd (s.bytesFrom start)

/-- Keep a comment between two offsets with the value between two others, if comments are kept. -/
def pushComment (kind : CommentKind) (start stop : Nat) (value : Nat × Nat) : Scanner Unit := do
  if (← get).collectComments then
    let text ← slice value.1 value.2
    let comment : Comment := ⟨kind, String.ofList text, start % UInt32.size, stop % UInt32.size⟩
    modify fun s => { s with comments := s.comments ++ [comment] }

/-- A comment that ends with its line, after an opening delimiter of `width` bytes. -/
def skipLineComment (width : Nat) (kind : CommentKind) : Scanner Unit := do
  let start ← position
  let stop ← findLineEnd (start + width)
  moveTo stop
  pushComment kind start stop (start + width, stop)

def noteLineBreak : Scanner Unit := modify fun s =>
  { s with flags := { s.flags with lineBreakBefore := true }, atLineStart := true }

/-- A line terminator is in a range, whose characters are looked at only if some byte of it can
begin a separator. -/
def hasLineBreak (start stop : Nat) : Scanner Bool := do
  let text := ((← get).bytesFrom start).take (stop - start)
  if text.any isLineBreakByte then return true
  else if text.contains separatorLead then
    return (← slice start stop).any fun c => c == '\u2028' || c == '\u2029'
  else return false

def skipBlockComment : Scanner Unit := do
  let start ← position
  let body := start + 2
  ensure (body ≤ (← get).bytes.length)
  match blockEnd? ((← get).bytesFrom body) with
  | none => fail .unterminatedComment start
  | some length =>
    let stop := body + length
    if ← hasLineBreak body stop then noteLineBreak
    moveTo (stop + 2)
    pushComment .block start (stop + 2) (body, stop)

/-- Skip white space and comments up to something else. -/
def skipTriviaRound : Round Unit Unit := fun _ => do
  if ← isEof then return .inr ()
  let b ← byte
  let s ← get
  if b == '\n' || b == '\r' then
    noteLineBreak
    bump 1
    return .inl ()
  else if b == ' ' || b == '\t' || b == '\x0b' || b == '\x0c' then
    bump 1
    return .inl ()
  else if b == '/' then
    if s.byteAt 1 == '/' then
      skipLineComment 2 .line
      return .inl ()
    else if s.byteAt 1 == '*' then
      skipBlockComment
      return .inl ()
    else return .inr ()
  else if b == '<' && s.htmlComments && s.startsWith "<!--" then
    skipLineComment 4 .html
    return .inl ()
  else if b == '-' && s.htmlComments && s.atLineStart && s.startsWith "-->" then
    skipLineComment 3 .html
    return .inl ()
  else if isAscii b then return .inr ()
  else
    match ← currentChar with
    | some c =>
      if c == '\u2028' || c == '\u2029' then
        noteLineBreak
        bump 3
        return .inl ()
      else if isInlineSpace c then
        bump c.utf8Size
        return .inl ()
      else return .inr ()
    | none => return .inr ()

/-- Skip trivia. The first line of a script may be a comment. -/
def skipTrivia : Scanner Unit := do
  let s ← get
  if s.pos == 0 && s.startsWith "#!" then skipLineComment 2 .line
  loop skipTriviaRound ()

end EcmaSyntax.Scanner
