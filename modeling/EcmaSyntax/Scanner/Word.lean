import EcmaSyntax.Scanner.State

/-!
Names on bytes, with the escapes of code points. The name is a range of the source as long as
nothing in it is escaped.
-/

namespace EcmaSyntax.Scanner

open EcmaSyntax.Diagnostic EcmaSyntax.Lexer EcmaSyntax.Unicode

variable {version : Nat} [Unicode.IdentifierChars version]

/-- The greatest number of 32 bits stands for all above it. -/
def saturate (n : Nat) : Nat := min n (UInt32.size - 1)

/-- Hexadecimal digits in braces: the number they spell and how many there are. -/
def scanHexRound : Round (Nat × Nat) (Nat × Nat) := fun (value, digits) => do
  match hexValue? (← byteAt 0) with
  | some d =>
    bump 1
    return .inl (saturate (saturate (value * 16) + d), digits + 1)
  | none => return .inr (value, digits)

/-- A number of hexadecimal digits after those that spell `value`. -/
def scanHexDigits (escapePos : Nat) : Nat → Nat → Scanner Nat
  | 0, value => return value
  | count + 1, value => do
    match hexValue? (← byteAt 0) with
    | some d =>
      bump 1
      scanHexDigits escapePos count (value * 16 + d)
    | none => fail .invalidUnicodeEscape escapePos

/-- Digits in braces, from the opening brace on. -/
def scanBracedUnit (escapePos : Nat) : Scanner Nat := do
  bump 1
  let (value, digits) ← loop scanHexRound (0, 0)
  if digits == 0 || (← byteAt 0) != '\x7d' then fail .invalidUnicodeEscape escapePos
  else if value > 0x10FFFF then fail .undefinedCodePoint escapePos
  else
    bump 1
    return value

/-- The number after a backslash and `u`. -/
def scanCodeUnit (escapePos : Nat) : Scanner Nat := do
  if (← byteAt 0) == '\x7b' then scanBracedUnit escapePos else scanHexDigits escapePos 4 0

/-- The code point after a backslash and `u`. What follows a high half is read too, and given
back unless it is a low half. -/
def scanCodePoint (escapePos : Nat) : Scanner Nat := do
  let code ← scanCodeUnit escapePos
  let s ← get
  if isHighSurrogate code && s.byteAt 0 == '\\' && s.byteAt 1 == 'u' then
    bump 2
    match ← attempt (scanCodeUnit s.pos) with
    | .ok low =>
      if isLowSurrogate low then return combineSurrogates code low
      else
        moveTo s.pos
        return code
    | .error _ =>
      moveTo s.pos
      return code
  else return code

def isIdentifierPartByte (b : Char) : Bool :=
  isAsciiLetter b || isAsciiDigit b || b == '$' || b == '_'

/-- A name that is being read. -/
structure WordState where
  escaped : Bool
  /-- Where the text begins that is not in the buffer yet. -/
  chunkStart : Nat
  /-- No character of the name has been read. -/
  first : Bool
deriving DecidableEq, Repr

/-- An escape in a name, and the state of the name after it. -/
def scanWordEscape (w : WordState) : Scanner WordState := do
  flush w.chunkStart w.escaped
  let escapePos ← position
  if (← byteAt 1) != 'u' then fail .invalidIdentifierEscape escapePos
  else
    bump 2
    let code ← scanCodePoint escapePos
    match (scalar? code).filter (fitsName w.first) with
    | some c =>
      push [c]
      return ⟨true, ← position, false⟩
    | none => fail .invalidIdentifierEscape escapePos

def scanWordRound : Round WordState WordState := fun w => do
  if ← isEof then return .inr w
  let b ← byte
  if isIdentifierPartByte b then
    if w.first && isAsciiDigit b then return .inr w
    bump 1
    return .inl { w with first := false }
  else if b == '\\' then return .inl (← scanWordEscape w)
  else if !isAscii b then
    match ← currentChar with
    | some c =>
      if fitsName w.first c then
        bump c.utf8Size
        return .inl { w with first := false }
      else return .inr w
    | none => return .inr w
  else return .inr w

/-- A name that starts at the position. It tells whether something in it is escaped; the name is
in the buffer then. -/
def scanWordChars (start : Nat) : Scanner Bool := do
  let w ← loop scanWordRound ⟨false, ← position, true⟩
  if w.escaped then
    copyFrom w.chunkStart
    setValue .buffer
  ensure (start < (← position))
  return w.escaped

/-- The decoded value of the current token. -/
def tokenValue : Scanner (List Char) := do
  match (← get).value? with
  | some text => return text
  | none => throw .panic

/-- A name or keyword. -/
def scanWord : Scanner Token := do
  let start ← position
  if ← scanWordChars start then
    modify fun s => { s with flags := { s.flags with escaped := true } }
  else setValue (.slice start (← position))
  return (Token.ofKeyword? (String.ofList (← tokenValue))).getD .identifier

/-- A private name after its number sign. -/
def scanPrivateName : Scanner Token := do
  let hash ← position
  bump 1
  if (← currentChar).any fun c => c == '\\' || isIdentifierStart c then
    let start ← position
    if !(← scanWordChars start) then setValue (.slice start (← position))
    return .privateName
  else fail .invalidCharacter hash

end EcmaSyntax.Scanner
