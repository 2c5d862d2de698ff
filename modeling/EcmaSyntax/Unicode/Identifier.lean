/-!
The characters that separate tokens, and those of names. Line terminators and the white space that
stays on one line separate tokens. Within ASCII the characters of names are letters, digits, the
dollar sign and the low line. Beyond it, which characters begin or continue a name is for Unicode to
say, and what is said here of texts holds for any answer; the two joiners may continue a name in any
case.
-/

namespace EcmaSyntax.Unicode

def isLineTerminator (c : Char) : Bool :=
  c == '\n' || c == '\r' || c == '\u2028' || c == '\u2029'

/-- White space other than line terminators, every space separator included. -/
def isInlineSpace (c : Char) : Bool :=
  c == ' ' || c == '\t' || c == '\x0b' || c == '\x0c' || c == '\u00a0' || c == '\u1680' ||
    ('\u2000' ≤ c && c ≤ '\u200a') || c == '\u202f' || c == '\u205f' || c == '\u3000' ||
    c == '\ufeff'

/-- What a version of Unicode says of a character: whether it has the properties `XID_Start` and
`XID_Continue`. -/
class IdentifierChars (version : outParam Nat) where
  isXidStart : Char → Bool
  isXidContinue : Char → Bool

/-- No character that begins a name is white space or ends a line. -/
class LawfulIdentifierChars (version : Nat) [IdentifierChars version] : Prop where
  not_isInlineSpace : ∀ c, IdentifierChars.isXidStart c = true → isInlineSpace c = false
  not_isLineTerminator : ∀ c, IdentifierChars.isXidStart c = true → isLineTerminator c = false

def isAscii (c : Char) : Bool := c.toNat < 0x80

def isAsciiDigit (c : Char) : Bool := '0' ≤ c && c ≤ '9'

def isAsciiLetter (c : Char) : Bool := ('a' ≤ c && c ≤ 'z') || ('A' ≤ c && c ≤ 'Z')

section Names

variable {version : Nat} [IdentifierChars version]

def isIdentifierStart (c : Char) : Bool :=
  if isAscii c then isAsciiLetter c || c == '$' || c == '_'
  else IdentifierChars.isXidStart c

def isIdentifierPart (c : Char) : Bool :=
  if isAscii c then isAsciiLetter c || isAsciiDigit c || c == '$' || c == '_'
  else c == '\u200c' || c == '\u200d' || IdentifierChars.isXidContinue c

end Names

def isDigitIn (radix : Nat) (c : Char) : Bool :=
  match radix with
  | 2 => c == '0' || c == '1'
  | 8 => '0' ≤ c && c ≤ '7'
  | 10 => isAsciiDigit c
  | _ => isAsciiDigit c || ('a' ≤ c && c ≤ 'f') || ('A' ≤ c && c ≤ 'F')

/-- The value of a hexadecimal digit. -/
def hexValue? (c : Char) : Option Nat :=
  if isAsciiDigit c then some (c.toNat - '0'.toNat)
  else if 'a' ≤ c && c ≤ 'f' then some (c.toNat - 'a'.toNat + 10)
  else if 'A' ≤ c && c ≤ 'F' then some (c.toNat - 'A'.toNat + 10)
  else none

end EcmaSyntax.Unicode
