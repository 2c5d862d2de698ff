import EcmaSyntax.Diagnostic.Failure
import EcmaSyntax.Number.Binary64
import EcmaSyntax.Unicode.Identifier

/-!
Escape sequences, and the parts of a name, string or template as they are written. Readers take the
text after the part already recognised and give the meaning with the number of characters that
belong to it. Two successive escapes that spell the halves of a surrogate pair are one code point.

What is refused inside a token has its place counted in characters from the first character of the
token, so that readers need not know where the token stands.

For halves that are escaped without the other half the text of a string is walked once, with a note
of a high half that still waits for a low one.
-/

namespace EcmaSyntax.Lexer

open EcmaSyntax.Diagnostic EcmaSyntax.Number EcmaSyntax.Unicode

structure Fault where
  cause : Cause
  index : Nat
  /-- An invalid escape of a template that stands before the fault. -/
  invalidEscape : Option Nat
deriving DecidableEq, Repr

/-- What a reader of a token gives. -/
abbrev Reading (α : Type) := Except Fault α

def fault {α : Type} (cause : Cause) (index : Nat) : Reading α := .error ⟨cause, index, none⟩

def isHighSurrogate (code : Nat) : Bool := 0xD800 ≤ code && code < 0xDC00

def isLowSurrogate (code : Nat) : Bool := 0xDC00 ≤ code && code < 0xE000

def isSurrogate (code : Nat) : Bool := 0xD800 ≤ code && code < 0xE000

def combineSurrogates (high low : Nat) : Nat :=
  0x10000 + (high - 0xD800) * 0x400 + (low - 0xDC00)

/-- The character of a code point, if it is one. -/
def scalar? (code : Nat) : Option Char :=
  if isSurrogate code || code > 0x10FFFF then none else some (Char.ofNat code)

/-- The character of a code point; a surrogate becomes the replacement
character. -/
def scalarOrReplacement (code : Nat) : Char := (scalar? code).getD '\ufffd'

/-- The number that hexadecimal digits spell. -/
def hexNumber (digits : List Char) : Nat :=
  digits.foldl (fun acc c => acc * 16 + (hexValue? c).getD 0) 0

def isHexDigit (c : Char) : Bool := (hexValue? c).isSome

/-- Four digits, or any number of digits in braces. -/
def readCodeUnit (text : List Char) : Except Cause (Nat × Nat) :=
  match text with
  | '\x7b' :: body =>
    let digits := body.takeWhile isHexDigit
    if digits.isEmpty || body[digits.length]? != some '\x7d' then .error .invalidUnicodeEscape
    else if hexNumber digits > 0x10FFFF then .error .undefinedCodePoint
    else .ok (hexNumber digits, digits.length + 2)
  | _ =>
    let digits := text.take 4
    if digits.length == 4 && digits.all isHexDigit then .ok (hexNumber digits, 4)
    else .error .invalidUnicodeEscape

/-- The code point after a backslash and `u`. A high half joins with a low one
that is escaped right after it. -/
def readCodePoint (text : List Char) : Except Cause (Nat × Nat) :=
  match readCodeUnit text with
  | .error cause => .error cause
  | .ok (code, length) =>
    if isHighSurrogate code then
      match text.drop length with
      | '\\' :: 'u' :: rest =>
        match readCodeUnit rest with
        | .ok (low, lowLength) =>
          if isLowSurrogate low then .ok (combineSurrogates code low, length + 2 + lowLength)
          else .ok (code, length)
        | .error _ => .ok (code, length)
      | _ => .ok (code, length)
    else .ok (code, length)

inductive Escape where
  /-- An escape of one character. -/
  | char (c : Char)
  /-- An escape of a code point, which may be half of a pair. -/
  | codePoint (code : Nat)
  /-- A line break that is left out. -/
  | continuation
  /-- An octal escape, or an escaped 8 or 9. -/
  | legacy (c : Char)
deriving DecidableEq, Repr

/-- The character that an escape stands for. -/
def Escape.char? : Escape → Option Char
  | .char c => some c
  | .codePoint code => some (scalarOrReplacement code)
  | .continuation => none
  | .legacy c => some c

inductive EscapeFault where
  /-- The text ends after the backslash. -/
  | unterminated
  | malformed (cause : Cause)
deriving DecidableEq, Repr

def isOctalDigit (c : Char) : Bool := isDigitIn 8 c

/-- An octal escape of up to three digits that starts with `c`. -/
def readLegacyOctal (c : Char) (rest : List Char) : Escape × Nat :=
  let more := (rest.take (if c ≤ '3' then 2 else 1)).takeWhile isOctalDigit
  (.legacy (Char.ofNat (natOfDigits 8 (c :: more))), 1 + more.length)

/-- The escape after a backslash. -/
def readEscape (text : List Char) : Except EscapeFault (Escape × Nat) :=
  match text with
  | [] => .error .unterminated
  | c :: rest =>
    if c == 'n' then .ok (.char '\n', 1)
    else if c == 't' then .ok (.char '\t', 1)
    else if c == 'r' then .ok (.char '\r', 1)
    else if c == 'b' then .ok (.char '\x08', 1)
    else if c == 'f' then .ok (.char '\x0c', 1)
    else if c == 'v' then .ok (.char '\x0b', 1)
    else if c == '\r' then .ok (.continuation, if rest.head? == some '\n' then 2 else 1)
    else if isLineTerminator c then .ok (.continuation, 1)
    else if c == '0' && !(rest.head?.any isAsciiDigit) then .ok (.char '\x00', 1)
    else if isOctalDigit c then .ok (readLegacyOctal c rest)
    else if c == '8' || c == '9' then .ok (.legacy c, 1)
    else if c == 'x' then
      match rest with
      | a :: b :: _ =>
        match hexValue? a, hexValue? b with
        | some high, some low => .ok (.char (Char.ofNat (high * 16 + low)), 3)
        | _, _ => .error (.malformed .invalidHexEscape)
      | _ => .error (.malformed .invalidHexEscape)
    else if c == 'u' then
      match readCodePoint rest with
      | .ok (code, length) => .ok (.codePoint code, length + 1)
      | .error cause => .error (.malformed cause)
    else .ok (.char c, 1)

/-- The number after a backslash and `u`, and the characters it takes. -/
def escapedUnit? (text : List Char) : Option (Nat × Nat) :=
  match text with
  | '\x7b' :: body =>
    let digits := body.takeWhile isHexDigit
    if body[digits.length]? == some '\x7d' then some (hexNumber digits, digits.length + 2)
    else none
  | _ =>
    let digits := text.take 4
    if digits.length == 4 && digits.all isHexDigit then some (hexNumber digits, 4) else none

/-- A lone half in a text of at most as many characters as the first argument
says, after a high half if one is waiting. -/
def loneSurrogateWithin : Nat → Bool → List Char → Bool
  | 0, waiting, _ => waiting
  | _ + 1, waiting, [] => waiting
  | fuel + 1, waiting, '\\' :: rest =>
    match rest with
    | 'u' :: digits =>
      match escapedUnit? digits with
      | none => false
      | some (code, length) =>
        if waiting then
          if isLowSurrogate code then loneSurrogateWithin fuel false (digits.drop length) else true
        else if isLowSurrogate code then true
        else loneSurrogateWithin fuel (isHighSurrogate code) (digits.drop length)
    | _ => if waiting then true else loneSurrogateWithin fuel false (rest.drop 1)
  | fuel + 1, waiting, _ :: rest =>
    if waiting then true else loneSurrogateWithin fuel false rest

/-- Some half of a pair is escaped without the other in the text of a string. -/
def hasLoneSurrogate (raw : List Char) : Bool := loneSurrogateWithin raw.length false raw

inductive Piece where
  /-- A character that stands for itself. -/
  | plain (c : Char)
  | escape (e : Escape)
  /-- A carriage return in a template, with a line feed after it if there is
  one; it counts as a line feed. -/
  | lineBreak
  /-- An escape that has no value in a template, and its place. -/
  | invalid (index : Nat)
deriving DecidableEq, Repr

namespace Piece

def char? : Piece → Option Char
  | .plain c => some c
  | .escape e => e.char?
  | .lineBreak => some '\n'
  | .invalid _ => none

def isPlain : Piece → Bool
  | .plain _ => true
  | _ => false

def isLegacyEscape : Piece → Bool
  | .escape (.legacy _) => true
  | _ => false

def invalidIndex? : Piece → Option Nat
  | .invalid index => some index
  | _ => none

/-- The value that pieces spell. -/
def value (pieces : List Piece) : List Char := pieces.filterMap char?

/-- The value is the text itself. -/
def areVerbatim (pieces : List Piece) : Bool := pieces.all isPlain

end Piece

end EcmaSyntax.Lexer
