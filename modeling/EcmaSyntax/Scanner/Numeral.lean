import EcmaSyntax.Lexer.Numeral
import EcmaSyntax.Scanner.State

/-!
Numbers on bytes. The digits are collected without separators as they are passed; a decimal is
the text that is collected, with its point and exponent.
-/

namespace EcmaSyntax.Scanner

open EcmaSyntax.Diagnostic EcmaSyntax.Number EcmaSyntax.Unicode

variable {version : Nat} [Unicode.IdentifierChars version]

/-- The digits after a point. -/
def fractionDigits (text : List Char) : List Char :=
  match text with
  | '.' :: digits => digits.takeWhile isAsciiDigit
  | _ => []

/-- Whether the exponent has a minus sign, and its digits. -/
def exponentDigits (text : List Char) : Bool × List Char :=
  match text.dropWhile (· != 'e') with
  | _ :: '-' :: digits => (true, digits)
  | _ :: '+' :: digits => (false, digits)
  | _ :: digits => (false, digits)
  | [] => (false, [])

/-- The number that a decimal spells: digits, perhaps a point with digits, and perhaps an
exponent with a sign. -/
def parseDecimal (text : List Char) : Binary64 :=
  let whole := text.takeWhile isAsciiDigit
  let rest := text.drop whole.length
  let exponent := exponentDigits rest
  Decimal.toBinary64 ⟨whole, fractionDigits rest, exponent.1, exponent.2⟩

/-- Digits that are being read. -/
structure DigitsState where
  digits : List Char
  afterSeparator : Bool
deriving DecidableEq, Repr

def scanDigitsRound (radix : Nat) (separators : Bool) : Round DigitsState DigitsState := fun d => do
  let b ← byteAt 0
  if b == '_' then
    if !separators || d.digits.isEmpty || d.afterSeparator then
      fail .numericSeparatorNotAllowed (← position)
    else
      bump 1
      return .inl { d with afterSeparator := true }
  else if isDigitIn radix b then
    bump 1
    return .inl ⟨d.digits ++ [b], false⟩
  else return .inr d

/-- Digits of a radix. Single separators may stand between them, where they are allowed at all. -/
def scanDigits (radix : Nat) (separators : Bool) : Scanner (List Char) := do
  let d ← loop (scanDigitsRound radix separators) ⟨[], false⟩
  if d.afterSeparator then fail .trailingNumericSeparator ((← position) - 1)
  else return d.digits

/-- A point with digits is added to the text of a decimal. -/
def scanFraction (text : List Char) : Scanner (List Char × Bool) := do
  if (← byteAt 0) == '.' then
    bump 1
    if (← byteAt 0) == '_' then fail .numericSeparatorNotAllowed (← position)
    else
      let digits ← scanDigits 10 true
      return (text ++ '.' :: digits, false)
  else return (text, true)

/-- An exponent is added to the text of a decimal. -/
def scanExponent (text : List Char) (isInteger : Bool) : Scanner (List Char × Bool) := do
  let b ← byteAt 0
  if b == 'e' || b == 'E' then
    bump 1
    let sign ← byteAt 0
    let signed := sign == '+' || sign == '-'
    if signed then bump 1
    let digits ← scanDigits 10 true
    if digits.isEmpty then fail .digitExpected (← position)
    else return (text ++ 'e' :: (if signed then [sign] else []) ++ digits, false)
  else return (text, isInteger)

/-- Fraction and exponent after the whole digits. The flag tells that there is neither. -/
def scanDecimalTail (text : List Char) : Scanner (List Char × Bool) := do
  let (text, isInteger) ← scanFraction text
  scanExponent text isInteger

/-- What follows a number may not extend it. -/
def checkAfterNumber : Scanner Unit := do
  match ← currentChar with
  | some c =>
    if isAsciiDigit c || isIdentifierStart c || c == '\\' then
      fail .identifierAfterNumber (← position)
  | none => pure ()

def setNumber (number : Binary64) : Scanner Unit := modify fun s => { s with number := number }

/-- A number with the value `number` ends here. -/
def finishNumber (number : Binary64) : Scanner Token := do
  setNumber number
  checkAfterNumber
  return .numericLiteral

/-- The integer from `start` on ends with the mark `n`. -/
def finishBigint (start : Nat) : Scanner Token := do
  let digits ← slice start (← position)
  clearBuffer
  push (digits.filter (· != '_'))
  setValue .buffer
  bump 1
  checkAfterNumber
  return .bigIntLiteral

/-- An integer after its radix mark. -/
def scanRadixNumber (radix : Nat) (missing : Cause) : Scanner Token := do
  let start ← position
  bump 2
  if (← byteAt 0) == '_' then fail .numericSeparatorNotAllowed (← position)
  else
    let digits ← scanDigits radix true
    if digits.isEmpty then fail missing (← position)
    else if (← byteAt 0) == 'n' then finishBigint start
    else finishNumber (foldDigits radix digits)

/-- A zero followed by digits. -/
def scanLegacyNumber : Scanner Token := do
  let start ← position
  let digits ← scanDigits 10 false
  let number ←
    if digits.all (isDigitIn 8) then do
      modify fun s => { s with flags := { s.flags with legacyOctal := true } }
      pure (foldDigits 8 digits)
    else do
      modify fun s => { s with flags := { s.flags with nonOctalDecimal := true } }
      let (text, _) ← scanDecimalTail digits
      pure (parseDecimal text)
  setNumber number
  if (← byteAt 0) == 'n' then fail .invalidBigint start
  else
    checkAfterNumber
    return .numericLiteral

def scanDecimalNumber : Scanner Token := do
  let start ← position
  let whole ← scanDigits 10 true
  let (text, isInteger) ← scanDecimalTail whole
  if (← byteAt 0) == 'n' then
    if isInteger then finishBigint start else fail .invalidBigint start
  else finishNumber (parseDecimal text)

/-- The number at the position. -/
def scanNumber : Scanner Token := do
  let start ← position
  let b ← byteAt 1
  if (← byte) != '0' then scanDecimalNumber
  else if b == 'x' || b == 'X' then scanRadixNumber 16 .hexDigitExpected
  else if b == 'o' || b == 'O' then scanRadixNumber 8 .octalDigitExpected
  else if b == 'b' || b == 'B' then scanRadixNumber 2 .binaryDigitExpected
  else if isAsciiDigit b then scanLegacyNumber
  else if b == '_' then fail .numericSeparatorNotAllowed (start + 1)
  else scanDecimalNumber

end EcmaSyntax.Scanner
