import EcmaSyntax.Lexer.Escape
import EcmaSyntax.Number.Binary64
import EcmaSyntax.Unicode.Identifier

/-!
Numeric literals: decimals with fraction and exponent, integers with a radix
mark, both with separators between digits, and the two legacy forms that start
with a zero. No name and no digit may follow directly.
-/

namespace EcmaSyntax.Lexer

open EcmaSyntax.Diagnostic EcmaSyntax.Number EcmaSyntax.Unicode

variable {version : Nat} [Unicode.IdentifierChars version]

inductive NumeralValue where
  | number (value : Binary64)
  | bigint (digits : List Char)
deriving DecidableEq, Repr

structure Numeral where
  value : NumeralValue
  legacyOctal : Bool
  nonOctalDecimal : Bool
  stop : Nat
deriving DecidableEq, Repr

/-- Digits of a radix and the index after them. A separator stands between two
digits, where separators are allowed at all. -/
def readDigits (radix : Nat) (separators : Bool) (index : Nat) (any afterSeparator : Bool) :
    List Char → Reading (List Char × Nat)
  | [] => if afterSeparator then fault .trailingNumericSeparator (index - 1) else .ok ([], index)
  | c :: rest =>
    if c == '_' then
      if !separators || !any || afterSeparator then fault .numericSeparatorNotAllowed index
      else readDigits radix separators (index + 1) any true rest
    else if isDigitIn radix c then do
      let (digits, stop) ← readDigits radix separators (index + 1) true false rest
      .ok (c :: digits, stop)
    else if afterSeparator then fault .trailingNumericSeparator (index - 1)
    else .ok ([], index)

def readDecimalDigits (index : Nat) (text : List Char) : Reading (List Char × Nat) :=
  readDigits 10 true index false false text

/-- A point and digits, if there is a point. -/
def readFraction (index : Nat) (text : List Char) : Reading (Option (List Char) × Nat) :=
  match text with
  | '.' :: rest => do
    let (digits, stop) ← readDecimalDigits (index + 1) rest
    .ok (some digits, stop)
  | _ => .ok (none, index)

/-- The sign and digits of an exponent, if there is one. -/
def readExponent (index : Nat) (text : List Char) :
    Reading (Option (Bool × List Char) × Nat) :=
  match text with
  | c :: rest =>
    if c == 'e' || c == 'E' then do
      let signed := rest.head? == some '+' || rest.head? == some '-'
      let start := if signed then index + 2 else index + 1
      let (digits, stop) ← readDecimalDigits start (if signed then rest.drop 1 else rest)
      if digits.isEmpty then fault .digitExpected stop
      else .ok (some (rest.head? == some '-', digits), stop)
    else .ok (none, index)
  | [] => .ok (none, index)

/-- Fraction and exponent after the whole digits. The flag tells that there is
neither. -/
def readDecimalTail (whole : List Char) (index : Nat) (text : List Char) :
    Reading (Decimal × Bool × Nat) := do
  let (fractional, stop) ← readFraction index text
  let (exponent, stop') ← readExponent stop (text.drop (stop - index))
  let (negative, digits) := exponent.getD (false, [])
  .ok (⟨whole, fractional.getD [], negative, digits⟩, fractional.isNone && exponent.isNone, stop')

/-- What follows a number may not extend it. -/
def checkAfterNumber (text : List Char) (numeral : Numeral) : Reading Numeral :=
  match text[numeral.stop]? with
  | some c =>
    if isAsciiDigit c || isIdentifierStart c || c == '\\' then
      fault .identifierAfterNumber numeral.stop
    else .ok numeral
  | none => .ok numeral

/-- The integer with the mark `n` at an index; its digits are the text before
the mark without separators. -/
def finishBigint (text : List Char) (index : Nat) : Reading Numeral :=
  checkAfterNumber text
    ⟨.bigint ((text.take index).filter (· != '_')), false, false, index + 1⟩

def hasBigintMark (text : List Char) (index : Nat) : Bool := text[index]? == some 'n'

/-- An integer after its radix mark of two characters. -/
def readRadixNumber (radix : Nat) (missing : Cause) (text : List Char) : Reading Numeral := do
  let (digits, stop) ← readDigits radix true 2 false false (text.drop 2)
  if digits.isEmpty then fault missing stop
  else if hasBigintMark text stop then finishBigint text stop
  else checkAfterNumber text ⟨.number (foldDigits radix digits), false, false, stop⟩

/-- A zero followed by digits: octal if no digit is above seven, and otherwise
decimal. -/
def readLegacyNumber (text : List Char) : Reading Numeral := do
  let (digits, stop) ← readDigits 10 false 0 false false text
  if digits.all (isDigitIn 8) then
    if hasBigintMark text stop then fault .invalidBigint 0
    else checkAfterNumber text ⟨.number (foldDigits 8 digits), true, false, stop⟩
  else do
    let (decimal, _, stop) ← readDecimalTail digits stop (text.drop stop)
    if hasBigintMark text stop then fault .invalidBigint 0
    else checkAfterNumber text ⟨.number decimal.toBinary64, false, true, stop⟩

def readDecimalNumber (text : List Char) : Reading Numeral := do
  let (whole, stop) ← readDecimalDigits 0 text
  let (decimal, isInteger, stop) ← readDecimalTail whole stop (text.drop stop)
  if hasBigintMark text stop then
    if isInteger then finishBigint text stop else fault .invalidBigint 0
  else checkAfterNumber text ⟨.number decimal.toBinary64, false, false, stop⟩

/-- The number at the start of a text. -/
def readNumeral (text : List Char) : Reading Numeral :=
  match text with
  | '0' :: c :: _ =>
    if c == 'x' || c == 'X' then readRadixNumber 16 .hexDigitExpected text
    else if c == 'o' || c == 'O' then readRadixNumber 8 .octalDigitExpected text
    else if c == 'b' || c == 'B' then readRadixNumber 2 .binaryDigitExpected text
    else if isAsciiDigit c then readLegacyNumber text
    else if c == '_' then fault .numericSeparatorNotAllowed 1
    else readDecimalNumber text
  | _ => readDecimalNumber text

end EcmaSyntax.Lexer
