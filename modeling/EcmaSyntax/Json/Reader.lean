import EcmaSyntax.Json.Basic
import EcmaSyntax.Number.Binary64
import EcmaSyntax.Unicode.Identifier

/-!
Reading JSON text. The grammar is the strict one: no trailing commas, no
control characters in strings, no unpaired surrogates. Values may nest 127
deep, and a number must not exceed the range of the 64-bit format.
-/

namespace EcmaSyntax.Json

open EcmaSyntax.Number EcmaSyntax.Unicode

/-- A reader takes text and gives a value with the rest of the text. -/
abbrev Reader (α : Type) := List Char → Option (α × List Char)

def isBlank (c : Char) : Bool := c == ' ' || c == '\n' || c == '\t' || c == '\r'

def skipBlank (text : List Char) : List Char := text.dropWhile isBlank

/-- Four hexadecimal digits. -/
def readUnit : Reader Nat
  | a :: b :: c :: d :: rest => do
    let a ← hexValue? a
    let b ← hexValue? b
    let c ← hexValue? c
    let d ← hexValue? d
    some (((a * 16 + b) * 16 + c) * 16 + d, rest)
  | _ => none

/-- The rest of an escape that started with a backslash and `u`. -/
def readUnicodeEscape (text : List Char) : Option (Char × List Char) := do
  let (unit, rest) ← readUnit text
  if 0xD800 ≤ unit && unit < 0xDC00 then
    match rest with
    | '\\' :: 'u' :: rest => do
      let (low, rest) ← readUnit rest
      if 0xDC00 ≤ low && low < 0xE000 then
        some (Char.ofNat (0x10000 + (unit - 0xD800) * 0x400 + (low - 0xDC00)), rest)
      else none
    | _ => none
  else if 0xDC00 ≤ unit && unit < 0xE000 then none
  else some (Char.ofNat unit, rest)

/-- The rest of an escape that started with a backslash. -/
def readEscape : Reader Char
  | '"' :: rest => some ('"', rest)
  | '\\' :: rest => some ('\\', rest)
  | '/' :: rest => some ('/', rest)
  | 'b' :: rest => some ('\x08', rest)
  | 'f' :: rest => some ('\x0c', rest)
  | 'n' :: rest => some ('\n', rest)
  | 'r' :: rest => some ('\r', rest)
  | 't' :: rest => some ('\t', rest)
  | 'u' :: rest => readUnicodeEscape rest
  | _ => none

/-- The characters of a string up to its closing quotation mark. -/
def readChars : Nat → Reader (List Char)
  | 0, _ => none
  | fuel + 1, text =>
    match text with
    | [] => none
    | '"' :: rest => some ([], rest)
    | '\\' :: rest => do
      let (c, rest) ← readEscape rest
      let (cs, rest) ← readChars fuel rest
      some (c :: cs, rest)
    | c :: rest =>
      if c.toNat < 0x20 then none
      else do
        let (cs, rest) ← readChars fuel rest
        some (c :: cs, rest)

/-- A string, after its opening quotation mark. -/
def readString (text : List Char) : Option (String × List Char) :=
  (readChars (text.length + 1) text).map fun (cs, rest) => (String.ofList cs, rest)

/-- Digits as one 64-bit word, as far as they fit, and those left over. -/
def packDigits (word : Nat) : List Char → Nat × List Char
  | [] => (word, [])
  | c :: rest =>
    let next := word * 10 + digitValue c
    if next < Nat.pow 2 64 then packDigits next rest else (word, c :: rest)

/-- The number does not overflow when its leading digits are scaled by the
remaining power of ten. -/
def inRange (d : Decimal) : Bool :=
  let (word, restWhole) := packDigits 0 d.whole
  let (word, restFraction) := packDigits word d.fractional
  let start : Int := restWhole.length - (d.fractional.length - restFraction.length : Nat)
  let shift : Int := natOfDigits 10 d.exponent
  let exponent := if d.exponentNegative then start - shift else start + shift
  if word == 0 || exponent < 0 then true
  else if exponent > 308 then false
  else !((Binary64.ofNat word).mul (Binary64.ofNat (Nat.pow 10 exponent.toNat))).isInfinite

/-- The digits before the point: no zero before other digits. -/
def readWhole (text : List Char) : Option (List Char × List Char) :=
  match text with
  | '0' :: c :: rest => if isAsciiDigit c then none else some (['0'], c :: rest)
  | _ =>
    let digits := text.takeWhile isAsciiDigit
    if digits.isEmpty then none else some (digits, text.dropWhile isAsciiDigit)

def readFraction (text : List Char) : Option (List Char × List Char) :=
  match text with
  | '.' :: rest =>
    let digits := rest.takeWhile isAsciiDigit
    if digits.isEmpty then none else some (digits, rest.dropWhile isAsciiDigit)
  | _ => some ([], text)

/-- The sign and digits of an exponent, none when there is no exponent. -/
def readExponent (text : List Char) : Option ((Bool × List Char) × List Char) :=
  match text with
  | c :: rest =>
    if c == 'e' || c == 'E' then
      let (negative, rest) := match rest with
        | '-' :: rest => (true, rest)
        | '+' :: rest => (false, rest)
        | _ => (false, rest)
      let digits := rest.takeWhile isAsciiDigit
      if digits.isEmpty then none else some ((negative, digits), rest.dropWhile isAsciiDigit)
    else some ((false, []), text)
  | [] => some ((false, []), text)

/-- A number without its sign. -/
def readNumber (text : List Char) : Option (Json × List Char) := do
  let (whole, rest) ← readWhole text
  let (fractional, rest) ← readFraction rest
  let ((negative, exponent), rest) ← readExponent rest
  if inRange ⟨whole, fractional, negative, exponent⟩ then
    some (.number (String.ofList (text.take (text.length - rest.length))), rest)
  else none

/-- Items up to a closing bracket, the first of which may start here. -/
def readItems (readValue : Reader Json) : Nat → Reader (List Json)
  | 0, _ => none
  | fuel + 1, text => do
    let (item, rest) ← readValue text
    match skipBlank rest with
    | ',' :: rest => do
      let (items, rest) ← readItems readValue fuel (skipBlank rest)
      some (item :: items, rest)
    | ']' :: rest => some ([item], rest)
    | _ => none

/-- Fields up to a closing brace, the first of which may start here. -/
def readFields (readValue : Reader Json) : Nat → Reader (List (String × Json))
  | 0, _ => none
  | fuel + 1, text =>
    match text with
    | '"' :: rest => do
      let (key, rest) ← readString rest
      match skipBlank rest with
      | ':' :: rest => do
        let (value, rest) ← readValue (skipBlank rest)
        match skipBlank rest with
        | ',' :: rest => do
          let (fields, rest) ← readFields readValue fuel (skipBlank rest)
          some ((key, value) :: fields, rest)
        | '\x7d' :: rest => some ([(key, value)], rest)
        | _ => none
      | _ => none
    | _ => none

/-- An array after its opening bracket. -/
def readArray (readValue : Reader Json) (text : List Char) : Option (Json × List Char) :=
  match skipBlank text with
  | ']' :: rest => some (.array [], rest)
  | text =>
    (readItems readValue (text.length + 1) text).map fun (items, rest) => (.array items, rest)

/-- An object after its opening brace. -/
def readObject (readValue : Reader Json) (text : List Char) : Option (Json × List Char) :=
  match skipBlank text with
  | '\x7d' :: rest => some (.object [], rest)
  | text =>
    (readFields readValue (text.length + 1) text).map fun (fields, rest) => (ofFields fields, rest)

/-- A value that may hold `depth` levels of arrays and objects. -/
def readValue : Nat → Reader Json
  | depth, text =>
    match text with
    | 'n' :: 'u' :: 'l' :: 'l' :: rest => some (.null, rest)
    | 't' :: 'r' :: 'u' :: 'e' :: rest => some (.bool true, rest)
    | 'f' :: 'a' :: 'l' :: 's' :: 'e' :: rest => some (.bool false, rest)
    | '"' :: rest => (readString rest).map fun (s, rest) => (.string s, rest)
    | '-' :: rest => readNumber rest
    | '[' :: rest =>
      match depth with
      | 0 => none
      | depth + 1 => readArray (readValue depth) rest
    | '\x7b' :: rest =>
      match depth with
      | 0 => none
      | depth + 1 => readObject (readValue depth) rest
    | text => readNumber text

/-- The value of a whole text. -/
def ofText? (text : String) : Option Json :=
  match readValue 127 (skipBlank text.toList) with
  | some (value, rest) => if (skipBlank rest).isEmpty then some value else none
  | none => none

end EcmaSyntax.Json
