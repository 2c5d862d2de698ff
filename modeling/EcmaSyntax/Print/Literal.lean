import EcmaSyntax.Number.Binary64
import EcmaSyntax.Tree.Leaf

/-!
The text of literals and directives. A literal that kept its text is written
as it was.
-/

namespace EcmaSyntax.Print

open EcmaSyntax.Number EcmaSyntax.Tree

/-- A character of a string in double quotes. -/
def quotedChar (c : Char) : List Char :=
  if c == '"' then ['\\', '"']
  else if c == '\\' then ['\\', '\\']
  else if c == '\n' then ['\\', 'n']
  else if c == '\r' then ['\\', 'r']
  else if c == '\t' then ['\\', 't']
  else if c == '\u2028' then ['\\', 'u', '2', '0', '2', '8']
  else if c == '\u2029' then ['\\', 'u', '2', '0', '2', '9']
  else if c.toNat < 0x20 || c == '\x7f' then
    ['\\', 'u', '0', '0', Nat.digitChar (c.toNat / 16), Nat.digitChar (c.toNat % 16)]
  else [c]

def quoted (value : String) : String :=
  String.ofList ('"' :: (value.toList.flatMap quotedChar ++ ['"']))

/-- An exponent without a sign for positive ones. -/
def exponentText (e : Int) : List Char :=
  'e' :: ((if e < 0 then ['-'] else []) ++ Nat.toDigits 10 e.natAbs)

/-- The shortest text that reads back as a number, a tie going up: positional
when the first digit stands between `10 ^ -6` and `10 ^ 20`. -/
def numberText (value : Binary64) : String :=
  match value with
  | .infinite => "1e999"
  | .finite significand exponent =>
    if significand == 0 then "0"
    else
      let s := shortest .up significand exponent
      if -6 ≤ s.exponent && s.exponent < 21 then String.ofList s.positional
      else String.ofList (s.mantissa ++ exponentText s.exponent)

def literalText (literal : Literal) : String :=
  match literal.raw with
  | some raw => raw
  | none =>
    match literal.value with
    | .string value => quoted value
    | .number value => numberText value
    | .boolean true => "true"
    | .boolean false => "false"
    | .null => "null"
    | .regex pattern flags => "/" ++ pattern ++ "/" ++ flags
    | .bigint digits => digits ++ "n"

/-- The text of a literal that is a number or kept its text. -/
def numericText (literal : Literal) : String :=
  match literal.raw, literal.value with
  | some raw, _ => raw
  | none, .number value => numberText value
  | none, _ => ""

/-- Digits only, so that a point after them would belong to the number. -/
def isBareInteger (text : String) : Bool :=
  !text.isEmpty && text.toList.all fun c => ('0' ≤ c && c ≤ '9') || c == '_'

/-- The text contains a mark that no backslash escapes. -/
def hasUnescaped (mark : Char) : List Char → Bool
  | [] => false
  | '\\' :: _ :: rest => hasUnescaped mark rest
  | c :: rest => c == mark || hasUnescaped mark rest

/-- A directive keeps its text; the quotation marks are those that it lacks. -/
def directiveText (directive : String) : String :=
  let mark := if hasUnescaped '"' directive.toList then "'" else "\""
  mark ++ directive ++ mark ++ ";"

/-- A string value of an attribute, where entities stand for quotation marks
and ampersands. -/
def attributeText (value : String) : String :=
  String.ofList ('"' :: (value.toList.flatMap (fun c =>
    if c == '&' then "&amp;".toList else if c == '"' then "&quot;".toList else [c]) ++ ['"']))

/-- A literal as the value of an attribute. -/
def attributeLiteral (literal : Literal) : String :=
  match literal.raw with
  | some raw => raw
  | none => attributeText (literal.string?.getD "")

def moduleNameText : ModuleName → String
  | .identifier id => id.name
  | .literal lit => literalText lit

/-- Two names that are written alike. -/
def sameModuleName : ModuleName → ModuleName → Bool
  | .identifier a, .identifier b => a.name == b.name
  | .literal a, .literal b => a.string? == b.string? && a.raw == b.raw
  | _, _ => false

end EcmaSyntax.Print
