import EcmaSyntax.Json.Basic
import EcmaSyntax.Number.Binary64

/-!
Writing JSON: compactly, or spread over lines with two spaces for each level. Quotation marks,
backslashes and control characters are escaped, and nothing else.

Integers up to `2 ^ 53` are written as such and an infinite number is null. Any other number has its
shortest digits, a tie going to the even one: positional when the first digit stands between
`10 ^ -5` and `10 ^ 15`, with `.0` after an integer, and otherwise with a signed exponent.
-/

namespace EcmaSyntax.Json

open EcmaSyntax.Number

def exponentText (e : Int) : List Char :=
  (if e < 0 then ['e', '-'] else ['e', '+']) ++ Nat.toDigits 10 e.natAbs

def layout (s : Significant) : List Char :=
  if -5 ≤ s.exponent && s.exponent < 16 then
    let text := s.positional
    if text.contains '.' then text else text ++ ['.', '0']
  else s.mantissa ++ exponentText s.exponent

def ofBinary64 (value : Binary64) : Json :=
  match value with
  | .infinite => .null
  | .finite significand exponent =>
    match value.toNat? with
    | some n =>
      if n ≤ Nat.pow 2 53 then ofNat n
      else .number (String.ofList (layout (shortest .even significand exponent)))
    | none => .number (String.ofList (layout (shortest .even significand exponent)))

def hexDigit (n : Nat) : Char := (Nat.digitChar (n % 16))

def escapeChar (c : Char) : List Char :=
  if c == '"' then ['\\', '"']
  else if c == '\\' then ['\\', '\\']
  else if c == '\x08' then ['\\', 'b']
  else if c == '\x0c' then ['\\', 'f']
  else if c == '\n' then ['\\', 'n']
  else if c == '\r' then ['\\', 'r']
  else if c == '\t' then ['\\', 't']
  else if c.toNat < 0x20 then
    ['\\', 'u', '0', '0', hexDigit (c.toNat / 16), hexDigit c.toNat]
  else [c]

def quote (text : String) : String :=
  String.ofList ('"' :: (text.toList.flatMap escapeChar ++ ['"']))

mutual

def compact : Json → String
  | .null => "null"
  | .bool true => "true"
  | .bool false => "false"
  | .number literal => literal
  | .string value => quote value
  | .array items => "[" ++ compactItems items ++ "]"
  | .object fields => "\x7b" ++ compactFields fields ++ "\x7d"

def compactItems : List Json → String
  | [] => ""
  | [item] => compact item
  | item :: rest => compact item ++ "," ++ compactItems rest

def compactFields : List (String × Json) → String
  | [] => ""
  | [(key, value)] => quote key ++ ":" ++ compact value
  | (key, value) :: rest => quote key ++ ":" ++ compact value ++ "," ++ compactFields rest

end

/-- A line break and the indentation of a level. -/
def lineAt (level : Nat) : String := String.ofList ('\n' :: List.replicate (2 * level) ' ')

mutual

def prettyAt (level : Nat) : Json → String
  | .null => "null"
  | .bool true => "true"
  | .bool false => "false"
  | .number literal => literal
  | .string value => quote value
  | .array [] => "[]"
  | .array items => "[" ++ prettyItems (level + 1) items ++ lineAt level ++ "]"
  | .object [] => "\x7b\x7d"
  | .object fields => "\x7b" ++ prettyFields (level + 1) fields ++ lineAt level ++ "\x7d"

def prettyItems (level : Nat) : List Json → String
  | [] => ""
  | [item] => lineAt level ++ prettyAt level item
  | item :: rest => lineAt level ++ prettyAt level item ++ "," ++ prettyItems level rest

def prettyFields (level : Nat) : List (String × Json) → String
  | [] => ""
  | [(key, value)] => lineAt level ++ quote key ++ ": " ++ prettyAt level value
  | (key, value) :: rest =>
    lineAt level ++ quote key ++ ": " ++ prettyAt level value ++ "," ++ prettyFields level rest

end

def pretty (value : Json) : String := prettyAt 0 value

end EcmaSyntax.Json
