import EcmaSyntax.Lexer.Escape

/-!
Text of embedded markup. Character references are decoded, by name or by code
point; an ampersand that starts none of them stands for itself.
-/

namespace EcmaSyntax.Lexer

open EcmaSyntax.Diagnostic EcmaSyntax.Number EcmaSyntax.Unicode

variable {version : Nat} [Unicode.IdentifierChars version]

/-- The longest reference, without its ampersand and semicolon. -/
def maxEntityLength : Nat := 10

def namedEntities : List (String × Char) :=
  [("amp", '&'), ("lt", '<'), ("gt", '>'), ("quot", '"'), ("apos", '\''), ("nbsp", '\u00a0'),
    ("copy", '\u00a9'), ("hellip", '\u2026'), ("mdash", '\u2014'), ("ndash", '\u2013')]

/-- A number in a radix, with an optional plus sign. -/
def entityNumber? (radix : Nat) (text : List Char) : Option Nat :=
  let digits := match text with
    | '+' :: rest => rest
    | _ => text
  if digits.isEmpty || !digits.all (isDigitIn radix) then none
  else some (natOfDigits radix digits)

/-- The character that a reference names. -/
def entity? (name : List Char) : Option Char :=
  match namedEntities.lookup (String.ofList name) with
  | some c => some c
  | none =>
    match name with
    | '#' :: 'x' :: digits => (entityNumber? 16 digits).bind scalar?
    | '#' :: digits => (entityNumber? 10 digits).bind scalar?
    | _ => none

/-- The reference after an ampersand, with its length. -/
def readEntity? (text : List Char) : Option (Char × Nat) :=
  let name := text.takeWhile (· != ';')
  if name.length ≤ maxEntityLength && name.length < text.length then
    (entity? name).map fun c => (c, name.length + 1)
  else none

/-- Decode references. `skip` characters belong to one already read. -/
def decodeEntitiesFrom : Nat → List Char → List Char
  | _, [] => []
  | skip + 1, _ :: rest => decodeEntitiesFrom skip rest
  | 0, c :: rest =>
    if c == '&' then
      match readEntity? rest with
      | some (decoded, length) => decoded :: decodeEntitiesFrom length rest
      | none => '&' :: decodeEntitiesFrom 0 rest
    else c :: decodeEntitiesFrom 0 rest

def decodeEntities (text : List Char) : List Char := decodeEntitiesFrom 0 text

/-- Text between tags, up to a tag or a brace. A closing brace or bracket may
not stand in it. -/
def readMarkupText (index : Nat) : List Char → Reading (List Char)
  | [] => .ok []
  | c :: rest =>
    if c == '\x7b' || c == '<' then .ok []
    else if c == '>' || c == '\x7d' then fault (.unexpectedToken (String.singleton c)) index
    else do
      let text ← readMarkupText (index + 1) rest
      .ok (c :: text)

/-- A character of a markup name, which may hold hyphens. -/
def isMarkupNamePart (c : Char) : Bool := c == '-' || isIdentifierPart c

end EcmaSyntax.Lexer
