import EcmaSyntax.Lexer.Escape
import EcmaSyntax.Unicode.Identifier

/-!
Regular expression literals. The body ends at a slash that is neither escaped
nor in a class; the flags are letters of a fixed set, each at most once, and
not both `u` and `v`.
-/

namespace EcmaSyntax.Lexer

open EcmaSyntax.Diagnostic EcmaSyntax.Unicode

variable {version : Nat} [Unicode.IdentifierChars version]

/-- The index of the closing slash. -/
def readRegexBody (inClass escaped : Bool) (index : Nat) : List Char → Reading Nat
  | [] => fault .unterminatedRegex 0
  | c :: rest =>
    if isLineTerminator c then fault .unterminatedRegex 0
    else if escaped then readRegexBody inClass false (index + 1) rest
    else if c == '\\' then readRegexBody inClass true (index + 1) rest
    else if c == '[' then readRegexBody true false (index + 1) rest
    else if c == ']' then readRegexBody false false (index + 1) rest
    else if c == '/' && !inClass then .ok index
    else readRegexBody inClass false (index + 1) rest

def regexFlagLetters : List Char := ['d', 'g', 'i', 'm', 's', 'u', 'y', 'v']

/-- The flags at an index; `seen` are those before it. -/
def readRegexFlagsFrom (index : Nat) (seen : List Char) : List Char → Reading (List Char)
  | [] => .ok seen
  | c :: rest =>
    if isIdentifierPart c then
      if !regexFlagLetters.contains c then fault (.invalidRegexFlag (String.singleton c)) index
      else if seen.contains c then fault (.duplicateRegexFlag (String.singleton c)) index
      else readRegexFlagsFrom (index + 1) (seen ++ [c]) rest
    else if c == '\\' then fault (.invalidRegexFlag "\\") index
    else .ok seen

def readRegexFlags (index : Nat) (text : List Char) : Reading (List Char) := do
  let flags ← readRegexFlagsFrom index [] text
  if flags.contains 'u' && flags.contains 'v' then fault (.invalidRegexFlag "v") index
  else .ok flags

structure RegexLiteral where
  body : List Char
  flags : List Char
  stop : Nat
deriving DecidableEq, Repr

/-- The literal whose opening slash starts the text. -/
def readRegex (text : List Char) : Reading RegexLiteral := do
  let close ← readRegexBody false false 1 (text.drop 1)
  let flags ← readRegexFlags (close + 1) (text.drop (close + 1))
  .ok ⟨(text.take close).drop 1, flags, close + 1 + flags.length⟩

end EcmaSyntax.Lexer
