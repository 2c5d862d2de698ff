import EcmaSyntax.Lexer.Lexeme
import EcmaSyntax.Lexer.Trivia
import EcmaSyntax.Text.Measure
import EcmaSyntax.Token.Basic

/-!
The state of a lexer: the current token, the text after it, and what waits to
be collected. A failed step leaves a state too, since what it wrote about an
invalid escape stays.
-/

namespace EcmaSyntax.Lexer

open EcmaSyntax.Diagnostic EcmaSyntax.Number EcmaSyntax.Text

/-- A place in the source: its offset and the text from there on. -/
structure Cursor where
  offset : Nat
  rest : List Char
deriving DecidableEq, Repr

namespace Cursor

def ofText (text : List Char) : Cursor := ⟨0, text⟩

/-- Go on by a number of characters. Nothing but the readers, which take no more
than there are, keeps the offset from passing the end. -/
def advance (cursor : Cursor) (count : Nat) : Cursor :=
  match count, cursor.rest with
  | 0, _ => cursor
  | count + 1, [] => ⟨cursor.offset + (count + 1), []⟩
  | count + 1, c :: rest => advance ⟨cursor.offset + c.utf8Size, rest⟩ count
termination_by structural count

/-- The text from here to a later offset. -/
def textTo (cursor : Cursor) (offset : Nat) : List Char :=
  takeBytes (offset - cursor.offset) cursor.rest

end Cursor

structure State where
  /-- Just after the current token. -/
  cursor : Cursor
  /-- At the first character of the current token. -/
  start : Cursor
  token : Token
  flags : TokenFlags
  value : TokenValue
  /-- The value of the last number. -/
  number : Binary64
  /-- The flags of the last regular expression. -/
  regexFlags : String
  /-- Where the last template chunk with an invalid escape has the first one. -/
  invalidEscape : Nat
  /-- Comments with hyphen arrows are recognised. -/
  htmlComments : Bool
  /-- Comments are kept. -/
  collectComments : Bool
  comments : List Comment
  /-- No token stands on the current line yet. -/
  atLineStart : Bool
deriving Repr

namespace State

def initial (text : List Char) (htmlComments collectComments : Bool) : State where
  cursor := Cursor.ofText text
  start := Cursor.ofText text
  token := .endOfSource
  flags := TokenFlags.none
  value := TokenValue.empty
  number := Binary64.zero
  regexFlags := ""
  invalidEscape := 0
  htmlComments := htmlComments
  collectComments := collectComments
  comments := []
  atLineStart := true

/-- The extent of the current token. -/
def span (s : State) : Span := ⟨s.start.offset, s.cursor.offset⟩

/-- The text of the current token. -/
def raw (s : State) : List Char := s.start.textTo s.cursor.offset

/-- Line breaks of any kind as line feeds. -/
def normalizeLineBreaks : List Char → List Char
  | [] => []
  | '\r' :: '\n' :: rest => '\n' :: normalizeLineBreaks rest
  | c :: rest => (if c == '\r' then '\n' else c) :: normalizeLineBreaks rest

/-- The text of a template chunk between its delimiters. -/
def templateRaw (s : State) : List Char :=
  let closing := match s.token with
    | .templateHead | .templateMiddle => 2
    | _ => 1
  let raw := s.raw
  normalizeLineBreaks ((raw.take (raw.length - closing)).drop 1)

/-- Go back to an earlier state. Comments found since are dropped, while the
place of an invalid escape stays. -/
def restore (saved now : State) : State :=
  { saved with
    invalidEscape := now.invalidEscape
    comments := now.comments.take saved.comments.length }

end State

end EcmaSyntax.Lexer

namespace EcmaSyntax

/-- A step of a lexer, which may fail. -/
abbrev Lexer := EStateM Diagnostic.Failure Lexer.State

end EcmaSyntax
