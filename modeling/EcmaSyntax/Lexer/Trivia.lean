import EcmaSyntax.Diagnostic.Failure
import EcmaSyntax.Text.Measure
import EcmaSyntax.Unicode.Identifier

/-!
What stands between tokens: white space, line breaks and comments. A comment
that starts with two characters of a script's first line, or with an arrow of
two hyphens where those are allowed, ends with its line.
-/

namespace EcmaSyntax.Lexer

open EcmaSyntax.Diagnostic EcmaSyntax.Text EcmaSyntax.Unicode

inductive CommentKind where
  | line
  | block
  | html
deriving DecidableEq, Repr

def CommentKind.name : CommentKind → String
  | .line => "Line"
  | .block => "Block"
  | .html => "Html"

/-- A comment without its delimiters. -/
structure Comment where
  kind : CommentKind
  value : String
  start : Nat
  stop : Nat
deriving DecidableEq, Repr

structure Trivia where
  /-- Comments in order. -/
  comments : List Comment
  hasLineBreak : Bool
  /-- No token stands on the line yet. -/
  atLineStart : Bool
  /-- Characters that were skipped. -/
  length : Nat
deriving DecidableEq, Repr

/-- The rest of the line. -/
def lineBody (text : List Char) : List Char := text.takeWhile fun c => !isLineTerminator c

/-- The text before the first asterisk that a slash follows. -/
def blockBody? : List Char → Option (List Char)
  | [] => none
  | '*' :: '/' :: _ => some []
  | c :: rest => (blockBody? rest).map (c :: ·)

/-- A comment whose opening delimiter, of `width` characters, starts the text
at `offset`. -/
def lineComment (kind : CommentKind) (width offset : Nat) (text : List Char) : Comment :=
  let body := lineBody (text.drop width)
  ⟨kind, String.ofList body, offset, offset + width + byteLength body⟩

/-- The width of the opening delimiter of a comment that ends with its line,
at the start of the text. -/
def lineCommentOpening? (html atLineStart : Bool) (offset : Nat) (text : List Char) :
    Option (CommentKind × Nat) :=
  match text with
  | '#' :: '!' :: _ => if offset == 0 then some (.line, 2) else none
  | '/' :: '/' :: _ => some (.line, 2)
  | '<' :: '!' :: '-' :: '-' :: _ => if html then some (.html, 4) else none
  | '-' :: '-' :: '>' :: _ => if html && atLineStart then some (.html, 3) else none
  | _ => none

/-- Skip trivia. `skip` characters belong to a comment already read; an
unterminated comment is reported with its offset. -/
def readTriviaFrom (html : Bool) (offset : Nat) (trivia : Trivia) :
    Nat → List Char → Except Failure Trivia
  | _, [] => .ok trivia
  | skip + 1, c :: rest =>
    readTriviaFrom html (offset + c.utf8Size) { trivia with length := trivia.length + 1 } skip rest
  | 0, c :: rest =>
    let past := { trivia with length := trivia.length + 1 }
    if isLineTerminator c then
      readTriviaFrom html (offset + c.utf8Size)
        { past with hasLineBreak := true, atLineStart := true } 0 rest
    else if isInlineSpace c then readTriviaFrom html (offset + c.utf8Size) past 0 rest
    else
      match lineCommentOpening? html trivia.atLineStart offset (c :: rest) with
      | some (kind, width) =>
        let comment := lineComment kind width offset (c :: rest)
        readTriviaFrom html (offset + c.utf8Size)
          { past with comments := trivia.comments ++ [comment] }
          (width - 1 + comment.value.length) rest
      | none =>
        if c == '/' && rest.head? == some '*' then
          match blockBody? (rest.drop 1) with
          | none => .error ⟨.unterminatedComment, offset⟩
          | some body =>
            let comment : Comment :=
              ⟨.block, String.ofList body, offset, offset + 4 + byteLength body⟩
            let hasBreak := body.any isLineTerminator
            readTriviaFrom html (offset + c.utf8Size)
              { past with
                comments := trivia.comments ++ [comment]
                hasLineBreak := trivia.hasLineBreak || hasBreak
                atLineStart := trivia.atLineStart || hasBreak }
              (body.length + 3) rest
        else .ok trivia

/-- The trivia at an offset. -/
def readTrivia (html atLineStart : Bool) (offset : Nat) (text : List Char) :
    Except Failure Trivia :=
  readTriviaFrom html offset ⟨[], false, atLineStart, 0⟩ 0 text

end EcmaSyntax.Lexer
