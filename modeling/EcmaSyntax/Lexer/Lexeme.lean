import EcmaSyntax.Token.Basic
import EcmaSyntax.Unicode.Identifier
import EcmaSyntax.Lexer.Escape
import EcmaSyntax.Lexer.Numeral
import EcmaSyntax.Lexer.Quoted

/-!
One token read from the text that starts with it, before the grammar has any say. A character of a
name or keyword may be escaped, and must then be one that could stand there by itself.

The longest punctuator is taken, with three exceptions: a closing angle bracket is always taken
alone, since it may end a tag; a question mark before a point and a digit belongs to a conditional;
and a slash starts no regular expression unless the grammar asks for one.
-/

namespace EcmaSyntax.Lexer

open EcmaSyntax.Unicode EcmaSyntax.Diagnostic EcmaSyntax.Number

/-- The punctuator at the start of a text, and its length. -/
def readPunctuator? (text : List Char) : Option (Token × Nat) :=
  match text with
  | '(' :: _ => some (.leftParen, 1)
  | ')' :: _ => some (.rightParen, 1)
  | '\x7b' :: _ => some (.leftBrace, 1)
  | '\x7d' :: _ => some (.rightBrace, 1)
  | '[' :: _ => some (.leftBracket, 1)
  | ']' :: _ => some (.rightBracket, 1)
  | ';' :: _ => some (.semicolon, 1)
  | ',' :: _ => some (.comma, 1)
  | ':' :: _ => some (.colon, 1)
  | '~' :: _ => some (.complement, 1)
  | '@' :: _ => some (.at, 1)
  | '>' :: _ => some (.greaterThan, 1)
  | '.' :: '.' :: '.' :: _ => some (.ellipsis, 3)
  | '.' :: rest => if rest.head?.any isAsciiDigit then none else some (.dot, 1)
  | '?' :: '?' :: '=' :: _ => some (.coalesceAssign, 3)
  | '?' :: '?' :: _ => some (.coalesce, 2)
  | '?' :: '.' :: rest =>
    if rest.head?.any isAsciiDigit then some (.question, 1) else some (.questionDot, 2)
  | '?' :: _ => some (.question, 1)
  | '<' :: '<' :: '=' :: _ => some (.shiftLeftAssign, 3)
  | '<' :: '<' :: _ => some (.shiftLeft, 2)
  | '<' :: '=' :: _ => some (.lessThanOrEqual, 2)
  | '<' :: _ => some (.lessThan, 1)
  | '=' :: '=' :: '=' :: _ => some (.strictEqual, 3)
  | '=' :: '=' :: _ => some (.looseEqual, 2)
  | '=' :: '>' :: _ => some (.arrow, 2)
  | '=' :: _ => some (.assign, 1)
  | '!' :: '=' :: '=' :: _ => some (.strictNotEqual, 3)
  | '!' :: '=' :: _ => some (.looseNotEqual, 2)
  | '!' :: _ => some (.negate, 1)
  | '+' :: '+' :: _ => some (.increment, 2)
  | '+' :: '=' :: _ => some (.addAssign, 2)
  | '+' :: _ => some (.add, 1)
  | '-' :: '-' :: _ => some (.decrement, 2)
  | '-' :: '=' :: _ => some (.subtractAssign, 2)
  | '-' :: _ => some (.subtract, 1)
  | '*' :: '*' :: '=' :: _ => some (.exponentiateAssign, 3)
  | '*' :: '*' :: _ => some (.exponentiate, 2)
  | '*' :: '=' :: _ => some (.multiplyAssign, 2)
  | '*' :: _ => some (.multiply, 1)
  | '/' :: '=' :: _ => some (.divideAssign, 2)
  | '/' :: _ => some (.divide, 1)
  | '%' :: '=' :: _ => some (.moduloAssign, 2)
  | '%' :: _ => some (.modulo, 1)
  | '^' :: '=' :: _ => some (.bitwiseXorAssign, 2)
  | '^' :: _ => some (.bitwiseXor, 1)
  | '&' :: '&' :: '=' :: _ => some (.logicalAndAssign, 3)
  | '&' :: '&' :: _ => some (.logicalAnd, 2)
  | '&' :: '=' :: _ => some (.bitwiseAndAssign, 2)
  | '&' :: _ => some (.bitwiseAnd, 1)
  | '|' :: '|' :: '=' :: _ => some (.logicalOrAssign, 3)
  | '|' :: '|' :: _ => some (.logicalOr, 2)
  | '|' :: '=' :: _ => some (.bitwiseOrAssign, 2)
  | '|' :: _ => some (.bitwiseOr, 1)
  | _ => none

/-- What a closing angle bracket becomes with the text after it, and how many
characters it takes in. -/
def mergeGreaterThan (text : List Char) : Token × Nat :=
  match text with
  | '>' :: '>' :: '=' :: _ => (.logicalShiftRightAssign, 3)
  | '>' :: '>' :: _ => (.logicalShiftRight, 2)
  | '>' :: '=' :: _ => (.shiftRightAssign, 2)
  | '>' :: _ => (.shiftRight, 1)
  | '=' :: _ => (.greaterThanOrEqual, 1)
  | _ => (.greaterThan, 0)

section Lexemes

variable {version : Nat} [Unicode.IdentifierChars version]

/-- A character may stand in a name, as its first or a later one. -/
def fitsName (first : Bool) (c : Char) : Bool :=
  if first then isIdentifierStart c else isIdentifierPart c

/-- The pieces of a name and its length. `skip` characters belong to an escape
already read. -/
def readWordFrom (first : Bool) (index : Nat) : Nat → List Char → Reading (List Piece × Nat)
  | _, [] => .ok ([], index)
  | skip + 1, _ :: rest => readWordFrom first (index + 1) skip rest
  | 0, c :: rest =>
    if c == '\\' then
      match rest with
      | 'u' :: body =>
        match readCodePoint body with
        | .error cause => fault cause index
        | .ok (code, length) =>
          if (scalar? code).any (fitsName first) then do
            let (pieces, stop) ← readWordFrom false (index + 1) (length + 1) rest
            .ok (.escape (.codePoint code) :: pieces, stop)
          else fault .invalidIdentifierEscape index
      | _ => fault .invalidIdentifierEscape index
    else if fitsName first c then do
      let (pieces, stop) ← readWordFrom false (index + 1) 0 rest
      .ok (.plain c :: pieces, stop)
    else .ok ([], index)

/-- A name that starts `index` characters into the token. -/
def readWord (index : Nat) (text : List Char) : Reading (List Piece × Nat) :=
  readWordFrom true index 0 text

/-- The decoded value of a token. -/
structure TokenValue where
  text : String
  /-- The value stands in the source as it is. -/
  isSlice : Bool
deriving DecidableEq, Repr, Inhabited

def TokenValue.empty : TokenValue := ⟨"", true⟩

def TokenValue.slice (text : List Char) : TokenValue := ⟨String.ofList text, true⟩

def TokenValue.ofPieces (pieces : List Piece) : TokenValue :=
  ⟨String.ofList (Piece.value pieces), Piece.areVerbatim pieces⟩

structure Lexeme where
  token : Token
  /-- Characters of the token. -/
  length : Nat
  value : TokenValue
  escaped : Bool
  octalEscape : Bool
  legacyOctal : Bool
  nonOctalDecimal : Bool
  /-- Place of the first escape without value in a template. -/
  invalidEscape : Option Nat
  number : Option Binary64
deriving DecidableEq, Repr

def Lexeme.plain (token : Token) (length : Nat) (value : TokenValue) : Lexeme :=
  ⟨token, length, value, false, false, false, false, none, none⟩

def readWordLexeme (text : List Char) : Reading Lexeme := do
  let (pieces, length) ← readWord 0 text
  let value := TokenValue.ofPieces pieces
  let token := (Token.ofKeyword? value.text).getD .identifier
  .ok { Lexeme.plain token length value with escaped := !value.isSlice }

/-- A private name, which starts with a number sign. -/
def readPrivateLexeme (text : List Char) : Reading Lexeme :=
  if (text[1]?).any fun c => c == '\\' || isIdentifierStart c then do
    let (pieces, length) ← readWord 1 (text.drop 1)
    .ok (Lexeme.plain .privateName length (TokenValue.ofPieces pieces))
  else fault .invalidCharacter 0

def readStringLexeme (quote : Char) (text : List Char) : Reading Lexeme := do
  let (pieces, length) ← readString quote (text.drop 1)
  .ok { Lexeme.plain .stringLiteral length (TokenValue.ofPieces pieces) with
    octalEscape := pieces.any Piece.isLegacyEscape }

/-- A template chunk after a delimiter of one character: the first chunk of a
template, or one after a substitution. -/
def readChunkLexeme (isFirst : Bool) (text : List Char) : Reading Lexeme :=
  let chunk := readChunk (text.drop 1)
  let lexeme := fun token => { Lexeme.plain token chunk.stop (TokenValue.ofPieces chunk.pieces) with
    invalidEscape := chunk.invalidEscape? }
  match chunk.ending with
  | .closed => .ok (lexeme (if isFirst then .noSubstitutionTemplate else .templateTail))
  | .substitution => .ok (lexeme (if isFirst then .templateHead else .templateMiddle))
  | .unterminated => .error ⟨.unterminatedTemplateLiteral, 0, chunk.invalidEscape?⟩

def readNumberLexeme (text : List Char) : Reading Lexeme := do
  let numeral ← readNumeral text
  match numeral.value with
  | .number value =>
    .ok { Lexeme.plain .numericLiteral numeral.stop .empty with
      legacyOctal := numeral.legacyOctal
      nonOctalDecimal := numeral.nonOctalDecimal
      number := some value }
  | .bigint digits => .ok (Lexeme.plain .bigIntLiteral numeral.stop ⟨String.ofList digits, false⟩)

/-- The token at the start of a nonempty text. -/
def readLexeme (text : List Char) : Reading Lexeme :=
  match readPunctuator? text with
  | some (token, length) => .ok (Lexeme.plain token length .empty)
  | none =>
    match text with
    | [] => fault .invalidCharacter 0
    | c :: _ =>
      if c == '\'' || c == '"' then readStringLexeme c text
      else if c == '\x60' then readChunkLexeme true text
      else if isAsciiDigit c || c == '.' then readNumberLexeme text
      else if c == '#' then readPrivateLexeme text
      else if c == '\\' || isIdentifierStart c then readWordLexeme text
      else fault .invalidCharacter 0

end Lexemes

end EcmaSyntax.Lexer
