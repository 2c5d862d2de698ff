import EcmaSyntax.Lexer.Escape

/-!
Strings and templates. A string ends at its quotation mark and may not hold a
line feed or carriage return; a template chunk ends at a grave accent or at a
dollar sign with an opening brace. An escape that is malformed or octal is an
error in a string, while a template keeps it as a piece without value.
-/

namespace EcmaSyntax.Lexer

open EcmaSyntax.Diagnostic

/-- The pieces of a string up to its quotation mark, and the length of the
token. `skip` characters belong to an escape already read. -/
def readStringFrom (quote : Char) (index : Nat) : Nat → List Char → Reading (List Piece × Nat)
  | _, [] => fault .unterminatedStringLiteral 0
  | skip + 1, _ :: rest => readStringFrom quote (index + 1) skip rest
  | 0, c :: rest =>
    if c == quote then .ok ([], index + 1)
    else if c == '\\' then
      match readEscape rest with
      | .error .unterminated => fault .unterminatedStringLiteral 0
      | .error (.malformed cause) => fault cause index
      | .ok (escape, length) => do
        let (pieces, stop) ← readStringFrom quote (index + 1) length rest
        .ok (.escape escape :: pieces, stop)
    else if c == '\n' || c == '\r' then fault .unterminatedStringLiteral 0
    else do
      let (pieces, stop) ← readStringFrom quote (index + 1) 0 rest
      .ok (.plain c :: pieces, stop)

/-- A string after its opening quotation mark. -/
def readString (quote : Char) (text : List Char) : Reading (List Piece × Nat) :=
  readStringFrom quote 1 0 text

/-- How a template chunk ends. -/
inductive ChunkEnd where
  | closed
  | substitution
  | unterminated
deriving DecidableEq, Repr

structure Chunk where
  pieces : List Piece
  stop : Nat
  ending : ChunkEnd
deriving DecidableEq, Repr

def Chunk.cons (piece : Piece) (chunk : Chunk) : Chunk :=
  { chunk with pieces := piece :: chunk.pieces }

/-- The place of the first escape without value. -/
def Chunk.invalidEscape? (chunk : Chunk) : Option Nat := chunk.pieces.findSome? Piece.invalidIndex?

/-- A template chunk. `skip` characters belong to an escape already read. -/
def readChunkFrom (index : Nat) : Nat → List Char → Chunk
  | _, [] => ⟨[], index, .unterminated⟩
  | skip + 1, _ :: rest => readChunkFrom (index + 1) skip rest
  | 0, c :: rest =>
    if c == '\x60' then ⟨[], index + 1, .closed⟩
    else if c == '$' && rest.head? == some '\x7b' then ⟨[], index + 2, .substitution⟩
    else if c == '\\' then
      match readEscape rest with
      | .error .unterminated => ⟨[], index, .unterminated⟩
      | .error (.malformed _) => (readChunkFrom (index + 1) 1 rest).cons (.invalid index)
      | .ok (.legacy _, _) => (readChunkFrom (index + 1) 1 rest).cons (.invalid index)
      | .ok (escape, length) => (readChunkFrom (index + 1) length rest).cons (.escape escape)
    else if c == '\r' then
      (readChunkFrom (index + 1) (if rest.head? == some '\n' then 1 else 0) rest).cons .lineBreak
    else (readChunkFrom (index + 1) 0 rest).cons (.plain c)

/-- A template chunk after its opening delimiter of one character. -/
def readChunk (text : List Char) : Chunk := readChunkFrom 1 0 text

end EcmaSyntax.Lexer
