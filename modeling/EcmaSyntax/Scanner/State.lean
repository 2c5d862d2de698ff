import EcmaSyntax.Lexer.State

/-!
The scanner on bytes. It keeps offsets into the UTF-8 form of its source, goes on byte by byte
or character by character, and cuts ranges out of the source. What is outside the source cannot
be read, and a range that does not stand between two characters cannot be cut: either is a
panic, as is a loop that has more rounds than the source has bytes.

Bytes are compared as the characters with their numbers. Beyond ASCII these are no characters
of the source, but none that the scanner asks for either, apart from the byte that both line
separators begin with.
-/

namespace EcmaSyntax.Scanner

open EcmaSyntax.Diagnostic EcmaSyntax.Lexer EcmaSyntax.Number EcmaSyntax.Text

/-- What ends a step without a result. -/
inductive Stop where
  | failure (failure : Failure)
  | panic
deriving DecidableEq, Repr

/-- Where the value of the current token is. -/
inductive ValueSource where
  /-- Between two offsets of the source. -/
  | slice (start stop : Nat)
  /-- In the buffer of the scanner. -/
  | buffer
deriving DecidableEq, Repr

/-- The bytes of a text. -/
def utf8 (text : List Char) : List UInt8 := text.flatMap String.utf8EncodeChar

structure State where
  source : List Char
  /-- Just after the current token. -/
  pos : Nat
  tokenStart : Nat
  token : Token
  flags : TokenFlags
  value : ValueSource
  buffer : List Char
  /-- The value of the last number. -/
  number : Binary64
  /-- The range of the flags of the last regular expression. -/
  regexFlags : Nat × Nat
  /-- Where the last template chunk with an invalid escape has the first one. -/
  invalidEscape : Nat
  /-- Comments with hyphen arrows are recognised. -/
  htmlComments : Bool
  /-- Comments are kept. -/
  collectComments : Bool
  comments : List Comment
  /-- No token stands on the current line yet. -/
  atLineStart : Bool
deriving DecidableEq, Repr

namespace State

def initial (source : List Char) (htmlComments collectComments : Bool) : State where
  source := source
  pos := 0
  tokenStart := 0
  token := .endOfSource
  flags := TokenFlags.none
  value := .slice 0 0
  buffer := []
  number := Binary64.zero
  regexFlags := (0, 0)
  invalidEscape := 0
  htmlComments := htmlComments
  collectComments := collectComments
  comments := []
  atLineStart := true

def bytes (s : State) : List UInt8 := utf8 s.source

/-- The bytes from an offset on. -/
def bytesFrom (s : State) (offset : Nat) : List UInt8 := s.bytes.drop offset

/-- The byte at an offset. -/
def byte? (s : State) (offset : Nat) : Option Char := s.bytes[offset]?.map Char.ofUInt8

/-- The byte some places on, or the one with number zero beyond the end. -/
def byteAt (s : State) (count : Nat) : Char := (s.byte? (s.pos + count)).getD '\x00'

def isEof (s : State) : Bool := s.bytes.length ≤ s.pos

/-- The bytes of `text` come next. -/
def startsWith (s : State) (text : String) : Bool :=
  (utf8 text.toList).isPrefixOf (s.bytesFrom s.pos)

/-- Go on by a number of bytes. -/
def bump (s : State) (count : Nat) : State := { s with pos := s.pos + count }

def goTo (s : State) (offset : Nat) : State := { s with pos := offset }

def holding (s : State) (text : List Char) : State := { s with buffer := text }

/-- Text is added to the buffer. -/
def push (s : State) (text : List Char) : State := s.holding (s.buffer ++ text)

/-- The text of the current token. -/
def raw? (s : State) : Option (List Char) := slice? s.source s.tokenStart s.pos

/-- The decoded value of the current token. -/
def value? (s : State) : Option (List Char) :=
  match s.value with
  | .slice start stop => slice? s.source start stop
  | .buffer => some s.buffer

def regexFlags? (s : State) : Option (List Char) :=
  slice? s.source s.regexFlags.1 s.regexFlags.2

/-- The text of a template chunk between its delimiters, with line feeds for all line breaks. -/
def templateRaw? (s : State) : Option (List Char) :=
  let start := s.tokenStart + 1
  let closing := match s.token with
    | .templateHead | .templateMiddle => 2
    | _ => 1
  if s.pos < closing then none
  else (slice? s.source start (max (s.pos - closing) start)).map Lexer.State.normalizeLineBreaks

/-- Go back to an earlier state. Comments found since are dropped, while the place of an invalid
escape stays. -/
def restore (saved now : State) : State :=
  { saved with
    invalidEscape := now.invalidEscape
    comments := now.comments.take saved.comments.length }

end State

end EcmaSyntax.Scanner

namespace EcmaSyntax

/-- A step of a scanner, which may fail. -/
abbrev Scanner := EStateM Scanner.Stop Scanner.State

namespace Scanner

open EcmaSyntax.Diagnostic

variable {α σ : Type}

/-- The byte at the position. -/
def byte : Scanner Char := do
  match (← get).byte? (← get).pos with
  | some b => return b
  | none => throw .panic

def byteAt (count : Nat) : Scanner Char := return (← get).byteAt count

def isEof : Scanner Bool := return (← get).isEof

def position : Scanner Nat := return (← get).pos

def bump (count : Nat) : Scanner Unit := modify (·.bump count)

def moveTo (offset : Nat) : Scanner Unit := modify (·.goTo offset)

/-- The source between two offsets. -/
def slice (start stop : Nat) : Scanner (List Char) := do
  match Text.slice? (← get).source start stop with
  | some text => return text
  | none => throw .panic

/-- The character at the position. -/
def currentChar : Scanner (Option Char) := do
  let s ← get
  return (← slice s.pos s.bytes.length).head?

/-- Refuse the text at an offset, which is kept in 32 bits. -/
def fail (cause : Cause) (offset : Nat) : Scanner α :=
  throw (.failure ⟨cause, offset % UInt32.size⟩)

/-- What has to hold here. -/
def ensure (condition : Bool) : Scanner Unit := if condition then pure () else throw .panic

/-- A step whose failure is a result. What it has done so far stays done. -/
def attempt (step : Scanner α) : Scanner (Except Failure α) := fun s =>
  match step s with
  | .ok a s' => .ok (.ok a) s'
  | .error (.failure failure) s' => .ok (.error failure) s'
  | .error .panic s' => .error .panic s'

/-- A round of a loop, which goes on with the next state or ends with a result. -/
abbrev Round (σ α : Type) := σ → Scanner (σ ⊕ α)

def rounds (round : Round σ α) : Nat → σ → Scanner α
  | 0, _ => throw .panic
  | fuel + 1, a => do
    match ← round a with
    | .inl next => rounds round fuel next
    | .inr result => return result

/-- A loop that passes a byte in every round but the last. -/
def loop (round : Round σ α) (a : σ) : Scanner α := do
  rounds round ((← get).bytes.length + 1) a

def clearBuffer : Scanner Unit := modify (·.holding [])

def push (text : List Char) : Scanner Unit := modify (·.push text)

/-- Add the source from an offset up to the position to the buffer. -/
def copyFrom (start : Nat) : Scanner Unit := do push (← slice start (← position))

/-- As `copyFrom`, into an empty buffer unless something of the value is in it. -/
def flush (start : Nat) (buffered : Bool) : Scanner Unit := do
  if !buffered then clearBuffer
  copyFrom start

def setValue (value : ValueSource) : Scanner Unit := modify fun s => { s with value := value }

end Scanner

end EcmaSyntax
