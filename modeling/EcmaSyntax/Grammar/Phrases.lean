import EcmaSyntax.Grammar.Conversion

/-!
The phrases that contain each other, and the lists of arguments in calls. A module of the grammar is
given the phrases as a record and defines larger ones from them; the record itself is tied together
where the program is read. Loops are bounded by the size of the text, since every round takes a
token.
-/

namespace EcmaSyntax.Grammar

open EcmaSyntax.Diagnostic EcmaSyntax.Scope EcmaSyntax.Tree

variable {version : Nat} [Unicode.IdentifierChars version]

/-- Where a statement stands, which decides the declarations it may be. -/
inductive Position where
  /-- Directly in a list of statements. -/
  | listItem
  /-- The body of a loop or a `with`. -/
  | single
  /-- A branch of an `if`. -/
  | ifBody
  /-- After a label that stands in a list of statements. -/
  | labeled
deriving DecidableEq, Repr

/-- What the token after a markup element belongs to. -/
inductive MarkupExit where
  | expression
  | child
  | attribute
deriving DecidableEq, Repr

structure Phrases where
  options : Options
  /-- No loop has more rounds. -/
  size : Nat
  /-- An assignment expression, with its cover state left for the caller. -/
  assignmentCover : Context → Parser Expression
  unary : Context → Parser Expression
  /-- Binary operators of at least some strength, applied to an operand that
  starts at an offset, and the last of them. -/
  binary : Context → Nat → Expression → Nat → Parser (Expression × Option Token)
  newCall : Context → Parser Expression
  leftHandSide : Context → Parser Expression
  markup : Context → MarkupExit → Parser Markup
  bindingTarget : Context → BindingKind → Parser Pattern
  statement : Context → Position → Parser Statement
  listItem : Context → Parser Statement

/-- What a round of a loop found. -/
inductive Round (α : Type) where
  | stop
  | last (item : α)
  | more (item : α)

/-- Items after earlier ones, which are given with the latest first. -/
def collectAfter {α : Type} (round : List α → Parser (Round α)) :
    Nat → List α → Parser (List α)
  | 0, _ => fail .exhausted
  | fuel + 1, earlier => do
    match ← round earlier with
    | .stop => return earlier.reverse
    | .last item => return (item :: earlier).reverse
    | .more item => collectAfter round fuel (item :: earlier)

/-- Apply a round to a value until there is no more to apply. -/
def iterate {σ : Type} (round : σ → Parser (Option σ)) : Nat → σ → Parser σ
  | 0, _ => fail .exhausted
  | fuel + 1, s => do
    match ← round s with
    | some s => iterate round fuel s
    | none => return s

namespace Phrases

variable (g : Phrases)

/-- Items up to where a round says stop. -/
def collect {α : Type} (round : List α → Parser (Round α)) : Parser (List α) :=
  collectAfter round g.size []

/-- Between two items stands a comma, and one may stand after the last. -/
def separator (close : Token) : Parser Unit := do
  if !(← atToken close) then expect .comma

/-- Items with commas between them up to a closing token, which is not taken.
An item knows those before it. -/
def listed {α : Type} (close : Token) (item : List α → Parser α) : Parser (List α) :=
  g.collect fun earlier => do
    if ← atToken close then return .stop
    let a ← item earlier
    separator close
    return .more a

/-- Items up to a closing token, which is not taken; the end of the text is
an error. -/
def itemsUpTo {α : Type} (close : Token) (item : Parser α) : Parser (List α) :=
  g.collect fun _ => do
    if ← atToken close then return .stop
    if ← atToken .endOfSource then unexpected
    return .more (← item)

/-- An assignment expression that is no pattern. -/
def assignment (ctx : Context) : Parser Expression := do
  let e ← g.assignmentCover ctx
  checkCover e
  return e

/-- An assignment expression and its cover state. -/
def covered (ctx : Context) : Parser (Expression × Cover) := do
  let e ← g.assignmentCover ctx
  return (e, ← takeCover)

/-- Expressions after the first, with commas between them. -/
def sequenceAfter (ctx : Context) (start : Nat) (first : Expression) : Parser Expression := do
  if ← atToken .comma then
    let rest ← g.collect fun _ => do
      if ← accept .comma then return .more (← g.assignment ctx)
      else return .stop
    setAssignable false
    return .sequence (← spanFrom start) (first :: rest)
  else return first

def expression (ctx : Context) : Parser Expression := do
  let start ← currentStart
  let first ← g.assignment ctx
  g.sequenceAfter ctx start first

end Phrases

/-- A context where `in` is an operator again. -/
def Context.withIn (ctx : Context) : Context := { ctx with disallowIn := false }

section Arguments

variable (g : Phrases)

/-- Note that a comma follows the spread element that starts at an offset. -/
def noteSpread (start : Nat) : Parser Unit := do
  if ← atToken .comma then
    modify fun s => { s with spreadsBeforeComma := start :: s.spreadsBeforeComma }

/-- An element from its start, with the span of a spread ending here. -/
def elementFrom (start : Nat) (isSpread : Bool) (e : Expression) : Parser Element := do
  if isSpread then
    noteSpread start
    return .spread (← spanFrom start) e
  else return .item e

/-- Arguments in parentheses with their cover states. -/
def coveredArguments (ctx : Context) : Parser (List (Element × Cover)) := do
  expect .leftParen
  let arguments ← g.listed .rightParen fun _ => do
    let start ← currentStart
    let isSpread ← accept .ellipsis
    let (e, cover) ← g.covered ctx.withIn
    return (← elementFrom start isSpread e, cover)
  next
  return arguments

/-- Arguments in parentheses. -/
def arguments (ctx : Context) : Parser (List Element) := do
  expect .leftParen
  let arguments ← g.listed .rightParen fun _ => do
    let start ← currentStart
    let isSpread ← accept .ellipsis
    let e ← g.assignment ctx.withIn
    elementFrom start isSpread e
  next
  return arguments

end Arguments

end EcmaSyntax.Grammar
