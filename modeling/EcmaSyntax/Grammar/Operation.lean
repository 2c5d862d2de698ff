import EcmaSyntax.Grammar.Call

/-!
Expressions made with operators, from unary ones to assignment. Binary
operators are applied by strength; those of equal strength group to the left,
except for exponentiation.
-/

namespace EcmaSyntax.Grammar

open EcmaSyntax.Diagnostic EcmaSyntax.Text EcmaSyntax.Tree

variable {version : Nat} [Unicode.IdentifierChars version]

variable (g : Phrases)

def updateOperator (token : Token) : UpdateOperator :=
  if token == .increment then .increment else .decrement

/-- The expression just read may be counted up or down. -/
def checkUpdateTarget (ctx : Context) (target : Expression) (position : String) :
    Parser Unit := do
  let refused : Parser Unit := failAt (.invalidUpdateTarget position) target.start
  if !(← get).assignable then refused
  else match target.withoutParens with
    | .identifier id => checkTarget ctx id
    | .member _ _ _ _ _ => pure ()
    | _ => refused

/-- The target of `delete` without parentheses and chain. -/
def deleteTarget (e : Expression) : Expression :=
  match e.withoutParens with
  | .chain _ inner => inner
  | other => other

/-- Strict code deletes no names, and private members are never deleted. -/
def checkDelete (ctx : Context) (argument : Expression) (start : Nat) : Parser Unit :=
  match deleteTarget argument with
  | .identifier _ => if ctx.strict then failAt .strictDelete start else pure ()
  | .member _ _ (.privateIdentifier _) _ _ => failAt .deletePrivateField start
  | _ => pure ()

def unaryOperation (ctx : Context) (start : Nat) (token : Token) : Parser Expression := do
  let argument ← nested do
    next
    g.unary ctx
  checkCover argument
  match UnaryOperator.ofToken? token with
  | none => failAt (.unexpectedToken token.text) start
  | some operator =>
    if operator == .delete then checkDelete ctx argument start
    setAssignable false
    return .unary (← spanFrom start) operator argument

def updateBefore (ctx : Context) (start : Nat) (token : Token) : Parser Expression := do
  let argument ← nested do
    next
    g.unary ctx
  checkUpdateTarget ctx argument "prefix"
  setAssignable false
  return .update (← spanFrom start) (updateOperator token) true argument

def awaitOperation (ctx : Context) (start : Nat) : Parser Expression := do
  if ctx.inParameters then fail .awaitInParameter
  modify fun s => { s with lastAwait := some start }
  let argument ← nested do
    next
    g.unary ctx
  checkCover argument
  setAssignable false
  return .await (← spanFrom start) argument

/-- An operand, which may be counted up or down on the same line. -/
def updateAfter (ctx : Context) : Parser Expression := do
  let start ← currentStart
  let e ← leftHandSide g ctx
  let token ← currentToken
  if !token.isUpdate || (← afterLineBreak) || (← isBareArrow e) then return e
  checkCover e
  checkUpdateTarget ctx e "postfix"
  next
  setAssignable false
  return .update (← spanFrom start) (updateOperator token) false e

def unary (ctx : Context) : Parser Expression := do
  let start ← currentStart
  let token ← currentToken
  if token.isUnary && !(← isEscaped) then unaryOperation g ctx start token
  else if token.isUpdate then updateBefore g ctx start token
  else if ctx.inAsync && (← atWord .awaitKeyword) then awaitOperation g ctx start
  else updateAfter g ctx

/-- The coalescing operator is not mixed with other logical ones. -/
def mixesCoalesce (a b : Token) : Bool :=
  (a.isCoalesce && b.isLogical) || (a.isLogical && b.isCoalesce)

def checkMixing (a b : Option Token) : Parser Unit :=
  match a, b with
  | some a, some b => if mixesCoalesce a b then fail .nullishMixedWithLogical else pure ()
  | _, _ => pure ()

/-- A private name is an operand only before `in`. -/
def refusePrivateName : Expression → Parser Unit
  | .privateIdentifier id => failAt .unexpectedPrivateName id.span.start
  | _ => pure ()

def isUnaryOrAwait : Expression → Bool
  | .unary _ _ _ | .await _ _ => true
  | _ => false

def binaryNode (span : Span) (token : Token) (left right : Expression) : Option Expression :=
  match LogicalOperator.ofToken? token with
  | some operator => some (.logical span left operator right)
  | none => (BinaryOperator.ofToken? token).map fun operator => .binary span left operator right

/-- One more binary operator of at least some strength, if there is one. -/
def binaryLink (ctx : Context) (start minimum : Nat) (left : Expression × Option Token) :
    Parser (Option (Expression × Option Token)) := do
  let token ← currentToken
  let strength := ctx.binaryStrength token
  if strength == 0 || strength < minimum then return none
  if token != .inKeyword then refusePrivateName left.1
  checkMixing left.2 (some token)
  if token == .exponentiate && isUnaryOrAwait left.1 && !(← isParenthesized left.1) then
    failAt .unaryBeforeExponentiation start
  checkCover left.1
  next
  let rightStart ← currentStart
  let operand ← unary g ctx
  let (right, last) ← nested do
    g.binary ctx rightStart operand (if token.isRightAssociative then strength else strength + 1)
  refusePrivateName right
  checkCover right
  checkMixing (some token) last
  match binaryNode (← spanFrom start) token left.1 right with
  | none => failAt (.unexpectedToken token.text) start
  | some e =>
    setAssignable false
    return some (e, some token)

/-- Binary operators of at least some strength applied to an operand that
starts at an offset, and the last of them. -/
def binary (ctx : Context) (start : Nat) (left : Expression) (minimum : Nat) :
    Parser (Expression × Option Token) :=
  iterate (binaryLink g ctx start minimum) g.size (left, none)

def binaryExpression (ctx : Context) : Parser Expression := do
  let start ← currentStart
  let left ← unary g ctx
  if ← isBareArrow left then return left
  let (e, _) ← binary g ctx start left 1
  refusePrivateName e
  return e

def conditional (ctx : Context) : Parser Expression := do
  let start ← currentStart
  let test ← binaryExpression g ctx
  if !(← atToken .question) || (← isBareArrow test) then return test
  checkCover test
  next
  let consequent ← g.assignment ctx.withIn
  expect .colon
  let alternate ← g.assignment ctx
  setAssignable false
  return .conditional (← spanFrom start) test consequent alternate

/-- Such a token can start the operand of `yield`. -/
def startsExpression (token : Token) : Bool :=
  token.isIdentifier || token.isLiteral || token.isTemplate || token.isUnary || token.isUpdate ||
    match token with
    | .leftParen | .leftBracket | .leftBrace | .functionKeyword | .classKeyword | .newKeyword
    | .thisKeyword | .superKeyword | .importKeyword | .divide | .divideAssign | .lessThan
    | .privateName | .at => true
    | _ => false

def yieldExpression (ctx : Context) : Parser Expression := do
  let start ← currentStart
  if ctx.inParameters then fail .yieldInParameter
  modify fun s => { s with lastYield := some start }
  next
  let sameLine := !(← afterLineBreak)
  let delegate ← pure sameLine <&&> accept .multiply
  let argument : Option Expression ←
    if delegate || (sameLine && startsExpression (← currentToken)) then
      some <$> g.assignment ctx
    else pure none
  plainExpression
  return .yield (← spanFrom start) delegate argument

/-- A name or member that can be assigned to. -/
def simpleTarget (ctx : Context) (left : Expression) (cause : Cause) : Parser Pattern := do
  if !(← get).assignable then failAt cause left.start
  match left.withoutParens with
  | .identifier id =>
    checkTarget ctx id
    return .identifier id
  | .member span object property computed optional =>
    return .member span object property computed optional
  | _ => failAt cause left.start

def isArrayOrObject : Expression → Bool
  | .array _ _ | .object _ _ => true
  | _ => false

/-- The target on the left of `=` or in the head of a loop: a literal becomes
a pattern. -/
def patternTarget (ctx : Context) (left : Expression) (cause : Cause) : Parser Pattern := do
  if isArrayOrObject left && !(← isParenthesized left) then
    setCover Cover.none
    let c ← conversion g.options .assignment ctx
    ofExcept (toPattern c left)
  else
    checkCover left
    simpleTarget ctx left cause

/-- The target on the left of an assignment operator. -/
def assignmentTarget (ctx : Context) (token : Token) (left : Expression) : Parser Pattern := do
  if token == .assign then patternTarget g ctx left .invalidAssignmentTarget
  else
    checkCover left
    simpleTarget ctx left .invalidAssignmentTarget

def assignmentCover (ctx : Context) : Parser Expression := nested do
  if ctx.inGenerator && (← atWord .yieldKeyword) then return ← yieldExpression g ctx
  let start ← currentStart
  modify fun s => { s with assignmentStart := some start }
  let left ← conditional g ctx
  let token ← currentToken
  if (← isBareArrow left) || !token.isAssignment then return left
  match AssignmentOperator.ofToken? token with
  | none => unexpected
  | some operator =>
    let target ← assignmentTarget g ctx token left
    next
    let right ← g.assignment ctx
    plainExpression
    return .assignment (← spanFrom start) operator target right

end EcmaSyntax.Grammar
