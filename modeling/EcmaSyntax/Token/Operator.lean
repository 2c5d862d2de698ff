import EcmaSyntax.Token.Basic

/-!
Operators of expressions, each with the token that writes it, and the levels
of precedence, from the loosest to the tightest.
-/

namespace EcmaSyntax

inductive BinaryOperator where
  | equal
  | notEqual
  | strictEqual
  | strictNotEqual
  | lessThan
  | lessThanOrEqual
  | greaterThan
  | greaterThanOrEqual
  | shiftLeft
  | shiftRight
  | logicalShiftRight
  | add
  | subtract
  | multiply
  | divide
  | modulo
  | exponentiate
  | bitwiseOr
  | bitwiseXor
  | bitwiseAnd
  | inOperator
  | instanceOf
deriving DecidableEq, Repr

namespace BinaryOperator

def token : BinaryOperator → Token
  | .equal => .looseEqual
  | .notEqual => .looseNotEqual
  | .strictEqual => .strictEqual
  | .strictNotEqual => .strictNotEqual
  | .lessThan => .lessThan
  | .lessThanOrEqual => .lessThanOrEqual
  | .greaterThan => .greaterThan
  | .greaterThanOrEqual => .greaterThanOrEqual
  | .shiftLeft => .shiftLeft
  | .shiftRight => .shiftRight
  | .logicalShiftRight => .logicalShiftRight
  | .add => .add
  | .subtract => .subtract
  | .multiply => .multiply
  | .divide => .divide
  | .modulo => .modulo
  | .exponentiate => .exponentiate
  | .bitwiseOr => .bitwiseOr
  | .bitwiseXor => .bitwiseXor
  | .bitwiseAnd => .bitwiseAnd
  | .inOperator => .inKeyword
  | .instanceOf => .instanceOfKeyword

def ofToken? : Token → Option BinaryOperator
  | .looseEqual => some .equal
  | .looseNotEqual => some .notEqual
  | .strictEqual => some .strictEqual
  | .strictNotEqual => some .strictNotEqual
  | .lessThan => some .lessThan
  | .lessThanOrEqual => some .lessThanOrEqual
  | .greaterThan => some .greaterThan
  | .greaterThanOrEqual => some .greaterThanOrEqual
  | .shiftLeft => some .shiftLeft
  | .shiftRight => some .shiftRight
  | .logicalShiftRight => some .logicalShiftRight
  | .add => some .add
  | .subtract => some .subtract
  | .multiply => some .multiply
  | .divide => some .divide
  | .modulo => some .modulo
  | .exponentiate => some .exponentiate
  | .bitwiseOr => some .bitwiseOr
  | .bitwiseXor => some .bitwiseXor
  | .bitwiseAnd => some .bitwiseAnd
  | .inKeyword => some .inOperator
  | .instanceOfKeyword => some .instanceOf
  | _ => none

def text (op : BinaryOperator) : String := op.token.text

def strength (op : BinaryOperator) : Nat := op.token.strength

theorem ofToken?_token (op : BinaryOperator) : ofToken? op.token = some op := by
  cases op <;> rfl

theorem token_of_ofToken? {t : Token} {op : BinaryOperator} (h : ofToken? t = some op) :
    op.token = t := by
  unfold ofToken? at h
  split at h <;> cases h <;> rfl

end BinaryOperator

inductive LogicalOperator where
  | or
  | and
  | coalesce
deriving DecidableEq, Repr

namespace LogicalOperator

def token : LogicalOperator → Token
  | .or => .logicalOr
  | .and => .logicalAnd
  | .coalesce => .coalesce

def ofToken? : Token → Option LogicalOperator
  | .logicalOr => some .or
  | .logicalAnd => some .and
  | .coalesce => some .coalesce
  | _ => none

def text (op : LogicalOperator) : String := op.token.text

def strength (op : LogicalOperator) : Nat := op.token.strength

theorem ofToken?_token (op : LogicalOperator) : ofToken? op.token = some op := by
  cases op <;> rfl

theorem token_of_ofToken? {t : Token} {op : LogicalOperator} (h : ofToken? t = some op) :
    op.token = t := by
  unfold ofToken? at h
  split at h <;> cases h <;> rfl

end LogicalOperator

inductive UnaryOperator where
  | minus
  | plus
  | not
  | bitwiseNot
  | typeof
  | void
  | delete
deriving DecidableEq, Repr

namespace UnaryOperator

def token : UnaryOperator → Token
  | .minus => .subtract
  | .plus => .add
  | .not => .negate
  | .bitwiseNot => .complement
  | .typeof => .typeofKeyword
  | .void => .voidKeyword
  | .delete => .deleteKeyword

def ofToken? : Token → Option UnaryOperator
  | .subtract => some .minus
  | .add => some .plus
  | .negate => some .not
  | .complement => some .bitwiseNot
  | .typeofKeyword => some .typeof
  | .voidKeyword => some .void
  | .deleteKeyword => some .delete
  | _ => none

def text (op : UnaryOperator) : String := op.token.text

/-- A keyword needs a space before its operand. -/
def isKeyword : UnaryOperator → Bool
  | .typeof | .void | .delete => true
  | _ => false

theorem ofToken?_token (op : UnaryOperator) : ofToken? op.token = some op := by
  cases op <;> rfl

end UnaryOperator

inductive UpdateOperator where
  | increment
  | decrement
deriving DecidableEq, Repr

def UpdateOperator.text : UpdateOperator → String
  | .increment => "++"
  | .decrement => "--"

inductive AssignmentOperator where
  | assign
  | add
  | subtract
  | multiply
  | divide
  | modulo
  | exponentiate
  | shiftLeft
  | shiftRight
  | logicalShiftRight
  | bitwiseOr
  | bitwiseXor
  | bitwiseAnd
  | logicalOr
  | logicalAnd
  | coalesce
deriving DecidableEq, Repr

namespace AssignmentOperator

def token : AssignmentOperator → Token
  | .assign => .assign
  | .add => .addAssign
  | .subtract => .subtractAssign
  | .multiply => .multiplyAssign
  | .divide => .divideAssign
  | .modulo => .moduloAssign
  | .exponentiate => .exponentiateAssign
  | .shiftLeft => .shiftLeftAssign
  | .shiftRight => .shiftRightAssign
  | .logicalShiftRight => .logicalShiftRightAssign
  | .bitwiseOr => .bitwiseOrAssign
  | .bitwiseXor => .bitwiseXorAssign
  | .bitwiseAnd => .bitwiseAndAssign
  | .logicalOr => .logicalOrAssign
  | .logicalAnd => .logicalAndAssign
  | .coalesce => .coalesceAssign

def ofToken? : Token → Option AssignmentOperator
  | .assign => some .assign
  | .addAssign => some .add
  | .subtractAssign => some .subtract
  | .multiplyAssign => some .multiply
  | .divideAssign => some .divide
  | .moduloAssign => some .modulo
  | .exponentiateAssign => some .exponentiate
  | .shiftLeftAssign => some .shiftLeft
  | .shiftRightAssign => some .shiftRight
  | .logicalShiftRightAssign => some .logicalShiftRight
  | .bitwiseOrAssign => some .bitwiseOr
  | .bitwiseXorAssign => some .bitwiseXor
  | .bitwiseAndAssign => some .bitwiseAnd
  | .logicalOrAssign => some .logicalOr
  | .logicalAndAssign => some .logicalAnd
  | .coalesceAssign => some .coalesce
  | _ => none

def text (op : AssignmentOperator) : String := op.token.text

theorem ofToken?_token (op : AssignmentOperator) : ofToken? op.token = some op := by
  cases op <;> rfl

end AssignmentOperator

inductive Precedence where
  | comma
  /-- Assignment, arrow functions and `yield`. -/
  | assignment
  | conditional
  | coalesce
  | logicalOr
  | logicalAnd
  | bitwiseOr
  | bitwiseXor
  | bitwiseAnd
  | equality
  | relational
  | shift
  | additive
  | multiplicative
  | exponentiation
  | unary
  | update
  | leftHandSide
  | member
  | primary
deriving DecidableEq, Repr

namespace Precedence

def all : List Precedence :=
  [.comma, .assignment, .conditional, .coalesce, .logicalOr, .logicalAnd, .bitwiseOr, .bitwiseXor,
    .bitwiseAnd, .equality, .relational, .shift, .additive, .multiplicative, .exponentiation,
    .unary, .update, .leftHandSide, .member, .primary]

/-- The rank of a level, from zero for the loosest. -/
def rank : Precedence → Nat
  | .comma => 0
  | .assignment => 1
  | .conditional => 2
  | .coalesce => 3
  | .logicalOr => 4
  | .logicalAnd => 5
  | .bitwiseOr => 6
  | .bitwiseXor => 7
  | .bitwiseAnd => 8
  | .equality => 9
  | .relational => 10
  | .shift => 11
  | .additive => 12
  | .multiplicative => 13
  | .exponentiation => 14
  | .unary => 15
  | .update => 16
  | .leftHandSide => 17
  | .member => 18
  | .primary => 19

def name : Precedence → String
  | .comma => "Comma"
  | .assignment => "Assignment"
  | .conditional => "Conditional"
  | .coalesce => "Coalesce"
  | .logicalOr => "LogicalOr"
  | .logicalAnd => "LogicalAnd"
  | .bitwiseOr => "BitwiseOr"
  | .bitwiseXor => "BitwiseXor"
  | .bitwiseAnd => "BitwiseAnd"
  | .equality => "Equality"
  | .relational => "Relational"
  | .shift => "Shift"
  | .additive => "Additive"
  | .multiplicative => "Multiplicative"
  | .exponentiation => "Exponentiation"
  | .unary => "Unary"
  | .update => "Update"
  | .leftHandSide => "LeftHandSide"
  | .member => "Member"
  | .primary => "Primary"

instance : LT Precedence := ⟨fun a b => a.rank < b.rank⟩

instance : LE Precedence := ⟨fun a b => a.rank ≤ b.rank⟩

instance (a b : Precedence) : Decidable (a < b) := inferInstanceAs (Decidable (a.rank < b.rank))

instance (a b : Precedence) : Decidable (a ≤ b) := inferInstanceAs (Decidable (a.rank ≤ b.rank))

/-- The level of a binary operator token. -/
def ofBinary? (t : Token) : Option Precedence :=
  match t.strength with
  | 1 => some .coalesce
  | 2 => some .logicalOr
  | 3 => some .logicalAnd
  | 4 => some .bitwiseOr
  | 5 => some .bitwiseXor
  | 6 => some .bitwiseAnd
  | 7 => some .equality
  | 8 => some .relational
  | 9 => some .shift
  | 10 => some .additive
  | 11 => some .multiplicative
  | 12 => some .exponentiation
  | _ => none

/-- The next tighter level; the tightest is its own successor. -/
def tighter : Precedence → Precedence
  | .comma => .assignment
  | .assignment => .conditional
  | .conditional => .coalesce
  | .coalesce => .logicalOr
  | .logicalOr => .logicalAnd
  | .logicalAnd => .bitwiseOr
  | .bitwiseOr => .bitwiseXor
  | .bitwiseXor => .bitwiseAnd
  | .bitwiseAnd => .equality
  | .equality => .relational
  | .relational => .shift
  | .shift => .additive
  | .additive => .multiplicative
  | .multiplicative => .exponentiation
  | .exponentiation => .unary
  | .unary => .update
  | .update => .leftHandSide
  | .leftHandSide => .member
  | .member => .primary
  | .primary => .primary

end Precedence

end EcmaSyntax
