/-!
Kinds of tokens, and the attributes of a scanned one. A table gives each kind its name, its text
(for classes of literals a description), a number, its strength as a binary operator and the classes
that it belongs to.
-/

namespace EcmaSyntax

structure TokenFlags where
  /-- A line break stands before the token. -/
  lineBreakBefore : Bool
  /-- A name spelled with escapes. -/
  escaped : Bool
  /-- A string with a legacy octal escape, or with `\8` or `\9`. -/
  octalEscape : Bool
  /-- A number such as `017`. -/
  legacyOctal : Bool
  /-- A number such as `08`. -/
  nonOctalDecimal : Bool
  /-- A template chunk without a cooked value. -/
  invalidTemplateEscape : Bool
deriving DecidableEq, Repr, Inhabited

namespace TokenFlags

def none : TokenFlags := ⟨false, false, false, false, false, false⟩

/-- A number that strict code refuses. -/
def isLegacyNumber (flags : TokenFlags) : Bool := flags.legacyOctal || flags.nonOctalDecimal

/-- The names of the attributes that are set. -/
def names (flags : TokenFlags) : List String :=
  [(flags.lineBreakBefore, "PRECEDING_LINE_BREAK"), (flags.escaped, "ESCAPED"),
    (flags.octalEscape, "OCTAL_ESCAPE"), (flags.legacyOctal, "LEGACY_OCTAL"),
    (flags.nonOctalDecimal, "NON_OCTAL_DECIMAL"),
    (flags.invalidTemplateEscape, "INVALID_TEMPLATE_ESCAPE")].filterMap
      fun entry => if entry.1 then some entry.2 else Option.none

end TokenFlags

inductive Token where
  | endOfSource
  | identifier
  | privateName
  | stringLiteral
  | numericLiteral
  | bigIntLiteral
  | regularExpression
  | noSubstitutionTemplate
  | templateHead
  | templateMiddle
  | templateTail
  | jsxText
  | leftBrace
  | rightBrace
  | leftParen
  | rightParen
  | leftBracket
  | rightBracket
  | dot
  | ellipsis
  | semicolon
  | comma
  | colon
  | question
  | questionDot
  | arrow
  | at
  | assign
  | addAssign
  | subtractAssign
  | multiplyAssign
  | divideAssign
  | moduloAssign
  | exponentiateAssign
  | shiftLeftAssign
  | shiftRightAssign
  | logicalShiftRightAssign
  | bitwiseAndAssign
  | bitwiseOrAssign
  | bitwiseXorAssign
  | logicalAndAssign
  | logicalOrAssign
  | coalesceAssign
  | increment
  | decrement
  | negate
  | complement
  | coalesce
  | logicalOr
  | logicalAnd
  | bitwiseOr
  | bitwiseXor
  | bitwiseAnd
  | looseEqual
  | looseNotEqual
  | strictEqual
  | strictNotEqual
  | lessThan
  | greaterThan
  | lessThanOrEqual
  | greaterThanOrEqual
  | shiftLeft
  | shiftRight
  | logicalShiftRight
  | add
  | subtract
  | multiply
  | divide
  | modulo
  | exponentiate
  | breakKeyword
  | caseKeyword
  | catchKeyword
  | classKeyword
  | constKeyword
  | continueKeyword
  | debuggerKeyword
  | defaultKeyword
  | deleteKeyword
  | doKeyword
  | elseKeyword
  | enumKeyword
  | exportKeyword
  | extendsKeyword
  | falseKeyword
  | finallyKeyword
  | forKeyword
  | functionKeyword
  | ifKeyword
  | importKeyword
  | inKeyword
  | instanceOfKeyword
  | newKeyword
  | nullKeyword
  | returnKeyword
  | superKeyword
  | switchKeyword
  | thisKeyword
  | throwKeyword
  | trueKeyword
  | tryKeyword
  | typeofKeyword
  | varKeyword
  | voidKeyword
  | whileKeyword
  | withKeyword
  | implementsKeyword
  | interfaceKeyword
  | letKeyword
  | packageKeyword
  | privateKeyword
  | protectedKeyword
  | publicKeyword
  | staticKeyword
  | yieldKeyword
  | asKeyword
  | asyncKeyword
  | awaitKeyword
  | fromKeyword
  | getKeyword
  | ofKeyword
  | setKeyword
  | targetKeyword
  | metaKeyword
deriving DecidableEq, Repr, Inhabited

namespace Token

/-- Classes of tokens. -/
inductive Trait where
  | binary
  | assignment
  | update
  | unary
  /-- Can be a name in some context. -/
  | identifier
  /-- Reserved in every context. -/
  | reserved
  /-- Reserved in strict code only. -/
  | strictReserved
  /-- A name with a special meaning in some places. -/
  | contextual
  | patternStart
  | logical
  | coalesce
  | literal
  | memberOrCall
  /-- Any name or keyword. -/
  | word
  | rightAssociative
  | template
deriving DecidableEq, Repr

/-- The place of a class in the packed number of a token. -/
def Trait.bit : Trait → Nat
  | .binary => 12
  | .assignment => 13
  | .update => 14
  | .unary => 15
  | .identifier => 16
  | .reserved => 17
  | .strictReserved => 18
  | .contextual => 19
  | .patternStart => 20
  | .logical => 21
  | .coalesce => 22
  | .literal => 23
  | .memberOrCall => 24
  | .word => 25
  | .rightAssociative => 26
  | .template => 27

structure Entry where
  name : String
  index : Nat
  text : String
  strength : Nat
  traits : List Trait

/-- What is known of each token. -/
def entry : Token → Entry
  | .endOfSource => ⟨"EndOfSource", 0, "end of input", 0, []⟩
  | .identifier => ⟨"Identifier", 1, "identifier", 0, [.identifier, .word]⟩
  | .privateName => ⟨"PrivateName", 2, "private name", 0, []⟩
  | .stringLiteral => ⟨"StringLiteral", 3, "string", 0, [.literal]⟩
  | .numericLiteral => ⟨"NumericLiteral", 4, "number", 0, [.literal]⟩
  | .bigIntLiteral => ⟨"BigIntLiteral", 5, "bigint", 0, [.literal]⟩
  | .regularExpression => ⟨"RegularExpression", 6, "regular expression", 0, [.literal]⟩
  | .noSubstitutionTemplate => ⟨"NoSubstitutionTemplate", 7, "template", 0,
    [.template, .memberOrCall]⟩
  | .templateHead => ⟨"TemplateHead", 8, "template", 0, [.template, .memberOrCall]⟩
  | .templateMiddle => ⟨"TemplateMiddle", 9, "template", 0, [.template]⟩
  | .templateTail => ⟨"TemplateTail", 10, "template", 0, [.template]⟩
  | .jsxText => ⟨"JsxText", 11, "markup text", 0, []⟩
  | .leftBrace => ⟨"LeftBrace", 20, "\x7b", 0, [.patternStart]⟩
  | .rightBrace => ⟨"RightBrace", 21, "\x7d", 0, []⟩
  | .leftParen => ⟨"LeftParen", 22, "(", 0, [.memberOrCall]⟩
  | .rightParen => ⟨"RightParen", 23, ")", 0, []⟩
  | .leftBracket => ⟨"LeftBracket", 24, "[", 0, [.patternStart, .memberOrCall]⟩
  | .rightBracket => ⟨"RightBracket", 25, "]", 0, []⟩
  | .dot => ⟨"Dot", 26, ".", 0, [.memberOrCall]⟩
  | .ellipsis => ⟨"Ellipsis", 27, "...", 0, []⟩
  | .semicolon => ⟨"Semicolon", 28, ";", 0, []⟩
  | .comma => ⟨"Comma", 29, ",", 0, []⟩
  | .colon => ⟨"Colon", 30, ":", 0, []⟩
  | .question => ⟨"Question", 31, "?", 0, []⟩
  | .questionDot => ⟨"QuestionDot", 32, "?.", 0, [.memberOrCall]⟩
  | .arrow => ⟨"Arrow", 33, "=>", 0, []⟩
  | .at => ⟨"At", 34, "@", 0, []⟩
  | .assign => ⟨"Assign", 40, "=", 0, [.assignment]⟩
  | .addAssign => ⟨"AddAssign", 41, "+=", 0, [.assignment]⟩
  | .subtractAssign => ⟨"SubtractAssign", 42, "-=", 0, [.assignment]⟩
  | .multiplyAssign => ⟨"MultiplyAssign", 43, "*=", 0, [.assignment]⟩
  | .divideAssign => ⟨"DivideAssign", 44, "/=", 0, [.assignment]⟩
  | .moduloAssign => ⟨"ModuloAssign", 45, "%=", 0, [.assignment]⟩
  | .exponentiateAssign => ⟨"ExponentiateAssign", 46, "**=", 0, [.assignment]⟩
  | .shiftLeftAssign => ⟨"ShiftLeftAssign", 47, "<<=", 0, [.assignment]⟩
  | .shiftRightAssign => ⟨"ShiftRightAssign", 48, ">>=", 0, [.assignment]⟩
  | .logicalShiftRightAssign => ⟨"LogicalShiftRightAssign", 49, ">>>=", 0, [.assignment]⟩
  | .bitwiseAndAssign => ⟨"BitwiseAndAssign", 50, "&=", 0, [.assignment]⟩
  | .bitwiseOrAssign => ⟨"BitwiseOrAssign", 51, "|=", 0, [.assignment]⟩
  | .bitwiseXorAssign => ⟨"BitwiseXorAssign", 52, "^=", 0, [.assignment]⟩
  | .logicalAndAssign => ⟨"LogicalAndAssign", 53, "&&=", 0, [.assignment]⟩
  | .logicalOrAssign => ⟨"LogicalOrAssign", 54, "||=", 0, [.assignment]⟩
  | .coalesceAssign => ⟨"CoalesceAssign", 55, "??=", 0, [.assignment]⟩
  | .increment => ⟨"Increment", 60, "++", 0, [.update]⟩
  | .decrement => ⟨"Decrement", 61, "--", 0, [.update]⟩
  | .negate => ⟨"Negate", 62, "!", 0, [.unary]⟩
  | .complement => ⟨"Complement", 63, "~", 0, [.unary]⟩
  | .coalesce => ⟨"Coalesce", 70, "??", 1, [.binary, .coalesce]⟩
  | .logicalOr => ⟨"LogicalOr", 71, "||", 2, [.binary, .logical]⟩
  | .logicalAnd => ⟨"LogicalAnd", 72, "&&", 3, [.binary, .logical]⟩
  | .bitwiseOr => ⟨"BitwiseOr", 73, "|", 4, [.binary]⟩
  | .bitwiseXor => ⟨"BitwiseXor", 74, "^", 5, [.binary]⟩
  | .bitwiseAnd => ⟨"BitwiseAnd", 75, "&", 6, [.binary]⟩
  | .looseEqual => ⟨"LooseEqual", 76, "==", 7, [.binary]⟩
  | .looseNotEqual => ⟨"LooseNotEqual", 77, "!=", 7, [.binary]⟩
  | .strictEqual => ⟨"StrictEqual", 78, "===", 7, [.binary]⟩
  | .strictNotEqual => ⟨"StrictNotEqual", 79, "!==", 7, [.binary]⟩
  | .lessThan => ⟨"LessThan", 80, "<", 8, [.binary]⟩
  | .greaterThan => ⟨"GreaterThan", 81, ">", 8, [.binary]⟩
  | .lessThanOrEqual => ⟨"LessThanOrEqual", 82, "<=", 8, [.binary]⟩
  | .greaterThanOrEqual => ⟨"GreaterThanOrEqual", 83, ">=", 8, [.binary]⟩
  | .shiftLeft => ⟨"ShiftLeft", 84, "<<", 9, [.binary]⟩
  | .shiftRight => ⟨"ShiftRight", 85, ">>", 9, [.binary]⟩
  | .logicalShiftRight => ⟨"LogicalShiftRight", 86, ">>>", 9, [.binary]⟩
  | .add => ⟨"Add", 87, "+", 10, [.binary, .unary]⟩
  | .subtract => ⟨"Subtract", 88, "-", 10, [.binary, .unary]⟩
  | .multiply => ⟨"Multiply", 89, "*", 11, [.binary]⟩
  | .divide => ⟨"Divide", 90, "/", 11, [.binary]⟩
  | .modulo => ⟨"Modulo", 91, "%", 11, [.binary]⟩
  | .exponentiate => ⟨"Exponentiate", 92, "**", 12, [.binary, .rightAssociative]⟩
  | .breakKeyword => ⟨"BreakKeyword", 100, "break", 0, [.reserved, .word]⟩
  | .caseKeyword => ⟨"CaseKeyword", 101, "case", 0, [.reserved, .word]⟩
  | .catchKeyword => ⟨"CatchKeyword", 102, "catch", 0, [.reserved, .word]⟩
  | .classKeyword => ⟨"ClassKeyword", 103, "class", 0, [.reserved, .word]⟩
  | .constKeyword => ⟨"ConstKeyword", 104, "const", 0, [.reserved, .word]⟩
  | .continueKeyword => ⟨"ContinueKeyword", 105, "continue", 0, [.reserved, .word]⟩
  | .debuggerKeyword => ⟨"DebuggerKeyword", 106, "debugger", 0, [.reserved, .word]⟩
  | .defaultKeyword => ⟨"DefaultKeyword", 107, "default", 0, [.reserved, .word]⟩
  | .deleteKeyword => ⟨"DeleteKeyword", 108, "delete", 0, [.reserved, .word, .unary]⟩
  | .doKeyword => ⟨"DoKeyword", 109, "do", 0, [.reserved, .word]⟩
  | .elseKeyword => ⟨"ElseKeyword", 110, "else", 0, [.reserved, .word]⟩
  | .enumKeyword => ⟨"EnumKeyword", 111, "enum", 0, [.reserved, .word]⟩
  | .exportKeyword => ⟨"ExportKeyword", 112, "export", 0, [.reserved, .word]⟩
  | .extendsKeyword => ⟨"ExtendsKeyword", 113, "extends", 0, [.reserved, .word]⟩
  | .falseKeyword => ⟨"FalseKeyword", 114, "false", 0, [.reserved, .word, .literal]⟩
  | .finallyKeyword => ⟨"FinallyKeyword", 115, "finally", 0, [.reserved, .word]⟩
  | .forKeyword => ⟨"ForKeyword", 116, "for", 0, [.reserved, .word]⟩
  | .functionKeyword => ⟨"FunctionKeyword", 117, "function", 0, [.reserved, .word]⟩
  | .ifKeyword => ⟨"IfKeyword", 118, "if", 0, [.reserved, .word]⟩
  | .importKeyword => ⟨"ImportKeyword", 119, "import", 0, [.reserved, .word]⟩
  | .inKeyword => ⟨"InKeyword", 120, "in", 8, [.reserved, .word, .binary]⟩
  | .instanceOfKeyword => ⟨"InstanceOfKeyword", 121, "instanceof", 8, [.reserved, .word, .binary]⟩
  | .newKeyword => ⟨"NewKeyword", 122, "new", 0, [.reserved, .word]⟩
  | .nullKeyword => ⟨"NullKeyword", 123, "null", 0, [.reserved, .word, .literal]⟩
  | .returnKeyword => ⟨"ReturnKeyword", 124, "return", 0, [.reserved, .word]⟩
  | .superKeyword => ⟨"SuperKeyword", 125, "super", 0, [.reserved, .word]⟩
  | .switchKeyword => ⟨"SwitchKeyword", 126, "switch", 0, [.reserved, .word]⟩
  | .thisKeyword => ⟨"ThisKeyword", 127, "this", 0, [.reserved, .word]⟩
  | .throwKeyword => ⟨"ThrowKeyword", 128, "throw", 0, [.reserved, .word]⟩
  | .trueKeyword => ⟨"TrueKeyword", 129, "true", 0, [.reserved, .word, .literal]⟩
  | .tryKeyword => ⟨"TryKeyword", 130, "try", 0, [.reserved, .word]⟩
  | .typeofKeyword => ⟨"TypeofKeyword", 131, "typeof", 0, [.reserved, .word, .unary]⟩
  | .varKeyword => ⟨"VarKeyword", 132, "var", 0, [.reserved, .word]⟩
  | .voidKeyword => ⟨"VoidKeyword", 133, "void", 0, [.reserved, .word, .unary]⟩
  | .whileKeyword => ⟨"WhileKeyword", 134, "while", 0, [.reserved, .word]⟩
  | .withKeyword => ⟨"WithKeyword", 135, "with", 0, [.reserved, .word]⟩
  | .implementsKeyword => ⟨"ImplementsKeyword", 140, "implements", 0,
    [.strictReserved, .identifier, .word]⟩
  | .interfaceKeyword => ⟨"InterfaceKeyword", 141, "interface", 0,
    [.strictReserved, .identifier, .word]⟩
  | .letKeyword => ⟨"LetKeyword", 142, "let", 0, [.strictReserved, .identifier, .word]⟩
  | .packageKeyword => ⟨"PackageKeyword", 143, "package", 0, [.strictReserved, .identifier, .word]⟩
  | .privateKeyword => ⟨"PrivateKeyword", 144, "private", 0, [.strictReserved, .identifier, .word]⟩
  | .protectedKeyword => ⟨"ProtectedKeyword", 145, "protected", 0,
    [.strictReserved, .identifier, .word]⟩
  | .publicKeyword => ⟨"PublicKeyword", 146, "public", 0, [.strictReserved, .identifier, .word]⟩
  | .staticKeyword => ⟨"StaticKeyword", 147, "static", 0, [.strictReserved, .identifier, .word]⟩
  | .yieldKeyword => ⟨"YieldKeyword", 148, "yield", 0, [.strictReserved, .identifier, .word]⟩
  | .asKeyword => ⟨"AsKeyword", 150, "as", 0, [.contextual, .identifier, .word]⟩
  | .asyncKeyword => ⟨"AsyncKeyword", 151, "async", 0, [.contextual, .identifier, .word]⟩
  | .awaitKeyword => ⟨"AwaitKeyword", 152, "await", 0, [.contextual, .identifier, .word]⟩
  | .fromKeyword => ⟨"FromKeyword", 153, "from", 0, [.contextual, .identifier, .word]⟩
  | .getKeyword => ⟨"GetKeyword", 154, "get", 0, [.contextual, .identifier, .word]⟩
  | .ofKeyword => ⟨"OfKeyword", 155, "of", 0, [.contextual, .identifier, .word]⟩
  | .setKeyword => ⟨"SetKeyword", 156, "set", 0, [.contextual, .identifier, .word]⟩
  | .targetKeyword => ⟨"TargetKeyword", 157, "target", 0, [.contextual, .identifier, .word]⟩
  | .metaKeyword => ⟨"MetaKeyword", 158, "meta", 0, [.contextual, .identifier, .word]⟩

def name (t : Token) : String := t.entry.name

/-- The text of a punctuator or keyword, or a description of the class. -/
def text (t : Token) : String := t.entry.text

/-- Strength as a binary operator, zero for all other tokens. -/
def strength (t : Token) : Nat := t.entry.strength

def has (t : Token) (trait : Trait) : Bool := t.entry.traits.contains trait

/-- Number, strength and classes in one word. -/
def bits (t : Token) : Nat :=
  t.entry.index + t.strength * Nat.pow 2 8 +
    t.entry.traits.foldr (fun trait sum => Nat.pow 2 trait.bit + sum) 0

def isBinary (t : Token) : Bool := t.has .binary

def isAssignment (t : Token) : Bool := t.has .assignment

def isUpdate (t : Token) : Bool := t.has .update

def isUnary (t : Token) : Bool := t.has .unary

def isIdentifier (t : Token) : Bool := t.has .identifier

def isReserved (t : Token) : Bool := t.has .reserved

def isStrictReserved (t : Token) : Bool := t.has .strictReserved

def isContextual (t : Token) : Bool := t.has .contextual

def isWord (t : Token) : Bool := t.has .word

def isPatternStart (t : Token) : Bool := t.has .patternStart

def isLogical (t : Token) : Bool := t.has .logical

def isCoalesce (t : Token) : Bool := t.has .coalesce

def isLiteral (t : Token) : Bool := t.has .literal

def isTemplate (t : Token) : Bool := t.has .template

def isMemberOrCall (t : Token) : Bool := t.has .memberOrCall

def isRightAssociative (t : Token) : Bool := t.has .rightAssociative

/-- The words that are not plain names. -/
def keywords : List Token := [
  .breakKeyword, .caseKeyword, .catchKeyword, .classKeyword, .constKeyword, .continueKeyword,
  .debuggerKeyword, .defaultKeyword, .deleteKeyword, .doKeyword, .elseKeyword, .enumKeyword,
  .exportKeyword, .extendsKeyword, .falseKeyword, .finallyKeyword, .forKeyword, .functionKeyword,
  .ifKeyword, .importKeyword, .inKeyword, .instanceOfKeyword, .newKeyword, .nullKeyword,
  .returnKeyword, .superKeyword, .switchKeyword, .thisKeyword, .throwKeyword, .trueKeyword,
  .tryKeyword, .typeofKeyword, .varKeyword, .voidKeyword, .whileKeyword, .withKeyword,
  .implementsKeyword, .interfaceKeyword, .letKeyword, .packageKeyword, .privateKeyword,
  .protectedKeyword, .publicKeyword, .staticKeyword, .yieldKeyword, .asKeyword, .asyncKeyword,
  .awaitKeyword, .fromKeyword, .getKeyword, .ofKeyword, .setKeyword, .targetKeyword, .metaKeyword]

/-- The keyword with a given text. -/
def ofKeyword? (text : String) : Option Token := keywords.find? fun t => t.text == text

/-- The name of the group in which an observer files a token. -/
def category (t : Token) : String :=
  match t with
  | .endOfSource => "EOF"
  | .identifier => "Identifier"
  | .privateName => "PrivateName"
  | .stringLiteral => "StringLiteral"
  | .numericLiteral => "NumericLiteral"
  | .bigIntLiteral => "BigIntLiteral"
  | .regularExpression => "RegularExpression"
  | .noSubstitutionTemplate | .templateHead | .templateMiddle | .templateTail => "Template"
  | .jsxText => "JSXText"
  | .trueKeyword | .falseKeyword => "BooleanLiteral"
  | .nullKeyword => "NullLiteral"
  | t => if t.isReserved then "Keyword" else if t.isWord then "Identifier" else "Punctuator"

end Token

end EcmaSyntax
