import EcmaSyntax.Token.Operator
import EcmaSyntax.Tree.Leaf

/-!
The syntax tree, and the names that a pattern in it binds. Every node has its span. Whether a
function or class is a declaration or an expression is told by where it stands. An assignment holds
the pattern that a literal before its sign was turned into.
-/

namespace EcmaSyntax.Tree

open EcmaSyntax.Text

mutual

inductive Expression where
  | identifier (id : Identifier)
  | privateIdentifier (id : PrivateIdentifier)
  | literal (lit : Literal)
  | thisKeyword (span : Span)
  | superKeyword (span : Span)
  | array (span : Span) (elements : List Element)
  | object (span : Span) (members : List ObjectMember)
  | function (value : Function)
  | arrow (span : Span) (isAsync : Bool) (params : List Pattern) (body : Expression)
  | blockArrow (span : Span) (isAsync : Bool) (params : List Pattern) (bodySpan : Span)
      (body : List Statement)
  | classExpression (value : ClassDefinition)
  | template (span : Span) (quasis : List TemplateElement) (expressions : List Expression)
  | taggedTemplate (span : Span) (tag : Expression) (quasiSpan : Span)
      (quasis : List TemplateElement) (expressions : List Expression)
  | member (span : Span) (object property : Expression) (computed optional : Bool)
  | call (span : Span) (callee : Expression) (arguments : List Element) (optional : Bool)
  | newCall (span : Span) (callee : Expression) (arguments : List Element)
  /-- The whole of an optional chain. -/
  | chain (span : Span) (expression : Expression)
  | update (span : Span) (operator : UpdateOperator) (isBefore : Bool) (argument : Expression)
  | unary (span : Span) (operator : UnaryOperator) (argument : Expression)
  | binary (span : Span) (left : Expression) (operator : BinaryOperator) (right : Expression)
  | logical (span : Span) (left : Expression) (operator : LogicalOperator) (right : Expression)
  | conditional (span : Span) (test consequent alternate : Expression)
  | assignment (span : Span) (operator : AssignmentOperator) (left : Pattern) (right : Expression)
  | sequence (span : Span) (expressions : List Expression)
  | yield (span : Span) (delegate : Bool) (argument : Option Expression)
  | await (span : Span) (argument : Expression)
  | importCall (span : Span) (source : Expression) (options : Option Expression)
  | metaProperty (span : Span) (object property : Identifier)
  | parenthesized (span : Span) (expression : Expression)
  | markup (value : Markup)

/-- A place of an array literal or an argument list; arguments have no holes. -/
inductive Element where
  | item (expression : Expression)
  | spread (span : Span) (argument : Expression)
  | hole

inductive ObjectMember where
  /-- A shorthand with an initializer, which only a pattern may have, has an
  assignment as its value. -/
  | property (span : Span) (key value : Expression) (kind : PropertyKind)
      (method shorthand computed : Bool)
  | spread (span : Span) (argument : Expression)

structure Function where
  span : Span
  id : Option Identifier
  generator : Bool
  isAsync : Bool
  params : List Pattern
  bodySpan : Span
  body : List Statement

inductive Pattern where
  | identifier (id : Identifier)
  | object (span : Span) (properties : List PatternProperty)
  | array (span : Span) (elements : List Pattern)
  | rest (span : Span) (argument : Pattern)
  | withDefault (span : Span) (left : Pattern) (right : Expression)
  /-- Only a target of assignment, never a binding. -/
  | member (span : Span) (object property : Expression) (computed optional : Bool)
  /-- An empty place of an array pattern. -/
  | hole

inductive PatternProperty where
  | property (span : Span) (key : Expression) (value : Pattern) (shorthand computed : Bool)
  | rest (span : Span) (argument : Pattern)

structure ClassDefinition where
  span : Span
  id : Option Identifier
  superClass : Option Expression
  bodySpan : Span
  elements : List ClassElement
  decorators : List Decorator

inductive ClassElement where
  | method (span : Span) (isStatic computed : Bool) (key : Expression) (kind : MethodKind)
      (value : Function) (decorators : List Decorator)
  | field (span : Span) (isStatic computed : Bool) (key : Expression) (value : Option Expression)
      (decorators : List Decorator)
  | staticBlock (span : Span) (body : List Statement)

structure Decorator where
  span : Span
  expression : Expression

inductive Statement where
  /-- A directive has the text between its quotation marks. -/
  | expression (span : Span) (expression : Expression) (directive : Option String)
  | block (span : Span) (body : List Statement)
  | empty (span : Span)
  | debugger (span : Span)
  | withStatement (span : Span) (object : Expression) (body : Statement)
  | returnStatement (span : Span) (argument : Option Expression)
  | labeled (span : Span) (label : Identifier) (body : Statement)
  | breakStatement (span : Span) (label : Option Identifier)
  | continueStatement (span : Span) (label : Option Identifier)
  | ifStatement (span : Span) (test : Expression) (consequent : Statement)
  | ifElse (span : Span) (test : Expression) (consequent alternate : Statement)
  | switchStatement (span : Span) (discriminant : Expression) (cases : List SwitchCase)
  | throwStatement (span : Span) (argument : Expression)
  | tryCatch (span blockSpan : Span) (block : List Statement) (handler : CatchClause)
  | tryFinally (span blockSpan : Span) (block : List Statement) (finalizerSpan : Span)
      (finalizer : List Statement)
  | tryCatchFinally (span blockSpan : Span) (block : List Statement) (handler : CatchClause)
      (finalizerSpan : Span) (finalizer : List Statement)
  | whileStatement (span : Span) (test : Expression) (body : Statement)
  | doWhileStatement (span : Span) (body : Statement) (test : Expression)
  | forStatement (span : Span) (init : ForHead) (test update : Option Expression)
      (body : Statement)
  | forInStatement (span : Span) (left : ForHead) (right : Expression) (body : Statement)
  | forOfStatement (span : Span) (isAwait : Bool) (left : ForHead) (right : Expression)
      (body : Statement)
  | variables (span : Span) (kind : VariableKind) (declarations : List VariableDeclarator)
  | function (value : Function)
  | classDeclaration (value : ClassDefinition)
  | importDeclaration (declaration : ImportDeclaration)
  | exportDeclaration (span : Span) (declaration : Statement)
  | exportNames (declaration : ExportNames)
  | exportAll (declaration : ExportAll)
  | exportDefaultFunction (span : Span) (value : Function)
  | exportDefaultClass (span : Span) (value : ClassDefinition)
  | exportDefault (span : Span) (expression : Expression)

/-- A case of a switch, which has no test when it is the default. -/
structure SwitchCase where
  span : Span
  test : Option Expression
  consequent : List Statement

inductive CatchClause where
  | plain (span bodySpan : Span) (body : List Statement)
  | binding (span : Span) (param : Pattern) (bodySpan : Span) (body : List Statement)

/-- What a loop starts with: a pattern only before `in` or `of`, an expression
or nothing only before a semicolon. -/
inductive ForHead where
  | nothing
  | variables (span : Span) (kind : VariableKind) (declarations : List VariableDeclarator)
  | expression (expression : Expression)
  | pattern (pattern : Pattern)

structure VariableDeclarator where
  span : Span
  id : Pattern
  init : Option Expression

inductive Markup where
  | element (span openingSpan : Span) (name : MarkupName) (attributes : List MarkupAttribute)
      (selfClosing : Bool) (children : List MarkupChild) (closing : Option MarkupClosing)
  | fragment (span openingSpan : Span) (children : List MarkupChild) (closingSpan : Span)

inductive MarkupAttribute where
  | attribute (span : Span) (name : MarkupAttributeName) (value : MarkupAttributeValue)
  | spread (span : Span) (argument : Expression)

inductive MarkupAttributeValue where
  | absent
  | string (lit : Literal)
  | container (span : Span) (expression : Expression)
  | markup (value : Markup)

inductive MarkupChild where
  | text (span : Span) (value raw : String)
  | markup (value : Markup)
  | container (span : Span) (expression : Expression)
  /-- Braces around nothing but trivia. -/
  | emptyContainer (span inner : Span)
  | spread (span : Span) (expression : Expression)

end

structure Program where
  span : Span
  isModule : Bool
  body : List Statement

namespace Expression

def span : Expression → Span
  | .identifier id => id.span
  | .privateIdentifier id => id.span
  | .literal lit => lit.span
  | .thisKeyword span => span
  | .superKeyword span => span
  | .array span _ => span
  | .object span _ => span
  | .function f => f.span
  | .arrow span _ _ _ => span
  | .blockArrow span _ _ _ _ => span
  | .classExpression c => c.span
  | .template span _ _ => span
  | .taggedTemplate span _ _ _ _ => span
  | .member span _ _ _ _ => span
  | .call span _ _ _ => span
  | .newCall span _ _ => span
  | .chain span _ => span
  | .update span _ _ _ => span
  | .unary span _ _ => span
  | .binary span _ _ _ => span
  | .logical span _ _ _ => span
  | .conditional span _ _ _ => span
  | .assignment span _ _ _ => span
  | .sequence span _ => span
  | .yield span _ _ => span
  | .await span _ => span
  | .importCall span _ _ => span
  | .metaProperty span _ _ => span
  | .parenthesized span _ => span
  | .markup (.element span _ _ _ _ _ _) => span
  | .markup (.fragment span _ _ _) => span

def start (e : Expression) : Nat := e.span.start

/-- The expression inside parentheses that were kept. -/
def withoutParens : Expression → Expression
  | .parenthesized _ e => e.withoutParens
  | e => e

/-- The name of a property key that is a name or a string. -/
def staticKey? : Expression → Option String
  | .identifier id => some id.name
  | .literal lit => lit.string?
  | _ => none

end Expression

/-- The expression of a place that is no hole. -/
def Element.expression? : Element → Option Expression
  | .item e => some e
  | .spread _ e => some e
  | .hole => none

/-- A parameter that is just a name. -/
def Pattern.isSimple : Pattern → Bool
  | .identifier _ => true
  | _ => false

mutual

def Pattern.boundNames : Pattern → List Identifier
  | .identifier id => [id]
  | .object _ properties => boundNamesOfProperties properties
  | .array _ elements => boundNamesOfPatterns elements
  | .rest _ argument => argument.boundNames
  | .withDefault _ left _ => left.boundNames
  | .member _ _ _ _ _ => []
  | .hole => []

def boundNamesOfPatterns : List Pattern → List Identifier
  | [] => []
  | pattern :: rest => pattern.boundNames ++ boundNamesOfPatterns rest

def boundNamesOfProperties : List PatternProperty → List Identifier
  | [] => []
  | .property _ _ value _ _ :: rest => value.boundNames ++ boundNamesOfProperties rest
  | .rest _ argument :: rest => argument.boundNames ++ boundNamesOfProperties rest

end

/-- The names that a declaration introduces. -/
def Statement.declaredNames : Statement → List Identifier
  | .variables _ _ declarations => declarations.flatMap fun d => d.id.boundNames
  | .function f => f.id.toList
  | .classDeclaration c => c.id.toList
  | _ => []

end EcmaSyntax.Tree
