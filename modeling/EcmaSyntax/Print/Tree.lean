import EcmaSyntax.Print.Literal
import EcmaSyntax.Print.Place

/-!
The text of a syntax tree, in a style that says how a program is laid out. Only the parentheses
that the tree needs are written.
-/

namespace EcmaSyntax.Print

open EcmaSyntax.Tree

structure Style where
  /-- Written once for each level. -/
  indent : String
  newline : String
  /-- The last line is ended too. -/
  trailing : Bool
deriving DecidableEq, Repr

namespace Style

def standard : Style := ⟨"    ", "\n", true⟩

def indentation (style : Style) (level : Nat) : String :=
  String.join (List.replicate level style.indent)

/-- The start of a new line at a level. -/
def newLine (style : Style) (level : Nat) : String := style.newline ++ style.indentation level

/-- Lines between braces, each of which starts a new line; nothing is spread
over no lines. -/
def braces (style : Style) (level : Nat) (lines : String) (isEmpty : Bool) : String :=
  if isEmpty then "\x7b\x7d" else "\x7b" ++ lines ++ style.newLine level ++ "\x7d"

end Style

def commaSeparated (items : List String) : String := String.intercalate ", " items

/-- Items between braces on one line. -/
def inlineBraces (items : List String) : String :=
  if items.isEmpty then "\x7b\x7d" else "\x7b " ++ commaSeparated items ++ " \x7d"

def importAttributesText (attributes : List ImportAttribute) : String :=
  if attributes.isEmpty then ""
  else " with " ++ inlineBraces (attributes.map fun a =>
    moduleNameText a.key ++ ": " ++ literalText a.value)

def importNameText (imported : ModuleName) (binding : Identifier) : String :=
  match imported with
  | .identifier id =>
    if id.name == binding.name then binding.name else id.name ++ " as " ++ binding.name
  | .literal lit => literalText lit ++ " as " ++ binding.name

/-- The default and the whole of a module, which stand before single names. -/
def wholeImport? : ImportSpecifier → Option String
  | .default _ binding => some binding.name
  | .all _ binding => some ("* as " ++ binding.name)
  | .named _ _ _ => none

def namedImport? : ImportSpecifier → Option String
  | .named _ imported binding => some (importNameText imported binding)
  | _ => none

/-- What an import takes, up to its source. -/
def importClauseText (specifiers : List ImportSpecifier) : String :=
  let named := specifiers.filterMap namedImport?
  let parts := specifiers.filterMap wholeImport? ++
    if named.isEmpty then [] else [inlineBraces named]
  if parts.isEmpty then "" else commaSeparated parts ++ " from "

def importText (d : ImportDeclaration) : String :=
  "import " ++ importClauseText d.specifiers ++ literalText d.source ++
    importAttributesText d.attributes ++ ";"

def exportSpecifierText (s : ExportSpecifier) : String :=
  moduleNameText s.binding ++
    if sameModuleName s.binding s.exported then "" else " as " ++ moduleNameText s.exported

def exportNamesText (d : ExportNames) : String :=
  "export " ++ inlineBraces (d.specifiers.map exportSpecifierText) ++
    (match d.source with
    | none => ""
    | some source => " from " ++ literalText source ++ importAttributesText d.attributes) ++ ";"

def exportAllText (d : ExportAll) : String :=
  "export *" ++
    (match d.exported with
    | none => ""
    | some name => " as " ++ moduleNameText name) ++
    " from " ++ literalText d.source ++ importAttributesText d.attributes ++ ";"

section

variable (style : Style)

def nameAfterSpace : Option Identifier → String
  | none => ""
  | some id => " " ++ id.name

/-- A function up to its parameters. -/
def functionHead (f : Function) : String :=
  (if f.isAsync then "async " else "") ++ (if f.generator then "function*" else "function") ++
    nameAfterSpace f.id

/-- The marks before the name of a method. -/
def methodMarks (f : Function) : String :=
  (if f.isAsync then "async " else "") ++ if f.generator then "*" else ""

def propertyMarks (kind : PropertyKind) (f : Function) : String :=
  match kind with
  | .get => "get "
  | .set => "set "
  | .init => methodMarks f

/-- The function of a property that is a method or accessor. -/
def methodOf? (kind : PropertyKind) (method : Bool) : Expression → Option Function
  | .function f => if method || kind != .init then some f else none
  | _ => none

def methodKindMarks (kind : MethodKind) (f : Function) : String :=
  match kind with
  | .get => "get "
  | .set => "set "
  | .constructor | .method => methodMarks f

def keyText (computed : Bool) (key : String) : String :=
  if computed then "[" ++ key ++ "]" else key

def memberText (object property : String) (computed optional : Bool) : String :=
  object ++
    if computed then (if optional then "?.[" else "[") ++ property ++ "]"
    else (if optional then "?." else ".") ++ property

def inParens (items : List String) : String := "(" ++ commaSeparated items ++ ")"

/-- Elements in brackets. A hole at the end needs its own comma. -/
def bracketed (items : List String) (endsInHole : Bool) : String :=
  "[" ++ commaSeparated items ++ (if endsInHole then ",]" else "]")

def endsInHole (elements : List Element) : Bool :=
  match elements.getLast? with
  | some .hole => true
  | _ => false

def patternEndsInHole (elements : List Pattern) : Bool :=
  match elements.getLast? with
  | some .hole => true
  | _ => false

/-- A sign before its operand, which must not grow together with it. -/
def signedText (operator : UnaryOperator) (argument : String) : String :=
  if operator.isKeyword then operator.text ++ " " ++ argument
  else if (operator == .minus || operator == .plus) && argument.startsWith operator.text then
    operator.text ++ " " ++ argument
  else operator.text ++ argument

/-- The places of the operands of a binary operator of some level. -/
def operandPrecedences (operator : BinaryOperator) (level : Precedence) :
    Precedence × Precedence :=
  if operator == .exponentiate then (.update, level) else (level, level.tighter)

def Place.operand (p : Place) (operator : LogicalOperator) (e : Expression) : Place :=
  if mixes operator e then { p with forced := true } else p

def attributeNameText : MarkupAttributeName → String
  | .identifier id => id.name
  | .namespaced name => name.space.name ++ ":" ++ name.name.name

def closingName (name : MarkupName) : Option MarkupClosing → MarkupName
  | none => name
  | some closing => closing.name

def isBlock : Statement → Bool
  | .block _ _ => true
  | _ => false

def isStringLiteral : Expression → Bool
  | .literal lit => lit.string?.isSome
  | _ => false

/-- The place of an expression statement. A string by itself would become a
directive. -/
def statementPlace (level : Nat) (e : Expression) : Place :=
  { Place.guarded level .comma .statement with forced := isStringLiteral e }

/-- A name that the head of a loop would misread. -/
def isMisreadHead (isOf : Bool) (name : String) : Bool :=
  name == "let" || (isOf && name == "async")

mutual

/-- The text of an expression at a place. -/
def expressionText (p : Place) (e : Expression) : String :=
  let isEnclosed := p.encloses e
  let q := p.within isEnclosed
  parens isEnclosed (match e with
    | .identifier id => id.name
    | .privateIdentifier id => "#" ++ id.name
    | .literal lit => literalText lit
    | .thisKeyword _ => "this"
    | .superKeyword _ => "super"
    | .array _ elements => bracketed (elementTexts q elements) (endsInHole elements)
    | .object _ members => inlineBraces (memberTexts q members)
    | .function value => functionHead value ++ functionTail q value
    | .arrow _ isAsync params body =>
      (if isAsync then "async " else "") ++ inParens (patternTexts q params) ++ " => " ++
        expressionText (q.deeper .assignment .arrowBody) body
    | .blockArrow _ isAsync params _ body =>
      (if isAsync then "async " else "") ++ inParens (patternTexts q params) ++ " => " ++
        style.braces q.level (statementLines (q.level + 1) body) body.isEmpty
    | .classExpression value => classText q value
    | .template _ quasis expressions => "\x60" ++ templateText q quasis expressions ++ "\x60"
    | .taggedTemplate _ tag _ quasis expressions =>
      expressionText (q.callee tag) tag ++ "\x60" ++ templateText q quasis expressions ++ "\x60"
    | .member _ object property computed optional =>
      memberText (expressionText (q.object computed object) object)
        (expressionText (q.inner (if computed then .comma else .primary)) property)
        computed optional
    | .call _ callee arguments optional =>
      expressionText (q.callee callee) callee ++ (if optional then "?." else "") ++
        inParens (elementTexts q arguments)
    | .newCall _ callee arguments =>
      "new " ++ expressionText (q.constructor callee) callee ++
        inParens (elementTexts q arguments)
    | .chain _ inner => expressionText (q.first .comma) inner
    | .update _ operator isBefore argument =>
      if isBefore then operator.text ++ expressionText (q.inner .leftHandSide) argument
      else expressionText (q.first .leftHandSide) argument ++ operator.text
    | .unary _ operator argument =>
      signedText operator (expressionText (q.inner .unary) argument)
    | .binary _ left operator right =>
      let least := operandPrecedences operator (precedence e)
      expressionText (q.first least.1) left ++ " " ++ operator.text ++ " " ++
        expressionText (q.inner least.2) right
    | .logical _ left operator right =>
      expressionText ((q.first (precedence e)).operand operator left) left ++ " " ++
        operator.text ++ " " ++
        expressionText ((q.inner (precedence e).tighter).operand operator right) right
    | .conditional _ test consequent alternate =>
      expressionText (q.first .coalesce) test ++ " ? " ++
        expressionText (q.inner .assignment) consequent ++ " : " ++
        expressionText (q.inner .assignment) alternate
    | .assignment _ operator left right =>
      patternText (q.first .leftHandSide) left ++ " " ++ operator.text ++ " " ++
        expressionText (q.inner .assignment) right
    | .sequence _ expressions => commaSeparated (sequenceTexts q expressions)
    | .yield _ delegate argument =>
      (if delegate then "yield*" else "yield") ++ optionalText " " (q.inner .assignment) argument
    | .await _ argument => "await " ++ expressionText (q.inner .unary) argument
    | .importCall _ source options =>
      "import(" ++ expressionText (q.inner .assignment) source ++
        optionalText ", " (q.inner .assignment) options ++ ")"
    | .metaProperty _ object property => object.name ++ "." ++ property.name
    | .parenthesized _ inner => expressionText q.enclosed inner
    | .markup value => markupText q value)

/-- Nothing, or an expression after some text. -/
def optionalText (before : String) (p : Place) : Option Expression → String
  | none => ""
  | some e => before ++ expressionText p e

/-- The expressions of a sequence, of which only the first stands at its start. -/
def sequenceTexts (p : Place) : List Expression → List String
  | [] => []
  | e :: rest =>
    expressionText (p.first .assignment) e :: sequenceTexts { p with guard := .none } rest

/-- The chunks of a template with the expressions between them. -/
def templateText (p : Place) (quasis : List TemplateElement) : List Expression → String
  | [] => String.join (quasis.map TemplateElement.raw)
  | e :: rest =>
    match quasis with
    | [] => ""
    | quasi :: quasis =>
      quasi.raw ++ "$\x7b" ++ expressionText (Place.free p.level .comma) e ++ "\x7d" ++
        templateText p quasis rest

def elementTexts (p : Place) : List Element → List String
  | [] => []
  | .item e :: rest => expressionText (p.inner .assignment) e :: elementTexts p rest
  | .spread _ e :: rest =>
    ("..." ++ expressionText (p.inner .assignment) e) :: elementTexts p rest
  | .hole :: rest => "" :: elementTexts p rest

def memberTexts (p : Place) : List ObjectMember → List String
  | [] => []
  | .property _ key value kind method shorthand computed :: rest =>
    (match methodOf? kind method value with
    | some f =>
      propertyMarks kind f ++ keyText computed (expressionText (p.inner .assignment) key) ++
        methodTail (p.inner .assignment) value
    | none =>
      (if shorthand then ""
        else keyText computed (expressionText (p.inner .assignment) key) ++ ": ") ++
          expressionText (p.inner .assignment) value) :: memberTexts p rest
  | .spread _ e :: rest =>
    ("..." ++ expressionText (p.inner .assignment) e) :: memberTexts p rest

/-- Parameters and body of a function expression. -/
def methodTail (p : Place) : Expression → String
  | .function f => functionTail p f
  | _ => ""

/-- Parameters and body of a function. -/
def functionTail (p : Place) : Function → String
  | ⟨_, _, _, _, params, _, body⟩ =>
    inParens (patternTexts p params) ++ " " ++
      style.braces p.level (statementLines (p.level + 1) body) body.isEmpty

def patternText (p : Place) : Pattern → String
  | .identifier id => id.name
  | .object _ properties => inlineBraces (patternPropertyTexts p properties)
  | .array _ elements => bracketed (patternTexts p elements) (patternEndsInHole elements)
  | .rest _ argument => "..." ++ patternText (p.inner .leftHandSide) argument
  | .withDefault _ left right =>
    patternText p left ++ " = " ++ expressionText (p.inner .assignment) right
  | .member _ object property computed optional =>
    memberText (expressionText (p.object computed object) object)
      (expressionText (p.inner (if computed then .comma else .primary)) property)
      computed optional
  | .hole => ""

def patternTexts (p : Place) : List Pattern → List String
  | [] => []
  | pattern :: rest => patternText (p.inner .leftHandSide) pattern :: patternTexts p rest

def patternPropertyTexts (p : Place) : List PatternProperty → List String
  | [] => []
  | .property _ key value shorthand computed :: rest =>
    ((if shorthand then ""
      else keyText computed (expressionText (p.inner .assignment) key) ++ ": ") ++
        patternText (p.inner .leftHandSide) value) :: patternPropertyTexts p rest
  | .rest _ argument :: rest =>
    ("..." ++ patternText (p.inner .leftHandSide) argument) :: patternPropertyTexts p rest

def classText (p : Place) : ClassDefinition → String
  | ⟨_, id, superClass, _, elements, decorators⟩ =>
    decoratorsText p decorators ++ "class" ++ nameAfterSpace id ++
      optionalText " extends " (p.inner .leftHandSide) superClass ++ " " ++
      style.braces p.level (classElementLines { p.inner .comma with level := p.level + 1 } elements)
        elements.isEmpty

def decoratorsText (p : Place) : List Decorator → String
  | [] => ""
  | ⟨_, e⟩ :: rest => "@" ++ expressionText (p.decorator e) e ++ " " ++ decoratorsText p rest

/-- The elements of a class, each on a new line. -/
def classElementLines (p : Place) : List ClassElement → String
  | [] => ""
  | .method _ isStatic computed key kind value decorators :: rest =>
    style.newLine p.level ++ decoratorsText p decorators ++ (if isStatic then "static " else "") ++
      methodKindMarks kind value ++ keyText computed (expressionText (p.inner .assignment) key) ++
      functionTail p value ++ classElementLines p rest
  | .field _ isStatic computed key value decorators :: rest =>
    style.newLine p.level ++ decoratorsText p decorators ++ (if isStatic then "static " else "") ++
      keyText computed (expressionText (p.inner .assignment) key) ++
      optionalText " = " (p.inner .assignment) value ++ ";" ++ classElementLines p rest
  | .staticBlock _ body :: rest =>
    style.newLine p.level ++ "static " ++
      style.braces p.level (statementLines (p.level + 1) body) body.isEmpty ++
      classElementLines p rest

def markupText (p : Place) : Markup → String
  | .element _ _ name attributes selfClosing children closing =>
    "<" ++ name.text ++ attributesText (p.inner .assignment) attributes ++
      if selfClosing then " />"
      else ">" ++ childrenText (p.inner .assignment) children ++ "</" ++
        (closingName name closing).text ++ ">"
  | .fragment _ _ children _ => "<>" ++ childrenText (p.inner .assignment) children ++ "</>"

def attributesText (p : Place) : List MarkupAttribute → String
  | [] => ""
  | .attribute _ name value :: rest =>
    " " ++ attributeNameText name ++ attributeValueText p value ++ attributesText p rest
  | .spread _ e :: rest =>
    " \x7b..." ++ expressionText p e ++ "\x7d" ++ attributesText p rest

def attributeValueText (p : Place) : MarkupAttributeValue → String
  | .absent => ""
  | .string lit => "=" ++ attributeLiteral lit
  | .container _ e => "=\x7b" ++ expressionText p e ++ "\x7d"
  | .markup value => "=" ++ markupText p value

def childrenText (p : Place) : List MarkupChild → String
  | [] => ""
  | .text _ _ raw :: rest => raw ++ childrenText p rest
  | .markup value :: rest => markupText p value ++ childrenText p rest
  | .container _ e :: rest => "\x7b" ++ expressionText p e ++ "\x7d" ++ childrenText p rest
  | .emptyContainer _ _ :: rest => "\x7b\x7d" ++ childrenText p rest
  | .spread _ e :: rest => "\x7b..." ++ expressionText p e ++ "\x7d" ++ childrenText p rest

/-- The text of a statement that starts on a line of a level. -/
def statementText (level : Nat) : Statement → String
  | .expression _ e directive =>
    match directive with
    | some text => directiveText text
    | none => expressionText (statementPlace level e) e ++ ";"
  | .block _ body => style.braces level (statementLines (level + 1) body) body.isEmpty
  | .empty _ => ";"
  | .debugger _ => "debugger;"
  | .withStatement _ object body =>
    "with (" ++ expressionText (.free level .comma) object ++ ") " ++ statementText level body
  | .returnStatement _ argument =>
    "return" ++ optionalText " " (.free level .comma) argument ++ ";"
  | .labeled _ label body => label.name ++ ": " ++ statementText level body
  | .breakStatement _ label => "break" ++ nameAfterSpace label ++ ";"
  | .continueStatement _ label => "continue" ++ nameAfterSpace label ++ ";"
  | .ifStatement _ test consequent =>
    "if (" ++ expressionText (.free level .comma) test ++ ") " ++ statementText level consequent
  | .ifElse _ test consequent alternate =>
    "if (" ++ expressionText (.free level .comma) test ++ ") " ++
      statementText level consequent ++ (if isBlock consequent then " " else style.newLine level) ++
      "else " ++ statementText level alternate
  | .switchStatement _ discriminant cases =>
    "switch (" ++ expressionText (.free level .comma) discriminant ++ ") " ++
      style.braces level (caseLines (level + 1) cases) cases.isEmpty
  | .throwStatement _ argument =>
    "throw " ++ expressionText (.free level .comma) argument ++ ";"
  | .tryCatch _ _ block handler =>
    "try " ++ style.braces level (statementLines (level + 1) block) block.isEmpty ++
      catchText level handler
  | .tryFinally _ _ block _ finalizer =>
    "try " ++ style.braces level (statementLines (level + 1) block) block.isEmpty ++
      " finally " ++
      style.braces level (statementLines (level + 1) finalizer) finalizer.isEmpty
  | .tryCatchFinally _ _ block handler _ finalizer =>
    "try " ++ style.braces level (statementLines (level + 1) block) block.isEmpty ++
      catchText level handler ++ " finally " ++
      style.braces level (statementLines (level + 1) finalizer) finalizer.isEmpty
  | .whileStatement _ test body =>
    "while (" ++ expressionText (.free level .comma) test ++ ") " ++ statementText level body
  | .doWhileStatement _ body test =>
    "do " ++ statementText level body ++ " while (" ++
      expressionText (.free level .comma) test ++ ");"
  | .forStatement _ init test update body =>
    "for (" ++ headText level false init ++ ";" ++ optionalText " " (.free level .comma) test ++
      ";" ++ optionalText " " (.free level .comma) update ++ ") " ++ statementText level body
  | .forInStatement _ left right body =>
    "for (" ++ headText level false left ++ " in " ++
      expressionText (.free level .comma) right ++ ") " ++ statementText level body
  | .forOfStatement _ isAwait left right body =>
    (if isAwait then "for await (" else "for (") ++ headText level true left ++ " of " ++
      expressionText (.free level .assignment) right ++ ") " ++ statementText level body
  | .variables _ kind declarations =>
    kind.text ++ " " ++
      commaSeparated (declaratorTexts (.free level .assignment) declarations) ++ ";"
  | .function value => functionHead value ++ functionTail (.free level .comma) value
  | .classDeclaration value => classText (.free level .comma) value
  | .importDeclaration declaration => importText declaration
  | .exportDeclaration _ declaration => "export " ++ statementText level declaration
  | .exportNames declaration => exportNamesText declaration
  | .exportAll declaration => exportAllText declaration
  | .exportDefaultFunction _ value =>
    "export default " ++ functionHead value ++ functionTail (.free level .comma) value
  | .exportDefaultClass _ value => "export default " ++ classText (.free level .comma) value
  | .exportDefault _ e =>
    "export default " ++ expressionText (.guarded level .assignment .exportDefault) e ++ ";"

/-- Statements, each on a new line. -/
def statementLines (level : Nat) : List Statement → String
  | [] => ""
  | statement :: rest =>
    style.newLine level ++ statementText level statement ++ statementLines level rest

/-- The cases of a switch, each on a new line. -/
def caseLines (level : Nat) : List SwitchCase → String
  | [] => ""
  | ⟨_, test, consequent⟩ :: rest =>
    style.newLine level ++ caseText level test ++ statementLines (level + 1) consequent ++
      caseLines level rest

def caseText (level : Nat) : Option Expression → String
  | none => "default:"
  | some test => "case " ++ expressionText (.free level .comma) test ++ ":"

def catchText (level : Nat) : CatchClause → String
  | .plain _ _ body =>
    " catch " ++ style.braces level (statementLines (level + 1) body) body.isEmpty
  | .binding _ param _ body =>
    " catch (" ++ patternText (.free level .comma) param ++ ") " ++
      style.braces level (statementLines (level + 1) body) body.isEmpty

/-- The first part of the head of a loop. -/
def headText (level : Nat) (isOf : Bool) : ForHead → String
  | .nothing => ""
  | .variables _ kind declarations =>
    kind.text ++ " " ++ commaSeparated
      (declaratorTexts { Place.free level .assignment with noIn := true } declarations)
  | .expression e => expressionText { Place.guarded level .comma .forHead with noIn := true } e
  | .pattern pattern =>
    match pattern with
    | .identifier id => parens (isMisreadHead isOf id.name) id.name
    | _ => patternText (.guarded level .comma .forHead) pattern

def declaratorTexts (p : Place) : List VariableDeclarator → List String
  | [] => []
  | ⟨_, id, init⟩ :: rest =>
    (patternText p id ++ optionalText " = " p init) :: declaratorTexts p rest

end

end

end EcmaSyntax.Print
