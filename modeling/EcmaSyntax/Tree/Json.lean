import EcmaSyntax.Json.Writer
import EcmaSyntax.Options
import EcmaSyntax.Text.LineMap
import EcmaSyntax.Tree.Basic

/-!
The syntax tree as JSON. A node is an object with its type and its parts;
places are written as the format asks.
-/

namespace EcmaSyntax.Tree

open EcmaSyntax.Text

structure NodeFormat where
  /-- Write offsets. -/
  ranges : Bool
  /-- Write lines and columns. -/
  lines : Option LineMap

namespace NodeFormat

def plain : NodeFormat := ⟨false, none⟩

/-- The format that options ask for, for nodes of a text. -/
def ofOptions (options : Options) (text : List Char) : NodeFormat :=
  ⟨options.ranges, if options.loc then some (LineMap.ofText text) else none⟩

def position (p : Position) : Json :=
  Json.ofFields [("line", Json.ofNat p.line), ("column", Json.ofNat p.column)]

/-- The fields that tell the place of a node. -/
def place (f : NodeFormat) (span : Span) : List (String × Json) :=
  let start := Json.ofNat span.start
  let stop := Json.ofNat span.stop
  (if f.ranges then [("start", start), ("end", stop), ("range", .array [start, stop])] else []) ++
    match f.lines with
    | none => []
    | some lines =>
      [("loc", Json.ofFields [("start", position (lines.position span.start)),
        ("end", position (lines.position span.stop))])]

def node (f : NodeFormat) (type : String) (span : Span) (fields : List (String × Json)) : Json :=
  Json.ofFields (("type", .string type) :: (f.place span ++ fields))

end NodeFormat

variable (f : NodeFormat)

def Identifier.toJson (id : Identifier) : Json :=
  f.node "Identifier" id.span [("name", .string id.name)]

def identifierOrNull : Option Identifier → Json
  | none => .null
  | some id => id.toJson f

def PrivateIdentifier.toJson (id : PrivateIdentifier) : Json :=
  f.node "PrivateIdentifier" id.span [("name", .string id.name)]

/-- The value of a literal; those that JSON lacks are null. -/
def LiteralValue.toJson : LiteralValue → Json
  | .string value => .string value
  | .number value => Json.ofBinary64 value
  | .boolean value => .bool value
  | .null | .regex _ _ | .bigint _ => .null

/-- The fields that only some literals have. -/
def LiteralValue.extraFields : LiteralValue → List (String × Json)
  | .regex pattern flags =>
    [("regex", Json.ofFields [("pattern", .string pattern), ("flags", .string flags)])]
  | .bigint digits => [("bigint", .string digits)]
  | _ => []

def Literal.toJson (literal : Literal) : Json :=
  f.node "Literal" literal.span (("value", literal.value.toJson) ::
    ((literal.raw.map fun raw => ("raw", Json.string raw)).toList ++ literal.value.extraFields))

def TemplateElement.toJson (element : TemplateElement) : Json :=
  f.node "TemplateElement" element.span [
    ("value", Json.ofFields [("raw", .string element.raw),
      ("cooked", Json.ofOption (element.cooked.map Json.string))]),
    ("tail", .bool element.tail)]

def templateFields (quasis : List TemplateElement) (expressions : List Json) :
    List (String × Json) :=
  [("quasis", .array (quasis.map fun quasi => quasi.toJson f)), ("expressions", .array expressions)]

def PropertyKind.text : PropertyKind → String
  | .init => "init"
  | .get => "get"
  | .set => "set"

def MethodKind.text : MethodKind → String
  | .constructor => "constructor"
  | .method => "method"
  | .get => "get"
  | .set => "set"

def ModuleName.toJson : ModuleName → Json
  | .identifier id => id.toJson f
  | .literal lit => lit.toJson f

def ImportAttribute.toJson (a : ImportAttribute) : Json :=
  f.node "ImportAttribute" a.span [("key", a.key.toJson f), ("value", a.value.toJson f)]

def attributesField (attributes : List ImportAttribute) : String × Json :=
  ("attributes", .array (attributes.map fun a => a.toJson f))

def ImportSpecifier.toJson : ImportSpecifier → Json
  | .named span imported binding =>
    f.node "ImportSpecifier" span [("imported", imported.toJson f), ("local", binding.toJson f)]
  | .default span binding => f.node "ImportDefaultSpecifier" span [("local", binding.toJson f)]
  | .all span binding => f.node "ImportNamespaceSpecifier" span [("local", binding.toJson f)]

def ImportDeclaration.toJson (d : ImportDeclaration) : Json :=
  f.node "ImportDeclaration" d.span [
    ("specifiers", .array (d.specifiers.map fun s => s.toJson f)),
    ("source", d.source.toJson f), attributesField f d.attributes]

def ExportSpecifier.toJson (s : ExportSpecifier) : Json :=
  f.node "ExportSpecifier" s.span
    [("local", s.binding.toJson f), ("exported", s.exported.toJson f)]

def exportNamed (span : Span) (declaration : Json) (specifiers : List ExportSpecifier)
    (source : Option Literal) (attributes : List ImportAttribute) : Json :=
  f.node "ExportNamedDeclaration" span [
    ("declaration", declaration),
    ("specifiers", .array (specifiers.map fun s => s.toJson f)),
    ("source", Json.ofOption (source.map fun lit => lit.toJson f)), attributesField f attributes]

def ExportAll.toJson (d : ExportAll) : Json :=
  f.node "ExportAllDeclaration" d.span [
    ("exported", Json.ofOption (d.exported.map fun name => name.toJson f)),
    ("source", d.source.toJson f), attributesField f d.attributes]

def MarkupIdentifier.toJson (id : MarkupIdentifier) : Json :=
  f.node "JSXIdentifier" id.span [("name", .string id.name)]

def NamespacedName.toJson (name : NamespacedName) : Json :=
  f.node "JSXNamespacedName" name.span
    [("namespace", name.space.toJson f), ("name", name.name.toJson f)]

def MarkupPath.toJson : MarkupPath → Json
  | .identifier id => id.toJson f
  | .member span object property =>
    f.node "JSXMemberExpression" span
      [("object", object.toJson), ("property", property.toJson f)]

def MarkupName.toJson : MarkupName → Json
  | .path steps => steps.toJson f
  | .namespaced name => name.toJson f

def MarkupAttributeName.toJson : MarkupAttributeName → Json
  | .identifier id => id.toJson f
  | .namespaced name => name.toJson f

def closingToJson : Option MarkupClosing → Json
  | none => .null
  | some closing => f.node "JSXClosingElement" closing.span [("name", closing.name.toJson f)]

def member (span : Span) (object property : Json) (computed optional : Bool) : Json :=
  f.node "MemberExpression" span [("object", object), ("property", property),
    ("computed", .bool computed), ("optional", .bool optional)]

def propertyNode (span : Span) (key value : Json) (kind : PropertyKind)
    (method shorthand computed : Bool) : Json :=
  f.node "Property" span [("key", key), ("value", value), ("kind", .string kind.text),
    ("method", .bool method), ("shorthand", .bool shorthand), ("computed", .bool computed)]

def blockNode (span : Span) (body : List Json) : Json :=
  f.node "BlockStatement" span [("body", .array body)]

def arrowNode (span : Span) (isAsync isExpression : Bool) (params : List Json) (body : Json) :
    Json :=
  f.node "ArrowFunctionExpression" span [("id", .null), ("expression", .bool isExpression),
    ("generator", .bool false), ("async", .bool isAsync), ("params", .array params),
    ("body", body)]

/-- Decorators are written only where there are some. -/
def decoratorsField (decorators : List Json) : List (String × Json) :=
  if decorators.isEmpty then [] else [("decorators", .array decorators)]

def tryNode (span blockSpan : Span) (block : List Json) (handler finalizer : Json) : Json :=
  f.node "TryStatement" span [("block", blockNode f blockSpan block), ("handler", handler),
    ("finalizer", finalizer)]

def variablesNode (span : Span) (kind : VariableKind) (declarations : List Json) : Json :=
  f.node "VariableDeclaration" span
    [("declarations", .array declarations), ("kind", .string kind.text)]

def containerNode (span : Span) (expression : Json) : Json :=
  f.node "JSXExpressionContainer" span [("expression", expression)]

mutual

def Expression.toJson : Expression → Json
  | .identifier id => id.toJson f
  | .privateIdentifier id => id.toJson f
  | .literal lit => lit.toJson f
  | .thisKeyword span => f.node "ThisExpression" span []
  | .superKeyword span => f.node "Super" span []
  | .array span elements =>
    f.node "ArrayExpression" span [("elements", .array (elementsToJson elements))]
  | .object span members =>
    f.node "ObjectExpression" span [("properties", .array (membersToJson members))]
  | .function value => value.toJson false
  | .arrow span isAsync params body =>
    arrowNode f span isAsync true (patternsToJson params) body.toJson
  | .blockArrow span isAsync params bodySpan body =>
    arrowNode f span isAsync false (patternsToJson params)
      (blockNode f bodySpan (statementsToJson body))
  | .classExpression value => value.toJson false
  | .template span quasis expressions =>
    f.node "TemplateLiteral" span (templateFields f quasis (expressionsToJson expressions))
  | .taggedTemplate span tag quasiSpan quasis expressions =>
    f.node "TaggedTemplateExpression" span [("tag", tag.toJson),
      ("quasi", f.node "TemplateLiteral" quasiSpan
        (templateFields f quasis (expressionsToJson expressions)))]
  | .member span object property computed optional =>
    member f span object.toJson property.toJson computed optional
  | .call span callee arguments optional =>
    f.node "CallExpression" span [("callee", callee.toJson),
      ("arguments", .array (elementsToJson arguments)), ("optional", .bool optional)]
  | .newCall span callee arguments =>
    f.node "NewExpression" span [("callee", callee.toJson),
      ("arguments", .array (elementsToJson arguments))]
  | .chain span e => f.node "ChainExpression" span [("expression", e.toJson)]
  | .update span operator isBefore argument =>
    f.node "UpdateExpression" span [("operator", .string operator.text),
      ("prefix", .bool isBefore), ("argument", argument.toJson)]
  | .unary span operator argument =>
    f.node "UnaryExpression" span [("operator", .string operator.text), ("prefix", .bool true),
      ("argument", argument.toJson)]
  | .binary span left operator right =>
    f.node "BinaryExpression" span [("left", left.toJson), ("operator", .string operator.text),
      ("right", right.toJson)]
  | .logical span left operator right =>
    f.node "LogicalExpression" span [("left", left.toJson), ("operator", .string operator.text),
      ("right", right.toJson)]
  | .conditional span test consequent alternate =>
    f.node "ConditionalExpression" span [("test", test.toJson),
      ("consequent", consequent.toJson), ("alternate", alternate.toJson)]
  | .assignment span operator left right =>
    f.node "AssignmentExpression" span [("operator", .string operator.text),
      ("left", left.toJson), ("right", right.toJson)]
  | .sequence span expressions =>
    f.node "SequenceExpression" span [("expressions", .array (expressionsToJson expressions))]
  | .yield span delegate argument =>
    f.node "YieldExpression" span [("delegate", .bool delegate),
      ("argument", expressionOrNull argument)]
  | .await span argument => f.node "AwaitExpression" span [("argument", argument.toJson)]
  | .importCall span source options =>
    f.node "ImportExpression" span [("source", source.toJson),
      ("options", expressionOrNull options)]
  | .metaProperty span object property =>
    f.node "MetaProperty" span [("meta", object.toJson f), ("property", property.toJson f)]
  | .parenthesized span e => f.node "ParenthesizedExpression" span [("expression", e.toJson)]
  | .markup value => value.toJson

def expressionOrNull : Option Expression → Json
  | none => .null
  | some e => e.toJson

def expressionsToJson : List Expression → List Json
  | [] => []
  | e :: rest => e.toJson :: expressionsToJson rest

def elementsToJson : List Element → List Json
  | [] => []
  | .item e :: rest => e.toJson :: elementsToJson rest
  | .spread span e :: rest =>
    f.node "SpreadElement" span [("argument", e.toJson)] :: elementsToJson rest
  | .hole :: rest => .null :: elementsToJson rest

def membersToJson : List ObjectMember → List Json
  | [] => []
  | .property span key value kind method shorthand computed :: rest =>
    propertyNode f span key.toJson value.toJson kind method shorthand computed ::
      membersToJson rest
  | .spread span e :: rest =>
    f.node "SpreadElement" span [("argument", e.toJson)] :: membersToJson rest

def Function.toJson (isDeclaration : Bool) : Function → Json
  | ⟨span, id, generator, isAsync, params, bodySpan, body⟩ =>
    f.node (if isDeclaration then "FunctionDeclaration" else "FunctionExpression") span [
      ("id", identifierOrNull f id), ("expression", .bool false), ("generator", .bool generator),
      ("async", .bool isAsync), ("params", .array (patternsToJson params)),
      ("body", blockNode f bodySpan (statementsToJson body))]

def Pattern.toJson : Pattern → Json
  | .identifier id => id.toJson f
  | .object span properties =>
    f.node "ObjectPattern" span [("properties", .array (patternPropertiesToJson properties))]
  | .array span elements =>
    f.node "ArrayPattern" span [("elements", .array (patternsToJson elements))]
  | .rest span argument => f.node "RestElement" span [("argument", argument.toJson)]
  | .withDefault span left right =>
    f.node "AssignmentPattern" span [("left", left.toJson), ("right", right.toJson)]
  | .member span object property computed optional =>
    member f span object.toJson property.toJson computed optional
  | .hole => .null

def patternsToJson : List Pattern → List Json
  | [] => []
  | pattern :: rest => pattern.toJson :: patternsToJson rest

def patternPropertiesToJson : List PatternProperty → List Json
  | [] => []
  | .property span key value shorthand computed :: rest =>
    propertyNode f span key.toJson value.toJson .init false shorthand computed ::
      patternPropertiesToJson rest
  | .rest span argument :: rest =>
    f.node "RestElement" span [("argument", argument.toJson)] :: patternPropertiesToJson rest

def ClassDefinition.toJson (isDeclaration : Bool) : ClassDefinition → Json
  | ⟨span, id, superClass, bodySpan, elements, decorators⟩ =>
    f.node (if isDeclaration then "ClassDeclaration" else "ClassExpression") span
      ([("id", identifierOrNull f id), ("superClass", expressionOrNull superClass),
        ("body", f.node "ClassBody" bodySpan [("body", .array (classElementsToJson elements))])] ++
        decoratorsField (decoratorsToJson decorators))

def classElementsToJson : List ClassElement → List Json
  | [] => []
  | .method span isStatic computed key kind value decorators :: rest =>
    f.node "MethodDefinition" span
      ([("static", .bool isStatic), ("computed", .bool computed), ("key", key.toJson),
        ("kind", .string kind.text), ("value", value.toJson false)] ++
        decoratorsField (decoratorsToJson decorators)) :: classElementsToJson rest
  | .field span isStatic computed key value decorators :: rest =>
    f.node "PropertyDefinition" span
      ([("static", .bool isStatic), ("computed", .bool computed), ("key", key.toJson),
        ("value", expressionOrNull value)] ++
        decoratorsField (decoratorsToJson decorators)) :: classElementsToJson rest
  | .staticBlock span body :: rest =>
    f.node "StaticBlock" span [("body", .array (statementsToJson body))] ::
      classElementsToJson rest

def decoratorsToJson : List Decorator → List Json
  | [] => []
  | ⟨span, e⟩ :: rest =>
    f.node "Decorator" span [("expression", e.toJson)] :: decoratorsToJson rest

def Statement.toJson : Statement → Json
  | .expression span e directive =>
    f.node "ExpressionStatement" span (("expression", e.toJson) ::
      (directive.map fun text => ("directive", Json.string text)).toList)
  | .block span body => blockNode f span (statementsToJson body)
  | .empty span => f.node "EmptyStatement" span []
  | .debugger span => f.node "DebuggerStatement" span []
  | .withStatement span object body =>
    f.node "WithStatement" span [("object", object.toJson), ("body", body.toJson)]
  | .returnStatement span argument =>
    f.node "ReturnStatement" span [("argument", expressionOrNull argument)]
  | .labeled span label body =>
    f.node "LabeledStatement" span [("label", label.toJson f), ("body", body.toJson)]
  | .breakStatement span label =>
    f.node "BreakStatement" span [("label", identifierOrNull f label)]
  | .continueStatement span label =>
    f.node "ContinueStatement" span [("label", identifierOrNull f label)]
  | .ifStatement span test consequent =>
    f.node "IfStatement" span [("test", test.toJson), ("consequent", consequent.toJson),
      ("alternate", .null)]
  | .ifElse span test consequent alternate =>
    f.node "IfStatement" span [("test", test.toJson), ("consequent", consequent.toJson),
      ("alternate", alternate.toJson)]
  | .switchStatement span discriminant cases =>
    f.node "SwitchStatement" span [("discriminant", discriminant.toJson),
      ("cases", .array (casesToJson cases))]
  | .throwStatement span argument =>
    f.node "ThrowStatement" span [("argument", argument.toJson)]
  | .tryCatch span blockSpan block handler =>
    tryNode f span blockSpan (statementsToJson block) handler.toJson .null
  | .tryFinally span blockSpan block finalizerSpan finalizer =>
    tryNode f span blockSpan (statementsToJson block) .null
      (blockNode f finalizerSpan (statementsToJson finalizer))
  | .tryCatchFinally span blockSpan block handler finalizerSpan finalizer =>
    tryNode f span blockSpan (statementsToJson block) handler.toJson
      (blockNode f finalizerSpan (statementsToJson finalizer))
  | .whileStatement span test body =>
    f.node "WhileStatement" span [("test", test.toJson), ("body", body.toJson)]
  | .doWhileStatement span body test =>
    f.node "DoWhileStatement" span [("body", body.toJson), ("test", test.toJson)]
  | .forStatement span init test update body =>
    f.node "ForStatement" span [("init", init.toJson), ("test", expressionOrNull test),
      ("update", expressionOrNull update), ("body", body.toJson)]
  | .forInStatement span left right body =>
    f.node "ForInStatement" span [("left", left.toJson), ("right", right.toJson),
      ("body", body.toJson)]
  | .forOfStatement span isAwait left right body =>
    f.node "ForOfStatement" span [("await", .bool isAwait), ("left", left.toJson),
      ("right", right.toJson), ("body", body.toJson)]
  | .variables span kind declarations =>
    variablesNode f span kind (declaratorsToJson declarations)
  | .function value => value.toJson true
  | .classDeclaration value => value.toJson true
  | .importDeclaration declaration => declaration.toJson f
  | .exportDeclaration span declaration => exportNamed f span declaration.toJson [] none []
  | .exportNames names =>
    exportNamed f names.span .null names.specifiers names.source names.attributes
  | .exportAll declaration => declaration.toJson f
  | .exportDefaultFunction span value =>
    f.node "ExportDefaultDeclaration" span [("declaration", value.toJson true)]
  | .exportDefaultClass span value =>
    f.node "ExportDefaultDeclaration" span [("declaration", value.toJson true)]
  | .exportDefault span e =>
    f.node "ExportDefaultDeclaration" span [("declaration", e.toJson)]

def statementsToJson : List Statement → List Json
  | [] => []
  | statement :: rest => statement.toJson :: statementsToJson rest

def casesToJson : List SwitchCase → List Json
  | [] => []
  | ⟨span, test, consequent⟩ :: rest =>
    f.node "SwitchCase" span [("test", expressionOrNull test),
      ("consequent", .array (statementsToJson consequent))] :: casesToJson rest

def CatchClause.toJson : CatchClause → Json
  | .plain span bodySpan body =>
    f.node "CatchClause" span [("param", .null),
      ("body", blockNode f bodySpan (statementsToJson body))]
  | .binding span param bodySpan body =>
    f.node "CatchClause" span [("param", param.toJson),
      ("body", blockNode f bodySpan (statementsToJson body))]

def ForHead.toJson : ForHead → Json
  | .nothing => .null
  | .variables span kind declarations =>
    variablesNode f span kind (declaratorsToJson declarations)
  | .expression e => e.toJson
  | .pattern p => p.toJson

def declaratorsToJson : List VariableDeclarator → List Json
  | [] => []
  | ⟨span, id, init⟩ :: rest =>
    f.node "VariableDeclarator" span [("id", id.toJson), ("init", expressionOrNull init)] ::
      declaratorsToJson rest

def Markup.toJson : Markup → Json
  | .element span openingSpan name attributes selfClosing children closing =>
    f.node "JSXElement" span [
      ("openingElement", f.node "JSXOpeningElement" openingSpan [("name", name.toJson f),
        ("attributes", .array (markupAttributesToJson attributes)),
        ("selfClosing", .bool selfClosing)]),
      ("closingElement", closingToJson f closing),
      ("children", .array (childrenToJson children))]
  | .fragment span openingSpan children closingSpan =>
    f.node "JSXFragment" span [
      ("openingFragment", f.node "JSXOpeningFragment" openingSpan []),
      ("closingFragment", f.node "JSXClosingFragment" closingSpan []),
      ("children", .array (childrenToJson children))]

def markupAttributesToJson : List MarkupAttribute → List Json
  | [] => []
  | .attribute span name value :: rest =>
    f.node "JSXAttribute" span [("name", name.toJson f), ("value", value.toJson)] ::
      markupAttributesToJson rest
  | .spread span e :: rest =>
    f.node "JSXSpreadAttribute" span [("argument", e.toJson)] :: markupAttributesToJson rest

def MarkupAttributeValue.toJson : MarkupAttributeValue → Json
  | .absent => .null
  | .string lit => lit.toJson f
  | .container span e => containerNode f span e.toJson
  | .markup value => value.toJson

def childrenToJson : List MarkupChild → List Json
  | [] => []
  | .text span value raw :: rest =>
    f.node "JSXText" span [("value", .string value), ("raw", .string raw)] :: childrenToJson rest
  | .markup value :: rest => value.toJson :: childrenToJson rest
  | .container span e :: rest => containerNode f span e.toJson :: childrenToJson rest
  | .emptyContainer span inner :: rest =>
    containerNode f span (f.node "JSXEmptyExpression" inner []) :: childrenToJson rest
  | .spread span e :: rest =>
    f.node "JSXSpreadChild" span [("expression", e.toJson)] :: childrenToJson rest

end

def Program.toJson (program : Program) : Json :=
  f.node "Program" program.span [
    ("sourceType", .string (if program.isModule then "module" else "script")),
    ("body", .array (statementsToJson f program.body))]

end EcmaSyntax.Tree
