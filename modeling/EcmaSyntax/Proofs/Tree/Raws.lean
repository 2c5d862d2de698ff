import EcmaSyntax.Tree.Basic

/-!
Trees without the text of their literals, which is kept only when it is asked for.
Everything else stays as it is, the spans and the values of the literals included, so
nothing that is read off a tree depends on whether the text was kept.
-/

namespace EcmaSyntax.Tree

open EcmaSyntax.Text

def Literal.withoutRaw (lit : Literal) : Literal := { lit with raw := none }

def ModuleName.withoutRaw : ModuleName → ModuleName
  | .identifier id => .identifier id
  | .literal lit => .literal lit.withoutRaw

def ImportAttribute.withoutRaw (a : ImportAttribute) : ImportAttribute :=
  ⟨a.span, a.key.withoutRaw, a.value.withoutRaw⟩

def ImportSpecifier.withoutRaw : ImportSpecifier → ImportSpecifier
  | .named span imported binding => .named span imported.withoutRaw binding
  | .default span binding => .default span binding
  | .all span binding => .all span binding

def ImportDeclaration.withoutRaw (d : ImportDeclaration) : ImportDeclaration :=
  ⟨d.span, d.specifiers.map ImportSpecifier.withoutRaw, d.source.withoutRaw,
    d.attributes.map ImportAttribute.withoutRaw⟩

def ExportSpecifier.withoutRaw (s : ExportSpecifier) : ExportSpecifier :=
  ⟨s.span, s.binding.withoutRaw, s.exported.withoutRaw⟩

def ExportNames.withoutRaw (d : ExportNames) : ExportNames :=
  ⟨d.span, d.specifiers.map ExportSpecifier.withoutRaw, d.source.map Literal.withoutRaw,
    d.attributes.map ImportAttribute.withoutRaw⟩

def ExportAll.withoutRaw (d : ExportAll) : ExportAll :=
  ⟨d.span, d.exported.map ModuleName.withoutRaw, d.source.withoutRaw,
    d.attributes.map ImportAttribute.withoutRaw⟩

mutual

def Expression.withoutRaw : Expression → Expression
  | .identifier id => .identifier id
  | .privateIdentifier id => .privateIdentifier id
  | .literal lit => .literal lit.withoutRaw
  | .thisKeyword span => .thisKeyword span
  | .superKeyword span => .superKeyword span
  | .array span elements => .array span (elementsWithoutRaw elements)
  | .object span members => .object span (membersWithoutRaw members)
  | .function value => .function value.withoutRaw
  | .arrow span isAsync params body =>
    .arrow span isAsync (patternsWithoutRaw params) body.withoutRaw
  | .blockArrow span isAsync params bodySpan body =>
    .blockArrow span isAsync (patternsWithoutRaw params) bodySpan (statementsWithoutRaw body)
  | .classExpression value => .classExpression value.withoutRaw
  | .template span quasis expressions =>
    .template span quasis (expressionsWithoutRaw expressions)
  | .taggedTemplate span tag quasiSpan quasis expressions =>
    .taggedTemplate span tag.withoutRaw quasiSpan quasis (expressionsWithoutRaw expressions)
  | .member span object property computed optional =>
    .member span object.withoutRaw property.withoutRaw computed optional
  | .call span callee arguments optional =>
    .call span callee.withoutRaw (elementsWithoutRaw arguments) optional
  | .newCall span callee arguments =>
    .newCall span callee.withoutRaw (elementsWithoutRaw arguments)
  | .chain span inner => .chain span inner.withoutRaw
  | .update span operator isBefore argument => .update span operator isBefore argument.withoutRaw
  | .unary span operator argument => .unary span operator argument.withoutRaw
  | .binary span left operator right => .binary span left.withoutRaw operator right.withoutRaw
  | .logical span left operator right => .logical span left.withoutRaw operator right.withoutRaw
  | .conditional span test consequent alternate =>
    .conditional span test.withoutRaw consequent.withoutRaw alternate.withoutRaw
  | .assignment span operator left right =>
    .assignment span operator left.withoutRaw right.withoutRaw
  | .sequence span expressions => .sequence span (expressionsWithoutRaw expressions)
  | .yield span delegate argument => .yield span delegate (optionWithoutRaw argument)
  | .await span argument => .await span argument.withoutRaw
  | .importCall span source options =>
    .importCall span source.withoutRaw (optionWithoutRaw options)
  | .metaProperty span object property => .metaProperty span object property
  | .parenthesized span inner => .parenthesized span inner.withoutRaw
  | .markup value => .markup value.withoutRaw

def optionWithoutRaw : Option Expression → Option Expression
  | none => none
  | some e => some e.withoutRaw

def expressionsWithoutRaw : List Expression → List Expression
  | [] => []
  | e :: rest => e.withoutRaw :: expressionsWithoutRaw rest

def Element.withoutRaw : Element → Element
  | .item e => .item e.withoutRaw
  | .spread span e => .spread span e.withoutRaw
  | .hole => .hole

def elementsWithoutRaw : List Element → List Element
  | [] => []
  | x :: rest => x.withoutRaw :: elementsWithoutRaw rest

def ObjectMember.withoutRaw : ObjectMember → ObjectMember
  | .property span key value kind method shorthand computed =>
    .property span key.withoutRaw value.withoutRaw kind method shorthand computed
  | .spread span e => .spread span e.withoutRaw

def membersWithoutRaw : List ObjectMember → List ObjectMember
  | [] => []
  | m :: rest => m.withoutRaw :: membersWithoutRaw rest

def Function.withoutRaw : Function → Function
  | ⟨span, id, generator, isAsync, params, bodySpan, body⟩ =>
    ⟨span, id, generator, isAsync, patternsWithoutRaw params, bodySpan, statementsWithoutRaw body⟩

def Pattern.withoutRaw : Pattern → Pattern
  | .identifier id => .identifier id
  | .object span properties => .object span (patternPropertiesWithoutRaw properties)
  | .array span elements => .array span (patternsWithoutRaw elements)
  | .rest span argument => .rest span argument.withoutRaw
  | .withDefault span left right => .withDefault span left.withoutRaw right.withoutRaw
  | .member span object property computed optional =>
    .member span object.withoutRaw property.withoutRaw computed optional
  | .hole => .hole

def patternsWithoutRaw : List Pattern → List Pattern
  | [] => []
  | p :: rest => p.withoutRaw :: patternsWithoutRaw rest

def PatternProperty.withoutRaw : PatternProperty → PatternProperty
  | .property span key value shorthand computed =>
    .property span key.withoutRaw value.withoutRaw shorthand computed
  | .rest span argument => .rest span argument.withoutRaw

def patternPropertiesWithoutRaw : List PatternProperty → List PatternProperty
  | [] => []
  | p :: rest => p.withoutRaw :: patternPropertiesWithoutRaw rest

def ClassDefinition.withoutRaw : ClassDefinition → ClassDefinition
  | ⟨span, id, superClass, bodySpan, elements, decorators⟩ =>
    ⟨span, id, optionWithoutRaw superClass, bodySpan, classElementsWithoutRaw elements,
      decoratorsWithoutRaw decorators⟩

def ClassElement.withoutRaw : ClassElement → ClassElement
  | .method span isStatic computed key kind value decorators =>
    .method span isStatic computed key.withoutRaw kind value.withoutRaw
      (decoratorsWithoutRaw decorators)
  | .field span isStatic computed key value decorators =>
    .field span isStatic computed key.withoutRaw (optionWithoutRaw value)
      (decoratorsWithoutRaw decorators)
  | .staticBlock span body => .staticBlock span (statementsWithoutRaw body)

def classElementsWithoutRaw : List ClassElement → List ClassElement
  | [] => []
  | x :: rest => x.withoutRaw :: classElementsWithoutRaw rest

def Decorator.withoutRaw : Decorator → Decorator
  | ⟨span, e⟩ => ⟨span, e.withoutRaw⟩

def decoratorsWithoutRaw : List Decorator → List Decorator
  | [] => []
  | d :: rest => d.withoutRaw :: decoratorsWithoutRaw rest

def Statement.withoutRaw : Statement → Statement
  | .expression span e directive => .expression span e.withoutRaw directive
  | .block span body => .block span (statementsWithoutRaw body)
  | .empty span => .empty span
  | .debugger span => .debugger span
  | .withStatement span object body => .withStatement span object.withoutRaw body.withoutRaw
  | .returnStatement span argument => .returnStatement span (optionWithoutRaw argument)
  | .labeled span label body => .labeled span label body.withoutRaw
  | .breakStatement span label => .breakStatement span label
  | .continueStatement span label => .continueStatement span label
  | .ifStatement span test consequent => .ifStatement span test.withoutRaw consequent.withoutRaw
  | .ifElse span test consequent alternate =>
    .ifElse span test.withoutRaw consequent.withoutRaw alternate.withoutRaw
  | .switchStatement span discriminant cases =>
    .switchStatement span discriminant.withoutRaw (casesWithoutRaw cases)
  | .throwStatement span argument => .throwStatement span argument.withoutRaw
  | .tryCatch span blockSpan block handler =>
    .tryCatch span blockSpan (statementsWithoutRaw block) handler.withoutRaw
  | .tryFinally span blockSpan block finalizerSpan finalizer =>
    .tryFinally span blockSpan (statementsWithoutRaw block) finalizerSpan
      (statementsWithoutRaw finalizer)
  | .tryCatchFinally span blockSpan block handler finalizerSpan finalizer =>
    .tryCatchFinally span blockSpan (statementsWithoutRaw block) handler.withoutRaw finalizerSpan
      (statementsWithoutRaw finalizer)
  | .whileStatement span test body => .whileStatement span test.withoutRaw body.withoutRaw
  | .doWhileStatement span body test => .doWhileStatement span body.withoutRaw test.withoutRaw
  | .forStatement span init test update body =>
    .forStatement span init.withoutRaw (optionWithoutRaw test) (optionWithoutRaw update)
      body.withoutRaw
  | .forInStatement span left right body =>
    .forInStatement span left.withoutRaw right.withoutRaw body.withoutRaw
  | .forOfStatement span isAwait left right body =>
    .forOfStatement span isAwait left.withoutRaw right.withoutRaw body.withoutRaw
  | .variables span kind declarations =>
    .variables span kind (declaratorsWithoutRaw declarations)
  | .function value => .function value.withoutRaw
  | .classDeclaration value => .classDeclaration value.withoutRaw
  | .importDeclaration declaration => .importDeclaration declaration.withoutRaw
  | .exportDeclaration span declaration => .exportDeclaration span declaration.withoutRaw
  | .exportNames declaration => .exportNames declaration.withoutRaw
  | .exportAll declaration => .exportAll declaration.withoutRaw
  | .exportDefaultFunction span value => .exportDefaultFunction span value.withoutRaw
  | .exportDefaultClass span value => .exportDefaultClass span value.withoutRaw
  | .exportDefault span e => .exportDefault span e.withoutRaw

def statementsWithoutRaw : List Statement → List Statement
  | [] => []
  | s :: rest => s.withoutRaw :: statementsWithoutRaw rest

def SwitchCase.withoutRaw : SwitchCase → SwitchCase
  | ⟨span, test, consequent⟩ => ⟨span, optionWithoutRaw test, statementsWithoutRaw consequent⟩

def casesWithoutRaw : List SwitchCase → List SwitchCase
  | [] => []
  | c :: rest => c.withoutRaw :: casesWithoutRaw rest

def CatchClause.withoutRaw : CatchClause → CatchClause
  | .plain span bodySpan body => .plain span bodySpan (statementsWithoutRaw body)
  | .binding span param bodySpan body =>
    .binding span param.withoutRaw bodySpan (statementsWithoutRaw body)

def ForHead.withoutRaw : ForHead → ForHead
  | .nothing => .nothing
  | .variables span kind declarations =>
    .variables span kind (declaratorsWithoutRaw declarations)
  | .expression e => .expression e.withoutRaw
  | .pattern p => .pattern p.withoutRaw

def VariableDeclarator.withoutRaw : VariableDeclarator → VariableDeclarator
  | ⟨span, id, init⟩ => ⟨span, id.withoutRaw, optionWithoutRaw init⟩

def declaratorsWithoutRaw : List VariableDeclarator → List VariableDeclarator
  | [] => []
  | d :: rest => d.withoutRaw :: declaratorsWithoutRaw rest

def Markup.withoutRaw : Markup → Markup
  | .element span openingSpan name attributes selfClosing children closing =>
    .element span openingSpan name (attributesWithoutRaw attributes) selfClosing
      (childrenWithoutRaw children) closing
  | .fragment span openingSpan children closingSpan =>
    .fragment span openingSpan (childrenWithoutRaw children) closingSpan

def MarkupAttribute.withoutRaw : MarkupAttribute → MarkupAttribute
  | .attribute span name value => .attribute span name value.withoutRaw
  | .spread span e => .spread span e.withoutRaw

def attributesWithoutRaw : List MarkupAttribute → List MarkupAttribute
  | [] => []
  | a :: rest => a.withoutRaw :: attributesWithoutRaw rest

def MarkupAttributeValue.withoutRaw : MarkupAttributeValue → MarkupAttributeValue
  | .absent => .absent
  | .string lit => .string lit.withoutRaw
  | .container span e => .container span e.withoutRaw
  | .markup value => .markup value.withoutRaw

/-- The text of a child is no literal, and is always kept. -/
def MarkupChild.withoutRaw : MarkupChild → MarkupChild
  | .text span value raw => .text span value raw
  | .markup value => .markup value.withoutRaw
  | .container span e => .container span e.withoutRaw
  | .emptyContainer span inner => .emptyContainer span inner
  | .spread span e => .spread span e.withoutRaw

def childrenWithoutRaw : List MarkupChild → List MarkupChild
  | [] => []
  | c :: rest => c.withoutRaw :: childrenWithoutRaw rest

end

def Program.withoutRaw (p : Program) : Program :=
  ⟨p.span, p.isModule, statementsWithoutRaw p.body⟩

section Lists

@[simp] theorem optionWithoutRaw_eq_map (e : Option Expression) :
    optionWithoutRaw e = e.map Expression.withoutRaw := by
  cases e <;> rfl

/-- The parts of a list are changed one by one. -/
theorem eq_map_of_steps {α : Type} {f : α → α} {all : List α → List α} (hnil : all [] = [])
    (hcons : ∀ x rest, all (x :: rest) = f x :: all rest) (items : List α) :
    all items = items.map f := by
  induction items with
  | nil => exact hnil
  | cons x rest ih => rw [hcons, ih, List.map_cons]

@[simp] theorem expressionsWithoutRaw_eq_map (es : List Expression) :
    expressionsWithoutRaw es = es.map Expression.withoutRaw :=
  eq_map_of_steps rfl (fun _ _ => rfl) es

@[simp] theorem elementsWithoutRaw_eq_map (elements : List Element) :
    elementsWithoutRaw elements = elements.map Element.withoutRaw :=
  eq_map_of_steps rfl (fun _ _ => rfl) elements

@[simp] theorem membersWithoutRaw_eq_map (members : List ObjectMember) :
    membersWithoutRaw members = members.map ObjectMember.withoutRaw :=
  eq_map_of_steps rfl (fun _ _ => rfl) members

@[simp] theorem patternsWithoutRaw_eq_map (patterns : List Pattern) :
    patternsWithoutRaw patterns = patterns.map Pattern.withoutRaw :=
  eq_map_of_steps rfl (fun _ _ => rfl) patterns

@[simp] theorem patternPropertiesWithoutRaw_eq_map (properties : List PatternProperty) :
    patternPropertiesWithoutRaw properties = properties.map PatternProperty.withoutRaw :=
  eq_map_of_steps rfl (fun _ _ => rfl) properties

@[simp] theorem classElementsWithoutRaw_eq_map (elements : List ClassElement) :
    classElementsWithoutRaw elements = elements.map ClassElement.withoutRaw :=
  eq_map_of_steps rfl (fun _ _ => rfl) elements

@[simp] theorem decoratorsWithoutRaw_eq_map (decorators : List Decorator) :
    decoratorsWithoutRaw decorators = decorators.map Decorator.withoutRaw :=
  eq_map_of_steps rfl (fun _ _ => rfl) decorators

@[simp] theorem statementsWithoutRaw_eq_map (statements : List Statement) :
    statementsWithoutRaw statements = statements.map Statement.withoutRaw :=
  eq_map_of_steps rfl (fun _ _ => rfl) statements

@[simp] theorem casesWithoutRaw_eq_map (cases : List SwitchCase) :
    casesWithoutRaw cases = cases.map SwitchCase.withoutRaw :=
  eq_map_of_steps rfl (fun _ _ => rfl) cases

@[simp] theorem declaratorsWithoutRaw_eq_map (declarations : List VariableDeclarator) :
    declaratorsWithoutRaw declarations = declarations.map VariableDeclarator.withoutRaw :=
  eq_map_of_steps rfl (fun _ _ => rfl) declarations

@[simp] theorem attributesWithoutRaw_eq_map (attributes : List MarkupAttribute) :
    attributesWithoutRaw attributes = attributes.map MarkupAttribute.withoutRaw :=
  eq_map_of_steps rfl (fun _ _ => rfl) attributes

@[simp] theorem childrenWithoutRaw_eq_map (children : List MarkupChild) :
    childrenWithoutRaw children = children.map MarkupChild.withoutRaw :=
  eq_map_of_steps rfl (fun _ _ => rfl) children

end Lists

section Views

@[simp] theorem Literal.string?_withoutRaw (lit : Literal) :
    lit.withoutRaw.string? = lit.string? := rfl

@[simp] theorem Literal.span_withoutRaw (lit : Literal) : lit.withoutRaw.span = lit.span := rfl

@[simp] theorem ModuleName.text_withoutRaw (name : ModuleName) :
    name.withoutRaw.text = name.text := by
  cases name <;> rfl

@[simp] theorem ModuleName.span_withoutRaw (name : ModuleName) :
    name.withoutRaw.span = name.span := by
  cases name <;> rfl

namespace Expression

@[simp] theorem span_withoutRaw (e : Expression) : e.withoutRaw.span = e.span := by
  cases e with
  | function value => cases value; rfl
  | classExpression value => cases value; rfl
  | markup value => cases value <;> rfl
  | _ => rfl

@[simp] theorem start_withoutRaw (e : Expression) : e.withoutRaw.start = e.start :=
  congrArg Span.start e.span_withoutRaw

@[simp] theorem staticKey?_withoutRaw (e : Expression) :
    e.withoutRaw.staticKey? = e.staticKey? := by
  cases e <;> rfl

@[simp] theorem withoutParens_withoutRaw (e : Expression) :
    e.withoutRaw.withoutParens = e.withoutParens.withoutRaw := by
  induction e using withoutParens.induct with
  | case1 span e ih => exact ih
  | case2 e hne =>
    cases e with
    | parenthesized span inner => exact absurd rfl (hne span inner)
    | _ => rfl

end Expression

@[simp] theorem Element.expression?_withoutRaw (x : Element) :
    x.withoutRaw.expression? = x.expression?.map Expression.withoutRaw := by
  cases x <;> rfl

@[simp] theorem Pattern.isSimple_withoutRaw (p : Pattern) : p.withoutRaw.isSimple = p.isSimple := by
  cases p <;> rfl

mutual

@[simp] theorem Pattern.boundNames_withoutRaw (p : Pattern) :
    p.withoutRaw.boundNames = p.boundNames := by
  cases p with
  | identifier id => rfl
  | object span properties => exact boundNamesOfProperties_withoutRaw properties
  | array span elements => exact boundNamesOfPatterns_withoutRaw elements
  | rest span argument => exact argument.boundNames_withoutRaw
  | withDefault span left right => exact left.boundNames_withoutRaw
  | member => rfl
  | hole => rfl

theorem boundNamesOfPatterns_withoutRaw (patterns : List Pattern) :
    boundNamesOfPatterns (patternsWithoutRaw patterns) = boundNamesOfPatterns patterns := by
  cases patterns with
  | nil => rfl
  | cons p rest =>
    simp only [patternsWithoutRaw, boundNamesOfPatterns, p.boundNames_withoutRaw,
      boundNamesOfPatterns_withoutRaw rest]

theorem boundNamesOfProperties_withoutRaw (properties : List PatternProperty) :
    boundNamesOfProperties (patternPropertiesWithoutRaw properties) =
      boundNamesOfProperties properties := by
  match properties with
  | [] => rfl
  | .property _ _ value _ _ :: rest =>
    simp only [patternPropertiesWithoutRaw, PatternProperty.withoutRaw, boundNamesOfProperties,
      value.boundNames_withoutRaw, boundNamesOfProperties_withoutRaw rest]
  | .rest _ argument :: rest =>
    simp only [patternPropertiesWithoutRaw, PatternProperty.withoutRaw, boundNamesOfProperties,
      argument.boundNames_withoutRaw, boundNamesOfProperties_withoutRaw rest]

end

@[simp] theorem VariableDeclarator.id_withoutRaw (d : VariableDeclarator) :
    d.withoutRaw.id = d.id.withoutRaw := by
  cases d; rfl

@[simp] theorem VariableDeclarator.span_withoutRaw (d : VariableDeclarator) :
    d.withoutRaw.span = d.span := by
  cases d; rfl

@[simp] theorem VariableDeclarator.init_withoutRaw (d : VariableDeclarator) :
    d.withoutRaw.init = d.init.map Expression.withoutRaw := by
  cases d; exact optionWithoutRaw_eq_map _

@[simp] theorem Statement.declaredNames_withoutRaw (s : Statement) :
    s.withoutRaw.declaredNames = s.declaredNames := by
  cases s with
  | function value => cases value; rfl
  | classDeclaration value => cases value; rfl
  | _ => simp [Statement.withoutRaw, declaredNames, List.flatMap_map]

end Views

end EcmaSyntax.Tree
