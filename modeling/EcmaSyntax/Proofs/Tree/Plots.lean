import EcmaSyntax.Tree.Basic

/-!
The nodes of a tree as plots of the text. A plot is the span of a node with the plots of the nodes
directly in it, in the order in which they are written. Every node that the tree is written with
is there, bodies and names included; an identifier that two fields share is there once. The
decorators of an exported class belong to the export, where they stand before the class.
-/

namespace EcmaSyntax.Tree

open EcmaSyntax.Text

inductive Plot where
  | node (span : Span) (parts : List Plot)
  | decorator (span : Span) (parts : List Plot)

namespace Plot

def span : Plot → Span
  | node span _ | decorator span _ => span

/-- The plots of the nodes directly in the node. -/
def parts : Plot → List Plot
  | node _ parts | decorator _ parts => parts

def isDecorator : Plot → Bool
  | node _ _ => false
  | decorator _ _ => true

@[reducible] def start (p : Plot) : Nat := p.span.start

@[reducible] def stop (p : Plot) : Nat := p.span.stop

/-- The plot of a node without nodes in it. -/
@[reducible] def leaf (span : Span) : Plot := node span []

/-- The plots of which neither stands in the other, the second lists in turn with the first. -/
def weave : List Plot → List Plot → List Plot
  | p :: first, q :: second => p :: q :: weave first second
  | first, [] => first
  | [], second => second

end Plot

section Leaves

def Identifier.plot (id : Identifier) : Plot := .leaf id.span

def PrivateIdentifier.plot (id : PrivateIdentifier) : Plot := .leaf id.span

def Literal.plot (lit : Literal) : Plot := .leaf lit.span

def TemplateElement.plot (quasi : TemplateElement) : Plot := .leaf quasi.span

def ModuleName.plot : ModuleName → Plot
  | .identifier id => id.plot
  | .literal lit => lit.plot

def ImportAttribute.plot (a : ImportAttribute) : Plot := .node a.span [a.key.plot, a.value.plot]

def ImportSpecifier.plot : ImportSpecifier → Plot
  | .named span imported binding =>
    .node span (if imported = .identifier binding then
      [binding.plot] else [imported.plot, binding.plot])
  | .default span binding => .node span [binding.plot]
  | .all span binding => .node span [binding.plot]

def ImportDeclaration.plot (d : ImportDeclaration) : Plot :=
  .node d.span (d.specifiers.map ImportSpecifier.plot ++ d.source.plot ::
    d.attributes.map ImportAttribute.plot)

def ExportSpecifier.plot (s : ExportSpecifier) : Plot :=
  .node s.span (if s.exported = s.binding then
    [s.binding.plot] else [s.binding.plot, s.exported.plot])

def ExportNames.plot (d : ExportNames) : Plot :=
  .node d.span (d.specifiers.map ExportSpecifier.plot ++ (d.source.toList.map Literal.plot ++
    d.attributes.map ImportAttribute.plot))

def ExportAll.plot (d : ExportAll) : Plot :=
  .node d.span (d.exported.toList.map ModuleName.plot ++ d.source.plot ::
    d.attributes.map ImportAttribute.plot)

def MarkupIdentifier.plot (id : MarkupIdentifier) : Plot := .leaf id.span

def NamespacedName.plot (name : NamespacedName) : Plot :=
  .node name.span [name.space.plot, name.name.plot]

def MarkupPath.plot : MarkupPath → Plot
  | .identifier id => id.plot
  | .member span object property => .node span [object.plot, property.plot]

def MarkupName.plot : MarkupName → Plot
  | .path steps => steps.plot
  | .namespaced name => name.plot

def MarkupAttributeName.plot : MarkupAttributeName → Plot
  | .identifier id => id.plot
  | .namespaced name => name.plot

def MarkupClosing.plot (closing : MarkupClosing) : Plot :=
  .node closing.span [closing.name.plot]

end Leaves

/-- The value is the name that is the key, or it is what the name is assigned. -/
def Expression.reuses (value key : Expression) : Bool :=
  match key, value with
  | .identifier name, .identifier id => name == id
  | .identifier name, .assignment _ _ (.identifier id) _ => name == id
  | _, _ => false

/-- The pattern is the name that is the key, or the name with a default. -/
def Pattern.reuses (value : Pattern) (key : Expression) : Bool :=
  match key, value with
  | .identifier name, .identifier id => name == id
  | .identifier name, .withDefault _ (.identifier id) _ => name == id
  | _, _ => false

mutual

@[simp] def Expression.plot : Expression → Plot
  | .identifier id => id.plot
  | .privateIdentifier id => id.plot
  | .literal lit => lit.plot
  | .thisKeyword span => .leaf span
  | .superKeyword span => .leaf span
  | .array span elements => .node span (plotsOfElements elements)
  | .object span members => .node span (plotsOfMembers members)
  | .function value => value.plot
  | .arrow span _ params body => .node span (plotsOfPatterns params ++ [body.plot])
  | .blockArrow span _ params bodySpan body =>
    .node span (plotsOfPatterns params ++ [.node bodySpan (plotsOfStatements body)])
  | .classExpression value => value.plot
  | .template span quasis expressions =>
    .node span (Plot.weave (quasis.map TemplateElement.plot) (plotsOfExpressions expressions))
  | .taggedTemplate span tag quasiSpan quasis expressions =>
    .node span [tag.plot, .node quasiSpan (Plot.weave (quasis.map TemplateElement.plot)
      (plotsOfExpressions expressions))]
  | .member span object property _ _ => .node span [object.plot, property.plot]
  | .call span callee arguments _ => .node span (callee.plot :: plotsOfElements arguments)
  | .newCall span callee arguments => .node span (callee.plot :: plotsOfElements arguments)
  | .chain span inner => .node span [inner.plot]
  | .update span _ _ argument => .node span [argument.plot]
  | .unary span _ argument => .node span [argument.plot]
  | .binary span left _ right => .node span [left.plot, right.plot]
  | .logical span left _ right => .node span [left.plot, right.plot]
  | .conditional span test consequent alternate =>
    .node span [test.plot, consequent.plot, alternate.plot]
  | .assignment span _ left right => .node span (left.plots ++ [right.plot])
  | .sequence span expressions => .node span (plotsOfExpressions expressions)
  | .yield span _ argument => .node span (plotsOfOption argument)
  | .await span argument => .node span [argument.plot]
  | .importCall span source options => .node span (source.plot :: plotsOfOption options)
  | .metaProperty span object property => .node span [object.plot, property.plot]
  | .parenthesized span inner => .node span [inner.plot]
  | .markup value => value.plot

def plotsOfOption : Option Expression → List Plot
  | none => []
  | some e => [e.plot]

def plotsOfExpressions : List Expression → List Plot
  | [] => []
  | e :: rest => e.plot :: plotsOfExpressions rest

/-- A hole is no node. -/
@[simp] def Element.plots : Element → List Plot
  | .item e => [e.plot]
  | .spread span e => [.node span [e.plot]]
  | .hole => []

def plotsOfElements : List Element → List Plot
  | [] => []
  | element :: rest => element.plots ++ plotsOfElements rest

@[simp] def ObjectMember.plot : ObjectMember → Plot
  | .property span key value _ _ shorthand _ =>
    .node span (if shorthand && value.reuses key then [value.plot] else [key.plot, value.plot])
  | .spread span e => .node span [e.plot]

def plotsOfMembers : List ObjectMember → List Plot
  | [] => []
  | member :: rest => member.plot :: plotsOfMembers rest

@[simp] def Function.plot : Function → Plot
  | ⟨span, id, _, _, params, bodySpan, body⟩ =>
    .node span (id.toList.map Identifier.plot ++ (plotsOfPatterns params ++
      [.node bodySpan (plotsOfStatements body)]))

@[simp] def Pattern.plots : Pattern → List Plot
  | .identifier id => [id.plot]
  | .object span properties => [.node span (plotsOfProperties properties)]
  | .array span elements => [.node span (plotsOfPatterns elements)]
  | .rest span argument => [.node span argument.plots]
  | .withDefault span left right => [.node span (left.plots ++ [right.plot])]
  | .member span object property _ _ => [.node span [object.plot, property.plot]]
  | .hole => []

def plotsOfPatterns : List Pattern → List Plot
  | [] => []
  | pattern :: rest => pattern.plots ++ plotsOfPatterns rest

@[simp] def PatternProperty.plot : PatternProperty → Plot
  | .property span key value shorthand _ =>
    .node span (if shorthand && value.reuses key then value.plots else key.plot :: value.plots)
  | .rest span argument => .node span argument.plots

def plotsOfProperties : List PatternProperty → List Plot
  | [] => []
  | property :: rest => property.plot :: plotsOfProperties rest

/-- The nodes in a class other than its decorators. -/
def ClassDefinition.parts : ClassDefinition → List Plot
  | ⟨_, id, superClass, bodySpan, elements, _⟩ =>
    id.toList.map Identifier.plot ++ (plotsOfOption superClass ++
      [.node bodySpan (plotsOfClassElements elements)])

def ClassDefinition.decoratorPlots : ClassDefinition → List Plot
  | ⟨_, _, _, _, _, decorators⟩ => plotsOfDecorators decorators

/-- A class that holds its decorators. -/
@[simp] def ClassDefinition.plot : ClassDefinition → Plot
  | ⟨span, id, superClass, bodySpan, elements, decorators⟩ =>
    .node span (plotsOfDecorators decorators ++ (id.toList.map Identifier.plot ++
      (plotsOfOption superClass ++ [.node bodySpan (plotsOfClassElements elements)])))

@[simp] def ClassElement.plot : ClassElement → Plot
  | .method span _ _ key _ value decorators =>
    .node span (plotsOfDecorators decorators ++ [key.plot, value.plot])
  | .field span _ _ key value decorators =>
    .node span (plotsOfDecorators decorators ++ key.plot :: plotsOfOption value)
  | .staticBlock span body => .node span (plotsOfStatements body)

def plotsOfClassElements : List ClassElement → List Plot
  | [] => []
  | element :: rest => element.plot :: plotsOfClassElements rest

@[simp] def Decorator.plot : Decorator → Plot
  | ⟨span, e⟩ => .decorator span [e.plot]

def plotsOfDecorators : List Decorator → List Plot
  | [] => []
  | decorator :: rest => decorator.plot :: plotsOfDecorators rest

@[simp] def Statement.plot : Statement → Plot
  | .expression span e _ => .node span [e.plot]
  | .block span body => .node span (plotsOfStatements body)
  | .empty span => .leaf span
  | .debugger span => .leaf span
  | .withStatement span object body => .node span [object.plot, body.plot]
  | .returnStatement span argument => .node span (plotsOfOption argument)
  | .labeled span label body => .node span [label.plot, body.plot]
  | .breakStatement span label => .node span (label.toList.map Identifier.plot)
  | .continueStatement span label => .node span (label.toList.map Identifier.plot)
  | .ifStatement span test consequent => .node span [test.plot, consequent.plot]
  | .ifElse span test consequent alternate =>
    .node span [test.plot, consequent.plot, alternate.plot]
  | .switchStatement span discriminant cases => .node span (discriminant.plot :: plotsOfCases cases)
  | .throwStatement span argument => .node span [argument.plot]
  | .tryCatch span blockSpan block handler =>
    .node span [.node blockSpan (plotsOfStatements block), handler.plot]
  | .tryFinally span blockSpan block finalizerSpan finalizer =>
    .node span [.node blockSpan (plotsOfStatements block),
      .node finalizerSpan (plotsOfStatements finalizer)]
  | .tryCatchFinally span blockSpan block handler finalizerSpan finalizer =>
    .node span [.node blockSpan (plotsOfStatements block), handler.plot,
      .node finalizerSpan (plotsOfStatements finalizer)]
  | .whileStatement span test body => .node span [test.plot, body.plot]
  | .doWhileStatement span body test => .node span [body.plot, test.plot]
  | .forStatement span init test update body =>
    .node span (init.plots ++ (plotsOfOption test ++ (plotsOfOption update ++ [body.plot])))
  | .forInStatement span left right body => .node span (left.plots ++ [right.plot, body.plot])
  | .forOfStatement span _ left right body => .node span (left.plots ++ [right.plot, body.plot])
  | .variables span _ declarations => .node span (plotsOfDeclarators declarations)
  | .function value => value.plot
  | .classDeclaration value => value.plot
  | .importDeclaration declaration => declaration.plot
  | .exportDeclaration span (.classDeclaration value) =>
    .node span (value.decoratorPlots ++ [.node value.span value.parts])
  | .exportDeclaration span declaration => .node span [declaration.plot]
  | .exportNames declaration => declaration.plot
  | .exportAll declaration => declaration.plot
  | .exportDefaultFunction span value => .node span [value.plot]
  | .exportDefaultClass span value =>
    .node span (value.decoratorPlots ++ [.node value.span value.parts])
  | .exportDefault span e => .node span [e.plot]

def plotsOfStatements : List Statement → List Plot
  | [] => []
  | statement :: rest => statement.plot :: plotsOfStatements rest

@[simp] def SwitchCase.plot : SwitchCase → Plot
  | ⟨span, test, consequent⟩ => .node span (plotsOfOption test ++ plotsOfStatements consequent)

def plotsOfCases : List SwitchCase → List Plot
  | [] => []
  | c :: rest => c.plot :: plotsOfCases rest

@[simp] def CatchClause.plot : CatchClause → Plot
  | .plain span bodySpan body => .node span [.node bodySpan (plotsOfStatements body)]
  | .binding span param bodySpan body =>
    .node span (param.plots ++ [.node bodySpan (plotsOfStatements body)])

@[simp] def ForHead.plots : ForHead → List Plot
  | .nothing => []
  | .variables span _ declarations => [.node span (plotsOfDeclarators declarations)]
  | .expression e => [e.plot]
  | .pattern p => p.plots

@[simp] def VariableDeclarator.plot : VariableDeclarator → Plot
  | ⟨span, id, init⟩ => .node span (id.plots ++ plotsOfOption init)

def plotsOfDeclarators : List VariableDeclarator → List Plot
  | [] => []
  | declarator :: rest => declarator.plot :: plotsOfDeclarators rest

@[simp] def Markup.plot : Markup → Plot
  | .element span openingSpan name attributes _ children closing =>
    .node span (.node openingSpan (name.plot :: plotsOfAttributes attributes) ::
      (plotsOfChildren children ++ closing.toList.map MarkupClosing.plot))
  | .fragment span openingSpan children closingSpan =>
    .node span (.leaf openingSpan :: (plotsOfChildren children ++ [.leaf closingSpan]))

@[simp] def MarkupAttribute.plot : MarkupAttribute → Plot
  | .attribute span name value => .node span (name.plot :: value.plots)
  | .spread span e => .node span [e.plot]

def plotsOfAttributes : List MarkupAttribute → List Plot
  | [] => []
  | a :: rest => a.plot :: plotsOfAttributes rest

@[simp] def MarkupAttributeValue.plots : MarkupAttributeValue → List Plot
  | .absent => []
  | .string lit => [lit.plot]
  | .container span e => [.node span [e.plot]]
  | .markup value => [value.plot]

@[simp] def MarkupChild.plot : MarkupChild → Plot
  | .text span _ _ => .leaf span
  | .markup value => value.plot
  | .container span e => .node span [e.plot]
  | .emptyContainer span inner => .node span [.leaf inner]
  | .spread span e => .node span [e.plot]

def plotsOfChildren : List MarkupChild → List Plot
  | [] => []
  | child :: rest => child.plot :: plotsOfChildren rest

end

def Program.plot (p : Program) : Plot := .node p.span (plotsOfStatements p.body)

theorem Expression.plot_span (e : Expression) : e.plot.span = e.span := by
  cases e with
  | function value | classExpression value | markup value => cases value <;> rfl
  | _ => rfl

theorem ClassDefinition.plot_eq (c : ClassDefinition) :
    c.plot = .node c.span (c.decoratorPlots ++ c.parts) := by
  cases c
  rfl

section Plotted

/-- What holds nodes, with their plots in the order of the nodes. -/
class Plotted (α : Type) where
  plots : α → List Plot

open Plotted

/-- Most things hold no nodes. -/
instance (priority := low) Plotted.bare {α : Type} : Plotted α := ⟨fun _ => []⟩

@[simp] theorem plots_bare {α : Type} (a : α) : @plots α Plotted.bare a = [] := rfl

instance : Plotted Identifier := ⟨fun id => [id.plot]⟩
instance : Plotted PrivateIdentifier := ⟨fun id => [id.plot]⟩
instance : Plotted Literal := ⟨fun lit => [lit.plot]⟩
instance : Plotted TemplateElement := ⟨fun quasi => [quasi.plot]⟩
instance : Plotted ModuleName := ⟨fun name => [name.plot]⟩
instance : Plotted ImportAttribute := ⟨fun a => [a.plot]⟩
instance : Plotted ImportSpecifier := ⟨fun specifier => [specifier.plot]⟩
instance : Plotted ExportSpecifier := ⟨fun specifier => [specifier.plot]⟩
instance : Plotted MarkupIdentifier := ⟨fun id => [id.plot]⟩
instance : Plotted MarkupPath := ⟨fun path => [path.plot]⟩
instance : Plotted MarkupName := ⟨fun name => [name.plot]⟩
instance : Plotted MarkupAttributeName := ⟨fun name => [name.plot]⟩
instance : Plotted MarkupClosing := ⟨fun closing => [closing.plot]⟩
instance : Plotted Expression := ⟨fun e => [e.plot]⟩
instance : Plotted Element := ⟨Element.plots⟩
instance : Plotted ObjectMember := ⟨fun member => [member.plot]⟩
instance : Plotted Function := ⟨fun f => [f.plot]⟩
instance : Plotted Pattern := ⟨Pattern.plots⟩
instance : Plotted PatternProperty := ⟨fun property => [property.plot]⟩
instance : Plotted ClassDefinition := ⟨fun c => [c.plot]⟩
instance : Plotted ClassElement := ⟨fun element => [element.plot]⟩
instance : Plotted Decorator := ⟨fun decorator => [decorator.plot]⟩
instance : Plotted Statement := ⟨fun statement => [statement.plot]⟩
instance : Plotted SwitchCase := ⟨fun c => [c.plot]⟩
instance : Plotted CatchClause := ⟨fun clause => [clause.plot]⟩
instance : Plotted VariableDeclarator := ⟨fun declarator => [declarator.plot]⟩
instance : Plotted Markup := ⟨fun value => [value.plot]⟩
instance : Plotted MarkupAttribute := ⟨fun a => [a.plot]⟩
instance : Plotted MarkupAttributeValue := ⟨MarkupAttributeValue.plots⟩
instance : Plotted MarkupChild := ⟨fun child => [child.plot]⟩

section Single

@[simp] theorem plots_identifier (id : Identifier) : plots id = [id.plot] := rfl
@[simp] theorem plots_literal (lit : Literal) : plots lit = [lit.plot] := rfl
@[simp] theorem plots_quasi (quasi : TemplateElement) : plots quasi = [quasi.plot] := rfl
@[simp] theorem plots_moduleName (name : ModuleName) : plots name = [name.plot] := rfl
@[simp] theorem plots_importSpecifier (specifier : ImportSpecifier) :
    plots specifier = [specifier.plot] := rfl
@[simp] theorem plots_exportSpecifier (specifier : ExportSpecifier) :
    plots specifier = [specifier.plot] := rfl
@[simp] theorem plots_markupIdentifier (id : MarkupIdentifier) : plots id = [id.plot] := rfl
@[simp] theorem plots_markupName (name : MarkupName) : plots name = [name.plot] := rfl
@[simp] theorem plots_markupAttributeName (name : MarkupAttributeName) :
    plots name = [name.plot] := rfl
@[simp] theorem plots_markupClosing (closing : MarkupClosing) : plots closing = [closing.plot] :=
  rfl
@[simp] theorem plots_expression (e : Expression) : plots e = [e.plot] := rfl
@[simp] theorem plots_element (element : Element) : plots element = element.plots := rfl
@[simp] theorem plots_member (member : ObjectMember) : plots member = [member.plot] := rfl
@[simp] theorem plots_function (f : Function) : plots f = [f.plot] := rfl
@[simp] theorem plots_pattern (p : Pattern) : plots p = p.plots := rfl
@[simp] theorem plots_property (property : PatternProperty) : plots property = [property.plot] :=
  rfl
@[simp] theorem plots_class (c : ClassDefinition) : plots c = [c.plot] := rfl
@[simp] theorem plots_classElement (element : ClassElement) : plots element = [element.plot] := rfl
@[simp] theorem plots_decorator (decorator : Decorator) : plots decorator = [decorator.plot] := rfl
@[simp] theorem plots_statement (statement : Statement) : plots statement = [statement.plot] := rfl
@[simp] theorem plots_case (c : SwitchCase) : plots c = [c.plot] := rfl
@[simp] theorem plots_catch (clause : CatchClause) : plots clause = [clause.plot] := rfl
@[simp] theorem plots_declarator (declarator : VariableDeclarator) :
    plots declarator = [declarator.plot] := rfl
@[simp] theorem plots_markup (value : Markup) : plots value = [value.plot] := rfl
@[simp] theorem plots_attributeValue (value : MarkupAttributeValue) : plots value = value.plots :=
  rfl

end Single

variable {α β : Type} [Plotted α] [Plotted β]

instance : Plotted (List α) := ⟨fun items => items.flatMap plots⟩
instance : Plotted (Option α) := ⟨fun item => item.elim [] plots⟩
instance : Plotted (α × β) := ⟨fun pair => plots pair.1 ++ plots pair.2⟩

/-- Names alone are no nodes. -/
instance : Plotted (List String) := ⟨fun _ => []⟩

/-- Nodes in braces or brackets, or after dots. -/
instance : Plotted (Span × α) := ⟨fun pair => [.node pair.1 (plots pair.2)]⟩

@[simp] theorem plots_names (names : List String) : plots names = [] := rfl

@[simp] theorem plots_nil : plots ([] : List α) = [] := rfl

@[simp] theorem plots_cons (a : α) (items : List α) : plots (a :: items) = plots a ++ plots items :=
  rfl

@[simp] theorem plots_append (first second : List α) :
    plots (first ++ second) = plots first ++ plots second := List.flatMap_append

@[simp] theorem plots_none : plots (none : Option α) = [] := rfl

@[simp] theorem plots_some (a : α) : plots (some a) = plots a := rfl

@[simp] theorem plots_pair (a : α) (b : β) : plots (a, b) = plots a ++ plots b := rfl

@[simp] theorem plots_framed (span : Span) (a : α) : plots (span, a) = [.node span (plots a)] := rfl

/-- What is paired with something that holds no nodes. -/
theorem plots_map_fst (items : List (α × β)) (h : ∀ item ∈ items, plots item.2 = []) :
    plots (items.map Prod.fst) = plots items := by
  induction items with
  | nil => rfl
  | cons item rest ih =>
    obtain ⟨hitem, hrest⟩ := List.forall_mem_cons.mp h
    change plots item.1 ++ plots (rest.map Prod.fst) = (plots item.1 ++ plots item.2) ++ plots rest
    rw [hitem, List.append_nil, ih hrest]

/-- A function for the plots of a list goes through the list. -/
theorem eq_plots {f : List α → List Plot} (hnil : f [] = [])
    (hcons : ∀ a items, f (a :: items) = plots a ++ f items) (items : List α) :
    f items = plots items := by
  induction items with
  | nil => exact hnil
  | cons a items ih => rw [hcons, ih, plots_cons]

theorem plots_filterMap (items : List (Option α)) : plots (items.filterMap id) = plots items := by
  induction items with
  | nil => rfl
  | cons item rest ih =>
    cases item with
    | none => exact ih
    | some a => exact congrArg (plots a ++ ·) ih

theorem map_eq_plots {f : α → Plot} (hf : ∀ a, plots a = [f a]) (items : List α) :
    items.map f = plots items :=
  eq_plots rfl (fun a _ => by rw [hf a]; rfl) items

theorem toList_map_eq_plots {f : α → Plot} (hf : ∀ a, plots a = [f a]) (item : Option α) :
    item.toList.map f = plots item := by
  cases item with
  | none => rfl
  | some a => exact (hf a).symm

@[simp] theorem plotsOfOption_eq (e : Option Expression) : plotsOfOption e = plots e := by
  cases e <;> rfl

@[simp] theorem plotsOfExpressions_eq (es : List Expression) : plotsOfExpressions es = plots es :=
  eq_plots rfl (fun _ _ => rfl) es

@[simp] theorem plotsOfElements_eq (elements : List Element) :
    plotsOfElements elements = plots elements := eq_plots rfl (fun _ _ => rfl) elements

@[simp] theorem plotsOfMembers_eq (members : List ObjectMember) :
    plotsOfMembers members = plots members := eq_plots rfl (fun _ _ => rfl) members

@[simp] theorem plotsOfPatterns_eq (patterns : List Pattern) :
    plotsOfPatterns patterns = plots patterns := eq_plots rfl (fun _ _ => rfl) patterns

@[simp] theorem plotsOfProperties_eq (properties : List PatternProperty) :
    plotsOfProperties properties = plots properties := eq_plots rfl (fun _ _ => rfl) properties

@[simp] theorem plotsOfClassElements_eq (elements : List ClassElement) :
    plotsOfClassElements elements = plots elements := eq_plots rfl (fun _ _ => rfl) elements

@[simp] theorem plotsOfDecorators_eq (decorators : List Decorator) :
    plotsOfDecorators decorators = plots decorators := eq_plots rfl (fun _ _ => rfl) decorators

@[simp] theorem plotsOfStatements_eq (statements : List Statement) :
    plotsOfStatements statements = plots statements := eq_plots rfl (fun _ _ => rfl) statements

@[simp] theorem plotsOfCases_eq (cases : List SwitchCase) : plotsOfCases cases = plots cases :=
  eq_plots rfl (fun _ _ => rfl) cases

@[simp] theorem plotsOfDeclarators_eq (declarators : List VariableDeclarator) :
    plotsOfDeclarators declarators = plots declarators := eq_plots rfl (fun _ _ => rfl) declarators

@[simp] theorem plotsOfAttributes_eq (attributes : List MarkupAttribute) :
    plotsOfAttributes attributes = plots attributes := eq_plots rfl (fun _ _ => rfl) attributes

@[simp] theorem plotsOfChildren_eq (children : List MarkupChild) :
    plotsOfChildren children = plots children := eq_plots rfl (fun _ _ => rfl) children

end Plotted

end EcmaSyntax.Tree
