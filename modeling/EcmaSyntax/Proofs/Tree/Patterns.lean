import EcmaSyntax.Tree.Basic
import EcmaSyntax.Proofs.Tree.Node

/-!
Trees without their spans, and patterns with the literals that they are made of. Two trees are equal
but for spans when they are the same once every span has been replaced by the empty one.

The targets of a pattern are the names and members that it binds or assigns to. A pattern stands for
an expression, a literal with the same elements and properties, in which a default is an assignment.
In a pattern that is put together as it should be, rest elements stand last, and where names of
properties are unique each is there once.
-/

namespace EcmaSyntax.Tree

open EcmaSyntax.Text

/-- The span that stands for any span. -/
def noSpan : Span := ⟨0, 0⟩

def Identifier.withoutSpan (id : Identifier) : Identifier := { id with span := noSpan }

def PrivateIdentifier.withoutSpan (id : PrivateIdentifier) : PrivateIdentifier :=
  { id with span := noSpan }

def Literal.withoutSpan (lit : Literal) : Literal := { lit with span := noSpan }

def TemplateElement.withoutSpan (quasi : TemplateElement) : TemplateElement :=
  { quasi with span := noSpan }

def ModuleName.withoutSpans : ModuleName → ModuleName
  | .identifier id => .identifier id.withoutSpan
  | .literal lit => .literal lit.withoutSpan

def ImportAttribute.withoutSpans (a : ImportAttribute) : ImportAttribute :=
  ⟨noSpan, a.key.withoutSpans, a.value.withoutSpan⟩

def ImportSpecifier.withoutSpans : ImportSpecifier → ImportSpecifier
  | .named _ imported binding => .named noSpan imported.withoutSpans binding.withoutSpan
  | .default _ binding => .default noSpan binding.withoutSpan
  | .all _ binding => .all noSpan binding.withoutSpan

def ImportDeclaration.withoutSpans (d : ImportDeclaration) : ImportDeclaration :=
  ⟨noSpan, d.specifiers.map ImportSpecifier.withoutSpans, d.source.withoutSpan,
    d.attributes.map ImportAttribute.withoutSpans⟩

def ExportSpecifier.withoutSpans (s : ExportSpecifier) : ExportSpecifier :=
  ⟨noSpan, s.binding.withoutSpans, s.exported.withoutSpans⟩

def ExportNames.withoutSpans (d : ExportNames) : ExportNames :=
  ⟨noSpan, d.specifiers.map ExportSpecifier.withoutSpans, d.source.map Literal.withoutSpan,
    d.attributes.map ImportAttribute.withoutSpans⟩

def ExportAll.withoutSpans (d : ExportAll) : ExportAll :=
  ⟨noSpan, d.exported.map ModuleName.withoutSpans, d.source.withoutSpan,
    d.attributes.map ImportAttribute.withoutSpans⟩

def MarkupIdentifier.withoutSpan (id : MarkupIdentifier) : MarkupIdentifier :=
  { id with span := noSpan }

def NamespacedName.withoutSpans (name : NamespacedName) : NamespacedName :=
  ⟨noSpan, name.space.withoutSpan, name.name.withoutSpan⟩

def MarkupPath.withoutSpans : MarkupPath → MarkupPath
  | .identifier id => .identifier id.withoutSpan
  | .member _ object property => .member noSpan object.withoutSpans property.withoutSpan

def MarkupName.withoutSpans : MarkupName → MarkupName
  | .path steps => .path steps.withoutSpans
  | .namespaced name => .namespaced name.withoutSpans

def MarkupAttributeName.withoutSpans : MarkupAttributeName → MarkupAttributeName
  | .identifier id => .identifier id.withoutSpan
  | .namespaced name => .namespaced name.withoutSpans

def MarkupClosing.withoutSpans (closing : MarkupClosing) : MarkupClosing :=
  ⟨noSpan, closing.name.withoutSpans⟩

mutual

def Expression.withoutSpans : Expression → Expression
  | .identifier id => .identifier id.withoutSpan
  | .privateIdentifier id => .privateIdentifier id.withoutSpan
  | .literal lit => .literal lit.withoutSpan
  | .thisKeyword _ => .thisKeyword noSpan
  | .superKeyword _ => .superKeyword noSpan
  | .array _ elements => .array noSpan (elementsWithoutSpans elements)
  | .object _ members => .object noSpan (membersWithoutSpans members)
  | .function value => .function value.withoutSpans
  | .arrow _ isAsync params body =>
    .arrow noSpan isAsync (patternsWithoutSpans params) body.withoutSpans
  | .blockArrow _ isAsync params _ body =>
    .blockArrow noSpan isAsync (patternsWithoutSpans params) noSpan (statementsWithoutSpans body)
  | .classExpression value => .classExpression value.withoutSpans
  | .template _ quasis expressions =>
    .template noSpan (quasis.map TemplateElement.withoutSpan) (expressionsWithoutSpans expressions)
  | .taggedTemplate _ tag _ quasis expressions =>
    .taggedTemplate noSpan tag.withoutSpans noSpan (quasis.map TemplateElement.withoutSpan)
      (expressionsWithoutSpans expressions)
  | .member _ object property computed optional =>
    .member noSpan object.withoutSpans property.withoutSpans computed optional
  | .call _ callee arguments optional =>
    .call noSpan callee.withoutSpans (elementsWithoutSpans arguments) optional
  | .newCall _ callee arguments =>
    .newCall noSpan callee.withoutSpans (elementsWithoutSpans arguments)
  | .chain _ inner => .chain noSpan inner.withoutSpans
  | .update _ operator isBefore argument => .update noSpan operator isBefore argument.withoutSpans
  | .unary _ operator argument => .unary noSpan operator argument.withoutSpans
  | .binary _ left operator right => .binary noSpan left.withoutSpans operator right.withoutSpans
  | .logical _ left operator right => .logical noSpan left.withoutSpans operator right.withoutSpans
  | .conditional _ test consequent alternate =>
    .conditional noSpan test.withoutSpans consequent.withoutSpans alternate.withoutSpans
  | .assignment _ operator left right =>
    .assignment noSpan operator left.withoutSpans right.withoutSpans
  | .sequence _ expressions => .sequence noSpan (expressionsWithoutSpans expressions)
  | .yield _ delegate argument => .yield noSpan delegate (optionWithoutSpans argument)
  | .await _ argument => .await noSpan argument.withoutSpans
  | .importCall _ source options =>
    .importCall noSpan source.withoutSpans (optionWithoutSpans options)
  | .metaProperty _ object property =>
    .metaProperty noSpan object.withoutSpan property.withoutSpan
  | .parenthesized _ inner => .parenthesized noSpan inner.withoutSpans
  | .markup value => .markup value.withoutSpans

def optionWithoutSpans : Option Expression → Option Expression
  | none => none
  | some e => some e.withoutSpans

def expressionsWithoutSpans : List Expression → List Expression
  | [] => []
  | e :: rest => e.withoutSpans :: expressionsWithoutSpans rest

def elementsWithoutSpans : List Element → List Element
  | [] => []
  | .item e :: rest => .item e.withoutSpans :: elementsWithoutSpans rest
  | .spread _ e :: rest => .spread noSpan e.withoutSpans :: elementsWithoutSpans rest
  | .hole :: rest => .hole :: elementsWithoutSpans rest

def membersWithoutSpans : List ObjectMember → List ObjectMember
  | [] => []
  | .property _ key value kind method shorthand computed :: rest =>
    .property noSpan key.withoutSpans value.withoutSpans kind method shorthand computed ::
      membersWithoutSpans rest
  | .spread _ e :: rest => .spread noSpan e.withoutSpans :: membersWithoutSpans rest

def Function.withoutSpans : Function → Function
  | ⟨_, id, generator, isAsync, params, _, body⟩ =>
    ⟨noSpan, id.map Identifier.withoutSpan, generator, isAsync, patternsWithoutSpans params, noSpan,
      statementsWithoutSpans body⟩

def Pattern.withoutSpans : Pattern → Pattern
  | .identifier id => .identifier id.withoutSpan
  | .object _ properties => .object noSpan (patternPropertiesWithoutSpans properties)
  | .array _ elements => .array noSpan (patternsWithoutSpans elements)
  | .rest _ argument => .rest noSpan argument.withoutSpans
  | .withDefault _ left right => .withDefault noSpan left.withoutSpans right.withoutSpans
  | .member _ object property computed optional =>
    .member noSpan object.withoutSpans property.withoutSpans computed optional
  | .hole => .hole

def patternsWithoutSpans : List Pattern → List Pattern
  | [] => []
  | p :: rest => p.withoutSpans :: patternsWithoutSpans rest

def patternPropertiesWithoutSpans : List PatternProperty → List PatternProperty
  | [] => []
  | .property _ key value shorthand computed :: rest =>
    .property noSpan key.withoutSpans value.withoutSpans shorthand computed ::
      patternPropertiesWithoutSpans rest
  | .rest _ argument :: rest =>
    .rest noSpan argument.withoutSpans :: patternPropertiesWithoutSpans rest

def ClassDefinition.withoutSpans : ClassDefinition → ClassDefinition
  | ⟨_, id, superClass, _, elements, decorators⟩ =>
    ⟨noSpan, id.map Identifier.withoutSpan, optionWithoutSpans superClass, noSpan,
      classElementsWithoutSpans elements, decoratorsWithoutSpans decorators⟩

def classElementsWithoutSpans : List ClassElement → List ClassElement
  | [] => []
  | .method _ isStatic computed key kind value decorators :: rest =>
    .method noSpan isStatic computed key.withoutSpans kind value.withoutSpans
      (decoratorsWithoutSpans decorators) :: classElementsWithoutSpans rest
  | .field _ isStatic computed key value decorators :: rest =>
    .field noSpan isStatic computed key.withoutSpans (optionWithoutSpans value)
      (decoratorsWithoutSpans decorators) :: classElementsWithoutSpans rest
  | .staticBlock _ body :: rest =>
    .staticBlock noSpan (statementsWithoutSpans body) :: classElementsWithoutSpans rest

def decoratorsWithoutSpans : List Decorator → List Decorator
  | [] => []
  | ⟨_, e⟩ :: rest => ⟨noSpan, e.withoutSpans⟩ :: decoratorsWithoutSpans rest

def Statement.withoutSpans : Statement → Statement
  | .expression _ e directive => .expression noSpan e.withoutSpans directive
  | .block _ body => .block noSpan (statementsWithoutSpans body)
  | .empty _ => .empty noSpan
  | .debugger _ => .debugger noSpan
  | .withStatement _ object body => .withStatement noSpan object.withoutSpans body.withoutSpans
  | .returnStatement _ argument => .returnStatement noSpan (optionWithoutSpans argument)
  | .labeled _ label body => .labeled noSpan label.withoutSpan body.withoutSpans
  | .breakStatement _ label => .breakStatement noSpan (label.map Identifier.withoutSpan)
  | .continueStatement _ label => .continueStatement noSpan (label.map Identifier.withoutSpan)
  | .ifStatement _ test consequent =>
    .ifStatement noSpan test.withoutSpans consequent.withoutSpans
  | .ifElse _ test consequent alternate =>
    .ifElse noSpan test.withoutSpans consequent.withoutSpans alternate.withoutSpans
  | .switchStatement _ discriminant cases =>
    .switchStatement noSpan discriminant.withoutSpans (casesWithoutSpans cases)
  | .throwStatement _ argument => .throwStatement noSpan argument.withoutSpans
  | .tryCatch _ _ block handler =>
    .tryCatch noSpan noSpan (statementsWithoutSpans block) handler.withoutSpans
  | .tryFinally _ _ block _ finalizer =>
    .tryFinally noSpan noSpan (statementsWithoutSpans block) noSpan
      (statementsWithoutSpans finalizer)
  | .tryCatchFinally _ _ block handler _ finalizer =>
    .tryCatchFinally noSpan noSpan (statementsWithoutSpans block) handler.withoutSpans noSpan
      (statementsWithoutSpans finalizer)
  | .whileStatement _ test body => .whileStatement noSpan test.withoutSpans body.withoutSpans
  | .doWhileStatement _ body test => .doWhileStatement noSpan body.withoutSpans test.withoutSpans
  | .forStatement _ init test update body =>
    .forStatement noSpan init.withoutSpans (optionWithoutSpans test) (optionWithoutSpans update)
      body.withoutSpans
  | .forInStatement _ left right body =>
    .forInStatement noSpan left.withoutSpans right.withoutSpans body.withoutSpans
  | .forOfStatement _ isAwait left right body =>
    .forOfStatement noSpan isAwait left.withoutSpans right.withoutSpans body.withoutSpans
  | .variables _ kind declarations =>
    .variables noSpan kind (declaratorsWithoutSpans declarations)
  | .function value => .function value.withoutSpans
  | .classDeclaration value => .classDeclaration value.withoutSpans
  | .importDeclaration declaration => .importDeclaration declaration.withoutSpans
  | .exportDeclaration _ declaration => .exportDeclaration noSpan declaration.withoutSpans
  | .exportNames declaration => .exportNames declaration.withoutSpans
  | .exportAll declaration => .exportAll declaration.withoutSpans
  | .exportDefaultFunction _ value => .exportDefaultFunction noSpan value.withoutSpans
  | .exportDefaultClass _ value => .exportDefaultClass noSpan value.withoutSpans
  | .exportDefault _ e => .exportDefault noSpan e.withoutSpans

def statementsWithoutSpans : List Statement → List Statement
  | [] => []
  | s :: rest => s.withoutSpans :: statementsWithoutSpans rest

def casesWithoutSpans : List SwitchCase → List SwitchCase
  | [] => []
  | ⟨_, test, consequent⟩ :: rest =>
    ⟨noSpan, optionWithoutSpans test, statementsWithoutSpans consequent⟩ :: casesWithoutSpans rest

def CatchClause.withoutSpans : CatchClause → CatchClause
  | .plain _ _ body => .plain noSpan noSpan (statementsWithoutSpans body)
  | .binding _ param _ body =>
    .binding noSpan param.withoutSpans noSpan (statementsWithoutSpans body)

def ForHead.withoutSpans : ForHead → ForHead
  | .nothing => .nothing
  | .variables _ kind declarations =>
    .variables noSpan kind (declaratorsWithoutSpans declarations)
  | .expression e => .expression e.withoutSpans
  | .pattern p => .pattern p.withoutSpans

def declaratorsWithoutSpans : List VariableDeclarator → List VariableDeclarator
  | [] => []
  | ⟨_, id, init⟩ :: rest =>
    ⟨noSpan, id.withoutSpans, optionWithoutSpans init⟩ :: declaratorsWithoutSpans rest

def Markup.withoutSpans : Markup → Markup
  | .element _ _ name attributes selfClosing children closing =>
    .element noSpan noSpan name.withoutSpans (attributesWithoutSpans attributes) selfClosing
      (childrenWithoutSpans children) (closing.map MarkupClosing.withoutSpans)
  | .fragment _ _ children _ => .fragment noSpan noSpan (childrenWithoutSpans children) noSpan

def attributesWithoutSpans : List MarkupAttribute → List MarkupAttribute
  | [] => []
  | .attribute _ name value :: rest =>
    .attribute noSpan name.withoutSpans value.withoutSpans :: attributesWithoutSpans rest
  | .spread _ e :: rest => .spread noSpan e.withoutSpans :: attributesWithoutSpans rest

def MarkupAttributeValue.withoutSpans : MarkupAttributeValue → MarkupAttributeValue
  | .absent => .absent
  | .string lit => .string lit.withoutSpan
  | .container _ e => .container noSpan e.withoutSpans
  | .markup value => .markup value.withoutSpans

def childrenWithoutSpans : List MarkupChild → List MarkupChild
  | [] => []
  | .text _ value raw :: rest => .text noSpan value raw :: childrenWithoutSpans rest
  | .markup value :: rest => .markup value.withoutSpans :: childrenWithoutSpans rest
  | .container _ e :: rest => .container noSpan e.withoutSpans :: childrenWithoutSpans rest
  | .emptyContainer _ _ :: rest => .emptyContainer noSpan noSpan :: childrenWithoutSpans rest
  | .spread _ e :: rest => .spread noSpan e.withoutSpans :: childrenWithoutSpans rest

end

def Element.withoutSpans : Element → Element
  | .item e => .item e.withoutSpans
  | .spread _ e => .spread noSpan e.withoutSpans
  | .hole => .hole

theorem elementsWithoutSpans_eq_map (elements : List Element) :
    elementsWithoutSpans elements = elements.map Element.withoutSpans := by
  induction elements with
  | nil => rfl
  | cons x elements ih =>
    rw [List.map_cons, ← ih]
    cases x <;> rfl

theorem expressionsWithoutSpans_eq_map (es : List Expression) :
    expressionsWithoutSpans es = es.map Expression.withoutSpans := by
  induction es with
  | nil => rfl
  | cons e es ih =>
    rw [List.map_cons, ← ih]
    rfl

def Program.withoutSpans (p : Program) : Program :=
  ⟨noSpan, p.isModule, statementsWithoutSpans p.body⟩

section Targets

mutual

/-- The names and members that a pattern binds or assigns to, in the order in which they stand. -/
def Pattern.targets : Pattern → List Pattern
  | .identifier id => [.identifier id]
  | .object _ properties => targetsOfProperties properties
  | .array _ elements => targetsOfPatterns elements
  | .rest _ argument => argument.targets
  | .withDefault _ left _ => left.targets
  | .member span object property computed optional =>
    [.member span object property computed optional]
  | .hole => []

def targetsOfPatterns : List Pattern → List Pattern
  | [] => []
  | p :: rest => p.targets ++ targetsOfPatterns rest

def targetsOfProperties : List PatternProperty → List Pattern
  | [] => []
  | .property _ _ value _ _ :: rest => value.targets ++ targetsOfProperties rest
  | .rest _ argument :: rest => argument.targets ++ targetsOfProperties rest

end

def Pattern.isMember : Pattern → Bool
  | .member _ _ _ _ _ => true
  | _ => false

def Pattern.name? : Pattern → Option Identifier
  | .identifier id => some id
  | _ => none

mutual

/-- The names that a pattern binds are those among its targets. -/
theorem Pattern.boundNames_eq (p : Pattern) : p.boundNames = p.targets.filterMap Pattern.name? := by
  match p with
  | .identifier id => rfl
  | .object _ properties => exact boundNamesOfProperties_eq_names properties
  | .array _ elements => exact boundNamesOfPatterns_eq_names elements
  | .rest _ argument => exact argument.boundNames_eq
  | .withDefault _ left _ => exact left.boundNames_eq
  | .member _ _ _ _ _ => rfl
  | .hole => rfl

theorem boundNamesOfPatterns_eq_names (ps : List Pattern) :
    boundNamesOfPatterns ps = (targetsOfPatterns ps).filterMap Pattern.name? := by
  match ps with
  | [] => rfl
  | p :: rest =>
    rw [boundNamesOfPatterns, targetsOfPatterns, List.filterMap_append, p.boundNames_eq,
      boundNamesOfPatterns_eq_names rest]

theorem boundNamesOfProperties_eq_names (ps : List PatternProperty) :
    boundNamesOfProperties ps = (targetsOfProperties ps).filterMap Pattern.name? := by
  match ps with
  | [] => rfl
  | .property _ _ value _ _ :: rest | .rest _ value :: rest =>
    rw [boundNamesOfProperties, targetsOfProperties, List.filterMap_append, value.boundNames_eq,
      boundNamesOfProperties_eq_names rest]

end

theorem Pattern.mem_targets_of_mem_boundNames {p : Pattern} {id : Identifier}
    (h : id ∈ p.boundNames) : .identifier id ∈ p.targets := by
  rw [p.boundNames_eq] at h
  obtain ⟨t, ht, hname⟩ := List.mem_filterMap.mp h
  unfold name? at hname
  split at hname
  · cases hname
    exact ht
  · cases hname

end Targets

section Literals

mutual

/-- The place of a literal that a pattern stands for. -/
def Pattern.toElement? : Pattern → Option Element
  | .identifier id => some (.item (.identifier id))
  | .object span properties => (toMembers? properties).map fun members =>
    .item (.object span members)
  | .array span elements => (toElements? elements).map fun elements => .item (.array span elements)
  | .rest span argument =>
    match argument.toElement? with
    | some (.item e) => some (.spread span e)
    | _ => none
  | .withDefault span left right => some (.item (.assignment span .assign left right))
  | .member span object property computed optional =>
    some (.item (.member span object property computed optional))
  | .hole => some .hole

def toElements? : List Pattern → Option (List Element)
  | [] => some []
  | p :: rest =>
    match p.toElement?, toElements? rest with
    | some x, some others => some (x :: others)
    | _, _ => none

def toMembers? : List PatternProperty → Option (List ObjectMember)
  | [] => some []
  | .property span key value shorthand computed :: rest =>
    match value.toElement?, toMembers? rest with
    | some (.item e), some others => some
      (.property span key e .init false shorthand computed :: others)
    | _, _ => none
  | .rest span argument :: rest =>
    match argument.toElement?, toMembers? rest with
    | some (.item e), some others => some (.spread span e :: others)
    | _, _ => none

end

/-- The expression that a pattern stands for. A rest element and a hole stand for none. -/
def Pattern.toExpression? (p : Pattern) : Option Expression :=
  match p.toElement? with
  | some (.item e) => some e
  | _ => none

/-- What may be assigned to without being taken apart. -/
def Expression.isTarget : Expression → Bool
  | .identifier _ | .member _ _ _ _ _ => true
  | _ => false

mutual

/-- The literal without parentheses around names and members where these are targets. -/
def Expression.bareTargets : Expression → Expression
  | .array span elements => .array span (elementsWithBareTargets elements)
  | .object span members => .object span (membersWithBareTargets members)
  | .parenthesized span e => if e.withoutParens.isTarget then
    e.withoutParens else .parenthesized span e
  | e => e

def elementsWithBareTargets : List Element → List Element
  | [] => []
  | .item e :: rest => .item e.bareTargets :: elementsWithBareTargets rest
  | .spread span e :: rest => .spread span e.bareTargets :: elementsWithBareTargets rest
  | .hole :: rest => .hole :: elementsWithBareTargets rest

def membersWithBareTargets : List ObjectMember → List ObjectMember
  | [] => []
  | .property span key value kind method shorthand computed :: rest =>
    .property span key value.bareTargets kind method shorthand computed ::
      membersWithBareTargets rest
  | .spread span e :: rest => .spread span e.bareTargets :: membersWithBareTargets rest

end

end Literals

section Shape

def Pattern.isRest : Pattern → Bool
  | .rest _ _ => true
  | _ => false

def PatternProperty.isRest : PatternProperty → Bool
  | .rest _ _ => true
  | .property _ _ _ _ _ => false

/-- The key of a property that is no rest element and has no brackets around its key. -/
def PatternProperty.plainKey? : PatternProperty → Option Expression
  | .property _ key _ _ false => some key
  | _ => none

def PatternProperty.staticKey? (q : PatternProperty) : Option String :=
  q.plainKey?.bind Expression.staticKey?

/-- The key is a number. -/
def PatternProperty.hasNumber : PatternProperty → Bool
  | .property _ (.literal ⟨_, .number _, _⟩) _ _ _ => true
  | _ => false

/-- The name of the property that a key without brackets stands for. A number stands for its
decimal digits. -/
def Expression.propertyName? : Expression → Option String
  | .identifier id => some id.name
  | .literal ⟨_, .string value, _⟩ => some value
  | .literal ⟨_, .number value, _⟩ => (value.toNat?.filter (· < Nat.pow 2 53)).map toString
  | _ => none

/-- The name of the property that a pattern takes apart, unless it has to be computed. -/
def PatternProperty.name? (q : PatternProperty) : Option String :=
  q.plainKey?.bind Expression.propertyName?

theorem PatternProperty.staticKey?_of_name? {q : PatternProperty} {name : String}
    (h : q.name? = some name) : q.hasNumber = true ∨ q.staticKey? = some name := by
  obtain ⟨key, hkey, hname⟩ := Option.bind_eq_some_iff.mp h
  unfold plainKey? at hkey
  split at hkey
  · cases hkey
    unfold Expression.propertyName? at hname
    split at hname
    · exact .inr hname
    · exact .inr hname
    · exact .inl rfl
    · cases hname
  · cases hkey

/-- Nothing comes after a rest element. -/
def Node.RestsLast : Node → Prop
  | .pattern (.array _ elements) => elements.Pairwise fun p _ => p.isRest = false
  | .pattern (.object _ properties) => properties.Pairwise fun q _ => q.isRest = false
  | _ => True

/-- Names and strings are each the key of one property at most. -/
def Node.KeysDiffer : Node → Prop
  | .pattern (.object _ properties) => (properties.filterMap PatternProperty.staticKey?).Nodup
  | _ => True

/-- A pattern is put together as it should be. -/
structure Node.PatternFits (uniqueKeys : Bool) (n : Node) : Prop where
  restsLast : n.RestsLast
  keysDiffer : uniqueKeys = true → n.KeysDiffer

/-- The node is put together as it should be whatever is below it. -/
@[reducible] def Node.isFree : Node → Bool
  | .pattern (.array _ _) | .pattern (.object _ _) => false
  | _ => true

theorem Node.PatternFits.free {uniqueKeys : Bool} {n : Node} (h : n.isFree = true) :
    n.PatternFits uniqueKeys := by
  have hrests : n.RestsLast := by
    unfold RestsLast
    split
    · cases h
    · cases h
    · trivial
  have hkeys : n.KeysDiffer := by
    unfold KeysDiffer
    split
    · cases h
    · trivial
  exact ⟨hrests, fun _ => hkeys⟩

/-- Where names and strings differ, two properties with one name have a number as a key. -/
theorem Node.KeysDiffer.names {span : Text.Span} {properties : List PatternProperty}
    (h : (Node.pattern (.object span properties)).KeysDiffer) :
    properties.Pairwise fun q r => ∀ name, q.name? = some name → r.name? = some name →
      q.hasNumber = true ∨ r.hasNumber = true := by
  refine (List.pairwise_filterMap.mp h).imp fun {q r} hdiffer name hq hr => ?_
  obtain hnumber | hq := PatternProperty.staticKey?_of_name? hq
  · exact .inl hnumber
  obtain hnumber | hr := PatternProperty.staticKey?_of_name? hr
  · exact .inr hnumber
  exact absurd rfl (hdiffer name hq name hr)

/-- All patterns in the node are put together as they should be. -/
def Node.Tidy (uniqueKeys : Bool) : Node → Prop := Every (PatternFits uniqueKeys)

end Shape

end EcmaSyntax.Tree
