import EcmaSyntax.Options
import EcmaSyntax.Proofs.Lexer.Names
import EcmaSyntax.Proofs.Tree.Node
import EcmaSyntax.Token.Operator
import EcmaSyntax.Tree.Basic

/-!
What is around a node. A node of a program stands at a place, which says in which region
it lies, what gives `this` its meaning there, whether the code is strict, and how the node
stands in the one above it. Heritage clauses, computed keys and decorators lie in the
region around their class or object. On the places of a program depends where `yield`,
`await`, `super`, `new.target` and `return` may stand, which names may be used, and which
functions may repeat a parameter. How names, literals and the targets of assignments are spelled
is a rule of the same kind, which hardly depends on the place.
-/

namespace EcmaSyntax.Tree

variable {version : Nat} [Unicode.IdentifierChars version]

/-- Code that is run apart from what stands around it. -/
inductive Region where
  | functionParameters
  | functionBody (generator isAsync : Bool)
  | arrowParameters
  | arrowBody (isAsync : Bool)
  | fieldInitializer
  | staticBlock
deriving DecidableEq, Repr

/-- What a function is to the object or class in which it stands. -/
inductive FunctionRole where
  | plain
  /-- A method, getter or setter of an object. -/
  | objectMethod
  /-- Of a class, which may have a superclass. -/
  | classMethod (kind : MethodKind) (derived : Bool)
deriving DecidableEq, Repr

/-- A region that gives `this` its meaning, as arrow functions do not. -/
inductive ThisRegion where
  | function (role : FunctionRole)
  | fieldInitializer
  | staticBlock
deriving DecidableEq, Repr

/-- How a node stands in the one above it, where that matters. -/
inductive Slot where
  | value
  | callee
  /-- The object of a member. -/
  | object
  /-- A name after a point or of a property, which is no expression. -/
  | name
  /-- The value of a property of an object that has no other name. -/
  | shorthand
  | method (role : FunctionRole)
deriving DecidableEq, Repr

namespace Slot

/-- What a function in this place is. -/
def role : Slot → FunctionRole
  | .method role => role
  | _ => .plain

/-- How the target of an assignment in this place stands. -/
def target : Slot → Slot
  | .shorthand => .shorthand
  | _ => .value

end Slot

structure Place where
  strict : Bool
  /-- The innermost region. -/
  region : Option Region
  /-- The innermost region that gives `this` its meaning. -/
  thisRegion : Option ThisRegion
  /-- The class whose element stands here has a superclass. -/
  derived : Bool
  slot : Slot
deriving DecidableEq, Repr

/-- The text of a directive. -/
def Statement.directive? : Statement → Option String
  | .expression _ _ directive => directive
  | _ => none

/-- One of the directives at the start of a body makes it strict. -/
def startsStrict (body : List Statement) : Bool :=
  (body.takeWhile fun s => s.directive?.isSome).any fun s => s.directive? == some "use strict"

namespace Place

def as (place : Place) (slot : Slot) : Place := { place with slot := slot }

/-- The place of a name, or of the expression between brackets that computes it. -/
def asKey (place : Place) (computed : Bool) : Place :=
  place.as (if computed then .value else .name)

def functionParameters (place : Place) (f : Function) : Place where
  strict := place.strict || startsStrict f.body
  region := some .functionParameters
  thisRegion := some (.function place.slot.role)
  derived := place.derived
  slot := .value

def functionBody (place : Place) (f : Function) : Place where
  strict := place.strict || startsStrict f.body
  region := some (.functionBody f.generator f.isAsync)
  thisRegion := some (.function place.slot.role)
  derived := place.derived
  slot := .value

def arrowParameters (place : Place) (turnsStrict : Bool) : Place where
  strict := place.strict || turnsStrict
  region := some .arrowParameters
  thisRegion := place.thisRegion
  derived := place.derived
  slot := .value

def arrowBody (place : Place) (turnsStrict isAsync : Bool) : Place where
  strict := place.strict || turnsStrict
  region := some (.arrowBody isAsync)
  thisRegion := place.thisRegion
  derived := place.derived
  slot := .value

/-- The place of the heritage clause of a class. -/
def heritage (place : Place) : Place where
  strict := true
  region := place.region
  thisRegion := place.thisRegion
  derived := place.derived
  slot := .value

def classElement (place : Place) (derived : Bool) : Place where
  strict := true
  region := place.region
  thisRegion := place.thisRegion
  derived := derived
  slot := .value

def fieldInitializer (place : Place) : Place where
  strict := place.strict
  region := some .fieldInitializer
  thisRegion := some .fieldInitializer
  derived := place.derived
  slot := .value

def staticBlock (place : Place) : Place where
  strict := place.strict
  region := some .staticBlock
  thisRegion := some .staticBlock
  derived := place.derived
  slot := .value

end Place

/-- How the value of a property stands in an object. -/
def propertySlot (kind : PropertyKind) (method shorthand : Bool) : Slot :=
  if method || kind != .init then .method .objectMethod
  else if shorthand then .shorthand
  else .value

namespace Node

/-- The nodes directly below one that stands at a place, each with its own place. -/
def parts (place : Place) : Node → List (Place × Node)
  | .expression (.function f) => [(place.as (.method place.slot.role), function f)]
  | .expression (.arrow _ isAsync params body) =>
    (place.arrowBody false isAsync, expression body) ::
      params.map fun p => (place.arrowParameters false, pattern p)
  | .expression (.blockArrow _ isAsync params _ body) =>
    params.map (fun p => (place.arrowParameters (startsStrict body), pattern p)) ++
      body.map fun s => (place.arrowBody (startsStrict body) isAsync, statement s)
  | .expression (.member _ object property computed _) =>
    [(place.as .object, expression object), (place.asKey computed, expression property)]
  | .expression (.call _ callee arguments _) =>
    (place.as .callee, expression callee) :: arguments.map fun x => (place.as .value, element x)
  | .expression (.assignment _ _ left right) =>
    [(place.as place.slot.target, pattern left), (place.as .value, expression right)]
  | .function f =>
    f.params.map (fun p => (place.functionParameters f, pattern p)) ++
      f.body.map fun s => (place.functionBody f, statement s)
  | .member (.property _ key value kind method shorthand computed) =>
    [(place.asKey computed, expression key),
      (place.as (propertySlot kind method shorthand), expression value)]
  | .pattern (.member _ object property computed _) =>
    [(place.as .object, expression object), (place.asKey computed, expression property)]
  | .patternProperty (.property _ key value _ computed) =>
    [(place.asKey computed, expression key), (place.as .value, pattern value)]
  | .classDefinition c =>
    (ofOption c.superClass).map (fun e => (place.heritage, e)) ++
      (c.elements.map (fun x => (place.classElement c.superClass.isSome, classElement x)) ++
        c.decorators.map fun d => (place.as .value, decorator d))
  | .classElement (.method _ _ computed key kind value decorators) =>
    (place.asKey computed, expression key) ::
      (place.as (.method (.classMethod kind place.derived)), function value) ::
        decorators.map fun d => (place.as .value, decorator d)
  | .classElement (.field _ _ computed key value decorators) =>
    (place.asKey computed, expression key) ::
      ((ofOption value).map (fun e => (place.fieldInitializer, e)) ++
        decorators.map fun d => (place.as .value, decorator d))
  | .classElement (.staticBlock _ body) =>
    body.map fun s => (place.staticBlock, statement s)
  | n => n.children.map fun c => (place.as .value, c)

/-- Every node directly below has a place. -/
theorem map_snd_parts (place : Place) (n : Node) : (n.parts place).map Prod.snd = n.children := by
  unfold parts
  split <;> simp [children, ofExpression, ofPattern, Function.comp_def]

/-- The second node stands at its place below the first. -/
abbrev Holds (outer inner : Place × Node) : Prop := inner ∈ outer.2.parts outer.1

end Node

/-- Where the statements of a program stand. -/
def Program.place (p : Program) (impliedStrict : Bool) : Place where
  strict := p.isModule || impliedStrict || startsStrict p.body
  region := none
  thisRegion := none
  derived := false
  slot := .value

/-- The node stands at the place in the program. -/
def Program.Places (p : Program) (impliedStrict : Bool) (place : Place) (n : Node) : Prop :=
  ∃ s ∈ p.body,
    Relation.ReflTransGen Node.Holds (p.place impliedStrict, .statement s) (place, n)

/-- Every node of a program stands at a place, and nothing else does. -/
theorem Program.contains_iff_places {p : Program} {impliedStrict : Bool} {n : Node} :
    p.Contains n ↔ ∃ place, p.Places impliedStrict place n := by
  constructor
  · rintro ⟨s, hs, hwithin⟩
    suffices h : ∃ place, Relation.ReflTransGen Node.Holds
        (p.place impliedStrict, .statement s) (place, n) from
      h.imp fun place h => ⟨s, hs, h⟩
    induction hwithin with
    | refl => exact ⟨_, .refl⟩
    | tail _ hc ih =>
      obtain ⟨place, h⟩ := ih
      rw [← Node.map_snd_parts place] at hc
      obtain ⟨⟨inner, c⟩, hmem, rfl⟩ := List.mem_map.mp hc
      exact ⟨inner, h.tail hmem⟩
  · rintro ⟨place, s, hs, h⟩
    refine ⟨s, hs, h.lift Prod.snd fun outer inner hinner => ?_⟩
    change inner.2 ∈ outer.2.children
    rw [← Node.map_snd_parts outer.1]
    exact List.mem_map_of_mem hinner

section Rules

/-- `yield` is an operator here. -/
def Place.Yields (place : Place) : Prop :=
  ∃ isAsync, place.region = some (.functionBody true isAsync)

/-- `await` is an operator here. -/
def Place.Awaits (place : Place) (isModule : Bool) : Prop :=
  (∃ generator, place.region = some (.functionBody generator true)) ∨
    place.region = some (.arrowBody true) ∨ place.region = none ∧ isModule = true

/-- `yield` stands in the body of a generator, and `await` in that of an asynchronous
function or at the top of a module. -/
def OperatorFits (isModule : Bool) (place : Place) : Node → Prop
  | .expression (.yield _ _ _) => place.Yields
  | .expression (.await _ _) => place.Awaits isModule
  | .statement (.forOfStatement _ true _ _ _) => place.Awaits isModule
  | _ => True

/-- A `yield`, an `await` or a loop that waits for what it runs over. -/
def Node.isOperator : Node → Bool
  | .expression (.yield _ _ _) | .expression (.await _ _)
  | .statement (.forOfStatement _ true _ _ _) => true
  | _ => false

/-- Nothing is an operator in the parameters of an arrow function. -/
theorem region_ne_arrowParameters {isModule : Bool} {place : Place} {n : Node}
    (h : OperatorFits isModule place n) (hn : n.isOperator = true) :
    place.region ≠ some .arrowParameters := by
  unfold OperatorFits at h
  split at h
  · obtain ⟨isAsync, hregion⟩ := h
    simp [hregion]
  · rcases h with ⟨generator, hregion⟩ | hregion | ⟨hregion, -⟩ <;> simp [hregion]
  · rcases h with ⟨generator, hregion⟩ | hregion | ⟨hregion, -⟩ <;> simp [hregion]
  · rename_i hyield hawait hloop
    unfold Node.isOperator at hn
    split at hn
    · exact absurd rfl (hyield _ _ _)
    · exact absurd rfl (hawait _ _)
    · exact absurd rfl (hloop _ _ _ _)
    · cases hn

/-- `super` has properties here. -/
def Place.HasSuper (place : Place) : Prop :=
  place.thisRegion = some (.function .objectMethod) ∨
    (∃ kind derived, place.thisRegion = some (.function (.classMethod kind derived))) ∨
    place.thisRegion = some .fieldInitializer ∨ place.thisRegion = some .staticBlock

/-- `super` can be called here. -/
def Place.CallsSuper (place : Place) : Prop :=
  place.thisRegion = some (.function (.classMethod .constructor true))

/-- `arguments` is no name here. -/
def Place.LacksArguments (place : Place) : Prop :=
  place.thisRegion = some .fieldInitializer ∨ place.thisRegion = some .staticBlock

/-- `return` is allowed here. -/
def Place.Returns (place : Place) (globalReturn : Bool) : Prop :=
  (∃ generator isAsync, place.region = some (.functionBody generator isAsync)) ∨
    (∃ isAsync, place.region = some (.arrowBody isAsync)) ∨
    place.region = none ∧ globalReturn = true

/-- What the place has to offer to the node: `super` is called in the constructor of a
class with a superclass, or has properties where there is one; `new.target` stands in some
function, initializer or block; `return` stands in a function; and no initializer or block
has `arguments`. -/
def ReferenceFits (globalReturn : Bool) (place : Place) : Node → Prop
  | .expression (.superKeyword _) =>
    place.slot = .callee ∧ place.CallsSuper ∨ place.slot = .object ∧ place.HasSuper
  | .expression (.metaProperty _ object _) => object.name = "new" → place.thisRegion ≠ none
  | .expression (.identifier id) =>
    id.name = "arguments" → place.slot ≠ .name → ¬ place.LacksArguments
  | .statement (.returnStatement _ _) => place.Returns globalReturn
  | _ => True

/-- The name is no word that strict code reserves. -/
def IsUnreserved (name : String) : Prop :=
  ∀ token, Token.ofKeyword? name = some token → token.isStrictReserved = false

/-- Strict code may assign to the name. -/
def IsAssignable (name : String) : Prop := name ≠ "eval" ∧ name ≠ "arguments"

/-- Strict code may bind the name. -/
structure IsBindable (name : String) : Prop where
  unreserved : IsUnreserved name
  assignable : IsAssignable name

/-- The name that an import binds. -/
def ImportSpecifier.binding : ImportSpecifier → Identifier
  | .named _ _ binding | .default _ binding | .all _ binding => binding

/-- What strict code refuses: `with`, to delete a name, to bind or assign to `eval` and
`arguments`, and its reserved words as names. The name of a function is strict if its body
is, and that of a class always. A shorthand property of an object that has an initializer
is left out, as far as `eval` and `arguments` go. -/
def StrictFits (place : Place) : Node → Prop
  | .statement (.withStatement _ _ _) => place.strict = false
  | .expression (.unary _ .delete argument) =>
    place.strict = true → ∀ id, argument.withoutParens ≠ .identifier id
  | .expression (.update _ _ _ argument) =>
    place.strict = true → ∀ id, argument.withoutParens = .identifier id → IsAssignable id.name
  | .expression (.identifier id) =>
    place.strict = true → place.slot ≠ .name → IsUnreserved id.name
  | .pattern (.identifier id) =>
    place.strict = true → IsUnreserved id.name ∧ (place.slot ≠ .shorthand → IsAssignable id.name)
  | .function f =>
    (place.strict || startsStrict f.body) = true → ∀ id ∈ f.id, IsBindable id.name
  | .classDefinition c => ∀ id ∈ c.id, IsBindable id.name
  | .statement (.labeled _ label _) => place.strict = true → IsUnreserved label.name
  | .statement (.importDeclaration d) =>
    place.strict = true → ∀ x ∈ d.specifiers, IsBindable x.binding.name
  | _ => True

/-- A jump in strict code has no reserved word as its label. -/
def JumpLabelFits (place : Place) : Node → Prop
  | .statement (.breakStatement _ (some label)) | .statement (.continueStatement _ (some label)) =>
    place.strict = true → IsUnreserved label.name
  | _ => True

/-- The names that parameters bind, in the order in which they stand. -/
def parameterNames (params : List Pattern) : List Identifier := params.flatMap Pattern.boundNames

/-- No two of the names are the same. -/
def AreDistinct (names : List Identifier) : Prop := (names.map Identifier.name).Nodup

/-- Only plain functions with plain parameters may repeat a parameter, and not in strict
code. -/
def ParametersFit (place : Place) : Node → Prop
  | .function f =>
    ¬ AreDistinct (parameterNames f.params) →
      place.slot.role = .plain ∧ f.generator = false ∧ f.isAsync = false ∧
        (∀ p ∈ f.params, p.isSimple = true) ∧ (place.strict || startsStrict f.body) = false
  | .expression (.arrow _ _ params _) | .expression (.blockArrow _ _ params _ _) =>
    AreDistinct (parameterNames params)
  | _ => True

/-- The name is spelled as a name. -/
structure IsWord (name : String) : Prop where
  fits : Lexer.FitsName true name.toList
  nonempty : name.toList ≠ []

/-- The name is no word that all code reserves. -/
def IsReference (name : String) : Prop :=
  ∀ token, Token.ofKeyword? name = some token → token.isReserved = false

/-- The text of the literal, if it is kept, starts like one, unless it is a keyword. -/
structure Literal.IsSpelled (lit : Literal) : Prop where
  raw : ∀ text ∈ lit.raw, Lexer.OpensLiteral text.toList ∨ text ∈ ["true", "false", "null"]
  digits : ∀ digits, lit.value = .bigint digits → Lexer.OpensLiteral digits.toList

/-- The target of an assignment is spelled as one, and it has no default of its own. -/
def Pattern.IsTarget : Pattern → Prop
  | .identifier id => IsWord id.name ∧ IsReference id.name
  | .withDefault _ _ _ => False
  | _ => True

/-- How the node is spelled. -/
def SpellingFits (place : Place) : Node → Prop
  | .expression (.identifier id) => IsWord id.name ∧ (place.slot ≠ .name → IsReference id.name)
  | .expression (.literal lit) => lit.IsSpelled
  | .expression (.metaProperty _ object _) => object.name = "new" ∨ object.name = "import"
  | .expression (.assignment _ _ left _) => left.IsTarget
  | _ => True

/-- The node may stand at the place. -/
structure NodeFits (options : Options) (place : Place) (n : Node) : Prop where
  operator : OperatorFits options.module place n
  reference : ReferenceFits options.globalReturn place n
  strict : StrictFits place n
  parameters : ParametersFit place n
  spelling : SpellingFits place n

end Rules

/-- A node and all nodes below it may stand where they do when the node stands at the
place. -/
def Suits (options : Options) (place : Place) (n : Node) : Prop :=
  ∀ inner, Relation.ReflTransGen Node.Holds (place, n) inner → NodeFits options inner.1 inner.2

namespace Suits

variable {options : Options} {place : Place} {n : Node}

theorem node (hn : NodeFits options place n)
    (hparts : ∀ part ∈ n.parts place, Suits options part.1 part.2) : Suits options place n := by
  intro inner hinner
  rcases Relation.ReflTransGen.cases_head hinner with heq | ⟨part, hpart, hrest⟩
  · rwa [← heq]
  · exact hparts part hpart inner hrest

theorem leaf (hn : NodeFits options place n) (hnone : n.parts place = []) :
    Suits options place n := .node hn (by simp [hnone])

theorem pair {first second : Place × Node} (hn : NodeFits options place n)
    (hfirst : Suits options first.1 first.2) (hsecond : Suits options second.1 second.2)
    (htwo : n.parts place = [first, second]) : Suits options place n :=
  .node hn (by simpa [htwo] using ⟨hfirst, hsecond⟩)

theorem here (h : Suits options place n) : NodeFits options place n := h _ .refl

theorem part (h : Suits options place n) {part : Place × Node} (hpart : part ∈ n.parts place) :
    Suits options part.1 part.2 := fun inner hinner => h inner (.head hpart hinner)

end Suits

namespace Node

/-- A node that makes no demands and hands its place on to the nodes below it. -/
def isTransparent : Node → Bool
  | .expression (.function _) | .expression (.arrow _ _ _ _)
  | .expression (.blockArrow _ _ _ _ _) | .expression (.member _ _ _ _ _)
  | .expression (.call _ _ _ _) | .expression (.assignment _ _ _ _)
  | .expression (.superKeyword _) | .expression (.metaProperty _ _ _)
  | .expression (.identifier _) | .expression (.literal _)
  | .expression (.yield _ _ _) | .expression (.await _ _)
  | .expression (.unary _ .delete _) | .expression (.update _ _ _ _) => false
  | .pattern (.identifier _) | .pattern (.member _ _ _ _ _) => false
  | .patternProperty (.property _ _ _ _ _) | .member (.property _ _ _ _ _ _ _) => false
  | .function _ | .classDefinition _ | .classElement _ => false
  | .statement (.withStatement _ _ _) | .statement (.returnStatement _ _)
  | .statement (.labeled _ _ _) | .statement (.importDeclaration _)
  | .statement (.forOfStatement _ true _ _ _) => false
  | _ => true

end Node

theorem NodeFits.of_isTransparent {options : Options} {place : Place} {n : Node}
    (h : n.isTransparent = true) : NodeFits options place n := by
  constructor
  · unfold OperatorFits
    split <;> trivial
  · unfold ReferenceFits
    split <;> trivial
  · unfold StrictFits
    split <;> trivial
  · unfold ParametersFit
    split <;> trivial
  · unfold SpellingFits
    split <;> trivial

theorem Node.parts_of_isTransparent {place : Place} {n : Node} (h : n.isTransparent = true) :
    n.parts place = n.children.map fun c => (place.as .value, c) := by
  unfold parts
  split <;> first | rfl | cases h

end EcmaSyntax.Tree
