import EcmaSyntax.Grammar.Name
import EcmaSyntax.Proofs.Tree.Places

/-!
What a parse permits in a context, next to the place where a node comes to stand. A
context covers a place if it permits no more than the place does; a node is allowed in a
context if it may stand wherever the context covers the place. So the rules for places
turn into one rule for each kind of node.
-/

namespace EcmaSyntax.Grammar

open EcmaSyntax.Diagnostic EcmaSyntax.Text EcmaSyntax.Tree

variable {version : Nat} [Unicode.IdentifierChars version]

/-- The part of a context on which the places of nodes depend. -/
structure Grant where
  strict : Bool
  inFunction : Bool
  inGenerator : Bool
  inAsync : Bool
  inMethod : Bool
  inDerivedConstructor : Bool
  inClassField : Bool
  inParameters : Bool
  newTarget : Bool
deriving DecidableEq, Repr

def Context.grant (ctx : Context) : Grant where
  strict := ctx.strict
  inFunction := ctx.inFunction
  inGenerator := ctx.inGenerator
  inAsync := ctx.inAsync
  inMethod := ctx.inMethod
  inDerivedConstructor := ctx.inDerivedConstructor
  inClassField := ctx.inClassField
  inParameters := ctx.inParameters
  newTarget := ctx.newTarget

/-- Strict code, if it was so already or turns strict. -/
def Grant.turn (grant : Grant) (turnsStrict : Bool) : Grant :=
  { grant with strict := grant.strict || turnsStrict }

/-- What is permitted is permitted at the place. As long as nothing is exposed, there is
no `yield`, `await` or `return` outside of functions, so it does not matter whether the
place has any; the same holds in parameters, where such operators are refused. -/
structure CoversPlace (options : Options) (exposed : Prop) (grant : Grant) (place : Place) :
    Prop where
  strict : place.strict = true → grant.strict = true
  yields : exposed → grant.inParameters = false → grant.inGenerator = true → place.Yields
  awaits : exposed → grant.inParameters = false → grant.inAsync = true →
    place.Awaits options.module
  returns : exposed → grant.inParameters = false → grant.inFunction = true →
    place.Returns options.globalReturn
  hasSuper : grant.inMethod = true → place.HasSuper
  callsSuper : grant.inDerivedConstructor = true → place.CallsSuper
  newTarget : grant.newTarget = true → place.thisRegion ≠ none
  arguments : place.LacksArguments → grant.inClassField = true

/-- The node may stand in this way wherever the place is covered. -/
def AllowedAs (options : Options) (exposed : Prop) (grant : Grant) (slot : Slot) (n : Node) :
    Prop :=
  ∀ place, CoversPlace options exposed grant place → Suits options (place.as slot) n

abbrev Allowed (options : Options) (exposed : Prop) (grant : Grant) (n : Node) : Prop :=
  AllowedAs options exposed grant .value n

/-- A name of a property, or an expression between brackets that computes one. -/
abbrev AllowedKey (options : Options) (exposed : Prop) (grant : Grant) (computed : Bool)
    (key : Expression) : Prop :=
  AllowedAs options exposed grant (if computed then .value else .name) (.expression key)

variable {options : Options} {exposed : Prop} {grant : Grant} {place : Place}

/-- A place that everything covers, in the constructor of a class. -/
theorem covers_constructor : CoversPlace options exposed grant
    ⟨false, some (.functionBody true true),
      some (.function (.classMethod .constructor true)), true, .value⟩ where
  strict := nofun
  yields _ _ _ := ⟨true, rfl⟩
  awaits _ _ _ := .inl ⟨true, rfl⟩
  returns _ _ _ := .inl ⟨true, true, rfl⟩
  hasSuper _ := .inr (.inl ⟨.constructor, true, rfl⟩)
  callsSuper _ := rfl
  newTarget _ := nofun
  arguments h := by rcases h with h | h <;> cases h

/-- What is allowed in this way stands so at some place. -/
theorem AllowedAs.suits {slot : Slot} {n : Node} (h : AllowedAs options exposed grant slot n) :
    ∃ place : Place, Suits options (place.as slot) n := ⟨_, h _ covers_constructor⟩

section Names

variable {ctx : Context} {kind : Scope.BindingKind} {name : String}

theorem isUnreserved_of_reference (h : referenceFault? ctx name = none)
    (hstrict : ctx.strict = true) : IsUnreserved name := by
  intro token htoken
  unfold referenceFault? at h
  rw [htoken] at h
  simp only [hstrict, Bool.and_true] at h
  grind

theorem isReference_of_reference (h : referenceFault? ctx name = none) : IsReference name := by
  intro token htoken
  unfold referenceFault? at h
  rw [htoken] at h
  grind

theorem hasArguments_of_reference (h : referenceFault? ctx "arguments" = none) :
    ctx.inClassField = false := by
  refine Bool.eq_false_iff.mpr fun hfield => ?_
  simp [referenceFault?, show Token.ofKeyword? "arguments" = none by decide, hfield] at h

theorem isAssignable_of_target (h : targetFault? ctx name = none) (hstrict : ctx.strict = true) :
    IsAssignable name := by
  unfold targetFault? isEvalOrArguments at h
  simp only [hstrict, Bool.true_and] at h
  unfold IsAssignable
  grind

theorem reference_of_binding (h : bindingFault? ctx kind name = none) :
    referenceFault? ctx name = none := by
  unfold bindingFault? at h
  cases hreference : referenceFault? ctx name with
  | none => rfl
  | some cause => simp [hreference] at h

theorem target_of_binding (h : bindingFault? ctx kind name = none) :
    targetFault? ctx name = none := by
  unfold bindingFault? at h
  rw [reference_of_binding h] at h
  cases htarget : targetFault? ctx name with
  | none => rfl
  | some cause => simp [htarget] at h

theorem isBindable_of_binding (h : bindingFault? ctx kind name = none)
    (hstrict : ctx.strict = true) : IsBindable name :=
  ⟨isUnreserved_of_reference (reference_of_binding h) hstrict,
    isAssignable_of_target (target_of_binding h) hstrict⟩

end Names

namespace AllowedAs

variable {slot : Slot}

section Transparent

variable {α β : Type} {n c d k : Node}

theorem node (hn : n.isTransparent = true)
    (hc : ∀ c ∈ n.children, Allowed options exposed grant c) :
    AllowedAs options exposed grant slot n := by
  intro place hplace
  refine .node (.of_isTransparent hn) ?_
  rw [Node.parts_of_isTransparent hn]
  exact List.forall_mem_map.mpr fun c hmem => hc c hmem place hplace

theorem leaf (hn : n.isTransparent = true) (hnone : n.children = []) :
    AllowedAs options exposed grant slot n := .node hn (by simp [hnone])

theorem single (hn : n.isTransparent = true) (hc : Allowed options exposed grant c)
    (hone : n.children = [c]) : AllowedAs options exposed grant slot n :=
  .node hn (by simpa [hone] using hc)

theorem pair (hn : n.isTransparent = true) (hc : Allowed options exposed grant c)
    (hd : Allowed options exposed grant d) (htwo : n.children = [c, d]) :
    AllowedAs options exposed grant slot n :=
  .node hn (by simpa [htwo] using ⟨hc, hd⟩)

theorem triple (hn : n.isTransparent = true) (hc : Allowed options exposed grant c)
    (hd : Allowed options exposed grant d) (hk : Allowed options exposed grant k)
    (hthree : n.children = [c, d, k]) : AllowedAs options exposed grant slot n :=
  .node hn (by simpa [hthree] using ⟨hc, hd, hk⟩)

theorem list {f : α → Node} {items : List α} (hn : n.isTransparent = true)
    (hitems : ∀ a ∈ items, Allowed options exposed grant (f a))
    (hall : n.children = items.map f) : AllowedAs options exposed grant slot n :=
  .node hn (by simpa [hall] using hitems)

theorem consList {f : α → Node} {items : List α} (hn : n.isTransparent = true)
    (hc : Allowed options exposed grant c)
    (hitems : ∀ a ∈ items, Allowed options exposed grant (f a))
    (hall : n.children = c :: items.map f) : AllowedAs options exposed grant slot n :=
  .node hn (by simpa [hall] using ⟨hc, hitems⟩)

theorem lists {f : α → Node} {l : β → Node} {items : List α} {others : List β}
    (hn : n.isTransparent = true) (hitems : ∀ a ∈ items, Allowed options exposed grant (f a))
    (hothers : ∀ b ∈ others, Allowed options exposed grant (l b))
    (hall : n.children = items.map f ++ others.map l) : AllowedAs options exposed grant slot n := by
  refine .node hn ?_
  rw [hall]
  exact List.forall_mem_append.mpr
    ⟨List.forall_mem_map.mpr hitems, List.forall_mem_map.mpr hothers⟩

theorem ofOption {e : Option Expression}
    (h : ∀ x ∈ e, Allowed options exposed grant (.expression x)) :
    ∀ c ∈ Node.ofOption e, Allowed options exposed grant c := by
  cases e with
  | none => exact nofun
  | some x => exact List.forall_mem_singleton.mpr (h x rfl)

end Transparent

section Expressions

variable {span : Span} {ctx : Context}

theorem identifier {id : Identifier} (hword : IsWord id.name)
    (h : referenceFault? ctx id.name = none) :
    AllowedAs options exposed ctx.grant slot (.expression (.identifier id)) := by
  refine fun place hplace => .leaf ⟨trivial, ?_, ?_, trivial, hword, fun _ =>
    isReference_of_reference h⟩ rfl
  · intro hname _ hlacks
    rw [hname] at h
    have hfield := hplace.arguments hlacks
    rw [show ctx.grant.inClassField = false from hasArguments_of_reference h] at hfield
    cases hfield
  · exact fun hstrict _ => isUnreserved_of_reference h (hplace.strict hstrict)

theorem name {id : Identifier} (hword : IsWord id.name) :
    AllowedAs options exposed grant .name (.expression (.identifier id)) :=
  fun _ _ => .leaf ⟨trivial, fun _ h => absurd rfl h, fun _ h => absurd rfl h, trivial, hword,
    fun h => absurd rfl h⟩ rfl

theorem literal {lit : Literal} (h : lit.IsSpelled) :
    AllowedAs options exposed grant slot (.expression (.literal lit)) :=
  fun _ _ => .leaf ⟨trivial, trivial, trivial, trivial, h⟩ rfl

theorem isWord {id : Identifier}
    (h : AllowedAs options exposed grant slot (.expression (.identifier id))) : IsWord id.name := by
  obtain ⟨place, hsuits⟩ := h.suits
  exact hsuits.here.spelling.1

/-- An expression may be called and have members, if it may stand by itself. -/
theorem operand {e : Expression} (h : Allowed options exposed grant (.expression e))
    (hslot : slot = .callee ∨ slot = .object) :
    AllowedAs options exposed grant slot (.expression e) := by
  intro place hplace
  have he := h place hplace
  obtain ⟨hoperator, hreference, hstrict, hparameters, hspelling⟩ := he.here
  have hname : slot ≠ .name := by rcases hslot with rfl | rfl <;> exact nofun
  refine .node ⟨?_, ?_, ?_, ?_, ?_⟩ ?_
  · cases e <;> exact hoperator
  · cases e with
    | identifier id => exact fun harguments _ => hreference harguments nofun
    | superKeyword span => simp [ReferenceFits, Place.as] at hreference
    | _ => exact hreference
  · cases e with
    | identifier id => exact fun hplace _ => hstrict hplace nofun
    | unary span operator argument => cases operator <;> exact hstrict
    | _ => exact hstrict
  · cases e <;> exact hparameters
  · cases e with
    | identifier id => exact ⟨hspelling.1, fun _ => hspelling.2 nofun⟩
    | _ => exact hspelling
  · intro part hpart
    refine he.part ?_
    rcases hslot with rfl | rfl
    · cases e <;> exact hpart
    · cases e <;> exact hpart

theorem superCall (h : grant.inDerivedConstructor = true) :
    AllowedAs options exposed grant .callee (.expression (.superKeyword span)) :=
  fun _ hplace => .leaf ⟨trivial, .inl ⟨rfl, hplace.callsSuper h⟩, trivial, trivial, trivial⟩ rfl

theorem superObject (h : grant.inMethod = true) :
    AllowedAs options exposed grant .object (.expression (.superKeyword span)) :=
  fun _ hplace => .leaf ⟨trivial, .inr ⟨rfl, hplace.hasSuper h⟩, trivial, trivial, trivial⟩ rfl

theorem metaProperty {object property : Identifier}
    (hname : object.name = "new" ∨ object.name = "import")
    (h : object.name = "new" → grant.newTarget = true) :
    Allowed options exposed grant (.expression (.metaProperty span object property)) :=
  fun _ hplace => .leaf
    ⟨trivial, fun hnew => hplace.newTarget (h hnew), trivial, trivial, hname⟩ rfl

theorem yield {delegate : Bool} {argument : Option Expression} (hexposed : exposed)
    (hparameters : grant.inParameters = false) (hgenerator : grant.inGenerator = true)
    (h : ∀ e ∈ argument, Allowed options exposed grant (.expression e)) :
    Allowed options exposed grant (.expression (.yield span delegate argument)) := by
  intro place hplace
  refine .node ⟨hplace.yields hexposed hparameters hgenerator, trivial, trivial,
    trivial, trivial⟩ ?_
  exact List.forall_mem_map.mpr fun c hc => ofOption h c hc place hplace

theorem await {argument : Expression} (hexposed : exposed)
    (hparameters : grant.inParameters = false) (hasync : grant.inAsync = true)
    (h : Allowed options exposed grant (.expression argument)) :
    Allowed options exposed grant (.expression (.await span argument)) := by
  intro place hplace
  refine .node ⟨hplace.awaits hexposed hparameters hasync, trivial, trivial, trivial, trivial⟩ ?_
  exact List.forall_mem_singleton.mpr (h place hplace)

theorem unary {operator : UnaryOperator} {argument : Expression}
    (hdelete : operator = .delete → grant.strict = true →
      ∀ id, argument.withoutParens ≠ .identifier id)
    (h : Allowed options exposed grant (.expression argument)) :
    Allowed options exposed grant (.expression (.unary span operator argument)) := by
  by_cases hoperator : operator = .delete
  · subst hoperator
    intro place hplace
    refine .node ⟨trivial, trivial, fun hstrict =>
      hdelete rfl (hplace.strict hstrict), trivial, trivial⟩ ?_
    exact List.forall_mem_singleton.mpr (h place hplace)
  · refine .single ?_ h rfl
    cases operator <;> first | rfl | exact absurd rfl hoperator

theorem update {operator : UpdateOperator} {isBefore : Bool} {argument : Expression}
    (htarget : grant.strict = true → ∀ id, argument.withoutParens = .identifier id →
      IsAssignable id.name)
    (h : Allowed options exposed grant (.expression argument)) :
    Allowed options exposed grant (.expression (.update span operator isBefore argument)) := by
  intro place hplace
  refine .node ⟨trivial, trivial, fun hstrict =>
    htarget (hplace.strict hstrict), trivial, trivial⟩ ?_
  exact List.forall_mem_singleton.mpr (h place hplace)

theorem assignment {operator : AssignmentOperator} {left : Pattern} {right : Expression}
    (htarget : left.IsTarget)
    (hleft : AllowedAs options exposed grant slot.target (.pattern left))
    (hright : Allowed options exposed grant (.expression right)) :
    AllowedAs options exposed grant slot (.expression (.assignment span operator left right)) :=
  fun place hplace => .pair ⟨trivial, trivial, trivial, trivial, htarget⟩ (hleft place hplace)
    (hright place hplace) rfl

theorem member {object property : Expression} {computed optional : Bool}
    (hobject : AllowedAs options exposed grant .object (.expression object))
    (hproperty : AllowedKey options exposed grant computed property) :
    AllowedAs options exposed grant slot
      (.expression (.member span object property computed optional)) :=
  fun place hplace => .pair ⟨trivial, trivial, trivial, trivial, trivial⟩ (hobject place hplace)
    (hproperty place hplace) rfl

theorem call {callee : Expression} {arguments : List Element} {optional : Bool}
    (hcallee : AllowedAs options exposed grant .callee (.expression callee))
    (harguments : ∀ x ∈ arguments, Allowed options exposed grant (.element x)) :
    Allowed options exposed grant (.expression (.call span callee arguments optional)) := by
  refine fun place hplace => .node ⟨trivial, trivial, trivial, trivial, trivial⟩ ?_
  refine List.forall_mem_cons.mpr ⟨hcallee place hplace, ?_⟩
  exact List.forall_mem_map.mpr fun x hx => harguments x hx place hplace

theorem property {key value : Expression} {kind : PropertyKind}
    {method shorthand computed : Bool} (hkey : AllowedKey options exposed grant computed key)
    (hvalue : AllowedAs options exposed grant (propertySlot kind method shorthand)
      (.expression value)) :
    Allowed options exposed grant
      (.member (.property span key value kind method shorthand computed)) :=
  fun place hplace => .pair ⟨trivial, trivial, trivial, trivial, trivial⟩ (hkey place hplace)
    (hvalue place hplace) rfl

end Expressions

section Patterns

variable {span : Span}

theorem binding {id : Identifier} (h : grant.strict = true → IsBindable id.name) :
    AllowedAs options exposed grant slot (.pattern (.identifier id)) := by
  refine fun place hplace => .leaf ⟨trivial, trivial, fun hstrict => ?_, trivial, trivial⟩ rfl
  have hname := h (hplace.strict hstrict)
  exact ⟨hname.unreserved, fun _ => hname.assignable⟩

/-- The target of the value of a shorthand property. -/
theorem shorthandTarget {id : Identifier} (h : grant.strict = true → IsUnreserved id.name) :
    AllowedAs options exposed grant .shorthand (.pattern (.identifier id)) :=
  fun _ hplace => .leaf ⟨trivial, trivial,
    fun hstrict => ⟨h (hplace.strict hstrict), fun hslot => absurd rfl hslot⟩, trivial, trivial⟩ rfl

theorem patternProperty {key : Expression} {value : Pattern} {shorthand computed : Bool}
    (hkey : AllowedKey options exposed grant computed key)
    (hvalue : Allowed options exposed grant (.pattern value)) :
    Allowed options exposed grant
      (.patternProperty (.property span key value shorthand computed)) :=
  fun place hplace => .pair ⟨trivial, trivial, trivial, trivial, trivial⟩ (hkey place hplace)
    (hvalue place hplace) rfl

end Patterns

section Statements

variable {span : Span}

theorem withStatement {object : Expression} {body : Statement} (hstrict : grant.strict = false)
    (hobject : Allowed options exposed grant (.expression object))
    (hbody : Allowed options exposed grant (.statement body)) :
    Allowed options exposed grant (.statement (.withStatement span object body)) := by
  intro place hplace
  refine .pair ⟨trivial, trivial, ?_, trivial, trivial⟩ (hobject place hplace)
    (hbody place hplace) rfl
  refine Bool.eq_false_iff.mpr fun hplace' => ?_
  rw [hplace.strict hplace'] at hstrict
  cases hstrict

theorem returnStatement {argument : Option Expression} (hexposed : exposed)
    (hparameters : grant.inParameters = false) (hfunction : grant.inFunction = true)
    (h : ∀ e ∈ argument, Allowed options exposed grant (.expression e)) :
    Allowed options exposed grant (.statement (.returnStatement span argument)) := by
  intro place hplace
  refine .node ⟨trivial, hplace.returns hexposed hparameters hfunction, trivial,
    trivial, trivial⟩ ?_
  exact List.forall_mem_map.mpr fun c hc => ofOption h c hc place hplace

theorem labeled {label : Identifier} {body : Statement}
    (hlabel : grant.strict = true → IsUnreserved label.name)
    (hbody : Allowed options exposed grant (.statement body)) :
    Allowed options exposed grant (.statement (.labeled span label body)) := by
  intro place hplace
  refine .node ⟨trivial, trivial, fun hstrict =>
    hlabel (hplace.strict hstrict), trivial, trivial⟩ ?_
  exact List.forall_mem_singleton.mpr (hbody place hplace)

theorem importDeclaration {declaration : ImportDeclaration}
    (h : grant.strict = true → ∀ x ∈ declaration.specifiers, IsBindable x.binding.name) :
    Allowed options exposed grant (.statement (.importDeclaration declaration)) :=
  fun _ hplace => .leaf ⟨trivial, trivial, fun hstrict =>
    h (hplace.strict hstrict), trivial, trivial⟩ rfl

theorem forOf {isAwait : Bool} {left : ForHead} {right : Expression} {body : Statement}
    (hexposed : exposed) (hparameters : grant.inParameters = false)
    (hawait : isAwait = true → grant.inAsync = true)
    (hleft : Allowed options exposed grant (.forHead left))
    (hright : Allowed options exposed grant (.expression right))
    (hbody : Allowed options exposed grant (.statement body)) :
    Allowed options exposed grant (.statement (.forOfStatement span isAwait left right body)) := by
  cases isAwait with
  | false => exact .triple rfl hleft hright hbody rfl
  | true =>
    intro place hplace
    have hoperator := hplace.awaits hexposed hparameters (hawait rfl)
    refine .node ⟨hoperator, trivial, trivial, trivial, trivial⟩ ?_
    refine List.forall_mem_cons.mpr ⟨hleft place hplace, ?_⟩
    refine List.forall_mem_cons.mpr ⟨hright place hplace, ?_⟩
    exact List.forall_mem_singleton.mpr (hbody place hplace)

end Statements

end AllowedAs

end EcmaSyntax.Grammar
