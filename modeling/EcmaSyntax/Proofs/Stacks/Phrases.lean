import EcmaSyntax.Proofs.Grammar.Preserve
import EcmaSyntax.Proofs.Progress.Loops

/-!
What a phrase opens it closes again. Four stacks are opened and closed by hand while a program is
read: the scopes, the labels of the statements around a place, the classes with their private names,
and the levels of nesting. Their levels are the same after a step that closes what it opens. That a
label was marked as the label of a loop is no part of them, so a statement behind a label is such a
step in every state.

Steps made of such steps are such steps, which is left to instances. Only two phrases do more: a
static block puts away the labels around it like a function does, and a class opens a table of
private names and its scope.
-/

set_option synthInstance.maxSize 4000

namespace EcmaSyntax.Grammar

open EcmaSyntax.Diagnostic EcmaSyntax.Lexer EcmaSyntax.Scope EcmaSyntax.Tree

variable {version : Nat} [Unicode.IdentifierChars version]

variable {α β : Type}

/-- How far each of the four stacks is filled, and with what. -/
structure Levels where
  /-- What the open scopes are for, from the inside out. -/
  scopes : List (List Role)
  /-- The names of the open labels, oldest first. -/
  labels : List String
  /-- The number of open classes. -/
  classes : Nat
  /-- The number of open levels of nesting. -/
  depth : Nat
deriving DecidableEq, Repr

def State.levels (s : State) : Levels where
  scopes := s.scopes.roles
  labels := s.labels.map Label.name
  classes := s.privateNames.length
  depth := s.depth

theorem State.levels_of_outline {s s' : State} (h : s'.outline = s.outline) :
    s'.levels = s.levels := by
  have hscopes : s'.scopes.roles = s.scopes.roles := congrArg Outline.scopes h
  have hlabels : s'.labels = s.labels := congrArg Outline.labels h
  have hclasses : s'.privateNames.length = s.privateNames.length := congrArg Outline.classes h
  have hdepth : s'.depth = s.depth := congrArg Outline.depth h
  unfold levels
  rw [hscopes, hlabels, hclasses, hdepth]

/-- What the step opens it closes again. -/
class Closes (step : Parser α) : Prop where
  yields : ∀ s, Yields step (fun _ s' => s'.levels = s.levels) s

namespace Closes

variable {step : Parser α} {rest : α → Parser β} {g : Phrases}

/-- A step from a state in between. -/
theorem after [h : Closes step] {s s₁ : State} (hs₁ : s₁.levels = s.levels) :
    Yields step (fun _ s' => s'.levels = s.levels) s₁ :=
  (h.yields s₁).mono fun _ _ hs' => hs'.trans hs₁

theorem bind (h : Closes step) (hrest : ∀ a, Closes (rest a)) : Closes (step >>= rest) :=
  ⟨fun s => (h.yields s).bind fun a _ hs' => (hrest a).after hs'⟩

/-- A step whose result decides what follows. -/
theorem skip [h : Closes step] (hrest : ∀ a, Closes (rest a)) : Closes (step >>= rest) :=
  h.bind hrest

theorem of_stops (h : Stops step) : Closes step := ⟨fun _ => h.yields⟩

theorem of_stops_bind (h : Stops step) : Closes (step >>= rest) := ⟨fun _ => h.bind⟩

end Closes

section Steps

variable {step : Parser α} {rest : α → Parser β} {g : Phrases}

instance (priority := low) [h : Plain step] : Closes step :=
  ⟨fun s => (h.touches s).mono fun _ _ hs' => State.levels_of_outline hs'.outline⟩

instance [h : Closes step] [hrest : ∀ a, Closes (rest a)] : Closes (step >>= rest) := h.bind hrest

-- Nothing is left to show of what stands behind a failure.
instance (priority := high) {cause : Cause} {offset : Nat} :
    Closes (failAt cause offset >>= rest) := .of_stops_bind (stops_failAt cause offset)

instance (priority := high) {cause : Cause} : Closes (fail cause >>= rest) :=
  .of_stops_bind (stops_fail cause)

instance (priority := high) : Closes (unexpected >>= rest) := .of_stops_bind stops_unexpected

instance [h : Closes step] {f : α → β} : Closes (f <$> step) := ⟨fun s => .map (h.yields s)⟩

instance {c : Prop} [Decidable c] {first second : Parser α} [Closes first] [Closes second] :
    Closes (if c then first else second) := by
  split <;> infer_instance

/-- A change to the parts of the state that are no stacks. -/
instance {lexer : State → Lexer.State} {observing assignable : State → Bool}
    {observations : State → Observations} {exports : State → Exports} {cover : State → Cover}
    {parenthesized spreads : State → List Nat}
    {labelChain lastYield lastAwait lastAwaitName assignmentStart : State → Option Nat}
    {previousEnd : State → Nat} :
    Closes (modify fun s => ⟨lexer s, observing s, observations s, s.scopes, s.privateNames,
      s.labels, labelChain s, exports s, assignable s, cover s, parenthesized s, spreads s,
      lastYield s, lastAwait s, lastAwaitName s, assignmentStart s, previousEnd s, s.depth,
      s.refused⟩ : Parser Unit) :=
  ⟨fun _ => .ok rfl rfl⟩

instance {step : Lexer α} : Closes (withLexer step) :=
  ⟨fun s => (withLexer_outline step s).mono fun _ _ => State.levels_of_outline⟩

instance {round : α → Parser (Option α)} [h : ∀ a, Closes (round a)] {fuel : Nat} {a : α} :
    Closes (iterate round fuel a) :=
  ⟨fun s => Yields.iterate (I := fun _ s' => s'.levels = s.levels)
    (fun a _ hs' => (h a).after hs') fuel a s rfl⟩

instance {round : List α → Parser (Round α)} [h : ∀ earlier, Closes (round earlier)] :
    Closes (g.collect round) := by
  refine ⟨fun s => Yields.collectAfter (I := fun _ s' => s'.levels = s.levels)
    (fun earlier s₁ hs₁ => ((h earlier).after hs₁).mono fun r s₂ hs₂ => ?_) g.size [] s rfl⟩
  cases r <;> exact hs₂

instance {close : Token} {item : List α → Parser α} [∀ earlier, Closes (item earlier)] :
    Closes (g.listed close item) := by
  unfold Phrases.listed; infer_instance

instance {close : Token} [Closes step] : Closes (g.itemsUpTo close step) := by
  unfold Phrases.itemsUpTo; infer_instance

end Steps

section Stacks

variable {step : Parser α}

/-- A phrase one level deeper. -/
instance [h : Closes step] : Closes (nested step) := by
  refine ⟨fun s => (enterNesting_frame s).bind fun _ s₁ hs₁ => ?_⟩
  subst hs₁
  refine (h.yields _).bind fun a s₂ hs₂ => .run rfl (.pure ?_)
  have hdepth : s₂.depth = s.depth + 1 := congrArg Levels.depth hs₂
  change { s₂.levels with depth := s₂.depth - 1 } = s.levels
  rw [hs₂, hdepth]
  rfl

instance [h : Closes step] {roles : List Role} : Closes (inScope roles step) := by
  refine ⟨fun s => .run rfl ((h.yields _).bind fun a s₁ hs₁ => .run rfl (.pure ?_))⟩
  have hroles : s₁.scopes.roles = roles :: s.scopes.roles := congrArg Levels.scopes hs₁
  change { s₁.levels with scopes := s₁.scopes.pop.roles } = s.levels
  rw [hs₁, Stack.roles_pop hroles s.scopes.roles_ne_nil]
  rfl

/-- Labels around a function are put away and come back after it. -/
instance [h : Closes step] : Closes (asFunction step) := by
  refine ⟨fun s => .run rfl (.run rfl ((h.yields _).bind fun a s₁ hs₁ => .run rfl (.pure ?_)))⟩
  change { s₁.levels with labels := s.levels.labels } = s.levels
  rw [hs₁]
  rfl

end Stacks

/-- The phrases close what they open. -/
class Phrases.Close (g : Phrases) : Prop where
  assignmentCover : ∀ ctx, Closes (g.assignmentCover ctx)
  unary : ∀ ctx, Closes (g.unary ctx)
  binary : ∀ ctx start left minimum, Closes (g.binary ctx start left minimum)
  newCall : ∀ ctx, Closes (g.newCall ctx)
  leftHandSide : ∀ ctx, Closes (g.leftHandSide ctx)
  markup : ∀ ctx exit, Closes (g.markup ctx exit)
  bindingTarget : ∀ ctx kind, Closes (g.bindingTarget ctx kind)
  statement : ∀ ctx position, Closes (g.statement ctx position)
  listItem : ∀ ctx, Closes (g.listItem ctx)

attribute [instance] Phrases.Close.assignmentCover Phrases.Close.unary Phrases.Close.binary
  Phrases.Close.newCall Phrases.Close.leftHandSide Phrases.Close.markup
  Phrases.Close.bindingTarget Phrases.Close.statement Phrases.Close.listItem

section Phrases

variable {g : Phrases} [g.Close] {ctx : Context} {kind : BindingKind} {start : Nat}

section Sequences

instance : Closes (g.assignment ctx) := by unfold Phrases.assignment; infer_instance

instance : Closes (g.covered ctx) := by unfold Phrases.covered; infer_instance

instance {first : Expression} : Closes (g.sequenceAfter ctx start first) := by
  unfold Phrases.sequenceAfter; infer_instance

instance : Closes (g.expression ctx) := by unfold Phrases.expression; infer_instance

end Sequences

section Literals

instance {tagged : Bool} : Closes (template g ctx tagged) := by unfold template; infer_instance

instance {allowPrivate : Bool} : Closes (propertyKey g ctx allowPrivate) := by
  unfold propertyKey
  refine .skip fun token => ?_
  split <;> infer_instance

omit [g.Close] in
instance : Closes memberName := by unfold memberName; infer_instance

omit [g.Close] in
instance {isSpread : Bool} {e : Expression} : Closes (elementFrom start isSpread e) := by
  unfold elementFrom; infer_instance

instance : Closes (coveredArguments g ctx) := by unfold coveredArguments; infer_instance

instance : Closes (arguments g ctx) := by unfold arguments; infer_instance

end Literals

section Bindings

instance : Closes (bindingElement g ctx kind) := by unfold bindingElement; infer_instance

instance {close : Token} : Closes (bindingRest g ctx kind close) := by
  unfold bindingRest; infer_instance

instance {earlier : List Pattern} : Closes (Round.arrayBinding g ctx kind earlier) := by
  refine .skip fun token => ?_
  split <;> infer_instance

instance : Closes (arrayBinding g ctx kind) := by unfold arrayBinding; infer_instance

instance {id : Identifier} : Closes (shorthandBinding g ctx kind start id) := by
  unfold shorthandBinding; infer_instance

instance {keys : List String} : Closes (propertyBinding g ctx kind keys) := by
  unfold propertyBinding; infer_instance

instance {earlier : List (PatternProperty × List String)} :
    Closes (Round.objectBinding g ctx kind earlier) := by
  refine .skip fun token => ?_
  split <;> infer_instance

instance : Closes (objectBinding g ctx kind) := by unfold objectBinding; infer_instance

instance : Closes (bindingTarget g ctx kind) := by
  have hbody : Closes (do
      match ← currentToken with
      | .leftBracket => arrayBinding g ctx kind
      | .leftBrace => objectBinding g ctx kind
      | _ => return .identifier (← bindingIdentifier g.options ctx kind)) := by
    refine .skip fun token => ?_
    split <;> infer_instance
  unfold bindingTarget; infer_instance

end Bindings

section Functions

instance : Closes (directive g ctx) := by
  unfold directive
  refine .skip fun s => .skip fun statement => ?_
  split
  · split <;> infer_instance
  · infer_instance

instance {simpleParams : Bool} : Closes (prologue g ctx simpleParams) := by
  unfold prologue; infer_instance

instance {simpleParams : Bool} {close : Token} :
    Closes (bodyStatements g ctx simpleParams close) := by
  unfold bodyStatements; infer_instance

instance {earlier : List Pattern} : Closes (Round.parameter g ctx earlier) := by
  refine .skip fun token => ?_
  split <;> infer_instance

instance : Closes (formalParameters g ctx) := by unfold formalParameters; infer_instance

instance {shape : FunctionShape} {name : Option Identifier} :
    Closes (functionParts g ctx shape name) := by
  unfold functionParts; infer_instance

instance {isAsync nameRequired : Bool} :
    Closes (functionDeclaration g ctx isAsync nameRequired) := by
  unfold functionDeclaration; infer_instance

instance {isAsync : Bool} : Closes (functionExpression g ctx start isAsync) := by
  unfold functionExpression; infer_instance

instance {isAsync generator : Bool} {shape : FunctionShape} :
    Closes (methodFunction g ctx isAsync generator shape) := by
  unfold methodFunction; infer_instance

end Functions

section Classes

/-- Labels around a static block are put away and come back after it. -/
instance : Closes (staticBlock g ctx start) := by
  unfold staticBlock
  refine .skip fun _ => ⟨fun s => .run rfl (.run rfl ?_)⟩
  refine (Closes.yields _).bind fun body s₁ hs₁ => .run rfl (.run rfl (.pure ?_))
  change { s₁.levels with labels := s.levels.labels } = s.levels
  rw [hs₁]
  rfl

instance : Closes (decoratorExpression g ctx) := by unfold decoratorExpression; infer_instance

instance : Closes (decorators g ctx) := by unfold decorators; infer_instance

instance {derived computed : Bool} {earlier : List ClassElement} {found : List Decorator}
    {keyStart : Nat} {m : Modifiers} {key : Expression} :
    Closes (classMethod g ctx derived earlier found start m key computed keyStart) := by
  unfold classMethod; infer_instance

instance {computed : Bool} {found : List Decorator} {keyStart : Nat} {m : Modifiers}
    {key : Expression} : Closes (classField g ctx found start m key computed keyStart) := by
  unfold classField; infer_instance

instance {derived : Bool} {earlier : List ClassElement} :
    Closes (classElement g ctx derived earlier) := by
  unfold classElement; infer_instance

instance {derived : Bool} : Closes (classBody g ctx derived) := by
  unfold classBody
  refine .skip fun classStart => .skip fun _ => ⟨fun s => .run rfl ?_⟩
  refine (Closes.yields _).bind fun elements s₁ hs₁ => .run rfl (.run rfl ?_)
  refine Closes.after ?_
  have hclasses : s₁.privateNames.length = s.privateNames.length + 1 :=
    congrArg Levels.classes hs₁
  change { s₁.levels with classes := s₁.privateNames.exitClass.2.length } = s.levels
  rw [hs₁, PrivateNames.length_exitClass, hclasses]
  rfl

instance {isDeclaration isDefaultExport : Bool} {found : List Decorator} :
    Closes (classDefinition g ctx start isDeclaration found isDefaultExport) := by
  unfold classDefinition
  refine .skip fun _ => .skip fun token => ?_
  extract_lets rest
  have hrest : ∀ id, Closes (rest id) := fun id => inferInstance
  clear_value rest
  infer_instance

end Classes

section Markup

instance : Closes (attributeValue g ctx) := by
  unfold attributeValue
  refine .skip fun start => .skip fun token => ?_
  split <;> infer_instance

instance : Closes (namedAttribute g ctx) := by unfold namedAttribute; infer_instance

instance : Closes (spreadAttribute g ctx) := by unfold spreadAttribute; infer_instance

instance {earlier : List MarkupAttribute} : Closes (Round.markupAttribute g ctx earlier) := by
  refine .skip fun token => ?_
  split <;> infer_instance

instance : Closes (attributes g ctx) := by unfold attributes; infer_instance

instance : Closes (childExpression g ctx) := by unfold childExpression; infer_instance

instance {earlier : List MarkupChild} : Closes (Round.child g ctx earlier) := by
  refine .skip fun token => ?_
  split <;> infer_instance

instance : Closes (children g ctx) := by unfold children; infer_instance

instance {exit : MarkupExit} : Closes (fragmentFrom g ctx exit start) := by
  unfold fragmentFrom; infer_instance

instance {exit : MarkupExit} : Closes (markupElement g ctx exit start) := by
  unfold markupElement; infer_instance

instance {exit : MarkupExit} : Closes (markup g ctx exit) := by unfold markup; infer_instance

instance : Closes (markupExpression g ctx) := by unfold markupExpression; infer_instance

end Markup

section Primary

instance : Closes (arrayLiteral g ctx) := by unfold arrayLiteral; infer_instance

instance {keyStart : Nat} {id : Identifier} :
    Closes (shorthandProperty g ctx start keyStart id) := by
  unfold shorthandProperty; infer_instance

instance : Closes (objectProperty g ctx) := by
  unfold objectProperty
  refine .skip fun start => .skip fun head => .skip fun keyToken => .skip fun keyStart => ?_
  refine .skip fun found => .skip fun atParen => ?_
  split
  · infer_instance
  · refine .skip fun hasValue => ?_
    split
    · infer_instance
    · split <;> infer_instance

instance : Closes (objectMember g ctx) := by unfold objectMember; infer_instance

instance : Closes (objectLiteral g ctx) := by unfold objectLiteral; infer_instance

instance {inner : Context} {simple : Bool} : Closes (arrowBody g ctx inner simple) := by
  unfold arrowBody; infer_instance

instance {params : List Pattern} {isAsync : Bool} :
    Closes (arrowFunction g ctx start params isAsync) := by
  unfold arrowFunction
  refine .skip fun _ => .skip fun body => .skip fun _ => .skip fun span => ?_
  split <;> infer_instance

instance : Closes (groupItem g ctx) := by unfold groupItem; infer_instance

instance {items : List GroupItem} : Closes (groupArrow g ctx start items) := by
  unfold groupArrow; infer_instance

instance {close : Nat} {items : List GroupItem} : Closes (groupValue g start close items) := by
  unfold groupValue
  extract_lets value
  have hvalue : ∀ u, Closes (value u) := by
    intro u
    dsimp -zeta only [value]
    split <;> infer_instance
  clear_value value
  split <;> infer_instance

instance {canArrow : Bool} : Closes (parenGroup g ctx start canArrow) := by
  unfold parenGroup; infer_instance

instance : Closes (asyncNameArrow g ctx start) := by unfold asyncNameArrow; infer_instance

instance {canArrow : Bool} : Closes (asyncCallOrArrow g ctx start canArrow) := by
  unfold asyncCallOrArrow; infer_instance

instance {canArrow : Bool} : Closes (plainName g ctx start canArrow) := by
  unfold plainName; infer_instance

instance {canArrow : Bool} : Closes (namePrimary g ctx start canArrow) := by
  unfold namePrimary; infer_instance

instance {canArrow : Bool} : Closes (otherPrimary g ctx start canArrow) := by
  unfold otherPrimary
  refine .skip fun token => ?_
  split <;> infer_instance

instance : Closes (primary g ctx) := by unfold primary; infer_instance

end Primary

section Calls

instance : Closes (computedProperty g ctx) := by unfold computedProperty; infer_instance

instance {object : Expression} : Closes (optionalLink g ctx start object) := by
  unfold optionalLink
  refine .skip fun token => ?_
  split <;> infer_instance

instance {allowCalls : Bool} {chain : Chain} : Closes (chainLink g ctx start allowCalls chain) := by
  unfold chainLink
  refine .skip fun token => ?_
  split <;> infer_instance

instance {allowCalls : Bool} {e : Expression} : Closes (callTail g ctx start e allowCalls) := by
  unfold callTail; infer_instance

omit [g.Close] in
instance {allowCall : Bool} : Closes (superExpression ctx allowCall) := by
  unfold superExpression; infer_instance

instance : Closes (importCall g ctx start) := by
  unfold importCall
  refine .skip fun _ => .skip fun atParen => .skip fun atDots => ?_
  extract_lets rest
  have hrest : ∀ u, Closes (rest u) := by
    refine fun u => .skip fun source => .skip fun hasOptions => ?_
    extract_lets last
    have hlast : ∀ options, Closes (last options) := fun options => inferInstance
    clear_value last
    infer_instance
  clear_value rest
  infer_instance

instance : Closes (importExpression g ctx) := by
  unfold importExpression
  refine .skip fun s => .skip fun _ => .skip fun _ => .skip fun token => ?_
  split <;> infer_instance

instance : Closes (newCallee g ctx) := by
  have himport : ∀ start, Closes (do
      match ← importExpression g ctx with
      | .importCall _ _ _ => failAt (.unexpectedToken "import") start
      | e => return e) := fun start => by
    refine .skip fun e => ?_
    split <;> infer_instance
  unfold newCallee; infer_instance

instance : Closes (newCall g ctx) := by unfold newCall; infer_instance

instance : Closes (leftHandSide g ctx) := by unfold leftHandSide; infer_instance

end Calls

section Operators

instance {token : Token} : Closes (unaryOperation g ctx start token) := by
  unfold unaryOperation
  refine .skip fun argument => .skip fun _ => ?_
  split <;> infer_instance

instance {token : Token} : Closes (updateBefore g ctx start token) := by
  unfold updateBefore; infer_instance

instance : Closes (awaitOperation g ctx start) := by unfold awaitOperation; infer_instance

instance : Closes (updateAfter g ctx) := by unfold updateAfter; infer_instance

instance : Closes (unary g ctx) := by unfold unary; infer_instance

instance {minimum : Nat} {left : Expression × Option Token} :
    Closes (binaryLink g ctx start minimum left) := by
  have hnode : ∀ span token right, Closes (match binaryNode span token left.1 right with
      | none => failAt (.unexpectedToken token.text) start
      | some e => do
        setAssignable false
        return some (e, some token)) := by
    intro span token right
    split <;> infer_instance
  unfold binaryLink
  refine .skip fun token => ?_
  extract_lets strength rest
  have hrest : ∀ u, Closes (rest u) := fun u => inferInstance
  clear_value rest
  infer_instance

instance {minimum : Nat} {left : Expression} : Closes (binary g ctx start left minimum) := by
  unfold binary; infer_instance

instance : Closes (binaryExpression g ctx) := by unfold binaryExpression; infer_instance

instance : Closes (conditional g ctx) := by unfold conditional; infer_instance

instance : Closes (yieldExpression g ctx) := by unfold yieldExpression; infer_instance

omit [g.Close] in
instance {left : Expression} {cause : Cause} : Closes (simpleTarget ctx left cause) := by
  unfold simpleTarget
  refine .skip fun s => ?_
  split <;> infer_instance

omit [g.Close] in
instance {left : Expression} {cause : Cause} : Closes (patternTarget g ctx left cause) := by
  unfold patternTarget; infer_instance

omit [g.Close] in
instance {token : Token} {left : Expression} : Closes (assignmentTarget g ctx token left) := by
  unfold assignmentTarget; infer_instance

instance : Closes (assignmentCover g ctx) := by
  have hrest : ∀ start left token, Closes (do
      match AssignmentOperator.ofToken? token with
      | none => unexpected
      | some operator =>
        let target ← assignmentTarget g ctx token left
        next
        let right ← g.assignment ctx
        plainExpression
        return Expression.assignment (← spanFrom start) operator target right) := by
    intro start left token
    split <;> infer_instance
  unfold assignmentCover; infer_instance

end Operators

end Phrases

end EcmaSyntax.Grammar
