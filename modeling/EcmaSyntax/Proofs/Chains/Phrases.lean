import EcmaSyntax.Proofs.Grammar.Conversion
import EcmaSyntax.Proofs.Tree.Node
import EcmaSyntax.Proofs.Grammar.TopLevel

/-!
How members, calls and chains are put together. What an operator or a phrase of its own gives may
stand anywhere; what a loop over links has so far may be open, and then it becomes a chain.

Literals, names, bindings, bodies and functions leave their nodes where they may stand. What is
known of the phrases in them is a class, so that a phrase made of such phrases is one too.
-/

set_option synthInstance.maxSize 4000

namespace EcmaSyntax.Tree

variable {keepsParens : Bool}

namespace Node

def isChain : Node → Bool
  | .expression e => e.isChain
  | _ => false

/-- What links may be applied to at the start. -/
structure Head (keepsParens : Bool) (n : Node) : Prop extends Proper keepsParens n where
  bare : keepsParens = true → n.isChain = false

theorem apart_of_isPlain {n : Node} (h : n.isPlain = true) : n.apart = n.children := by
  unfold apart
  split
  · cases h
  · cases h
  · cases h
  · rfl

theorem suitsOperand_of_isPlain {n : Node} (h : n.isPlain = true) :
    n.SuitsOperand keepsParens := by
  unfold SuitsOperand
  split <;> trivial

theorem isTied_of_isPlain {n : Node} (h : n.isPlain = true) : n.isTied = false := by
  unfold isTied
  split
  · rename_i e
    cases e <;> first | rfl | cases h
  · rename_i x
    cases x <;> first | rfl | cases h
  · rfl

theorem isChain_of_isPlain {n : Node} (h : n.isPlain = true) : n.isChain = false := by
  unfold isChain
  split
  · rename_i e
    cases e <;> first | rfl | cases h
  · rfl

theorem Proper.plain {n : Node} (h : n.isPlain = true)
    (hc : ∀ c ∈ n.children, c.Proper keepsParens) : n.Proper keepsParens := by
  refine ⟨.node ⟨?_, suitsOperand_of_isPlain h⟩ fun c hn => (hc c hn).every, isTied_of_isPlain h⟩
  rw [apart_of_isPlain h]
  exact fun c hn => (hc c hn).free

instance : Forms (Proper keepsParens) (Proper keepsParens) := ⟨fun _ => Proper.plain⟩

instance : Forms (Head keepsParens) (Proper keepsParens) :=
  ⟨fun _ h hc => ⟨.plain h hc, fun _ => isChain_of_isPlain h⟩⟩

end Node

open Node

/-- What links may be applied to. It may be open. -/
structure Expression.Applicable (keepsParens : Bool) (e : Expression) : Prop where
  every : Every (Fits keepsParens) (.expression e)
  bare : keepsParens = true → e.isChain = false

namespace Expression.Applicable

variable {e : Expression} {span : Text.Span}

theorem of_head (h : Head keepsParens (.expression e)) : e.Applicable keepsParens :=
  ⟨h.every, h.bare⟩

theorem head (h : e.Applicable keepsParens) (hclosed : e.isOpen = false) :
    Head keepsParens (.expression e) := ⟨⟨h.every, hclosed⟩, h.bare⟩

theorem member (h : e.Applicable keepsParens) {property : Expression}
    (hproperty : Proper keepsParens (.expression property)) (computed optional : Bool) :
    (Expression.member span e property computed optional).Applicable keepsParens := by
  refine ⟨.pair ⟨?_, h.bare⟩ h.every hproperty.every rfl, fun _ => rfl⟩
  exact List.forall_mem_singleton.mpr hproperty.free

theorem call (h : e.Applicable keepsParens) {arguments : List Element}
    (harguments : ∀ x ∈ arguments, Proper keepsParens (.element x)) (optional : Bool) :
    (Expression.call span e arguments optional).Applicable keepsParens := by
  refine ⟨.consList ⟨?_, h.bare⟩ h.every (fun x hx => (harguments x hx).every) rfl, fun _ => rfl⟩
  exact List.forall_mem_map.mpr fun x hx => (harguments x hx).free

end Expression.Applicable

/-- What links are applied to is the whole of it when there are no more. -/
theorem Node.Proper.chain {e : Expression} {span : Text.Span} (h : e.Applicable keepsParens)
    (hopen : e.isOpen = true) : Proper keepsParens (.expression (.chain span e)) :=
  ⟨.single ⟨List.forall_mem_nil _, hopen⟩ h.every rfl, rfl⟩

theorem Node.Head.newCall {e : Expression} {span : Text.Span} {arguments : List Element}
    (h : Head keepsParens (.expression e))
    (harguments : ∀ x ∈ arguments, Proper keepsParens (.element x)) :
    Head keepsParens (.expression (.newCall span e arguments)) := by
  have hbelow : ∀ c ∈ (Node.expression (.newCall span e arguments)).children,
      Proper keepsParens c :=
    List.forall_mem_cons.mpr ⟨h.toProper, List.forall_mem_map.mpr harguments⟩
  exact ⟨⟨.node ⟨fun c hc => (hbelow c hc).free, h.bare⟩ fun c hc => (hbelow c hc).every, rfl⟩,
    fun _ => rfl⟩

theorem Node.Head.taggedTemplate {e : Expression} {span quasiSpan : Text.Span}
    {quasis : List TemplateElement} {expressions : List Expression}
    (h : Head keepsParens (.expression e))
    (hexpressions : ∀ e ∈ expressions, Proper keepsParens (.expression e)) :
    Head keepsParens (.expression (.taggedTemplate span e quasiSpan quasis expressions)) := by
  have hbelow : ∀ c ∈
      (Node.expression (.taggedTemplate span e quasiSpan quasis expressions)).children,
      Proper keepsParens c :=
    List.forall_mem_cons.mpr ⟨h.toProper, List.forall_mem_map.mpr hexpressions⟩
  exact ⟨⟨.node ⟨fun c hc => (hbelow c hc).free, h.bare⟩ fun c hc => (hbelow c hc).every, rfl⟩,
    fun _ => rfl⟩

theorem Node.Proper.update {e : Expression} {span : Text.Span} {operator : UpdateOperator}
    {isBefore : Bool} (h : Proper keepsParens (.expression e))
    (htarget : e.withoutParens.isChain = false) :
    Proper keepsParens (.expression (.update span operator isBefore e)) :=
  ⟨.single ⟨List.forall_mem_singleton.mpr h.free, htarget⟩ h.every rfl, rfl⟩

/-- A member that is a target has no optional link. -/
theorem Node.Proper.target {object property : Expression} {span : Text.Span}
    {computed optional : Bool}
    (h : Proper keepsParens (.expression (.member span object property computed optional))) :
    Proper keepsParens (.pattern (.member span object property computed optional)) := by
  have hclosed : optional = false ∧ object.isOpen = false := Bool.or_eq_false_iff.mp h.free
  have hproperty := h.every.here.apart (.expression property) List.mem_cons_self
  refine ⟨.node ⟨?_, hclosed.1, h.every.here.operand⟩ fun c hc => h.every.below hc, rfl⟩
  exact List.forall_mem_cons.mpr ⟨hclosed.2, List.forall_mem_singleton.mpr hproperty⟩

/-- What is in the node stands where it may, and outside of the top level of a module so does the
node itself. -/
structure Node.Listed (keepsParens topLevel : Bool) (n : Node) : Prop where
  every : n.Every (Fits keepsParens)
  free : topLevel = false → n.isTied = false

end EcmaSyntax.Tree

namespace EcmaSyntax.Grammar

open EcmaSyntax.Diagnostic EcmaSyntax.Scope EcmaSyntax.Tree EcmaSyntax.Tree.Node

variable {version : Nat} [Unicode.IdentifierChars version]

variable {α β : Type} {keepsParens : Bool}

instance : HoldsBelow (Proper keepsParens) where
  below _ hn h c hc := ⟨h.every.below hc, h.every.here.apart c (apart_of_isPlain hn ▸ hc)⟩
  target := Proper.target

instance {c : Conversion} : Converts c (Proper keepsParens) :=
  .of_pattern (fun _ hp hc => .plain hp hc) fun _ hc => .plain rfl hc

section Links

variable {span : Text.Span} {e property : Expression} {arguments : List Element}
  [h : AllIn (Head keepsParens) e]

instance (priority := low) : AllIn (Proper keepsParens) e := ⟨h.all.toProper⟩

instance {computed : Bool} [hproperty : AllIn (Proper keepsParens) property] :
    AllIn (Head keepsParens) (Expression.member span e property computed false) :=
  ⟨((Expression.Applicable.of_head h.all).member hproperty.all computed false).head h.all.free⟩

instance [harguments : AllIn (Proper keepsParens) arguments] :
    AllIn (Head keepsParens) (Expression.call span e arguments false) :=
  ⟨((Expression.Applicable.of_head h.all).call harguments.all false).head h.all.free⟩

instance [harguments : AllIn (Proper keepsParens) arguments] :
    AllIn (Head keepsParens) (Expression.newCall span e arguments) := ⟨h.all.newCall harguments.all⟩

end Links

/-- What comes after a phrase whose nodes may stand anywhere. -/
theorem returns_after (keepsParens : Bool) [Forest α] {step : Parser α} {rest : α → Parser β}
    {Q : β → Prop} [h : Makes (Proper keepsParens) step]
    (hrest : ∀ a, AllIn (Proper keepsParens) a → Returns Q (rest a)) : Returns Q (step >>= rest) :=
  h.makes.bind hrest

instance (priority := low) {step : Parser Expression} [h : Makes (Head keepsParens) step] :
    Makes (Proper keepsParens) step := ⟨h.makes.mono fun _ he => ⟨he.all.toProper⟩⟩

/-- Nodes that phrases make may stand anywhere, except for imports and exports. -/
class Phrases.Chains (keepsParens : outParam Bool) (g : Phrases) : Prop where
  preserveParens : g.options.preserveParens = keepsParens
  assignmentCover : ∀ ctx, Makes (Proper keepsParens) (g.assignmentCover ctx)
  unary : ∀ ctx, Makes (Proper keepsParens) (g.unary ctx)
  binary : ∀ ctx start left minimum, AllIn (Proper keepsParens) left →
    Makes (Proper keepsParens) (g.binary ctx start left minimum)
  newCall : ∀ ctx, Makes (Head keepsParens) (g.newCall ctx)
  leftHandSide : ∀ ctx, Makes (Proper keepsParens) (g.leftHandSide ctx)
  markup : ∀ ctx exit, Makes (Proper keepsParens) (g.markup ctx exit)
  bindingTarget : ∀ ctx kind, Makes (Proper keepsParens) (g.bindingTarget ctx kind)
  statement : ∀ ctx position, Makes (Proper keepsParens) (g.statement ctx position)
  listItem : ∀ ctx, Makes (Listed keepsParens ctx.topLevel) (g.listItem ctx)

section Phrases

variable {g : Phrases} [hg : g.Chains keepsParens] {ctx : Context}

instance : Makes (Proper keepsParens) (g.assignmentCover ctx) := hg.assignmentCover ctx
instance : Makes (Proper keepsParens) (g.unary ctx) := hg.unary ctx
instance {start minimum : Nat} {left : Expression} [h : AllIn (Proper keepsParens) left] :
    Makes (Proper keepsParens) (g.binary ctx start left minimum) :=
      hg.binary ctx start left minimum h
instance : Makes (Head keepsParens) (g.newCall ctx) := hg.newCall ctx
instance : Makes (Proper keepsParens) (g.leftHandSide ctx) := hg.leftHandSide ctx
instance {exit : MarkupExit} : Makes (Proper keepsParens) (g.markup ctx exit) := hg.markup ctx exit
instance {kind : BindingKind} : Makes (Proper keepsParens) (g.bindingTarget ctx kind) :=
  hg.bindingTarget ctx kind
instance {position : Position} : Makes (Proper keepsParens) (g.statement ctx position) :=
  hg.statement ctx position

instance [hctx : ctx.Inner] : Makes (Proper keepsParens) (g.listItem ctx) :=
  ⟨(hg.listItem ctx).makes.mono fun _ hx => ⟨hx.all.every, hx.all.free hctx.topLevel⟩⟩

instance : Makes (Proper keepsParens) (g.assignment ctx) := by
  unfold Phrases.assignment; infer_instance

instance : Makes (Proper keepsParens) (g.covered ctx) := by
  unfold Phrases.covered; infer_instance

instance {start : Nat} {first : Expression} [AllIn (Proper keepsParens) first] :
    Makes (Proper keepsParens) (g.sequenceAfter ctx start first) := by
  unfold Phrases.sequenceAfter; infer_instance

instance : Makes (Proper keepsParens) (g.expression ctx) := by
  unfold Phrases.expression; infer_instance

end Phrases

section Literals

variable {g : Phrases} [hg : g.Chains keepsParens] {ctx : Context}

instance {tagged : Bool} : Makes (Proper keepsParens) (template g ctx tagged) := by
  unfold template; infer_instance

instance {allowPrivate : Bool} : Makes (Proper keepsParens) (propertyKey g ctx allowPrivate) := by
  unfold propertyKey
  refine .skip fun token => ?_
  split <;> infer_instance

instance : Makes (Proper keepsParens) memberName := by unfold memberName; infer_instance

instance {start : Nat} {isSpread : Bool} {e : Expression} [AllIn (Proper keepsParens) e] :
    Makes (Proper keepsParens) (elementFrom start isSpread e) := by
  unfold elementFrom; infer_instance

instance : Makes (Proper keepsParens) (coveredArguments g ctx) := by
  unfold coveredArguments; infer_instance

instance : Makes (Proper keepsParens) (arguments g ctx) := by unfold arguments; infer_instance

end Literals

section Bindings

variable {g : Phrases} [hg : g.Chains keepsParens] {ctx : Context} {kind : BindingKind}

instance : Makes (Proper keepsParens) (bindingElement g ctx kind) := by
  unfold bindingElement; infer_instance

instance {close : Token} : Makes (Proper keepsParens) (bindingRest g ctx kind close) := by
  unfold bindingRest
  refine .skip fun start => .skip fun _ => ?_
  infer_instance

instance {earlier : List Pattern} :
    Makes (Proper keepsParens) (Round.arrayBinding g ctx kind earlier) := by
  refine .skip fun token => ?_
  split <;> infer_instance

instance : Makes (Proper keepsParens) (arrayBinding g ctx kind) := by
  unfold arrayBinding; infer_instance

instance {start : Nat} {id : Identifier} :
    Makes (Proper keepsParens) (shorthandBinding g ctx kind start id) := by
  unfold shorthandBinding; infer_instance

instance {keys : List String} :
    Makes (Proper keepsParens) (propertyBinding g ctx kind keys) := by
  unfold propertyBinding; infer_instance

instance {earlier : List (PatternProperty × List String)} :
    Makes (Proper keepsParens) (Round.objectBinding g ctx kind earlier) := by
  refine .skip fun token => ?_
  split <;> infer_instance

instance : Makes (Proper keepsParens) (objectBinding g ctx kind) := by
  unfold objectBinding; infer_instance

instance : Makes (Proper keepsParens) (bindingTarget g ctx kind) := by
  unfold bindingTarget
  have : Makes (Proper keepsParens) (do
      match ← currentToken with
      | .leftBracket => arrayBinding g ctx kind
      | .leftBrace => objectBinding g ctx kind
      | _ => return .identifier (← bindingIdentifier g.options ctx kind)) := by
    refine .skip fun token => ?_
    split <;> infer_instance
  infer_instance

end Bindings

section Bodies

variable {g : Phrases} [hg : g.Chains keepsParens] {ctx : Context} {simpleParams : Bool}

instance {topLevel : Bool} : Forms (Listed keepsParens topLevel) (Proper keepsParens) :=
  ⟨fun _ h hc => ⟨(Proper.plain h hc).every, fun _ => (Proper.plain h hc).free⟩⟩

instance : Makes (Listed keepsParens ctx.topLevel) (directive g ctx) := by
  unfold directive
  refine .skip fun s => (hg.listItem ctx).bind fun statement hstatement => ?_
  split
  · split <;> infer_instance
  · infer_instance

theorem makes_directive_round (earlier : List (Statement × Prologue))
    (hearlier : ∀ entry ∈ earlier, entry.2.ctx.Follows ctx) :
    Makes (Listed keepsParens ctx.topLevel) (Round.directive g ctx simpleParams earlier) := by
  have hdirective : Makes (Listed keepsParens ctx.topLevel) (directive g
      ((earlier.head?.map Prod.snd).getD ⟨ctx, none⟩).ctx) := by
    rw [← (follows_before hearlier).topLevel]
    infer_instance
  refine .skip fun atString => ?_
  split
  · infer_instance
  · refine .skip fun s => hdirective.bind fun found hfound => ?_
    split
    have hstatement : AllIn (Listed keepsParens ctx.topLevel) _ := ⟨hfound.all.1⟩
    split <;> infer_instance

theorem prologue_yields (s : State) : Yields (prologue g ctx simpleParams) (fun found _ =>
    AllIn (Listed keepsParens ctx.topLevel) found.1 ∧ found.2.Follows ctx) s := by
  have hstatements : Yields (prologue g ctx simpleParams)
      (fun found _ => AllIn (Listed keepsParens ctx.topLevel) found.1) s := by
    unfold prologue
    refine Meets.bind (g.collect_yields (P := fun entry : Statement × Prologue =>
      Listed keepsParens ctx.topLevel (.statement entry.1) ∧
        entry.2.ctx.Follows ctx) (fun earlier s hearlier => ?_) s) fun found _ hfound =>
          .pure ⟨List.forall_mem_map.mpr fun entry hentry => (hfound entry hentry).1⟩
    have htop := fun entry hentry => (hearlier entry hentry).2
    refine (((makes_directive_round earlier htop).yields s).and
      (directive_round_yields earlier s htop)).mono fun r _ hr => ?_
    cases r with
    | stop => trivial
    | last entry => exact ⟨hr.1.all.1, hr.2⟩
    | more entry => exact ⟨hr.1.all.1, hr.2⟩
  exact hstatements.and (prologue_follows s)

theorem makes_bodyStatements {close : Token} :
    Makes (Listed keepsParens ctx.topLevel) (bodyStatements g ctx simpleParams close) := by
  refine .of_yields fun s => (prologue_yields s).bind fun found s hfound => ?_
  have hitem := hfound.2.topLevel ▸ (hg.listItem found.2).makes
  have hitems := Phrases.itemsUpTo_preserves (g := g) close hitem s trivial
  refine hitems.bind fun statements _ hstatements => .pure ?_
  have : AllIn (Listed keepsParens ctx.topLevel) statements :=
    ⟨fun x hx => (hstatements.2 x hx).all⟩
  have := hfound.1
  infer_instance

instance [hctx : ctx.Inner] {close : Token} :
    Makes (Proper keepsParens) (bodyStatements g ctx simpleParams close) :=
  ⟨makes_bodyStatements.makes.mono fun _ hfound =>
    ⟨fun x hx => ⟨(hfound.all.1 x hx).every, (hfound.all.1 x hx).free hctx.topLevel⟩, trivial⟩⟩

end Bodies

section Functions

variable {g : Phrases} [hg : g.Chains keepsParens] {ctx : Context}

instance : Makes (Proper keepsParens) (formalParameters g ctx) := by
  have : ∀ earlier, Makes (Proper keepsParens) (Round.parameter g ctx earlier) := fun earlier => by
    refine .skip fun token => ?_
    split <;> infer_instance
  unfold formalParameters
  infer_instance

instance {shape : FunctionShape} {name : Option Identifier} [ctx.Inner] :
    Makes (Proper keepsParens) (functionParts g ctx shape name) := by
  unfold functionParts
  infer_instance

instance {isAsync nameRequired : Bool} :
    Makes (Proper keepsParens) (functionDeclaration g ctx isAsync nameRequired) := by
  unfold functionDeclaration
  infer_instance

instance {start : Nat} {isAsync : Bool} :
    Makes (Head keepsParens) (functionExpression g ctx start isAsync) := by
  unfold functionExpression
  infer_instance

instance {isAsync generator : Bool} {shape : FunctionShape} :
    Makes (Proper keepsParens) (methodFunction g ctx isAsync generator shape) := by
  unfold methodFunction
  infer_instance

end Functions

end EcmaSyntax.Grammar
