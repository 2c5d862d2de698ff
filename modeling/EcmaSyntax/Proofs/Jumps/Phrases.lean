import EcmaSyntax.Proofs.Grammar.Conversion
import EcmaSyntax.Proofs.Grammar.Preserve
import EcmaSyntax.Proofs.Jumps.Form
import EcmaSyntax.Proofs.Lexer.Steps

/-!
The phrases that contain each other, with targets for the jumps in what they read. An
expression has no jumps outside of functions and static blocks, whatever is open around
it; statements have what the labels of the state and the context allow. Here are
sequences, templates, property names, arguments, binding patterns and functions.
-/

namespace EcmaSyntax.Grammar

open EcmaSyntax.Diagnostic EcmaSyntax.Lexer EcmaSyntax.Scope EcmaSyntax.Tree

variable {version : Nat} [Unicode.IdentifierChars version]

variable {α : Type} {o : Outline}

/-- The step leaves the outline alone, and no jump leaves a function in what it reads. -/
abbrev Confines (o : Outline) (node : α → Node) (step : Parser α) : Prop :=
  Balances o (fun a => Enclosed (node a)) step

abbrev ConfinesAll (o : Outline) (node : α → Node) (step : Parser (List α)) : Prop :=
  Balances o (fun as => ∀ a ∈ as, Enclosed (node a)) step

/-- Where labels follow each other, the next one stands here. -/
def Chained (s : State) : Prop :=
  ∀ first, s.labelChain = some first →
    first ≤ s.labels.length ∧ s.token.isIdentifier = true ∧ s.lexer.following = .colon

/-- What is open after a statement: labels that the statement stands behind may turn out
to be those of a loop. -/
def Outline.settle (o : Outline) (marked : Bool) : Outline :=
  { o with
    labels :=
      if marked then o.labels.markIteration (o.labelChain.getD o.labels.length) else o.labels
    labelChain := none }

/-- A statement that is read from this outline on. -/
structure Outline.Admits (o : Outline) (ctx : Context) (x : Statement) (o' : Outline) : Prop where
  after : ∃ marked, (marked = true → x.isLoop = true) ∧ o' = o.settle marked
  fits : Fits o'.labels ctx (.statement x)

structure Phrases.Targets (g : Phrases) : Prop where
  assignmentCover : ∀ {o} ctx, Confines o .expression (g.assignmentCover ctx)
  unary : ∀ {o} ctx, Confines o .expression (g.unary ctx)
  binary : ∀ {o} ctx start left minimum, Enclosed (.expression left) →
    Balances o (fun found => Enclosed (.expression found.1)) (g.binary ctx start left minimum)
  newCall : ∀ {o} ctx, Confines o .expression (g.newCall ctx)
  leftHandSide : ∀ {o} ctx, Confines o .expression (g.leftHandSide ctx)
  markup : ∀ {o} ctx exit, Confines o .markup (g.markup ctx exit)
  bindingTarget : ∀ {o} ctx kind, Confines o .pattern (g.bindingTarget ctx kind)
  /-- A statement at the keyword of a loop is one. -/
  statement : ∀ ctx position s, Chained s → Yields (g.statement ctx position)
    (fun x s' => s.outline.Admits ctx x s'.outline ∧
      (startsLoop s.token = true → x.isLoop = true)) s
  listItem : ∀ {o} ctx, o.labelChain = none →
    Balances o (fun x => Fits o.labels ctx (.statement x)) (g.listItem ctx)

instance : HoldsBelow Enclosed := .every fun _ => trivial

instance {c : Conversion} : Converts c Enclosed := .every (fun _ => trivial) fun _ => trivial

theorem confines_memberName : Confines o .expression memberName := by
  unfold memberName
  refine .skip fun token => ?_
  split
  · exact .skip fun id => .pure (.leaf trivial rfl)
  · split
    · exact .skip fun id => .pure (.leaf trivial rfl)
    · exact stops_unexpected.preserves

theorem confines_elementFrom (start : Nat) (isSpread : Bool) {e : Expression}
    (h : Enclosed (.expression e)) : Confines o .element (elementFrom start isSpread e) := by
  unfold elementFrom
  split
  · exact .skip fun _ => .skip fun span => .pure (.single trivial h rfl)
  · exact .pure (.single trivial h rfl)

section Functions

/-- The contexts allow the same jumps. -/
structure Context.Agrees (ctx ctx' : Context) : Prop where
  iteration : ctx'.inIteration = ctx.inIteration
  switch : ctx'.inSwitch = ctx.inSwitch

theorem Fits.agrees {labels : Labels} {ctx ctx' : Context} {n : Node}
    (h : Fits labels ctx' n) (hctx : ctx.Agrees ctx') : Fits labels ctx n := by
  unfold Fits at h ⊢
  rwa [hctx.iteration, hctx.switch] at h

/-- The contexts of a body before and after its directives. -/
theorem balances_add (prologue : Prologue) (simpleParams : Bool) (directive : String)
    (start : Nat) (hasOctalEscape : Bool) : Balances o (fun after => prologue.ctx.Agrees after.ctx)
      (prologue.add simpleParams directive start hasOctalEscape) := by
  unfold Prologue.add
  generalize (prologue.octalEscape <|> if hasOctalEscape then some start else none) = octalEscape
  dsimp only
  split
  · refine (stops_failAt _ _).preserves_guard ?_
    cases octalEscape with
    | none => exact .pure ⟨rfl, rfl⟩
    | some offset => exact (stops_failAt _ _).preserves
  · exact .pure ⟨rfl, rfl⟩

/-- No jump leaves the parameters or the body. -/
structure FunctionParts.AreEnclosed (parts : FunctionParts) : Prop where
  params : ∀ p ∈ parts.params, Enclosed (.pattern p)
  body : ∀ x ∈ parts.body, Resolved [] (.statement x)

theorem FunctionParts.AreEnclosed.function {parts : FunctionParts} (h : parts.AreEnclosed)
    (span : Text.Span) (id : Option Identifier) (generator isAsync : Bool) :
    Enclosed (.function
      ⟨span, id, generator, isAsync, parts.params, parts.bodySpan, parts.body⟩) :=
  .lists h.body h.params (fun x hx => (h.body x hx).enclosed) rfl

/-- Jumps do not lead out of a function. -/
structure Context.IsClosed (ctx : Context) : Prop where
  iteration : ctx.inIteration = false
  switch : ctx.inSwitch = false

theorem Context.isClosed_reset (ctx : Context) : (ctx.diff functionReset).IsClosed :=
  ⟨Bool.and_false _, Bool.and_false _⟩

theorem Context.IsClosed.diff {ctx : Context} (h : ctx.IsClosed) (other : Context) :
    (ctx.diff other).IsClosed where
  iteration := congrArg (· && !other.inIteration) h.iteration
  switch := congrArg (· && !other.inSwitch) h.switch

theorem Context.isClosed_enterFunction (ctx : Context) (isAsync isGenerator : Bool) :
    (ctx.enterFunction isAsync isGenerator).IsClosed :=
  have h := ctx.isClosed_reset.diff thisBound
  ⟨h.iteration, h.switch⟩

theorem Context.isClosed_enterArrow (ctx : Context) (isAsync : Bool) :
    (ctx.enterArrow isAsync).IsClosed :=
  ⟨ctx.isClosed_reset.iteration, ctx.isClosed_reset.switch⟩

end Functions

namespace Phrases.Targets

variable {g : Phrases} (hg : g.Targets)

include hg

theorem assignment (ctx : Context) : Confines o .expression (g.assignment ctx) :=
  (hg.assignmentCover ctx).bind fun _ he => .skip fun _ => .pure he

theorem covered (ctx : Context) :
    Balances o (fun found => Enclosed (.expression found.1)) (g.covered ctx) :=
  (hg.assignmentCover ctx).bind fun _ he => .skip fun _ => .pure he

theorem sequenceAfter (ctx : Context) (start : Nat) {first : Expression}
    (hfirst : Enclosed (.expression first)) :
    Confines o .expression (g.sequenceAfter ctx start first) := by
  unfold Phrases.sequenceAfter
  refine .skip fun atComma => ?_
  split
  · refine Preserves.bind (collect_preserves (P := fun e => Enclosed (.expression e))
      fun earlier _ => ?_) fun rest hrest => ?_
    · refine .skip fun found => ?_
      split
      · exact (hg.assignment ctx).bind fun e he => .pure he
      · exact .pure trivial
    · refine .skip fun _ => .skip fun span => .pure (.list trivial ?_ rfl)
      exact List.forall_mem_cons.mpr ⟨hfirst, hrest⟩
  · exact .pure hfirst

theorem expression (ctx : Context) : Confines o .expression (g.expression ctx) :=
  .skip fun start => (hg.assignment ctx).bind fun _ hfirst => hg.sequenceAfter ctx start hfirst

theorem template (ctx : Context) (tagged : Bool) :
    Balances o (fun parts => ∀ e ∈ parts.expressions, Enclosed (.expression e))
      (template g ctx tagged) := by
  unfold Grammar.template
  refine .skip fun start => Preserves.bind (collect_preserves
    (P := fun part : TemplateElement × Option Expression =>
      ∀ e ∈ part.2, Enclosed (.expression e)) fun earlier _ => ?_) fun parts hparts => ?_
  · refine .skip fun token => .skip fun quasi => .skip fun _ => ?_
    split
    · exact .pure nofun
    · refine (hg.expression ctx.withIn).bind fun e he => .skip fun atBrace => ?_
      split
      · refine .skip fun atEnd => ?_
        split
        · exact fun _ _ => (stops_fail _).bind
        · exact fun _ _ => (stops_fail _).bind
      · exact .skip fun _ => .pure (by simpa [Round.Adds] using he)
  · refine .skip fun span => .pure fun e he => ?_
    obtain ⟨part, hpart, heq⟩ := List.mem_filterMap.mp he
    exact hparts part hpart e heq

theorem propertyKey (ctx : Context) (allowPrivate : Bool) :
    Balances o (fun found => Enclosed (.expression found.1)) (propertyKey g ctx allowPrivate) := by
  unfold Grammar.propertyKey
  refine .skip fun token => ?_
  split
  · refine .skip fun _ => (hg.assignment ctx.withIn).bind fun key hkey => ?_
    exact .skip fun _ => .pure hkey
  · exact .skip fun lit => .pure (.leaf trivial rfl)
  · exact .skip fun lit => .pure (.leaf trivial rfl)
  · exact .skip fun lit => .pure (.leaf trivial rfl)
  · split
    · exact .skip fun id => .pure (.leaf trivial rfl)
    · exact (stops_fail _).preserves
  · split
    · exact .skip fun id => .pure (.leaf trivial rfl)
    · exact stops_unexpected.preserves

theorem coveredArguments (ctx : Context) :
    Balances o (fun found => ∀ x ∈ found, Enclosed (.element x.1)) (coveredArguments g ctx) := by
  unfold Grammar.coveredArguments
  refine .skip fun _ => Preserves.bind (listed_preserves .rightParen fun earlier => ?_)
    fun found hfound => .skip fun _ => .pure hfound
  refine .skip fun start => .skip fun isSpread => (hg.covered ctx.withIn).bind fun r hr => ?_
  exact (confines_elementFrom start isSpread hr).bind fun x hx => .pure hx

theorem arguments (ctx : Context) : ConfinesAll o .element (arguments g ctx) := by
  unfold Grammar.arguments
  refine .skip fun _ => Preserves.bind (listed_preserves .rightParen fun earlier => ?_)
    fun found hfound => .skip fun _ => .pure hfound
  refine .skip fun start => .skip fun isSpread => (hg.assignment ctx.withIn).bind fun e he => ?_
  exact confines_elementFrom start isSpread he

theorem bindingElement (ctx : Context) (kind : BindingKind) :
    Confines o .pattern (bindingElement g ctx kind) := by
  unfold Grammar.bindingElement
  refine .skip fun start => (hg.bindingTarget ctx kind).bind fun target htarget => ?_
  refine .skip fun found => ?_
  split
  · refine (hg.assignment ctx.withIn).bind fun right hright => ?_
    exact .skip fun span => .pure (.pair trivial htarget hright rfl)
  · exact .pure htarget

theorem bindingRest (ctx : Context) (kind : BindingKind) (close : Token) :
    Balances o (fun found => Enclosed (.pattern found.2)) (bindingRest g ctx kind close) := by
  unfold Grammar.bindingRest
  refine .skip fun start => .skip fun _ => ?_
  extract_lets rest
  have hrest : ∀ argument, Enclosed (.pattern argument) →
      Balances o (fun found => Enclosed (.pattern found.2)) (rest argument) := by
    intro argument hargument
    refine .skip fun atAssign => (stops_fail _).preserves_guard (.skip fun atComma => ?_)
    dsimp only
    split
    · refine .skip fun comma => .skip fun _ => .skip fun atClose => ?_
      split
      · exact fun _ _ => (stops_failAt _ _).bind
      · exact fun _ _ => (stops_failAt _ _).bind
    · exact .skip fun span => .pure hargument
  split
  · exact .bind (.map (Steady.keeps.mono fun id _ => .leaf trivial rfl)) hrest
  · exact (hg.bindingTarget ctx kind).bind hrest

theorem arrayBinding (ctx : Context) (kind : BindingKind) :
    Confines o .pattern (arrayBinding g ctx kind) := by
  unfold Grammar.arrayBinding
  refine .skip fun start => .skip fun _ => ?_
  refine Preserves.bind (collect_preserves (P := fun p => Enclosed (.pattern p))
    fun earlier _ => ?_) fun elements helements =>
      .skip fun _ => .skip fun span => .pure (.list trivial helements rfl)
  refine .skip fun token => ?_
  split
  · exact .pure trivial
  · exact .skip fun _ => .pure (.leaf trivial rfl)
  · exact (hg.bindingRest ctx kind .rightBracket).bind fun r hr => .pure (.single trivial hr rfl)
  · refine (hg.bindingElement ctx kind).bind fun element helement => ?_
    exact .skip fun _ => .pure helement

theorem shorthandBinding (ctx : Context) (kind : BindingKind) (start : Nat) (id : Identifier) :
    Confines o .pattern (shorthandBinding g ctx kind start id) := by
  unfold Grammar.shorthandBinding
  have hid : Enclosed (.pattern (.identifier id)) := .leaf trivial rfl
  refine .skip fun _ => .skip fun _ => .skip fun found => ?_
  split
  · refine (hg.assignment ctx.withIn).bind fun right hright => ?_
    exact .skip fun span => .pure (.pair trivial hid hright rfl)
  · exact .pure hid

theorem propertyBinding (ctx : Context) (kind : BindingKind) (keys : List String) :
    Balances o (fun found => Enclosed (.patternProperty found.1))
      (propertyBinding g ctx kind keys) := by
  unfold Grammar.propertyBinding
  refine .skip fun start => .skip fun token => .skip fun escaped => ?_
  refine (hg.propertyKey ctx false).bind fun r hkey => ?_
  obtain ⟨key, computed⟩ := r
  dsimp -zeta only
  extract_lets rest
  have hrest : ∀ keys, Balances o (fun found => Enclosed (.patternProperty found.1))
      (rest keys) := by
    intro keys
    refine .skip fun found => ?_
    split
    · refine (hg.bindingElement ctx kind).bind fun value hvalue => ?_
      exact .skip fun span => .pure (.pair trivial hkey hvalue rfl)
    · refine .skip fun id => (hg.shorthandBinding ctx kind start id).bind fun value hvalue => ?_
      exact .skip fun span => .pure (.pair trivial hkey hvalue rfl)
  split
  · exact .skip hrest
  · exact .skip hrest

theorem objectBinding (ctx : Context) (kind : BindingKind) :
    Confines o .pattern (objectBinding g ctx kind) := by
  unfold Grammar.objectBinding
  refine .skip fun start => .skip fun _ => ?_
  refine Preserves.bind (collect_preserves (P := fun r : PatternProperty × List String =>
    Enclosed (.patternProperty r.1)) fun earlier _ => ?_) fun properties hproperties => ?_
  · refine .skip fun token => ?_
    split
    · exact .pure trivial
    · refine (hg.bindingRest ctx kind .rightBrace).bind fun r hr => .pure ?_
      exact .single trivial hr rfl
    · refine (hg.propertyBinding ctx kind _).bind fun property hproperty => ?_
      exact .skip fun _ => .pure hproperty
  · refine .skip fun _ => .skip fun span => .pure (.list trivial ?_ rfl)
    exact List.forall_mem_map.mpr hproperties

theorem bindingTarget_body (ctx : Context) (kind : BindingKind) :
    Confines o .pattern (Grammar.bindingTarget g ctx kind) := by
  refine Balances.nested (.skip fun token => ?_)
  split
  · exact hg.arrayBinding ctx kind
  · exact hg.objectBinding ctx kind
  · exact .skip fun id => .pure (.leaf trivial rfl)

theorem directive (ctx : Context) (ho : o.labelChain = none) :
    Balances o (fun found => Fits o.labels ctx (.statement found.1)) (directive g ctx) := by
  unfold Grammar.directive
  refine .skip fun saved => (hg.listItem ctx ho).bind fun statement hstatement => ?_
  split
  · split
    · have hliteral : ∀ lit, Fits o.labels ctx (.expression (.literal lit)) :=
        fun _ => .expression (.leaf trivial rfl)
      exact .pure (.node rfl (List.forall_mem_singleton.mpr (hliteral _)))
    · exact .pure hstatement
  · exact .pure hstatement

theorem prologue (ctx : Context) (simpleParams : Bool) (ho : o.labelChain = none) :
    Balances o (fun found => (∀ x ∈ found.1, Fits o.labels ctx (.statement x)) ∧
      ctx.Agrees found.2) (prologue g ctx simpleParams) := by
  unfold Grammar.prologue
  refine Preserves.bind (collect_preserves (P := fun r : Statement × Prologue =>
    Fits o.labels ctx (.statement r.1) ∧ ctx.Agrees r.2.ctx) fun earlier hearlier => ?_)
    fun found hfound => .pure ⟨List.forall_mem_map.mpr fun r hr => (hfound r hr).1, ?_⟩
  · extract_lets before
    have hbefore : ctx.Agrees before.ctx := by
      unfold before
      cases earlier with
      | nil => exact ⟨rfl, rfl⟩
      | cons last rest => exact (hearlier last List.mem_cons_self).2
    refine .skip fun atString => ?_
    split
    · exact .pure trivial
    · refine .skip fun saved => (hg.directive _ ho).bind fun r hr => ?_
      obtain ⟨statement, isDirective⟩ := r
      dsimp only
      split
      · refine (balances_add _ _ _ _ _).bind fun after hafter => .pure ⟨hr.agrees hbefore, ?_⟩
        exact ⟨hafter.iteration.trans hbefore.iteration, hafter.switch.trans hbefore.switch⟩
      · exact .pure ⟨hr.agrees hbefore, hbefore⟩
  · cases hlast : found.getLast? with
    | none => exact ⟨rfl, rfl⟩
    | some last => exact (hfound last (List.mem_of_getLast? hlast)).2

theorem bodyStatements (ctx : Context) (simpleParams : Bool) (close : Token)
    (ho : o.labelChain = none) :
    Balances o (fun found => ∀ x ∈ found.1, Fits o.labels ctx (.statement x))
      (bodyStatements g ctx simpleParams close) := by
  unfold Grammar.bodyStatements
  refine (hg.prologue ctx simpleParams ho).bind fun r hr => ?_
  refine Preserves.bind (itemsUpTo_preserves close (hg.listItem r.2 ho))
    fun statements hstatements => ?_
  refine .pure (List.forall_mem_append.mpr ⟨hr.1, fun x hx => ?_⟩)
  exact (hstatements x hx).agrees hr.2

/-- A body that labels outside it do not reach. -/
theorem closedBody (ctx : Context) (hctx : ctx.IsClosed) (simpleParams : Bool) (close : Token)
    (ho : o.labelChain = none) (hlabels : o.labels = []) :
    Balances o (fun found => ∀ x ∈ found.1, Resolved [] (.statement x)) (do
      let found ← Grammar.bodyStatements g ctx simpleParams close
      expect close
      return found) := by
  refine (hg.bodyStatements ctx simpleParams close ho).bind fun found hfound => .skip fun _ => ?_
  refine .pure fun x hx => ?_
  rw [hlabels] at hfound
  exact (hfound x hx).resolved hctx.iteration hctx.switch

theorem formalParameters (ctx : Context) : ConfinesAll o .pattern (formalParameters g ctx) := by
  unfold Grammar.formalParameters
  refine .skip fun _ => Preserves.bind (collect_preserves (P := fun p => Enclosed (.pattern p))
    fun earlier _ => ?_) fun params hparams => .skip fun _ => .pure hparams
  refine .skip fun token => ?_
  split
  · exact .pure trivial
  · exact (hg.bindingRest ctx .parameter .rightParen).bind fun r hr =>
      .pure (.single trivial hr rfl)
  · exact (hg.bindingElement ctx .parameter).bind fun param hparam => .skip fun _ => .pure hparam

theorem functionParts {ctx : Context} (hctx : ctx.IsClosed) (shape : FunctionShape)
    (name : Option Identifier) :
    Balances o FunctionParts.AreEnclosed (functionParts g ctx shape name) := by
  unfold Grammar.functionParts
  refine .asFunction (.inScope (.skip fun saved => .skip fun paramsStart => ?_))
  refine (hg.formalParameters _).bind fun params hparams => ?_
  refine .skip fun _ => .skip fun bodyStart => .skip fun _ => ?_
  refine (hg.closedBody ctx hctx _ .rightBrace rfl rfl).inScope.bind fun r hr => .skip fun _ => ?_
  dsimp only
  split
  · exact .skip fun _ => .skip fun _ => .skip fun span => .pure ⟨hparams, hr⟩
  · exact .skip fun span => .pure ⟨hparams, hr⟩

theorem functionDeclaration (ctx : Context) (isAsync nameRequired : Bool) :
    Confines o .function (functionDeclaration g ctx isAsync nameRequired) := by
  unfold Grammar.functionDeclaration
  refine .skip fun start => .skip fun generator => .skip fun token => ?_
  extract_lets rest
  have hrest : ∀ id, Confines o .function (rest id) := by
    intro id
    refine (hg.functionParts (ctx.isClosed_enterFunction ..) .plain id).bind fun parts hparts => ?_
    exact .skip fun span => .pure (hparts.function span id generator isAsync)
  split
  · refine .skip fun nameStart => .skip fun name => .skip fun kind => ?_
    exact .skip fun _ => .skip fun _ => .skip hrest
  · split
    · refine .skip fun escaped => ?_
      split
      · exact .skip fun raw => .skip hrest
      · exact .skip hrest
    · exact .skip hrest

theorem functionExpression (ctx : Context) (start : Nat) (isAsync : Bool) :
    Confines o .expression (functionExpression g ctx start isAsync) := by
  unfold Grammar.functionExpression
  refine .skip fun generator => .skip fun token => ?_
  extract_lets rest
  have hrest : ∀ id, Confines o .expression (rest id) := by
    intro id
    refine (hg.functionParts (ctx.isClosed_enterFunction ..) .plain id).bind fun parts hparts => ?_
    refine .skip fun _ => .skip fun span => .pure (.single trivial ?_ rfl)
    exact hparts.function span id generator isAsync
  split
  · exact .skip fun value => .skip fun start => .skip fun _ => .skip hrest
  · exact .skip hrest

theorem methodFunction (ctx : Context) (isAsync generator : Bool) (shape : FunctionShape) :
    Confines o .function (methodFunction g ctx isAsync generator shape) := by
  have hinner := ctx.isClosed_enterFunction isAsync generator
  unfold Grammar.methodFunction
  refine .skip fun start => (hg.functionParts ?_ shape none).bind fun parts hparts => ?_
  · exact ⟨hinner.iteration, hinner.switch⟩
  · exact .skip fun span => .pure (hparts.function span none generator isAsync)

end Phrases.Targets

end EcmaSyntax.Grammar
