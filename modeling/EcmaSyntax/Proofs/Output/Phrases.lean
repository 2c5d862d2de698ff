import EcmaSyntax.Grammar.Phrases
import EcmaSyntax.Grammar.Function
import EcmaSyntax.Proofs.Output.Conversion

/-!
The phrases that contain each other, as they are where nobody observes and literals
keep no text. Here are sequences, templates, property names, arguments, binding
patterns and functions: each of their steps sees the same tokens, and the text of a
literal only goes into the tree.
-/

namespace EcmaSyntax.Grammar

open EcmaSyntax.Diagnostic EcmaSyntax.Lexer EcmaSyntax.Scope EcmaSyntax.Text EcmaSyntax.Tree

variable {version : Nat} [Unicode.IdentifierChars version]

variable {α : Type}

/-- The second phrases read what the first do, where nobody observes and literals keep
no text. -/
structure Phrases.Quieted (g g' : Phrases) : Prop where
  options : g'.options = g.options.quiet
  size : g'.size = g.size
  assignmentCover : ∀ ctx,
    Echoes Expression.withoutRaw (g.assignmentCover ctx) (g'.assignmentCover ctx)
  unary : ∀ ctx, Echoes Expression.withoutRaw (g.unary ctx) (g'.unary ctx)
  binary : ∀ ctx start left minimum, Echoes (fun found => (found.1.withoutRaw, found.2))
    (g.binary ctx start left minimum) (g'.binary ctx start left.withoutRaw minimum)
  newCall : ∀ ctx, Echoes Expression.withoutRaw (g.newCall ctx) (g'.newCall ctx)
  leftHandSide : ∀ ctx, Echoes Expression.withoutRaw (g.leftHandSide ctx) (g'.leftHandSide ctx)
  markup : ∀ ctx exit, Echoes Markup.withoutRaw (g.markup ctx exit) (g'.markup ctx exit)
  bindingTarget : ∀ ctx kind,
    Echoes Pattern.withoutRaw (g.bindingTarget ctx kind) (g'.bindingTarget ctx kind)
  statement : ∀ ctx position,
    Echoes Statement.withoutRaw (g.statement ctx position) (g'.statement ctx position)
  listItem : ∀ ctx, Echoes Statement.withoutRaw (g.listItem ctx) (g'.listItem ctx)

section Loops

instance {round : α → Parser (Option α)} [∀ x, Unwatched (round x)] {fuel : Nat} {x : α} :
    Unwatched (iterate round fuel x) := by
  refine ⟨.iterate (k := id) (fun x => ?_) fuel x⟩
  rw [Option.map_id]
  exact Blind.mirrors

instance {close : Token} : Unwatched (Phrases.separator close) := by
  unfold Phrases.separator; infer_instance

end Loops

section Literals

theorem echoes_keptRaw (options : Options) :
    Echoes (fun _ => none) (keptRaw options) (keptRaw options.quiet) := by
  unfold keptRaw
  intro s
  cases options.raw <;> rfl

instance {ctx : Context} : Unwatched (literalValue ctx) := by
  unfold literalValue
  refine ⟨.skip fun flags => .skip fun token => ?_⟩
  split
  case h_2 =>
    refine .ite .refuse (.look fun s => ?_)
    exact .pure rfl
  all_goals exact Blind.mirrors

theorem echoes_literal (options : Options) (ctx : Context) :
    Echoes Literal.withoutRaw (literal options ctx) (literal options.quiet ctx) := by
  unfold literal
  refine .skip fun start => (echoes_keptRaw options).bind fun raw => ?_
  exact .skip fun value => .skip fun _ => .skip fun span => .pure rfl

theorem echoes_regexLiteral (options : Options) :
    Echoes Literal.withoutRaw (regexLiteral options) (regexLiteral options.quiet) := by
  unfold regexLiteral
  refine .skip fun start => .skip fun _ => .skip fun pattern => .look fun s => ?_
  refine (echoes_keptRaw options).bind fun raw => ?_
  exact .skip fun _ => .skip fun span => .pure rfl

instance {tagged isTail : Bool} : Unwatched (templateElement tagged isTail) := by
  unfold templateElement
  exact blind_look fun _ => rfl

theorem echoes_memberName : Echoes Expression.withoutRaw memberName memberName := by
  unfold memberName
  refine .skip fun token => .ite (.skip fun id => .pure rfl) ?_
  exact .ite (.skip fun id => .pure rfl) .refuse

end Literals

/-- The parts of a template without the text of literals. -/
def TemplateParts.withoutRaw (parts : TemplateParts) : TemplateParts :=
  { parts with expressions := parts.expressions.map Expression.withoutRaw }

section Arguments

instance {start : Nat} : Unwatched (noteSpread start) := by
  unfold noteSpread
  exact ⟨.skip fun atComma => .ite (.modify fun _ => rfl) (.pure rfl)⟩

theorem echoes_elementFrom (start : Nat) (isSpread : Bool) (e : Expression) :
    Echoes Element.withoutRaw (elementFrom start isSpread e)
      (elementFrom start isSpread e.withoutRaw) := by
  unfold elementFrom
  exact .ite (.skip fun _ => .skip fun span => .pure rfl) (.pure rfl)

end Arguments

section Functions

@[simp] theorem shorthandName_withoutRaw (token : Token) (escaped : Bool) (start : Nat)
    (key : Expression) :
    shorthandName token escaped start key.withoutRaw = shorthandName token escaped start key := by
  cases key <;> rfl

instance {token : Token} {escaped : Bool} {start : Nat} {key : Expression} :
    Unwatched (shorthandName token escaped start key) := by
  unfold shorthandName
  split <;> infer_instance

@[simp] theorem declarePattern_withoutRaw (options : Options) (ctx : Context) (kind : BindingKind)
    (p : Pattern) :
    declarePattern options ctx kind p.withoutRaw = declarePattern options ctx kind p := by
  unfold declarePattern
  rw [p.boundNames_withoutRaw]

instance {options : Options} {ctx : Context} {kind : BindingKind} {p : Pattern} :
    Unwatched (declarePattern options ctx kind p) := by
  unfold declarePattern; infer_instance

@[simp] theorem checkBoundNames_withoutRaw (ctx : Context) (kind : BindingKind) (p : Pattern) :
    checkBoundNames ctx kind p.withoutRaw = checkBoundNames ctx kind p := by
  unfold checkBoundNames
  rw [p.boundNames_withoutRaw]

instance {ctx : Context} {kind : BindingKind} {p : Pattern} :
    Unwatched (checkBoundNames ctx kind p) := by
  unfold checkBoundNames; infer_instance

instance {before : Prologue} {simpleParams : Bool} {text : String} {start : Nat}
    {hasOctalEscape : Bool} :
    Unwatched (before.add simpleParams text start hasOctalEscape) := by
  unfold Prologue.add
  refine ⟨.ite (.guard ?_) (.pure rfl)⟩
  split <;> exact Blind.mirrors

theorem checkParameterCount_withoutRaw (shape : FunctionShape) (params : List Pattern)
    (start : Nat) :
    checkParameterCount shape (params.map Pattern.withoutRaw) start =
      checkParameterCount shape params start := by
  match params with
  | [] => rfl
  | [p] => cases p <;> cases shape <;> rfl
  | p :: q :: rest => cases p <;> cases shape <;> rfl

instance {shape : FunctionShape} {params : List Pattern} {start : Nat} :
    Unwatched (checkParameterCount shape params start) := by
  unfold checkParameterCount
  split <;> infer_instance

/-- Parameters are settled alike without the text they were read from. -/
theorem echoes_settleParameters (depth : Nat) (list : ParameterList) :
    Echoes id (settleParameters depth list) (settleParameters depth list.withoutRaw) := by
  have hunique : list.withoutRaw.isUnique = list.isUnique := by
    simp [ParameterList.isUnique, ParameterList.withoutRaw, Function.comp_def]
  unfold settleParameters
  refine .look fun s => ?_
  dsimp only [State.unobserved]
  refine .change (fun _ => rfl) fun _ => ?_
  have hrefuse (failure : Failure) :
      Echoes id (refuseParameters list failure) (refuseParameters list.withoutRaw failure) :=
    fun _ => rfl
  split
  · rw [hunique]
    exact .ite (hrefuse _) (.pure rfl)
  · exact .pure rfl

instance {ctx : Context} : Unwatched (functionBindingKind ctx) := by
  unfold functionBindingKind
  exact blind_look fun _ => rfl

instance {isAsync : Bool} : Unwatched (functionStart isAsync) := by
  unfold functionStart; infer_instance

/-- The parts of a function without the text of literals. -/
def FunctionParts.withoutRaw (parts : FunctionParts) : FunctionParts :=
  ⟨parts.params.map Pattern.withoutRaw, parts.bodySpan, parts.body.map Statement.withoutRaw⟩

theorem echoes_asFunction {k : α → α} {step image : Parser α} (h : Echoes k step image) :
    Echoes k (asFunction step) (asFunction image) := by
  unfold asFunction
  refine .look fun saved => .change (fun _ => rfl) fun _ => h.bind fun a => ?_
  exact .change (fun _ => rfl) fun _ => .pure rfl

end Functions

namespace Phrases.Quieted

variable {g g' : Phrases} (h : g.Quieted g')

include h

section Lists

variable {k : α → α}

theorem collect {round round' : List α → Parser (Round α)}
    (hround : ∀ earlier, Echoes (Round.map k) (round earlier) (round' (earlier.map k))) :
    Echoes (List.map k) (g.collect round) (g'.collect round') := by
  unfold Phrases.collect
  rw [h.size]
  exact .collectAfter hround g.size []

theorem listed (close : Token) {item item' : List α → Parser α}
    (hitem : ∀ earlier, Echoes k (item earlier) (item' (earlier.map k))) :
    Echoes (List.map k) (g.listed close item) (g'.listed close item') := by
  refine h.collect fun earlier => .skip fun atClose => .ite (.pure rfl) ?_
  exact (hitem earlier).bind fun a => .skip fun _ => .pure rfl

theorem itemsUpTo (close : Token) {item item' : Parser α} (hitem : Echoes k item item') :
    Echoes (List.map k) (g.itemsUpTo close item) (g'.itemsUpTo close item') := by
  refine h.collect fun earlier => .skip fun atClose => .ite (.pure rfl) ?_
  exact .skip fun atEnd => .guard (hitem.bind fun a => .pure rfl)

end Lists

theorem declare_eq : declare g'.options = declare g.options := by rw [h.options]; rfl

theorem bindingIdentifier_eq : bindingIdentifier g'.options = bindingIdentifier g.options := by
  rw [h.options]; rfl

theorem literal (ctx : Context) :
    Echoes Literal.withoutRaw (literal g.options ctx) (literal g'.options ctx) := by
  rw [h.options]
  exact echoes_literal g.options ctx

theorem assignment (ctx : Context) :
    Echoes Expression.withoutRaw (g.assignment ctx) (g'.assignment ctx) := by
  refine (h.assignmentCover ctx).bind fun e => ?_
  rw [checkCover_withoutRaw]
  exact .skip fun _ => .pure rfl

theorem covered (ctx : Context) :
    Echoes (fun found => (found.1.withoutRaw, found.2)) (g.covered ctx) (g'.covered ctx) :=
  (h.assignmentCover ctx).bind fun _ => .skip fun _ => .pure rfl

theorem sequenceAfter (ctx : Context) (start : Nat) (first : Expression) :
    Echoes Expression.withoutRaw (g.sequenceAfter ctx start first)
      (g'.sequenceAfter ctx start first.withoutRaw) := by
  refine .skip fun atComma => .ite ?_ (.pure rfl)
  refine (h.collect (k := Expression.withoutRaw) fun earlier => ?_).bind fun rest =>
    .skip fun _ => .skip fun span => ?_
  · exact .skip fun found => .ite ((h.assignment ctx).bind fun e => .pure rfl) (.pure rfl)
  · exact .pure (by simp [Expression.withoutRaw, expressionsWithoutRaw])

theorem expression (ctx : Context) :
    Echoes Expression.withoutRaw (g.expression ctx) (g'.expression ctx) :=
  .skip fun start => (h.assignment ctx).bind fun first => h.sequenceAfter ctx start first

theorem template (ctx : Context) (tagged : Bool) :
    Echoes TemplateParts.withoutRaw (template g ctx tagged) (template g' ctx tagged) := by
  unfold Grammar.template
  refine .skip fun start => (h.collect (k := fun part => (part.1, part.2.map Expression.withoutRaw))
    fun earlier => ?_).bind fun parts => .skip fun span => .pure ?_
  · refine .skip fun token => .skip fun quasi => .skip fun _ => .ite (.pure rfl) ?_
    refine (h.expression ctx.withIn).bind fun e => .skip fun atBrace => .ite ?_ ?_
    · exact .skip fun atEnd => .ite .halt .halt
    · exact .skip fun _ => .pure rfl
  · simp [TemplateParts.withoutRaw, List.filterMap_map, List.map_filterMap, Function.comp_def]

theorem propertyKey (ctx : Context) (allowPrivate : Bool) :
    Echoes (fun found => (found.1.withoutRaw, found.2)) (propertyKey g ctx allowPrivate)
      (propertyKey g' ctx allowPrivate) := by
  unfold Grammar.propertyKey
  refine .skip fun token => ?_
  split
  · exact .skip fun _ => (h.assignment ctx.withIn).bind fun key => .skip fun _ => .pure rfl
  · exact (h.literal ctx).bind fun lit => .pure rfl
  · exact (h.literal ctx).bind fun lit => .pure rfl
  · exact (h.literal ctx).bind fun lit => .pure rfl
  · exact .ite (.skip fun id => .pure rfl) .refuse
  · exact .ite (.skip fun id => .pure rfl) .refuse

theorem coveredArguments (ctx : Context) :
    Echoes (List.map fun found => (found.1.withoutRaw, found.2)) (coveredArguments g ctx)
      (coveredArguments g' ctx) := by
  unfold Grammar.coveredArguments
  refine .skip fun _ => (h.listed .rightParen fun earlier => ?_).bind fun found =>
    .skip fun _ => .pure rfl
  refine .skip fun start => .skip fun isSpread => (h.covered ctx.withIn).bind fun r => ?_
  exact (echoes_elementFrom start isSpread r.1).bind fun x => .pure rfl

theorem arguments (ctx : Context) :
    Echoes (List.map Element.withoutRaw) (arguments g ctx) (arguments g' ctx) := by
  unfold Grammar.arguments
  refine .skip fun _ => (h.listed .rightParen fun earlier => ?_).bind fun found =>
    .skip fun _ => .pure rfl
  refine .skip fun start => .skip fun isSpread => (h.assignment ctx.withIn).bind fun e => ?_
  exact echoes_elementFrom start isSpread e

theorem bindingElement (ctx : Context) (kind : BindingKind) :
    Echoes Pattern.withoutRaw (bindingElement g ctx kind) (bindingElement g' ctx kind) := by
  unfold Grammar.bindingElement
  refine .skip fun start => (h.bindingTarget ctx kind).bind fun target => .skip fun found => ?_
  refine .ite ?_ (.pure rfl)
  exact (h.assignment ctx.withIn).bind fun right => .skip fun span => .pure rfl

theorem bindingRest (ctx : Context) (kind : BindingKind) (close : Token) :
    Echoes (fun found => (found.1, found.2.withoutRaw)) (bindingRest g ctx kind close)
      (bindingRest g' ctx kind close) := by
  unfold Grammar.bindingRest
  rw [h.bindingIdentifier_eq]
  refine .skip fun start => .skip fun _ => ?_
  extract_lets rest
  have hrest : ∀ argument, Echoes (fun found => (found.1, found.2.withoutRaw))
      (rest argument) (rest argument.withoutRaw) := by
    intro argument
    refine .skip fun atAssign => .guard (.skip fun atComma => .ite ?_ ?_)
    · exact .skip fun comma => .skip fun _ => .skip fun atClose => .ite .halt .halt
    · exact .skip fun span => .pure rfl
  refine .ite ?_ ((h.bindingTarget ctx kind).bind hrest)
  exact Mirrors.bind (k := Pattern.withoutRaw) (Blind.mirrors.map fun _ => rfl) hrest

theorem arrayBinding (ctx : Context) (kind : BindingKind) :
    Echoes Pattern.withoutRaw (arrayBinding g ctx kind) (arrayBinding g' ctx kind) := by
  unfold Grammar.arrayBinding
  refine .skip fun start => .skip fun _ =>
    (h.collect (k := Pattern.withoutRaw) fun earlier => ?_).bind fun elements =>
      .skip fun _ => .skip fun span => .pure (by simp [Pattern.withoutRaw])
  refine .skip fun token => ?_
  split
  · exact .pure rfl
  · exact .skip fun _ => .pure rfl
  · exact (h.bindingRest ctx kind .rightBracket).bind fun found => .pure rfl
  · exact (h.bindingElement ctx kind).bind fun element => .skip fun _ => .pure rfl

theorem shorthandBinding (ctx : Context) (kind : BindingKind) (start : Nat) (id : Identifier) :
    Echoes Pattern.withoutRaw (shorthandBinding g ctx kind start id)
      (shorthandBinding g' ctx kind start id) := by
  unfold Grammar.shorthandBinding
  rw [h.declare_eq]
  refine .skip fun _ => .skip fun _ => .skip fun found => .ite ?_ (.pure rfl)
  exact (h.assignment ctx.withIn).bind fun right => .skip fun span => .pure rfl

theorem propertyBinding (ctx : Context) (kind : BindingKind) (keys : List String) :
    Echoes (fun found => (found.1.withoutRaw, found.2)) (propertyBinding g ctx kind keys)
      (propertyBinding g' ctx kind keys) := by
  unfold Grammar.propertyBinding
  refine .skip fun start => .skip fun token => .skip fun escaped => ?_
  refine (h.propertyKey ctx false).bind fun r => ?_
  obtain ⟨key, computed⟩ := r
  dsimp -zeta only
  rw [h.options, noteKey_withoutRaw, shorthandName_withoutRaw]
  extract_lets rest rest'
  have hrest : ∀ keys, Echoes (fun found => (found.1.withoutRaw, found.2)) (rest keys)
      (rest' keys) := by
    intro keys
    refine .skip fun found => .ite ?_ ?_
    · exact (h.bindingElement ctx kind).bind fun value => .skip fun span => .pure rfl
    · refine .skip fun id => (h.shorthandBinding ctx kind start id).bind fun value => ?_
      exact .skip fun span => .pure rfl
  exact .ite (hrest keys) (.skip hrest)

theorem objectBinding (ctx : Context) (kind : BindingKind) :
    Echoes Pattern.withoutRaw (objectBinding g ctx kind) (objectBinding g' ctx kind) := by
  unfold Grammar.objectBinding
  refine .skip fun start => .skip fun _ =>
    (h.collect (k := fun found => (found.1.withoutRaw, found.2)) fun earlier =>
      ?_).bind fun found =>
      .skip fun _ => .skip fun span => .pure ?_
  · refine .skip fun token => ?_
    split
    · exact .pure rfl
    · exact (h.bindingRest ctx kind .rightBrace).bind fun found => .pure rfl
    · have hkeys : (((earlier.map fun found : PatternProperty × List String =>
          (found.1.withoutRaw, found.2)).head?.map Prod.snd).getD []) =
            (earlier.head?.map Prod.snd).getD [] := by
        cases earlier <;> rfl
      rw [hkeys]
      exact (h.propertyBinding ctx kind _).bind fun property => .skip fun _ => .pure rfl
  · simp [Pattern.withoutRaw, Function.comp_def]

theorem bindingTarget_body (ctx : Context) (kind : BindingKind) :
    Echoes Pattern.withoutRaw (Grammar.bindingTarget g ctx kind)
      (Grammar.bindingTarget g' ctx kind) := by
  refine .nested (.skip fun token => ?_)
  split
  · exact h.arrayBinding ctx kind
  · exact h.objectBinding ctx kind
  · rw [h.bindingIdentifier_eq]
    exact .skip fun id => .pure rfl

theorem directive (ctx : Context) :
    Echoes (fun found => (found.1.withoutRaw, found.2)) (directive g ctx) (directive g' ctx) := by
  unfold Grammar.directive
  refine .look fun s => (h.listItem ctx).bind fun statement => ?_
  cases statement with
  | expression span e text =>
    cases e with
    | literal lit => exact .ite (.pure rfl) (.pure rfl)
    | _ => exact .pure rfl
  | _ => exact .pure rfl

theorem prologue (ctx : Context) (simpleParams : Bool) :
    Echoes (fun found => (found.1.map Statement.withoutRaw, found.2)) (prologue g ctx simpleParams)
      (prologue g' ctx simpleParams) := by
  unfold Grammar.prologue
  refine (h.collect (k := fun found => (found.1.withoutRaw, found.2)) fun earlier => ?_).bind
    fun found => .pure ?_
  · have hbefore : (earlier.map fun found : Statement × Prologue =>
        (found.1.withoutRaw, found.2)).head?.map Prod.snd = earlier.head?.map Prod.snd := by
      cases earlier <;> rfl
    rw [hbefore]
    refine .skip fun atString => .ite (.pure rfl) (.look fun s => ?_)
    refine (h.directive _).bind fun r => ?_
    obtain ⟨statement, isDirective⟩ := r
    exact .ite (.skip fun after => .pure rfl) (.pure rfl)
  · simp [List.getLast?_map, Function.comp_def]

theorem bodyStatements (ctx : Context) (simpleParams : Bool) (close : Token) :
    Echoes (fun found => (found.1.map Statement.withoutRaw, found.2))
      (bodyStatements g ctx simpleParams close) (bodyStatements g' ctx simpleParams close) := by
  unfold Grammar.bodyStatements
  refine (h.prologue ctx simpleParams).bind fun r => ?_
  obtain ⟨directives, inner⟩ := r
  refine (h.itemsUpTo close (h.listItem inner)).bind fun statements => .pure ?_
  rw [List.map_append]

theorem formalParameters (ctx : Context) :
    Echoes (List.map Pattern.withoutRaw) (formalParameters g ctx) (formalParameters g' ctx) := by
  unfold Grammar.formalParameters
  refine .skip fun _ => (h.collect fun earlier => ?_).bind fun params => .skip fun _ => .pure rfl
  refine .skip fun token => ?_
  split
  · exact .pure rfl
  · exact (h.bindingRest ctx .parameter .rightParen).bind fun found => .pure rfl
  · exact (h.bindingElement ctx .parameter).bind fun param => .skip fun _ => .pure rfl

/-- A body in braces, from its first statement on. -/
theorem bracedBody (ctx : Context) (simpleParams : Bool) :
    Echoes (fun found => (found.1.map Statement.withoutRaw, found.2))
      (do
        let found ← Grammar.bodyStatements g ctx simpleParams .rightBrace
        expect .rightBrace
        return found)
      (do
        let found ← Grammar.bodyStatements g' ctx simpleParams .rightBrace
        expect .rightBrace
        return found) :=
  (h.bodyStatements ctx simpleParams .rightBrace).bind fun _ => .skip fun _ => .pure rfl

theorem functionParts (ctx : Context) (shape : FunctionShape) (name : Option Identifier) :
    Echoes FunctionParts.withoutRaw (functionParts g ctx shape name)
      (functionParts g' ctx shape name) := by
  refine echoes_asFunction (.inScope (.look fun s => .skip fun paramsStart => ?_) _)
  refine (h.formalParameters _).bind fun params => ?_
  have hsimple : (params.map Pattern.withoutRaw).all Pattern.isSimple =
      params.all Pattern.isSimple := by simp [Function.comp_def]
  have hnames : ∀ ctx, (params.map Pattern.withoutRaw).forM (checkBoundNames ctx .parameter) =
      params.forM (checkBoundNames ctx .parameter) := by
    intro ctx
    simp [List.forM_map]
  rw [checkParameterCount_withoutRaw, hsimple]
  refine .skip fun _ => .skip fun bodyStart => .skip fun _ => ?_
  refine ((h.bracedBody ctx _).inScope _).bind fun r => ?_
  obtain ⟨body, bodyCtx⟩ := r
  dsimp only
  rw [hnames]
  refine (echoes_settleParameters _ _).bind fun _ => .ite (.skip fun _ => .skip fun _ => ?_) ?_
  · exact .skip fun span => .pure rfl
  · exact .skip fun span => .pure rfl

omit h in
/-- A function made of its parts. -/
theorem functionNode (span : Span) (id : Option Identifier) (generator isAsync : Bool)
    (parts : FunctionParts) :
    (⟨span, id, generator, isAsync, parts.withoutRaw.params, parts.withoutRaw.bodySpan,
      parts.withoutRaw.body⟩ : Tree.Function) =
        Function.withoutRaw ⟨span, id, generator, isAsync, parts.params, parts.bodySpan,
          parts.body⟩ := by
  simp [Function.withoutRaw, FunctionParts.withoutRaw]

theorem functionDeclaration (ctx : Context) (isAsync nameRequired : Bool) :
    Echoes Function.withoutRaw (functionDeclaration g ctx isAsync nameRequired)
      (functionDeclaration g' ctx isAsync nameRequired) := by
  unfold Grammar.functionDeclaration
  rw [h.declare_eq]
  refine .skip fun start => .skip fun generator => .skip fun token => ?_
  extract_lets rest rest'
  have hrest : ∀ id, Echoes Function.withoutRaw (rest id) (rest' id) := fun id =>
    (h.functionParts _ .plain id).bind fun parts => .skip fun span =>
      .pure (functionNode span id generator isAsync parts)
  refine .ite ?_ (.ite ?_ (hrest none))
  · refine .skip fun nameStart => .skip fun name => .skip fun kind => .skip fun _ => ?_
    exact .skip fun _ => .skip hrest
  · exact .skip fun escaped => .ite (.skip fun raw => .halt) .halt

theorem functionExpression (ctx : Context) (start : Nat) (isAsync : Bool) :
    Echoes Expression.withoutRaw (functionExpression g ctx start isAsync)
      (functionExpression g' ctx start isAsync) := by
  unfold Grammar.functionExpression
  refine .skip fun generator => .skip fun token => ?_
  extract_lets rest rest'
  have hrest : ∀ id, Echoes Expression.withoutRaw (rest id) (rest' id) := fun id =>
    (h.functionParts _ .plain id).bind fun parts => .skip fun _ => .skip fun span =>
      .pure (congrArg Expression.function (functionNode span id generator isAsync parts))
  refine .ite ?_ (hrest none)
  exact .skip fun name => .skip fun nameStart => .skip fun _ => .skip hrest

theorem methodFunction (ctx : Context) (isAsync generator : Bool) (shape : FunctionShape) :
    Echoes Function.withoutRaw (methodFunction g ctx isAsync generator shape)
      (methodFunction g' ctx isAsync generator shape) := by
  unfold Grammar.methodFunction
  refine .skip fun start => (h.functionParts _ shape none).bind fun parts => .skip fun span => ?_
  exact .pure (functionNode span none generator isAsync parts)

end Phrases.Quieted

end EcmaSyntax.Grammar
