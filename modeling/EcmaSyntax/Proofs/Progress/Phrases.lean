import EcmaSyntax.Proofs.Progress.Loops
import EcmaSyntax.Proofs.Places.Conversion
import EcmaSyntax.Proofs.Grammar.TopLevel

/-!
The phrases that contain each other get on. Here are sequences, templates, property names,
arguments, binding patterns, bodies, functions and classes. The directives at the start of a body
may turn it strict, but do not bring it to the top level of a module. An element of a class takes a
token, at the latest with its name or with the brace of a static block.
-/

namespace EcmaSyntax.Grammar

open EcmaSyntax.Diagnostic EcmaSyntax.Lexer EcmaSyntax.Scope EcmaSyntax.Tree

variable {version : Nat} [Unicode.IdentifierChars version]

variable {α β : Type} {c : Course} {more : Nat} {s : State} {g : Phrases} [hg : g.Progresses c]
  {ctx : Context}

section Expressions

instance : Takes c (g.assignment ctx) := by unfold Phrases.assignment; infer_instance

instance : Takes c (g.covered ctx) := by unfold Phrases.covered; infer_instance

instance : Advances c (Round.sequence g ctx) := by
  refine ⟨fun earlier s => passes_accept.cases (fun found hfound => ?_) fun found s' hnot _ => ?_⟩
  · infer_instance
  · rw [if_neg hnot]
    exact .pure id

instance {start : Nat} {first : Expression} : Proceeds c (g.sequenceAfter ctx start first) := by
  unfold Phrases.sequenceAfter; infer_instance

instance : Takes c (g.expression ctx) := by unfold Phrases.expression; infer_instance

theorem passes_assignment : Passes c 1 (fun _ => True) (g.assignment ctx) s :=
  (hg.assignmentCover ctx s).taken fun _ => inferInstance

theorem passes_expression : Passes c 1 (fun _ => True) (g.expression ctx) s :=
  .look rfl (passes_assignment.taken fun _ => inferInstance)

end Expressions

section Literals

/-- No conflict of names is a lack of fuel. -/
theorem error_lasts (error : Scope.Error) : c.Lasts more s error.failure := by
  intro _ hcause
  obtain ⟨fault, name, offset⟩ := error
  cases fault <;> cases hcause

instance : Light memberName := by unfold memberName; infer_instance

theorem peeks_keptRaw (options : Options) : Peeks (keptRaw options) := by
  refine .of_still fun s => ?_
  unfold keptRaw
  split
  · exact .run rfl (.pure rfl)
  · exact .pure rfl

theorem peeks_literalValue (ctx : Context) : Peeks (literalValue ctx) := by
  refine .of_still fun s => ?_
  unfold literalValue
  refine .run rfl (.run rfl ?_)
  split
  · split
    · exact (stops_fail _).yields
    · exact .run rfl (.pure rfl)
  · split
    · exact (stops_fail _).yields
    · exact .run rfl (.pure rfl)
  · exact .run rfl (.pure rfl)
  · exact .pure rfl
  · exact .pure rfl
  · exact .pure rfl
  · exact stops_unexpected.yields

theorem peeks_templateElement (tagged isTail : Bool) : Peeks (templateElement tagged isTail) := by
  refine .of_still fun s => ?_
  unfold templateElement
  refine .run rfl ?_
  dsimp only
  split
  · split
    · exact .pure rfl
    · exact (stops_failAt _ _).yields
  · exact .pure rfl

theorem passes_literal {options : Options} (hend : s.token ≠ .endOfSource) :
    Passes c more (fun _ => True) (literal options ctx) s := by
  unfold literal
  refine .look rfl (.peeks (peeks_keptRaw options) fun raw s₁ h₁ _ => ?_)
  refine .peeks (peeks_literalValue ctx) fun value s₂ h₂ _ => ?_
  exact .taken (passes_next (by rwa [h₂, h₁])) fun _ => inferInstance

/-- What is read anew as a regular expression is not the end of the text. -/
theorem passes_regexLiteral {options : Options} (hend : s.token ≠ .endOfSource) :
    Passes c more (fun _ => True) (regexLiteral options) s := by
  unfold regexLiteral
  have hrescan : Yields (withLexer rescanRegex) (fun _ s' => s'.token ≠ .endOfSource) s := by
    refine ((rescanRegex_meets s.lexer).withLexer.mono fun _ s' hs' => ?_).weaken fun _ _ => trivial
    obtain ⟨lexer, ⟨raw, hrescanned⟩, rfl⟩ := hs'
    exact fun h => hend (hrescanned.ending h)
  refine .look rfl (.knows (P := fun s' => s'.token ≠ .endOfSource) hrescan fun _ s₁ h₁ _ => ?_)
  refine .look rfl (.look rfl (.peeks (peeks_keptRaw options) fun raw s₂ h₂ _ => ?_))
  exact .taken (passes_next (by rwa [h₂])) fun _ => inferInstance

/-- The brace after an expression in a template is checked before it is read as part of it. -/
theorem proceeds_rescanTemplate (a : α) : Proceeds c (do
    if !(← atToken .rightBrace) then
      if ← atToken .endOfSource then fail .unterminatedTemplateLiteral
      else fail (.expectedToken "\x7d")
    let _ ← withLexer rescanTemplate
    return a) := by
  refine ⟨fun s => .look rfl ?_⟩
  dsimp only
  split
  · refine .look rfl ?_
    split
    · exact .stop tells_fail
    · exact .stop tells_fail
  · rename_i hbrace
    refine fun hs => ((meets_rescanTemplate (by simpa using hbrace)).weaken fun _ =>
      .of_immediate).bind fun _ s' hs' => .pure ⟨.of_strides hs' hs, False.elim⟩

instance {tagged : Bool} : Advances c (Round.template g ctx tagged) := by
  refine ⟨fun earlier s => .look rfl (.skip fun quasi s₁ _ => .skip fun _ s₂ _ => ?_)⟩
  split
  · exact .pure id
  · exact .taken (Takes.passes s₂) fun _ => proceeds_rescanTemplate _

/-- A template from one of its chunks on. -/
theorem passes_template {tagged : Bool} (hend : s.token ≠ .endOfSource) :
    Passes c more (fun _ => True) (template g ctx tagged) s := by
  unfold template
  refine .look rfl (.taken (passes_collect ?_) fun _ => inferInstance)
  refine .look rfl (.peeks (peeks_templateElement tagged _) fun quasi s₁ h₁ _ => ?_)
  refine .taken (passes_next (by rwa [h₁])) fun _ => ?_
  split
  · infer_instance
  · exact .skip fun e => proceeds_rescanTemplate _

instance {start : Nat} {isSpread : Bool} {e : Expression} :
    Proceeds c (elementFrom start isSpread e) := by
  unfold elementFrom; infer_instance

/-- Anywhere else a template takes a token with its end or with its first expression. -/
instance {tagged : Bool} : Takes c (template g ctx tagged) := by
  refine ⟨fun s => .look rfl (.taken (passes_collect (.look rfl ?_)) fun _ => inferInstance)⟩
  refine .peeks (peeks_templateElement tagged _) fun quasi s₁ h₁ _ => ?_
  split
  · rename_i htail
    refine .taken (passes_next ?_) fun _ => inferInstance
    rw [h₁]
    rcases Bool.or_eq_true_iff.mp htail with hat | hat
    · exact State.ne_of_beq hat
    · exact State.ne_of_beq hat
  · exact .skip fun _ s₂ _ => .taken (Takes.passes s₂) fun _ => proceeds_rescanTemplate _

theorem passes_privateName (hend : s.token ≠ .endOfSource) :
    Passes c more (fun _ => True) privateName s :=
  .look rfl (.look rfl (.taken (passes_next hend) fun _ => inferInstance))

/-- A use of a private name is noted before the name is taken. -/
theorem passes_privateReference (hend : s.token ≠ .endOfSource) :
    Passes c more (fun _ => True) privateReference s := by
  unfold privateReference
  refine .look rfl (.look rfl (.look rfl ?_))
  split
  · rename_i error _
    exact fun _ => error_lasts error
  · exact .change rfl rfl rfl (fun _ => rfl) (passes_privateName hend)

theorem passes_memberName : Passes c more (fun _ => True) memberName s := by
  unfold memberName
  refine .look rfl ?_
  split
  · rename_i hprivate
    exact .taken (passes_privateReference (State.ne_of_beq hprivate)) fun _ => inferInstance
  · split
    · rename_i hword
      exact .taken (passes_identifier (State.ne_of_isWord hword)) fun _ => inferInstance
    · exact .failed tells_unexpected

instance : Takes c memberName := ⟨fun _ => passes_memberName⟩

theorem passes_propertyKey {allowPrivate : Bool} :
    Passes c more (fun _ => True) (propertyKey g ctx allowPrivate) s := by
  unfold propertyKey
  refine .look rfl ?_
  split
  · rename_i htoken
    exact .taken (passes_next (State.ne_of_eq htoken)) fun _ => inferInstance
  · rename_i htoken
    exact .taken (passes_literal (State.ne_of_eq htoken)) fun _ => inferInstance
  · rename_i htoken
    exact .taken (passes_literal (State.ne_of_eq htoken)) fun _ => inferInstance
  · rename_i htoken
    exact .taken (passes_literal (State.ne_of_eq htoken)) fun _ => inferInstance
  · rename_i htoken
    split
    · exact .taken (passes_privateName (State.ne_of_eq htoken)) fun _ => inferInstance
    · exact .failed tells_fail
  · split
    · rename_i hword
      exact .taken (passes_identifier (State.ne_of_isWord hword)) fun _ => inferInstance
    · exact .failed tells_unexpected

instance {allowPrivate : Bool} : Takes c (propertyKey g ctx allowPrivate) :=
  ⟨fun _ => passes_propertyKey⟩

instance {earlier : List (Element × Cover)} : Takes c (Round.coveredArgument g ctx earlier) := by
  unfold Round.coveredArgument; infer_instance

instance {earlier : List Element} : Takes c (Round.argument g ctx earlier) := by
  unfold Round.argument; infer_instance

instance : Takes c (coveredArguments g ctx) := by unfold coveredArguments; infer_instance

instance : Takes c (arguments g ctx) := by unfold arguments; infer_instance

end Literals

section Scopes

theorem passes_ofScope {taking : Unit → Prop} (found : Except Scope.Error Unit)
    (htaking : ¬ taking ()) : Passes c more taking (ofScope found) s := by
  cases found with
  | ok _ => exact .pure htaking
  | error error => exact fun _ => error_lasts error

instance {found : Except Scope.Error Unit} : Proceeds c (ofScope found) :=
  ⟨fun _ => passes_ofScope found id⟩

instance {options : Options} {kind : BindingKind} {name : String} {offset : Nat} :
    Proceeds c (declare options ctx kind name offset) :=
  ⟨fun _ => .look rfl (.change rfl rfl rfl (fun _ => rfl) (passes_ofScope _ id))⟩

instance {depth : Nat} {list : ParameterList} : Proceeds c (settleParameters depth list) := by
  refine ⟨fun s => .look rfl (.change rfl rfl rfl (fun _ => rfl) ?_)⟩
  split
  · split
    · exact fun _ => error_lasts _
    · exact .pure id
  · exact .pure id

theorem peeks_checkBinding (kind : BindingKind) (name : String) (offset : Nat) :
    Peeks (checkBinding ctx kind name offset) := by
  refine .of_still fun s => ?_
  unfold checkBinding ofExcept
  split
  · exact .pure rfl
  · trivial

/-- After a declaration the parse stands at the same token. -/
theorem passes_declare {options : Options} {kind : BindingKind} {name : String} {offset : Nat}
    {taking : β → Prop} {rest : Unit → Parser β}
    (h : ∀ scopes, Passes c more taking (rest ()) { s with scopes := scopes }) :
    Passes c more taking (declare options ctx kind name offset >>= rest) s := by
  unfold declare
  simp only [bind_assoc]
  refine .look rfl (.change rfl rfl rfl (fun _ => rfl) ?_)
  generalize s.scopes.declare name kind offset _ = declared
  obtain ⟨found, scopes⟩ := declared
  cases found with
  | ok _ => exact h scopes
  | error error => exact fun _ => error_lasts error

theorem passes_bindingIdentifier {options : Options} {kind : BindingKind} :
    Passes c more (fun _ => True) (bindingIdentifier options ctx kind) s := by
  refine .look rfl ?_
  split
  · refine .look rfl ?_
    split
    · exact .look rfl (.failed tells_fail)
    · exact .failed tells_unexpected
  · rename_i hname
    refine .look rfl (.look rfl (.peeks (peeks_checkBinding kind _ _) fun _ s₁ h₁ _ => ?_))
    refine passes_declare fun scopes => passes_identifier fun hend => hname ?_
    rw [← h₁]
    rw [show s₁.token = .endOfSource from hend]
    rfl

instance {options : Options} {kind : BindingKind} :
    Takes c (bindingIdentifier options ctx kind) := ⟨fun _ => passes_bindingIdentifier⟩

end Scopes

section Bindings

variable {kind : BindingKind}

instance : Takes c (bindingElement g ctx kind) := by unfold bindingElement; infer_instance

instance {close : Token} : Proceeds c (bindingRest g ctx kind close) := by
  unfold bindingRest
  refine .skip fun start => .skip fun _ => ?_
  extract_lets rest
  have hrest : ∀ argument, Proceeds c (rest argument) := by
    intro argument
    refine .skip fun atAssign => .guard tells_fail (.skip fun atComma => ?_)
    dsimp only
    infer_instance
  clear_value rest
  infer_instance

instance : Advances c (Round.arrayBinding g ctx kind) := by
  refine ⟨fun earlier s => .look rfl ?_⟩
  split
  · exact .pure id
  · rename_i htoken
    exact .taken (passes_next (by rw [htoken]; nofun)) fun _ => inferInstance
  · exact (Proceeds.passes s).next fun _ _ _ => .pure id
  · exact .taken (Takes.passes s) fun _ => inferInstance

instance {id : Identifier} {start : Nat} : Proceeds c (shorthandBinding g ctx kind start id) := by
  unfold shorthandBinding
  refine .skip fun _ => .skip fun _ => .skip fun hasDefault => ?_
  infer_instance

instance {unique : Bool} {keys : List String} {key : Expression} :
    Light (ofExcept (noteKey unique keys key)) := (gives_noteKey unique keys key).tells.light

instance {keys : List String} : Takes c (propertyBinding g ctx kind keys) := by
  unfold propertyBinding
  refine .later fun start => .later fun token => .later fun escaped => .first fun found => ?_
  split
  extract_lets rest
  have hrest : ∀ keys, Proceeds c (rest keys) := fun keys => .skip fun isNamed => by infer_instance
  clear_value rest
  infer_instance

instance : Advances c (Round.objectBinding g ctx kind) := by
  refine ⟨fun earlier s => .look rfl ?_⟩
  split
  · exact .pure id
  · exact (Proceeds.passes s).next fun _ _ _ => .pure id
  · exact .taken (Takes.passes s) fun _ => inferInstance

theorem passes_arrayBinding (hend : s.token ≠ .endOfSource) :
    Passes c more (fun _ => True) (arrayBinding g ctx kind) s :=
  .look rfl (.taken (passes_next hend) fun _ => inferInstance)

theorem passes_objectBinding (hend : s.token ≠ .endOfSource) :
    Passes c more (fun _ => True) (objectBinding g ctx kind) s :=
  .look rfl (.taken (passes_next hend) fun _ => inferInstance)

theorem passes_bindingTarget : Passes c more (fun _ => True) (bindingTarget g ctx kind) s := by
  refine .nested fun depth => .look rfl ?_
  split
  · rename_i htoken
    exact passes_arrayBinding (State.ne_of_eq htoken)
  · rename_i htoken
    exact passes_objectBinding (State.ne_of_eq htoken)
  · exact .taken passes_bindingIdentifier fun _ => inferInstance

instance : Advances c (Round.parameter g ctx) := by
  refine ⟨fun earlier s => .look rfl ?_⟩
  split
  · exact .pure id
  · exact (Proceeds.passes s).next fun _ _ _ => .pure id
  · exact .taken (Takes.passes s) fun _ => inferInstance

instance : Takes c (formalParameters g ctx) := by unfold formalParameters; infer_instance

end Bindings

instance [h : ctx.Inner] : c.Permits ctx := ⟨fun _ => h.topLevel⟩

section Bodies

variable {simpleParams : Bool}

instance [c.Permits ctx] : Takes c (directive g ctx) := by
  unfold directive
  refine .later fun s => .first fun statement => ?_
  split
  · split <;> infer_instance
  · infer_instance

instance {before : Prologue} {text : String} {start : Nat} {hasOctalEscape : Bool} :
    Light (before.add simpleParams text start hasOctalEscape) := (tells_add _ _ _ _ _).light

theorem passes_directive_round [h : c.Permits ctx] (earlier : List (Statement × Prologue))
    (hearlier : ∀ entry ∈ earlier, entry.2.ctx.Follows ctx) :
    Passes c 2 Round.GoesOn (Round.directive g ctx simpleParams earlier) s := by
  have hbefore : c.Permits ((earlier.head?.map Prod.snd).getD ⟨ctx, none⟩).ctx :=
    ⟨fun hquiet => (follows_before hearlier).topLevel.trans (h.topLevel hquiet)⟩
  refine .look rfl ?_
  split
  · exact .pure id
  · refine .look rfl (.taken (Takes.passes _) fun found => ?_)
    split
    split <;> infer_instance

instance [c.Permits ctx] : Proceeds c (prologue g ctx simpleParams) := by
  have hcollect : Proceeds c (g.collect (Round.directive g ctx simpleParams)) := by
    refine proceeds_collect (I := fun earlier => ∀ entry ∈ earlier,
      entry.2.ctx.Follows ctx) (List.forall_mem_nil _)
      (fun earlier _ => passes_directive_round earlier) fun earlier s h => ?_
    refine (directive_round_yields earlier s h).mono fun r _ hr item hitem => ?_
    subst hitem
    exact List.forall_mem_cons.mpr ⟨hr, h⟩
  unfold prologue
  infer_instance

instance [h : c.Permits ctx] {close : Token} :
    Proceeds c (bodyStatements g ctx simpleParams close) := by
  refine ⟨fun s => (Proceeds.passes s).known (prologue_follows s) fun found s' hfound _ => ?_⟩
  have : c.Permits found.2 := ⟨fun hquiet => hfound.topLevel.trans (h.topLevel hquiet)⟩
  have hrest : ∀ close, Proceeds c (g.itemsUpTo close (g.listItem found.2)) := inferInstance
  obtain ⟨directives, after⟩ := found
  exact (Proceeds.skip fun _ => inferInstance).passes s'

end Bodies

section Functions

variable {isAsync generator : Bool} {shape : FunctionShape}

theorem Proceeds.asFunction {step : Parser α} (h : Proceeds c step) :
    Proceeds c (asFunction step) := by
  unfold Grammar.asFunction; infer_instance

instance {params : List Pattern} {start : Nat} :
    Light (checkParameterCount shape params start) := by
  unfold checkParameterCount
  split <;> infer_instance

instance {kind : BindingKind} {pattern : Pattern} : Light (checkBoundNames ctx kind pattern) := by
  unfold checkBoundNames; infer_instance

instance {name : Option Identifier} [h : c.Permits ctx] :
    Proceeds c (functionParts g ctx shape name) := by
  have : c.Permits { ctx with inParameters := true } := ⟨h.topLevel⟩
  unfold functionParts
  refine .asFunction (.inScope (.skip fun s => .skip fun paramsStart => .skip fun params => ?_))
  refine .skip fun _ => .skip fun bodyStart => .skip fun _ => .skip fun found => ?_
  split
  refine .skip fun _ => ?_
  dsimp only
  infer_instance

theorem passes_functionStart :
    Passes c more (fun _ => True) (functionStart isAsync) s := by
  unfold functionStart
  split
  · exact .skip fun _ _ _ => .taken passes_expect fun _ => inferInstance
  · exact .taken passes_expect fun _ => inferInstance

instance : Light (functionBindingKind ctx) := by
  unfold functionBindingKind; infer_instance

theorem passes_functionDeclaration {nameRequired : Bool} :
    Passes c more (fun _ => True) (functionDeclaration g ctx isAsync nameRequired) s := by
  unfold functionDeclaration
  refine .look rfl (.taken passes_functionStart fun generator => .skip fun token => ?_)
  extract_lets rest
  have hrest : ∀ id, Proceeds c (rest id) := fun id => inferInstance
  clear_value rest
  infer_instance

theorem passes_functionExpression {start : Nat} :
    Passes c more (fun _ => True) (functionExpression g ctx start isAsync) s := by
  unfold functionExpression
  refine .taken passes_functionStart fun generator => ?_
  extract_lets inner rest
  have hinner : c.Permits inner := inferInstance
  have hrest : ∀ id, Proceeds c (rest id) := fun id => inferInstance
  clear_value rest
  infer_instance

instance : Takes c (functionDeclaration g ctx isAsync nameRequired) :=
    ⟨fun _ => passes_functionDeclaration⟩

instance : Proceeds c (methodFunction g ctx isAsync generator shape) := by
  unfold methodFunction
  refine .skip fun start => ?_
  extract_lets base inner
  have hbase : c.Permits base := inferInstance
  have hinner : c.Permits inner := ⟨hbase.topLevel⟩
  clear_value inner
  infer_instance

end Functions

section Decorators

theorem passes_path {start : Nat} {object : Expression} :
    Passes c more (·.isSome = true) (Round.path start object) s := by
  refine passes_accept.cases (fun found hfound => inferInstance) fun found s' hnot _ => ?_
  rw [if_neg hnot]
  exact .pure nofun

instance : Proceeds c (decoratorExpression g ctx) := by
  unfold decoratorExpression
  refine .skip fun start => .skip fun isGroup => ?_
  split
  · infer_instance
  · refine .skip fun token => .guard tells_unexpected ?_
    refine .skip fun value => .skip fun _ => .skip fun name => ?_
    have hpath : Proceeds c (iterate (Round.path start) g.size (.identifier name)) :=
      proceeds_iterate (fun _ _ => passes_path) _
    infer_instance

instance : Advances c (Round.decorator g ctx) := by
  refine ⟨fun earlier s => .look rfl (passes_accept.cases (fun found hfound => ?_)
    fun found s' hnot _ => ?_)⟩
  · infer_instance
  · rw [if_neg hnot]
    exact .pure id

instance : Proceeds c (decorators g ctx) := by unfold decorators; infer_instance

theorem passes_decorators (hat : s.token = .at) :
    Passes c more (fun _ => True) (decorators g ctx) s :=
  passes_collect (.look rfl (.accepted hat inferInstance))

end Decorators

section Elements

instance {start : Nat} : Takes c (staticBlock g ctx start) := by
  unfold staticBlock
  refine .first fun _ => ?_
  extract_lets base inner
  have hinner : c.Permits inner := ⟨fun _ => Bool.and_false ctx.topLevel⟩
  clear_value inner
  refine .skip fun saved => .skip fun _ => ?_
  infer_instance

instance {derived computed : Bool} {earlier : List ClassElement} {found : List Decorator}
    {start keyStart : Nat} {m : Modifiers} {key : Expression} :
    Proceeds c (classMethod g ctx derived earlier found start m key computed keyStart) := by
  unfold classMethod
  extract_lets name isConstructing kind shape rest check
  have hrest : ∀ u, Proceeds c (rest u) := fun u => inferInstance
  clear_value rest
  have hcheck : ∀ u, Proceeds c (check u) := fun u => inferInstance
  clear_value check
  infer_instance

instance {computed : Bool} {found : List Decorator} {start keyStart : Nat} {m : Modifiers}
    {key : Expression} : Proceeds c (classField g ctx found start m key computed keyStart) := by
  unfold classField
  refine .guard tells_unexpected (.guard tells_failAt (.skip fun _ => ?_))
  extract_lets rest
  have hrest : ∀ value, Proceeds c (rest value) := fun value => inferInstance
  clear_value rest
  infer_instance

instance {derived : Bool} {earlier : List ClassElement} :
    Takes c (classElement g ctx derived earlier) := by
  unfold classElement
  refine .later fun start => ?_
  extract_lets block rest
  have hblock : ∀ u, Takes c (block u) := fun u =>
    inferInstanceAs (Takes c (staticBlock g ctx start))
  have hrest : ∀ found, Takes c (rest found) := by
    intro found
    refine .later fun isStatic => ?_
    extract_lets element
    have helement : ∀ u, Takes c (element u) := by
      intro u
      refine .later fun m => .later fun keyStart => .first fun key => ?_
      split
      extract_lets after
      have hafter : ∀ u, Proceeds c (after u) := fun u => inferInstance
      clear_value after
      infer_instance
    clear_value block element
    infer_instance
  clear_value rest
  infer_instance

instance {derived : Bool} : Advances c (Round.classElement g ctx derived) := by
  refine ⟨fun earlier s => .look rfl ?_⟩
  split
  · exact .pure id
  · refine passes_accept.cases (fun found hfound => ?_) fun found s' hnot _ => ?_
    · rw [if_pos hfound]
      infer_instance
    · rw [if_neg hnot]
      refine .look rfl (.guard tells_unexpected fun _ => ?_)
      exact .taken (Takes.passes s') fun _ => inferInstance

instance {derived : Bool} : Proceeds c (classBody g ctx derived) := by
  unfold classBody
  refine .skip fun start => .skip fun _ => .skip fun _ => .skip fun elements => .skip fun s => ?_
  infer_instance

theorem passes_classDefinition {start : Nat} {isDeclaration isDefaultExport : Bool}
    {found : List Decorator} : Passes c more (fun _ => True)
      (classDefinition g ctx start isDeclaration found isDefaultExport) s := by
  unfold classDefinition
  refine .taken passes_expect fun _ => ?_
  extract_lets inner rest named
  have hrest : ∀ id, Proceeds c (rest id) := by
    intro id
    refine .skip fun isDerived => ?_
    extract_lets body
    have hbody : ∀ superClass, Proceeds c (body superClass) := fun superClass =>
      .skip fun found => by
      split
      infer_instance
    clear_value body
    infer_instance
  clear_value rest
  have hnamed : ∀ u, Proceeds c (named u) := fun u => inferInstance
  clear_value named
  infer_instance

instance {start : Nat} {isDeclaration isDefaultExport : Bool} {found : List Decorator} :
    Takes c (classDefinition g ctx start isDeclaration found isDefaultExport) :=
  ⟨fun _ => passes_classDefinition⟩

end Elements

end EcmaSyntax.Grammar
