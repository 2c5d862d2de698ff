import EcmaSyntax.Proofs.Grammar.Outcome
import EcmaSyntax.Proofs.Spans.Primary
import EcmaSyntax.Grammar.Statement

/-!
What calls and operators lay out. What is applied to an expression, and every operator of equal
strength, makes one plot of all that has been laid out since the expression began.

What statements lay out. A statement starts where its span starts, and the head of a loop stands
between its parentheses.
-/

namespace EcmaSyntax.Grammar

open EcmaSyntax.Diagnostic EcmaSyntax.Lexer EcmaSyntax.Scope EcmaSyntax.Text EcmaSyntax.Tree
open Plotted

variable {version : Nat} [Unicode.IdentifierChars version]

variable {ground : Ground} {lo start : Nat} {row : List Plot} {taken : Bool} {s : State}
  {g : Phrases} [h : g.Spans ground] {ctx : Context} {position : Position}

section Chains

instance : Plotted Chain := ⟨fun chain => [chain.expression.plot]⟩

instance : AddsToRow ground (computedProperty g ctx) :=
  ⟨fun _ _ _ => .take fun _ => .lay fun _ _ => .take fun _ => .pure rfl⟩

theorem changesRow_optionalLink {object : Expression} :
    ChangesRow ground start [object.plot] (.reached true) (optionalLink g ctx start object) plots
      (.reached true) := by
  refine .look fun token => ?_
  split
  · exact .lay fun args _ => .frame fun span => .pure (by simp)
  · exact .lay fun property _ => .frame fun span => .pure rfl
  · exact .refuse
  · exact .refuse
  · exact .lay fun property _ => .frame fun span => .pure rfl

/-- A template behind its tag, if there may be one. -/
theorem HasRow.tagged {chain : Chain} [hchain : Lies ground chain]
    (hs : HasRow ground start (plots chain) (.reached true) s)
    (htoken : s.token.isTemplate = true) :
    Meets (AtBoundary ground.text) (do
        if chain.isOptional then fail .optionalChainTemplate
        checkCover chain.expression
        let parts ← Grammar.template g ctx true
        setAssignable false
        let span ← spanFrom start
        return some { chain with
          expression := .taggedTemplate span chain.expression parts.span parts.quasis
            parts.expressions })
      (fun found s' => HasRow ground start (plots (found.getD chain)) (.reached true) s') s := by
  have : Lies ground chain.expression := ⟨hchain.fits⟩
  split
  · exact hs.changesRow .refuse
  · refine (hs.treads.and (checkCover_frame chain.expression s)).bind fun _ s₁ hs₁ => ?_
    obtain ⟨hs₁, rfl⟩ := hs₁
    exact (hs₁.template htoken true).bind fun parts s₂ hs₂ => hs₂.changesRow (.skip fun _ =>
      .frame fun span => .pure rfl)

/-- What an expression is applied to becomes one plot with it. -/
theorem changesRow_chainLink {allowCalls : Bool} {chain : Chain} [hchain : Lies ground chain] :
    ChangesRow ground start (plots chain) (.reached true) (chainLink g ctx start allowCalls chain)
      (fun found => plots (found.getD chain)) (.reached true) := by
  have : Lies ground chain.expression := ⟨hchain.fits⟩
  refine fun s hs => .run rfl ?_
  split
  · exact hs.changesRow (.skip fun _ => .skip fun _ => .lay fun property _ => .skip fun _ =>
      .frame fun span => .pure rfl)
  · exact hs.changesRow (.skip fun _ => .lay fun property _ => .skip fun _ => .frame fun span =>
      .pure rfl)
  · refine hs.changesRow (.ite (fun _ => .skip fun _ => .lay fun args _ =>
      .skip fun _ => ?_) fun _ => .pure rfl)
    exact .frame fun span => .pure (by simp [plots])
  · exact hs.changesRow (.guard fun _ => .skip fun _ => .skip fun _ =>
      changesRow_optionalLink.bind fun e =>
      .skip fun _ => .pure rfl)
  · rename_i htoken
    exact hs.tagged (htoken ▸ rfl)
  · rename_i htoken
    exact hs.tagged (htoken ▸ rfl)
  · exact hs.changesRow (.pure rfl)

theorem changesRow_callTail {e : Expression} {allowCalls : Bool} :
    ChangesRow ground start [e.plot] (.reached true) (callTail g ctx start e allowCalls) plots
      (.reached true) := by
  refine .bind (ChangesRow.iterate (fun chain _ => changesRow_chainLink) g.size
    (⟨e, false⟩ : Chain)) fun chain => ?_
  exact .ite (fun _ => .skip fun _ => .frame fun span => .pure rfl) fun _ => .pure rfl

instance {allowCall : Bool} : AddsToRow ground (superExpression ctx allowCall) := by
  refine .fresh fun start _ => .take fun _ => .look fun token => ?_
  extract_lets rest
  have hrest : ChangesRow ground start [] (.reached true) (rest ()) plots (.reached true) :=
    .skip fun _ => .frame fun span => .pure rfl
  refine .ite (fun _ => .guard fun _ => hrest) fun _ => .ite (fun _ => .guard fun _ => ?_) fun _ =>
    .refuse
  exact .skip fun _ => .guard fun _ => hrest

theorem changesRow_importCall :
    ChangesRow ground start [] (.reached taken) (importCall g ctx start) plots (.reached true) := by
  refine .take fun _ => .look fun _ => .look fun _ => .guard fun _ => .lay fun source _ =>
    .skip fun _ => ?_
  extract_lets rest
  have hrest : ∀ options, ChangesRow ground start
    ([] ++ plots source ++ plots options) (.reached true)
      (rest options) plots (.reached true) := fun options =>
    .look fun _ => .guard fun _ => .take fun _ => .skip fun _ => .frame fun span => .pure (by simp)
  clear_value rest
  refine .ite (fun _ => .look fun _ => .guard fun _ => .lay fun e _ => .skip fun _ => ?_) fun _ =>
    ?_
  · exact .given (hrest (some e))
  · exact .mayAddToRow fun options _ => hrest options

/-- The keyword is a name of the meta property, if that is what it starts. -/
instance : AddsToRow ground (importExpression g ctx) := by
  refine .freshToken fun t _ hstart => .take fun _ => .skip fun _ => .look fun token => ?_
  have : Bounds ground.text t.lexer.span.start := hstart
  split
  · exact .skip fun _ => .look fun _ => .guard fun _ => .guard fun _ => .lay fun property _ =>
      .frame fun span => .pure rfl
  · exact changesRow_importCall.drop (List.nil_sublist _)
  · exact .refuse

instance : AddsToRow ground (newCallee g ctx) := by
  refine .fresh fun start _ => .look fun _ => .ite (fun _ => .last fun _ => rfl) fun _ =>
    .look fun _ => .ite (fun _ => .last fun _ => rfl) fun _ => .look fun _ =>
    .ite (fun _ => .lay fun e _ => ?_) fun _ => .last fun _ => rfl
  split
  · exact .refuse
  · exact .pure rfl

instance : AddsToRow ground (newCall g ctx) := by
  refine AddsToRow.nested (h := .freshToken fun t _ hstart => .take fun _ => .skip fun _ => ?_)
  have : Bounds ground.text t.lexer.span.start := hstart
  refine .ite (fun _ => ?_) fun _ => .drop (List.nil_sublist _) (.mark fun calleeStart _ => ?_)
  · exact .look fun _ => .guard fun _ => .guard fun _ => .lay fun property _ => .skip fun _ =>
      .frame fun span => .pure rfl
  · refine .lay fun callee _ => .bind (.within changesRow_callTail) fun callee => .look fun _ => ?_
    refine .drop (List.sublist_append_right _ _) (.mayBranch fun args _ => ?_)
    exact .skip fun _ => .frame fun span => .pure (by simp)

instance : AddsToRow ground (leftHandSide g ctx) := by
  refine .fresh fun start _ => ?_
  extract_lets rest
  have hrest : ∀ e : Expression, ChangesRow ground start ([] ++ plots e)
    (.reached true) (rest e) plots
      (.reached true) := fun e => .look fun _ => .ite (fun _ => .pure rfl) fun _ =>
        changesRow_callTail
  clear_value rest
  refine .look fun _ => .look fun _ => .look fun _ =>
    .ite (fun _ => .lay fun e _ => hrest e) fun _ => ?_
  exact .ite (fun _ => .lay fun e _ => hrest e) fun _ => .branch fun e _ => hrest e

end Chains

section Unary

instance {id : Identifier} [hid : Lies ground id] : Treads ground.text (checkTarget ctx id) := by
  have : Bounds ground.text id.span.start := ⟨fits_name (hid.fits _ List.mem_cons_self)⟩
  unfold checkTarget
  infer_instance

theorem Lies.withoutParens {e : Expression} [he : Lies ground e] : Lies ground e.withoutParens :=
  ⟨(row_withoutParens e (he.fits _ List.mem_cons_self)).fits⟩

instance {target : Expression} [htarget : Lies ground target] {position : String} :
    Treads ground.text (checkUpdateTarget ctx target position) := by
  have : Bounds ground.text target.start := ⟨fits_start (htarget.fits _ List.mem_cons_self)⟩
  have hinner : Lies ground target.withoutParens := Lies.withoutParens
  refine .skip fun s => ?_
  split
  · infer_instance
  · split
    · rename_i id heq
      rw [heq] at hinner
      have : Lies ground id := ⟨hinner.fits⟩
      infer_instance
    · infer_instance
    · infer_instance

instance {argument : Expression} [Bounds ground.text start] :
    Treads ground.text (checkDelete ctx argument start) := by
  unfold checkDelete
  split <;> infer_instance

variable {token : Token}

theorem changesRow_unaryOperation [Bounds ground.text start] :
    ChangesRow ground start [] (.reached taken)
    (unaryOperation g ctx start token) plots (.reached true) := by
  refine .lay fun argument _ => .skip fun _ => ?_
  split
  · exact .refuse
  · exact .maybe (.skip fun _ => .frame fun span => .pure rfl)

theorem changesRow_updateBefore : ChangesRow ground start [] (.reached taken)
    (updateBefore g ctx start token)
    plots (.reached true) :=
  .lay fun _ _ => .skip fun _ => .skip fun _ => .frame fun _ => .pure rfl

theorem changesRow_awaitOperation [Bounds ground.text start] :
    ChangesRow ground start [] (.reached taken) (awaitOperation g ctx start)
    plots (.reached true) :=
  .guard fun _ => .skip fun _ => .lay fun _ _ => .skip fun _ => .skip fun _ => .frame fun _ =>
    .pure rfl

instance : AddsToRow ground (updateAfter g ctx) := by
  refine .fresh fun start _ => .lay fun e _ => .look fun token => .look fun _ => .look fun _ => ?_
  refine .ite (fun _ => .pure rfl) fun _ => .skip fun _ => .skip fun _ => .skip fun _ =>
    .skip fun _ => ?_
  exact .frame fun span => .pure rfl

instance : AddsToRow ground (unary g ctx) := by
  refine .fresh fun start _ => .look fun token => .look fun _ =>
    .ite (fun _ => changesRow_unaryOperation)
    fun _ => .ite (fun _ => changesRow_updateBefore) fun _ => .look fun _ => ?_
  exact .ite (fun _ => changesRow_awaitOperation) fun _ => .last fun _ => rfl

end Unary

section Binary

variable {minimum : Nat}

/-- An operator is no node. -/
instance : Plotted (Option Token) := ⟨fun _ => []⟩

instance {text : List Char} {a b : Option Token} : Treads text (checkMixing a b) := by
  unfold checkMixing
  split <;> infer_instance

instance {e : Expression} [he : Lies ground e] : Treads ground.text (refusePrivateName e) := by
  unfold refusePrivateName
  split
  · rename_i id
    have : Bounds ground.text id.span.start := ⟨fits_start (he.fits _ List.mem_cons_self)⟩
    infer_instance
  · infer_instance

theorem plot_binaryNode {span : Span} {token : Token} {left right e : Expression}
    (he : binaryNode span token left right = some e) :
      e.plot = .node span [left.plot, right.plot] := by
  unfold binaryNode at he
  split at he
  · obtain rfl := Option.some.inj he
    rfl
  · obtain ⟨operator, -, rfl⟩ := Option.map_eq_some_iff.mp he
    rfl

/-- The right operand is a row of its own, in which operators of more strength are applied. -/
theorem changesRow_rightOperand {rightStart strength : Nat} {operand : Expression} :
    ChangesRow ground lo (row ++ [.point rightStart] ++ [operand.plot]) (.reached true)
      (nested (g.binary ctx rightStart operand strength)) (fun found => row ++ plots found.1)
      (.reached true) := .nested (.within (h.binary ctx rightStart operand strength))

theorem changesRow_binaryLink {left : Expression × Option Token} [hleft : Lies ground left] :
    ChangesRow ground start (plots left) (.reached true) (binaryLink g ctx start minimum left)
      (fun found => plots (found.getD left)) (.reached true) := by
  have : Lies ground left.1 := ⟨fun p hp => hleft.fits p (List.mem_append_left _ hp)⟩
  refine .bounds fun hstart => .look fun token => .ite (fun _ => .pure rfl) fun _ =>
    .maybe (.skip fun _ => ?_)
  refine .look fun _ => .guard fun _ => .skip fun _ => .skip fun _ => .mark fun rightStart _ => ?_
  refine .lay fun operand _ => changesRow_rightOperand.bind fun ⟨right, last⟩ => ?_
  refine .known (List.sublist_append_right _ (plots right)) fun _ => .skip fun _ => .skip fun _ =>
    ?_
  refine .skip fun _ => .frame fun span => ?_
  split
  · exact .refuse
  · rename_i e he
    exact .skip fun _ => .pure (by simp [plot_binaryNode he, plots])

theorem changesRow_binary {left : Expression} : ChangesRow ground start [left.plot] (.reached true)
    (binary g ctx start left minimum) (fun found => [found.1.plot]) (.reached true) :=
  ChangesRow.iterate (fun _ _ => changesRow_binaryLink) g.size (left, (none : Option Token))

instance : AddsToRow ground (binaryExpression g ctx) := by
  refine .fresh fun start _ => .lay fun left _ => .look fun _ => .ite (fun _ => .pure rfl) fun _ =>
    ?_
  refine changesRow_binary.bind fun ⟨e, _⟩ => .known (a := e) (List.Sublist.refl _) fun _ => ?_
  exact .skip fun _ => .pure rfl

instance : AddsToRow ground (conditional g ctx) := by
  refine .fresh fun start _ => .lay fun test _ => .look fun _ => .look fun _ => ?_
  refine .ite (fun _ => .pure rfl) fun _ => .skip fun _ => .skip fun _ => .lay fun consequent _ =>
    ?_
  exact .take fun _ => .lay fun alternate _ => .skip fun _ => .frame fun span => .pure rfl

end Binary

section Assignment

variable {left : Expression} {cause : Cause}

instance : AddsToRow ground (yieldExpression g ctx) := by
  refine .fresh fun start _ => .guard fun _ => .skip fun _ => .take fun _ => .look fun _ => ?_
  refine .skip fun delegate => .look fun _ => .mayBranch fun argument _ => ?_
  exact .skip fun _ => .frame fun span => .pure (by simp)

theorem changesRow_simpleTarget [hleft : Lies ground left] :
    ChangesRow ground lo [left.plot] (.reached taken)
    (simpleTarget ctx left cause) plots (.reached taken) := by
  have hfits := hleft.fits _ List.mem_cons_self
  have : Bounds ground.text left.start := ⟨fits_start hfits⟩
  have htarget : Lies ground left.withoutParens := Lies.withoutParens
  refine .reshape (fun _ hrow => hrow.replace (row_withoutParens left hfits))
    (.look fun s => .guard fun _ => ?_)
  generalize left.withoutParens = target at htarget ⊢
  split
  · rename_i id
    have : Lies ground id := ⟨htarget.fits⟩
    exact .skip fun _ => .pure rfl
  · exact .pure rfl
  · exact .refuse

omit h in
theorem changesRow_patternTarget [hleft : Lies ground left] :
    ChangesRow ground lo [left.plot] (.reached taken)
    (patternTarget g ctx left cause) plots (.reached taken) := by
  refine .look fun _ => .ite (fun _ => .skip fun _ => .look fun c =>
    .convert fun hi hrow => ?_) fun _ => .skip fun _ => changesRow_simpleTarget
  exact (settled_toPattern left (hleft.fits _ List.mem_cons_self)).mono fun p hp => hrow.replace hp

omit h in
theorem changesRow_assignmentTarget {token : Token} [Lies ground left] :
    ChangesRow ground lo [left.plot] (.reached taken) (assignmentTarget g ctx token left) plots
      (.reached taken) :=
  .ite (fun _ => changesRow_patternTarget) fun _ => .skip fun _ => changesRow_simpleTarget

instance : AddsToRow ground (assignmentCover g ctx) := by
  refine AddsToRow.nested (h := .skip (h := fun atYield => ?_))
  split
  · infer_instance
  · refine .fresh fun start _ => .skip fun _ => .lay fun left _ => .look fun token => .look fun _ =>
      ?_
    refine .ite (fun _ => .pure rfl) fun _ => ?_
    split
    · exact .refuse
    · refine changesRow_assignmentTarget.bind fun target => .skip fun _ => .lay fun right _ =>
        .skip fun _ => ?_
      exact .frame fun span => .pure rfl

end Assignment

section Looking

variable {text : List Char}

instance : Treads text atLetDeclaration := by unfold atLetDeclaration; infer_instance
instance : Treads text atAsyncFunction := by unfold atAsyncFunction; infer_instance
instance : Treads text atMisplacedLet := by unfold atMisplacedLet; infer_instance
instance : Treads text atImportDeclaration := by unfold atImportDeclaration; infer_instance

end Looking

section Declarations

variable {kind : VariableKind}

instance {role : Role} : AddsToRow ground (block g ctx role) :=
  .fresh fun _ _ => .take fun _ => .lay fun _ _ => .frame fun _ => .pure rfl

instance {declarator : VariableDeclarator} [hdeclarator : Lies ground declarator] :
    Treads ground.text (checkInitializer kind declarator) := by
  obtain ⟨span, id, init⟩ := declarator
  have : Bounds ground.text span.start := ⟨(hdeclarator.fits _ List.mem_cons_self).isBoundary_start⟩
  unfold checkInitializer
  infer_instance

instance : AddsToRow ground (variableDeclarator g ctx kind) := by
  refine .fresh fun start _ => .lay fun target _ => .skip fun _ => .mayBranch fun init _ => ?_
  exact .frame fun span => .pure (by simp)

instance {inHead : Bool} {earlier : List VariableDeclarator} :
    MayAddToRow ground (Round.declarator g ctx kind inHead earlier) := by
  refine AddsToRow.mayAddToRow ⟨fun lo row taken => .lay fun declarator _ => ?_⟩
  exact .maybe (.skip fun _ => .ite (fun _ => .pure rfl) fun _ => .pure rfl)

instance {inHead : Bool} : MayAddToRow ground (variableDeclarators g ctx kind inHead) :=
  inferInstanceAs (MayAddToRow ground (g.collect (Round.declarator g ctx kind inHead)))

instance : AddsToRow ground (variableStatement g ctx kind) :=
  .fresh fun _ _ => .take fun _ => .mayAddToRow fun _ _ => .skip fun _ => .frame fun _ =>
    .pure (by simp)

end Declarations

section Statements

instance : AddsToRow ground (parenExpression g ctx) :=
  ⟨fun _ _ _ => .take fun _ => .lay fun _ _ => .take fun _ => .pure rfl⟩

instance : AddsToRow ground (loopBody g ctx) := by unfold loopBody; infer_instance

theorem changesRow_ifStatement : ChangesRow ground start [] (.reached taken)
    (ifStatement g ctx start) plots
    (.reached true) := by
  refine .take fun _ => .lay fun test _ => .lay fun consequent _ => .skip fun _ => ?_
  exact .ite (fun _ => .lay fun alternate _ => .frame fun span => .pure rfl) fun _ =>
    .frame fun span => .pure rfl

theorem changesRow_whileStatement :
    ChangesRow ground start [] (.reached taken) (whileStatement g ctx start)
    plots (.reached true) :=
  .take fun _ => .lay fun _ _ => .lay fun _ _ => .frame fun _ => .pure rfl

theorem changesRow_doWhileStatement :
    ChangesRow ground start [] (.reached taken) (doWhileStatement g ctx start)
    plots (.reached true) :=
  .take fun _ => .lay fun _ _ => .take fun _ => .lay fun _ _ => .skip fun _ =>
    .maybe (.frame fun _ => .pure rfl)

instance {isContinue : Bool} : AddsToRow ground (jumpLabel isContinue) := by
  refine ⟨fun lo row taken => .look fun name => .look fun s => ?_⟩
  split
  · exact .refuse
  · exact .guard fun _ => .last fun _ => rfl

instance {isContinue : Bool} [Bounds ground.text start] :
    Treads ground.text (checkJump ctx start isContinue) := by
  unfold checkJump; infer_instance

theorem changesRow_jump {isContinue : Bool} [Bounds ground.text start] :
    ChangesRow ground start [] (.reached taken) (jump ctx start isContinue) plots
      (.reached true) := by
  refine .take fun _ => .look fun token => .look fun _ => ?_
  extract_lets rest
  have hrest : ∀ label, ChangesRow ground start ([] ++ plots label) (.reached true)
    (rest label) plots
      (.reached true) := by
    refine fun label => .skip fun _ => .frame fun span => .pure ?_
    split <;> simp [toList_map_eq_plots (α := Identifier) fun _ => rfl]
  clear_value rest
  refine .ite (fun _ => .mayAddToRow fun label _ => hrest label) fun _ => .skip fun _ => ?_
  exact .mayAddToRow fun label _ => hrest label

theorem changesRow_returnStatement :
    ChangesRow ground start [] (.reached taken) (returnStatement g ctx start)
    plots (.reached true) := by
  refine .guard fun _ => .take fun _ => .look fun token => .look fun _ =>
    .mayBranch fun argument _ => ?_
  exact .skip fun _ => .frame fun span => .pure (by simp)

theorem changesRow_withStatement [Bounds ground.text start] :
    ChangesRow ground start [] (.reached taken) (withStatement g ctx start) plots
      (.reached true) := by
  refine .guard fun _ => .take fun _ => .lay fun object _ => .lay fun body _ => ?_
  extract_lets rest
  have hrest : ChangesRow ground start ([] ++ plots object ++ plots body)
    (.reached true) (rest ()) plots
      (.reached true) := .frame fun span => .pure rfl
  clear_value rest
  split
  · exact .guard fun _ => hrest
  · exact hrest

instance {earlier : List SwitchCase} : AddsToRow ground (caseTest g ctx earlier) := by
  refine ⟨fun lo row taken => .look fun token => ?_⟩
  split
  · exact .take fun _ => .last fun _ => rfl
  · exact .guard fun _ => .take fun _ => .pure (by simp)
  · exact .refuse

instance {earlier : List Statement} : MayAddToRow ground (Round.caseItem g ctx earlier) := by
  refine .skip (h := fun token => ?_)
  split
  · infer_instance
  · exact AddsToRow.mayAddToRow (.give fun _ => rfl)

instance {earlier : List SwitchCase} : AddsToRow ground (switchCase g ctx earlier) :=
  .fresh fun _ _ => .lay fun test _ => .take fun _ => .mayAddToRow fun consequent _ =>
    .frame fun span => .pure (by simp)

instance {earlier : List SwitchCase} : MayAddToRow ground (Round.switchCase g ctx earlier) := by
  refine .skip (h := fun atEnd => ?_)
  split
  · infer_instance
  · exact AddsToRow.mayAddToRow (.give fun _ => rfl)

theorem changesRow_switchStatement :
    ChangesRow ground start [] (.reached taken) (switchStatement g ctx start)
    plots (.reached true) :=
  .take fun _ => .lay fun _ _ => .take fun _ => .lay fun _ _ => .frame fun _ => .pure (by simp)

theorem changesRow_throwStatement :
    ChangesRow ground start [] (.reached taken) (throwStatement g ctx start)
    plots (.reached true) :=
  .take fun _ => .look fun _ => .guard fun _ => .lay fun _ _ => .skip fun _ => .frame fun _ =>
    .pure rfl

instance : AddsToRow ground (catchClause g ctx) := by
  refine .fresh fun start _ => .take fun _ => .inScope (.skip fun _ => ?_)
  extract_lets rest
  have hrest : ∀ param, ChangesRow ground start ([] ++ plots param) (.reached true)
    (rest param) plots
      (.reached true) := by
    refine fun param => .lay fun ⟨bodySpan, body⟩ _ => ?_
    cases param with
    | none => exact .frame fun span => .pure (by simp)
    | some param => exact .frame fun span => .pure (by simp)
  clear_value rest
  refine .ite (fun _ => .look fun token => .lay fun param _ => .take fun _ => ?_) fun _ => ?_
  · exact .given (hrest (some param))
  · exact .mayAddToRow fun param _ => hrest param

theorem changesRow_tryStatement : ChangesRow ground start [] (.reached taken)
    (tryStatement g ctx start) plots
    (.reached true) := by
  refine .take fun _ => .lay fun ⟨blockSpan, body⟩ _ => .look fun _ => .mayBranch fun handler _ =>
    ?_
  refine .skip fun _ => .mayBranch fun finalizer _ => .frame fun span => ?_
  cases handler with
  | none =>
    cases finalizer with
    | none => exact .refuse
    | some found =>
      obtain ⟨finalSpan, final⟩ := found
      exact .pure (by simp)
  | some handler =>
    cases finalizer with
    | none => exact .pure (by simp)
    | some found =>
      obtain ⟨finalSpan, final⟩ := found
      exact .pure (by simp)

instance {name : String} [Bounds ground.text start] :
    Treads ground.text (openLabel name start) := by
  refine .skip fun s => ?_
  extract_lets chain
  refine .skip fun _ => ?_
  split
  · infer_instance
  · exact .skip fun _ => .skip fun token => inferInstance

theorem changesRow_labeledStatement [Bounds ground.text start] :
    ChangesRow ground start [] (.reached taken)
    (labeledStatement g ctx start position) plots (.reached true) :=
  .look fun _ => .skip fun _ => .lay fun _ _ => .take fun _ => .skip fun _ => .lay fun _ _ =>
    .skip fun _ => .frame fun _ => .pure rfl

theorem changesRow_expressionOrLabeled [Bounds ground.text start] :
    ChangesRow ground start [] (.reached taken)
    (expressionOrLabeled g ctx start position) plots (.reached true) := by
  refine .look fun token => .skip fun isLabel =>
    .ite (fun _ => changesRow_labeledStatement) fun _ => ?_
  exact .lay fun e _ => .skip fun _ => .frame fun span => .pure rfl

instance : AddsToRow ground (misplacedFunction g ctx position) := by
  refine ⟨fun lo row taken => .skip fun token => .guard fun _ => ?_⟩
  exact .guard fun _ => .ite (fun _ => .lay fun f _ => .pure rfl) fun _ => .lay fun f _ => .pure rfl

end Statements

section Loops

instance : Plotted ForHead := ⟨ForHead.plots⟩

variable {init : ForHead} {isAwait : Bool}

theorem changesRow_forRest (hinit : row = plots init) : ChangesRow ground start row (.reached taken)
    (forRest g ctx start init) plots (.reached true) := by
  refine .take fun _ => .look fun _ => .mayBranch fun test _ => .take fun _ => .look fun _ => ?_
  refine .mayBranch fun update _ => .take fun _ => .lay fun body _ => .frame fun span => .pure ?_
  simp [hinit, plots]

theorem changesRow_forEach {isOf : Bool} (hinit : row = plots init) :
    ChangesRow ground start row (.reached taken)
    (forEach g ctx start init isOf isAwait) plots (.reached true) := by
  refine .take fun _ => .branch fun right _ => .take fun _ => .lay fun body _ => .frame fun span =>
    ?_
  refine .pure ?_
  cases isOf <;> simp [hinit, plots]

instance {declarations : List VariableDeclarator} [hdeclarations : Lies ground declarations]
    {kind : VariableKind} {isOf : Bool} [Bounds ground.text start] :
    Treads ground.text (checkForDeclarators g ctx start kind isOf declarations) := by
  unfold checkForDeclarators
  extract_lets word
  split
  · rename_i declarator
    obtain ⟨span, id, init⟩ := declarator
    have : Bounds ground.text span.start :=
      ⟨(hdeclarations.fits _ List.mem_cons_self).isBoundary_start⟩
    infer_instance
  · infer_instance

instance {declarations : List VariableDeclarator} [Lies ground declarations] {kind : VariableKind} :
    Treads ground.text (declarations.forM (checkInitializer kind)) := by
  refine treads_forM fun declarator hdeclarator => ?_
  have : Lies ground declarator := Lies.item hdeclarator
  infer_instance

instance {text : List Char} : Treads text forKeyword? := by unfold forKeyword?; infer_instance

instance {text : List Char} {isOf : Option Bool} : Treads text (checkAwait isAwait isOf) := by
  unfold checkAwait; infer_instance

instance {text : List Char} : Treads text forDeclaration? :=
    by unfold forDeclaration?; infer_instance

theorem changesRow_forVariables {kind : VariableKind} : ChangesRow ground start [] (.reached taken)
    (forVariables g ctx start isAwait kind) plots (.reached true) := by
  refine .mark fun initStart _ => .take fun _ => .mayAddToRow fun declarations _ =>
    .fold fun span => ?_
  extract_lets head
  have hhead : [] ++ [Plot.node span (plots declarations)] = plots head := by simp [head, plots]
  refine .skip fun isOf => .skip fun _ => ?_
  cases isOf with
  | some isOf => exact .skip fun _ => changesRow_forEach hhead
  | none => exact .skip fun _ => changesRow_forRest hhead

theorem changesRow_forExpression : ChangesRow ground start [] (.reached taken)
    (forExpression g ctx start isAwait) plots (.reached true) := by
  refine .mark fun initStart _ => .look fun startsWithLet => ?_
  extract_lets inner
  refine .lay fun e _ => .skip fun isOf => .skip fun _ => ?_
  cases isOf with
  | some isOf =>
    refine .guard fun _ => .look fun _ => .guard fun _ => .drop (List.sublist_append_right _ _) ?_
    exact changesRow_patternTarget.bind fun target => changesRow_forEach rfl
  | none =>
    exact .skip fun _ => .bind (.within changesRow_sequenceAfter) fun init => changesRow_forRest rfl

theorem changesRow_forHead : ChangesRow ground start [] (.reached taken)
    (forHead g ctx start isAwait) plots
    (.reached true) := by
  refine .look fun _ => .ite (fun _ => .skip fun _ => changesRow_forRest rfl) fun _ =>
    .skip fun kind => ?_
  cases kind with
  | some kind => exact changesRow_forVariables
  | none => exact changesRow_forExpression

theorem changesRow_forStatement : ChangesRow ground start [] (.reached taken)
    (forStatement g ctx start) plots
    (.reached true) := by
  refine .take fun _ => .look fun _ => ?_
  extract_lets rest
  have hrest : ChangesRow ground start [] (.reached true) (rest ()) plots (.reached true) :=
    .take fun _ => .inScope changesRow_forHead
  clear_value rest
  exact .ite (fun _ => .guard fun _ => .here fun offset _ =>
    .skip fun _ => .skip fun _ => hrest) fun _ => hrest

end Loops

end EcmaSyntax.Grammar
