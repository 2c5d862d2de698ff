import EcmaSyntax.Grammar.Statement
import EcmaSyntax.Proofs.Places.Operation

/-!
Statements and loops. No statement stands in parameters, so whatever is exposed in one may be
so: what is known of statements does not depend on it.
-/

namespace EcmaSyntax.Grammar

open EcmaSyntax.Diagnostic EcmaSyntax.Lexer EcmaSyntax.Scope EcmaSyntax.Tree

variable {version : Nat} [Unicode.IdentifierChars version]

variable {α β : Type} {q : Inquiry} {effect : Effect} {ctx : Context}

/-- What the step reads is allowed in the context, where anything may be exposed. -/
abbrev Finds (q : Inquiry) (ctx : Context) (node : α → Node) (step : Parser α) : Prop :=
  KeepsPlacement q .declares (fun _ a => Allowed q.options True ctx.grant (node a)) step

abbrev FindsAll (q : Inquiry) (ctx : Context) (node : α → Node) (step : Parser (List α)) : Prop :=
  KeepsPlacement q .declares (fun _ as => ∀ a ∈ as, Allowed q.options True ctx.grant (node a)) step

/-- A part that may be missing. -/
abbrev FindsSome (q : Inquiry) (ctx : Context) (node : α → Node) (step : Parser (Option α)) :
    Prop :=
  KeepsPlacement q .declares (fun _ found =>
    ∀ a ∈ found, Allowed q.options True ctx.grant (node a)) step

abbrev FindsStatement (q : Inquiry) (ctx : Context) (step : Parser Statement) : Prop :=
  KeepsPlacement q .declares (fun _ x => Permits q.options ctx x) step

theorem Obeys.finds {node : α → Node} {step : Parser α} (h : Obeys q .none ctx node step) :
    Finds q ctx node step := h.quiet.always

/-- Nothing is found where nothing is read. -/
theorem FindsSome.none {Q : Prop → β → Prop} {node : α → Node} {rest : Option α → Parser β}
    (hrest : ∀ found, (∀ a ∈ found, Allowed q.options True ctx.grant (node a)) →
      KeepsPlacement q .declares Q (rest found)) :
        KeepsPlacement q .declares Q (Pure.pure Option.none >>= rest) :=
  .known (.pure fun _ => nofun) hrest

namespace Phrases.KeepPlacement

variable {g : Phrases} (hg : g.KeepPlacement q)

include hg

section Parts

variable (ctx : Context)

theorem block (hctx : ctx.inParameters = false) (role : Role) (hrole : role.isVarBoundary = false) :
    KeepsPlacement q .declares (fun _ found =>
      ∀ x ∈ found.2, Allowed q.options True ctx.grant (.statement x))
      (Grammar.block g ctx role) := by
  have hroles : [role].any Role.isVarBoundary = false := by simp [hrole]
  unfold Grammar.block
  refine .skip fun start => .skip fun _ => KeepsPlacement.known (R := fun body =>
    ∀ x ∈ body, Allowed q.options True ctx.grant (.statement x)) (.inScope_block hroles ?_)
    fun body hbody => .skip fun span => .pure fun _ => hbody
  refine KeepsPlacement.known (keepsPlacement_itemsUpTo
    (hg.listItem { ctx with topLevel := false } hctx))
    fun body hbody => .skip fun _ => .pure fun _ x hx => (hbody x hx).allowed

theorem parenExpression : Finds q ctx .expression (Grammar.parenExpression g ctx) := by
  unfold Grammar.parenExpression
  refine .skip fun _ => KeepsPlacement.known (hg.expression ctx.withIn).finds fun e he => ?_
  exact .skip fun _ => .pure fun _ => he

theorem variableDeclarator (kind : VariableKind) :
    Finds q ctx .declarator (Grammar.variableDeclarator g ctx kind) := by
  unfold Grammar.variableDeclarator
  refine .skip fun start => KeepsPlacement.known
    (hg.bindingTarget ctx _).always fun target htarget => ?_
  refine .skip fun hasValue => ?_
  extract_lets rest
  have hrest : ∀ init, (∀ e ∈ init, Allowed q.options True ctx.grant (.expression e)) →
      Finds q ctx .declarator (rest init) := by
    refine fun init hinit => .skip fun span => .pure fun _ => .node rfl ?_
    exact List.forall_mem_cons.mpr ⟨htarget, AllowedAs.ofOption hinit⟩
  split
  · exact KeepsPlacement.known (hg.assignment ctx).finds.optional hrest
  · exact FindsSome.none hrest

theorem variableDeclarators (kind : VariableKind) (inHead : Bool) :
    FindsAll q ctx .declarator (Grammar.variableDeclarators g ctx kind inHead) := by
  refine keepsPlacement_collect (P := fun _ d => Allowed q.options True ctx.grant (.declarator d))
    fun earlier => KeepsPlacement.known (hg.variableDeclarator ctx kind) fun d hd => ?_
  extract_lets rest
  have hrest : ∀ u, KeepsPlacement q .declares (fun _ r =>
      r.Adds fun d => Allowed q.options True ctx.grant (.declarator d)) (rest u) := by
    refine fun u => .skip fun atComma => ?_
    split
    · exact .pure fun _ => hd
    · exact .pure fun _ => hd
  split
  · exact .skip hrest
  · exact hrest ()

end Parts

section Simple

variable (ctx : Context)

theorem variableStatement (kind : VariableKind) :
    FindsStatement q ctx (Grammar.variableStatement g ctx kind) := by
  unfold Grammar.variableStatement
  refine .skip fun start => .skip fun _ => ?_
  refine KeepsPlacement.known (hg.variableDeclarators ctx kind false) fun found hfound =>
    .skip fun _ => ?_
  exact .skip fun span => .pure fun _ => ⟨.list rfl hfound rfl, rfl⟩

theorem returnStatement (hctx : ctx.inParameters = false) (start : Nat) :
    FindsStatement q ctx (Grammar.returnStatement g ctx start) := by
  unfold Grammar.returnStatement
  refine .guard tells_fail fun hfunction => .skip fun _ => .skip fun token => ?_
  refine .skip fun lineBreak => ?_
  extract_lets rest
  have hrest : ∀ argument, (∀ e ∈ argument, Allowed q.options True ctx.grant (.expression e)) →
      FindsStatement q ctx (rest argument) := by
    refine fun argument hargument => .skip fun _ => .skip fun span => .pure fun _ => ⟨?_, rfl⟩
    have hinFunction : ctx.inFunction = true := by simpa using hfunction
    exact .returnStatement trivial hctx hinFunction hargument
  split
  · exact FindsSome.none hrest
  · exact KeepsPlacement.known (hg.expression ctx).finds.optional hrest

theorem caseTest (earlier : List SwitchCase) :
    FindsSome q ctx .expression (Grammar.caseTest g ctx earlier) := by
  unfold Grammar.caseTest
  refine .skip fun token => ?_
  split
  · exact .skip fun _ => (hg.expression ctx.withIn).finds.optional
  · exact .guard tells_fail fun _ => .skip fun _ => .pure fun _ => by rintro _ ⟨⟩
  · exact keepsPlacement_unexpected

theorem throwStatement (start : Nat) :
    FindsStatement q ctx (Grammar.throwStatement g ctx start) := by
  unfold Grammar.throwStatement
  refine .skip fun _ => .skip fun lineBreak => .guard tells_fail fun _ => ?_
  refine KeepsPlacement.known (hg.expression ctx).finds fun e he => .skip fun _ => .skip fun span =>
    ?_
  exact .pure fun _ => ⟨.single rfl he rfl, rfl⟩

omit hg in
theorem jump (start : Nat) (isContinue : Bool) :
    FindsStatement q ctx (Grammar.jump ctx start isContinue) := by
  unfold Grammar.jump
  refine .skip fun _ => .skip fun token => .skip fun lineBreak => ?_
  extract_lets rest
  have hrest : ∀ label, FindsStatement q ctx (rest label) := by
    refine fun label => .skip fun _ => .skip fun span => .pure fun _ => ?_
    cases isContinue <;> exact ⟨.leaf rfl rfl, rfl⟩
  split
  · exact .skip hrest
  · exact .skip fun _ => .skip hrest

theorem expressionStatement (start : Nat) : FindsStatement q ctx (do
    let e ← g.expression ctx
    endStatement
    return .expression (← spanFrom start) e none) :=
  KeepsPlacement.known (hg.expression ctx).finds fun _ he => .skip fun _ => .skip fun _ =>
    .pure fun _ => ⟨.single rfl he rfl, rfl⟩

omit hg in
theorem functionStatement {step : Parser Function}
    (h : Obeys q .declares ctx .function step) :
    FindsStatement q ctx (do return .function (← step)) :=
  KeepsPlacement.known h.always fun _ hf => .pure fun _ => ⟨.single rfl hf rfl, rfl⟩

theorem classStatement (start : Nat) (found : List Decorator)
    (hfound : ∀ d ∈ found, Allowed q.options True ctx.grant (.decorator d)) :
    FindsStatement q ctx (do
      return .classDeclaration (← Grammar.classDefinition g ctx start true found false)) :=
  KeepsPlacement.known (hg.classDefinition ctx start (fun _ => rfl) found false).always fun _ hc =>
    .pure fun _ => ⟨.single rfl (hc hfound) rfl, rfl⟩

theorem misplacedFunction (position : Position) :
    FindsStatement q ctx (Grammar.misplacedFunction g ctx position) := by
  unfold Grammar.misplacedFunction
  refine .skip fun following => .guard tells_fail fun _ => .guard tells_fail fun _ => ?_
  split
  · exact functionStatement ctx (.inScope_block rfl (hg.functionDeclaration ctx false true))
  · exact functionStatement ctx (hg.functionDeclaration ctx false true)

end Simple

section Nested

variable (ctx : Context) (hctx : ctx.inParameters = false)

include hctx

theorem loopBody : FindsStatement q ctx (Grammar.loopBody g ctx) :=
  (hg.statement { ctx with inIteration := true } .single hctx).mono
    fun _ _ hx => ⟨hx.allowed, hx.directive⟩

theorem ifStatement (start : Nat) : FindsStatement q ctx (Grammar.ifStatement g ctx start) := by
  unfold Grammar.ifStatement
  refine .skip fun _ => KeepsPlacement.known (hg.parenExpression ctx) fun test htest => ?_
  refine KeepsPlacement.known (hg.statement ctx .ifBody hctx) fun consequent hconsequent => ?_
  refine .skip fun hasElse => ?_
  split
  · refine KeepsPlacement.known (hg.statement ctx .ifBody hctx) fun alternate halternate => ?_
    refine .skip fun span => .pure fun _ => ⟨?_, rfl⟩
    exact .triple rfl htest hconsequent.allowed halternate.allowed rfl
  · refine .skip fun span => .pure fun _ => ⟨?_, rfl⟩
    exact .pair rfl htest hconsequent.allowed rfl

theorem whileStatement (start : Nat) :
    FindsStatement q ctx (Grammar.whileStatement g ctx start) := by
  unfold Grammar.whileStatement
  refine .skip fun _ => KeepsPlacement.known (hg.parenExpression ctx) fun test htest => ?_
  refine KeepsPlacement.known (hg.loopBody ctx hctx) fun body hbody => .skip fun span => ?_
  exact .pure fun _ => ⟨.pair rfl htest hbody.allowed rfl, rfl⟩

theorem doWhileStatement (start : Nat) :
    FindsStatement q ctx (Grammar.doWhileStatement g ctx start) := by
  unfold Grammar.doWhileStatement
  refine .skip fun _ => KeepsPlacement.known (hg.loopBody ctx hctx) fun body hbody => .skip fun _ =>
    ?_
  refine KeepsPlacement.known (hg.parenExpression ctx) fun test htest => .skip fun hasEnd => ?_
  extract_lets rest
  have hrest : ∀ u, FindsStatement q ctx (rest u) := fun u => .skip fun span => .pure fun _ =>
    ⟨.pair rfl hbody.allowed htest rfl, rfl⟩
  split
  · exact .skip hrest
  · exact hrest ()

theorem withStatement (start : Nat) : FindsStatement q ctx (Grammar.withStatement g ctx start) := by
  unfold Grammar.withStatement
  refine .guard tells_fail fun hsloppy => .skip fun _ => ?_
  refine KeepsPlacement.known (hg.parenExpression ctx) fun object hobject => ?_
  refine KeepsPlacement.known (hg.statement ctx .single hctx) fun body hbody => ?_
  extract_lets rest
  have hrest : ∀ u, FindsStatement q ctx (rest u) := by
    refine fun u => .skip fun span => .pure fun _ => ⟨?_, rfl⟩
    exact .withStatement (Bool.eq_false_iff.mpr hsloppy) hobject hbody.allowed
  split
  · exact .guard tells_failAt fun _ => hrest ()
  · exact hrest ()

theorem switchCase (earlier : List SwitchCase) :
    Finds q ctx .switchCase (Grammar.switchCase g ctx earlier) := by
  unfold Grammar.switchCase
  refine .skip fun start => KeepsPlacement.known (hg.caseTest ctx earlier) fun test htest => ?_
  refine .skip fun _ => KeepsPlacement.known
    (keepsPlacement_collect (P := fun _ x => Permits q.options ctx x)
    fun earlier => .skip fun token => ?_) fun found hfound => .skip fun span => .pure fun _ => ?_
  · split
    · exact .pure fun _ => trivial
    · exact KeepsPlacement.known (hg.listItem { ctx with inSwitch := true, topLevel := false } hctx)
        fun x hx => .pure fun _ => ⟨hx.allowed, hx.directive⟩
  · refine .node rfl (List.forall_mem_append.mpr ⟨AllowedAs.ofOption htest, ?_⟩)
    exact List.forall_mem_map.mpr fun x hx => (hfound x hx).allowed

theorem switchStatement (start : Nat) :
    FindsStatement q ctx (Grammar.switchStatement g ctx start) := by
  unfold Grammar.switchStatement
  refine .skip fun _ => KeepsPlacement.known (hg.parenExpression ctx) fun e he => .skip fun _ => ?_
  refine KeepsPlacement.known (R := fun found => ∀ c ∈ found,
    Allowed q.options True ctx.grant (.switchCase c)) (.inScope_block rfl ?_)
    fun found hfound => .skip fun span => .pure fun _ => ⟨.consList rfl he hfound rfl, rfl⟩
  refine KeepsPlacement.known (keepsPlacement_collect (P := fun _ c =>
    Allowed q.options True ctx.grant (.switchCase c)) fun earlier => .skip fun atClose => ?_)
    fun found hfound => .skip fun _ => .pure fun _ => hfound
  split
  · exact .pure fun _ => trivial
  · exact KeepsPlacement.known (hg.switchCase ctx hctx earlier) fun c hc => .pure fun _ => hc

theorem catchClause : Finds q ctx .catchClause (Grammar.catchClause g ctx) := by
  unfold Grammar.catchClause
  refine .skip fun start => .skip fun _ => .inScope_block rfl (.skip fun hasParam => ?_)
  extract_lets rest
  have hrest : ∀ param, (∀ p ∈ param, Allowed q.options True ctx.grant (.pattern p)) →
      Finds q ctx .catchClause (rest param) := by
    intro param hparam
    refine KeepsPlacement.known (hg.block ctx hctx .catchBody rfl) fun found hbody => ?_
    cases param with
    | none => exact .skip fun span => .pure fun _ => .list rfl hbody rfl
    | some p => exact .skip fun span => .pure fun _ => .consList rfl (hparam p rfl) hbody rfl
  split
  · refine .skip fun token => KeepsPlacement.known (hg.bindingTarget ctx _).always fun p hp => ?_
    refine .skip fun _ => KeepsPlacement.known (.pure fun _ => ?_) hrest
    simpa using hp
  · exact FindsSome.none hrest

theorem tryStatement (start : Nat) : FindsStatement q ctx (Grammar.tryStatement g ctx start) := by
  unfold Grammar.tryStatement
  refine .skip fun _ => KeepsPlacement.known (hg.block ctx hctx .block rfl) fun r hbody => ?_
  refine .skip fun hasHandler => ?_
  obtain ⟨blockSpan, body⟩ := r
  extract_lets rest
  have hrest : ∀ handler, (∀ c ∈ handler, Allowed q.options True ctx.grant (.catchClause c)) →
      FindsStatement q ctx (rest handler) := by
    intro handler hhandler
    refine .skip fun hasFinalizer => ?_
    extract_lets last
    have hlast : ∀ finalizer, (∀ r ∈ finalizer, ∀ x ∈ r.2,
        Allowed q.options True ctx.grant (.statement x)) →
          FindsStatement q ctx (last finalizer) := by
      intro finalizer hfinalizer
      have hboth : ∀ r ∈ finalizer, ∀ n ∈ body.map Node.statement ++ r.2.map Node.statement,
          Allowed q.options True ctx.grant n := fun r hr => List.forall_mem_append.mpr
        ⟨List.forall_mem_map.mpr hbody, List.forall_mem_map.mpr (hfinalizer r hr)⟩
      refine .skip fun span => ?_
      split
      · exact keepsPlacement_fail
      · exact .pure fun _ => ⟨.consList rfl (hhandler _ rfl) hbody rfl, rfl⟩
      · exact .pure fun _ => ⟨.node rfl (hboth _ rfl), rfl⟩
      · refine .pure fun _ => ⟨.node rfl ?_, rfl⟩
        exact List.forall_mem_cons.mpr ⟨hhandler _ rfl, hboth _ rfl⟩
    split
    · exact KeepsPlacement.known (hg.block ctx hctx .block rfl).optional hlast
    · exact KeepsPlacement.known (.pure fun _ => nofun) hlast
  split
  · exact KeepsPlacement.known (hg.catchClause ctx hctx).optional hrest
  · exact FindsSome.none hrest

theorem labeledStatement (start : Nat) (position : Position) :
    FindsStatement q ctx (Grammar.labeledStatement g ctx start position) := by
  unfold Grammar.labeledStatement
  refine fun s => .look rfl (.referenced fun hname => ?_)
  refine KeepsPlacementAt.identifier.bind fun label s₁ hlabel => .skip fun _ s₂ _ =>
    .skip fun _ s₃ _ => ?_
  refine KeepsPlacement.known (hg.statement ctx _ hctx) (fun body hbody => .skip fun _ => ?_) s₃
  refine .skip fun span => .pure fun _ _ => ⟨.labeled ?_ hbody.allowed, rfl⟩
  rw [hlabel.always]
  exact isUnreserved_of_reference hname

theorem expressionOrLabeled (start : Nat) (position : Position) :
    FindsStatement q ctx (Grammar.expressionOrLabeled g ctx start position) := by
  unfold Grammar.expressionOrLabeled
  refine .skip fun token => .skip fun isLabel => ?_
  split
  · exact hg.labeledStatement ctx hctx start position
  · exact hg.expressionStatement ctx start

end Nested

section Loops

variable (ctx : Context) (hctx : ctx.inParameters = false) (start : Nat)

include hctx

theorem forRest (init : ForHead) (hinit : Allowed q.options True ctx.grant (.forHead init)) :
    FindsStatement q ctx (Grammar.forRest g ctx start init) := by
  unfold Grammar.forRest
  refine .skip fun _ => .skip fun noTest => ?_
  extract_lets rest
  have hrest : ∀ test, (∀ e ∈ test, Allowed q.options True ctx.grant (.expression e)) →
      FindsStatement q ctx (rest test) := by
    intro test htest
    refine .skip fun _ => .skip fun noUpdate => ?_
    extract_lets last
    have hlast : ∀ update, (∀ e ∈ update, Allowed q.options True ctx.grant (.expression e)) →
        FindsStatement q ctx (last update) := by
      intro update hupdate
      refine .skip fun _ => KeepsPlacement.known (hg.loopBody ctx hctx) fun body hbody => ?_
      refine .skip fun span => .pure fun _ => ⟨.node rfl ?_, rfl⟩
      refine List.forall_mem_cons.mpr ⟨hinit, ?_⟩
      refine List.forall_mem_cons.mpr ⟨hbody.allowed, List.forall_mem_append.mpr ⟨?_, ?_⟩⟩
      · exact AllowedAs.ofOption htest
      · exact AllowedAs.ofOption hupdate
    split
    · exact FindsSome.none hlast
    · exact KeepsPlacement.known (hg.expression ctx.withIn).finds.optional hlast
  split
  · exact FindsSome.none hrest
  · exact KeepsPlacement.known (hg.expression ctx.withIn).finds.optional hrest

theorem forEach (left : ForHead) (isOf : Bool) {isAwait : Bool}
    (hawait : isAwait = true → ctx.inAsync = true)
    (hleft : Allowed q.options True ctx.grant (.forHead left)) :
    FindsStatement q ctx (Grammar.forEach g ctx start left isOf isAwait) := by
  unfold Grammar.forEach
  refine .skip fun _ => ?_
  extract_lets rest
  have hrest : ∀ right, Allowed q.options True ctx.grant (.expression right) →
      FindsStatement q ctx (rest right) := by
    intro right hright
    refine .skip fun _ => KeepsPlacement.known (hg.loopBody ctx hctx) fun body hbody =>
      .skip fun span => ?_
    refine .pure fun _ => ?_
    cases isOf with
    | true => exact ⟨.forOf trivial hctx hawait hleft hright hbody.allowed, rfl⟩
    | false => exact ⟨.triple rfl hleft hright hbody.allowed rfl, rfl⟩
  split
  · exact KeepsPlacement.known (hg.assignment ctx.withIn).finds hrest
  · exact KeepsPlacement.known (hg.expression ctx.withIn).finds hrest

theorem forVariables {isAwait : Bool} (hawait : isAwait = true → ctx.inAsync = true)
    (kind : VariableKind) :
    FindsStatement q ctx (Grammar.forVariables g ctx start isAwait kind) := by
  unfold Grammar.forVariables
  refine .skip fun initStart => .skip fun _ => ?_
  refine KeepsPlacement.known (hg.variableDeclarators { ctx with disallowIn := true } kind true)
    fun found hfound => .skip fun span => ?_
  have hhead : Allowed q.options True ctx.grant (.forHead (.variables span kind found)) :=
    .list rfl hfound rfl
  refine .skip fun isOf => .skip fun _ => ?_
  split
  · exact .skip fun _ => hg.forEach ctx hctx start _ _ hawait hhead
  · exact .skip fun _ => hg.forRest ctx hctx start _ hhead

theorem forExpression {isAwait : Bool} (hawait : isAwait = true → ctx.inAsync = true) :
    FindsStatement q ctx (Grammar.forExpression g ctx start isAwait) := by
  unfold Grammar.forExpression
  refine .skip fun initStart => .skip fun startsWithLet => ?_
  refine KeepsPlacement.known (Obeys.finds (hg.assignmentCover { ctx with disallowIn := true }))
    fun e he => ?_
  refine .skip fun isOf => .skip fun _ => ?_
  split
  · refine .guard tells_failAt fun _ => .skip fun isMarked => .guard tells_failAt fun _ => ?_
    refine .tells (tells_patternTarget g ctx e _ q.options) fun target htarget => ?_
    exact hg.forEach ctx hctx start _ _ hawait (.single rfl (htarget True he).2 rfl)
  · refine .skip fun _ => KeepsPlacement.known
      (hg.sequenceAfter { ctx with disallowIn := true } initStart e).quiet.always
      fun init hinit => ?_
    exact hg.forRest ctx hctx start _ (.single rfl (hinit he) rfl)

theorem forHead {isAwait : Bool} (hawait : isAwait = true → ctx.inAsync = true) :
    FindsStatement q ctx (Grammar.forHead g ctx start isAwait) := by
  unfold Grammar.forHead
  refine .skip fun atSemicolon => ?_
  split
  · exact .skip fun _ => hg.forRest ctx hctx start _ (.leaf rfl rfl)
  · refine .skip fun kind => ?_
    split
    · exact hg.forVariables ctx hctx start hawait _
    · exact hg.forExpression ctx hctx start hawait

theorem forStatement : FindsStatement q ctx (Grammar.forStatement g ctx start) := by
  unfold Grammar.forStatement
  refine .skip fun _ => .skip fun isAwait => ?_
  have hhead : (isAwait = true → ctx.inAsync = true) → FindsStatement q ctx (expect .leftParen >>=
      fun _ => inScope [.forHead] (Grammar.forHead g ctx start isAwait)) := fun hawait =>
    .skip fun _ => .inScope_block rfl (hg.forHead ctx hctx start hawait)
  split
  · refine .guard tells_unexpected fun hasync s => .look rfl (.mark rfl rfl rfl (.inr rfl) ?_)
    have hasync' : ctx.inAsync = true := by simpa using hasync
    exact .skip fun _ s₁ _ => (hhead (fun _ => hasync') s₁).mono fun _ _ hx _ => hx
  · rename_i hplain
    exact hhead fun hawait => absurd hawait hplain

end Loops

end Phrases.KeepPlacement

end EcmaSyntax.Grammar
