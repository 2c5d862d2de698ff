import EcmaSyntax.Grammar.Statement
import EcmaSyntax.Grammar.Module
import EcmaSyntax.Proofs.Cover.Operation

/-!
Statements, loops, imports and exports leave only what is settled. The head of a
loop is the one place where a literal on its own is still open: what follows
decides whether it becomes a pattern or is checked.
-/

namespace EcmaSyntax.Grammar.Phrases.Checks

open EcmaSyntax.Diagnostic EcmaSyntax.Scope EcmaSyntax.Tree

variable {version : Nat} [Unicode.IdentifierChars version]

variable {g : Phrases} (hg : g.Checks)

include hg

theorem block (ctx : Context) (role : Role) (s : State) :
    Yields (block g ctx role) (fun r _ => ∀ x ∈ r.2, Checked false (.statement x)) s := by
  unfold Grammar.block
  refine .skip fun start s => .skip fun _ s => ?_
  refine (inScope_reads (Q := fun body => ∀ x ∈ body, Checked false (.statement x)) _
    (fun s => ?_) s).bind fun body s hbody => .skip fun span s => .pure hbody
  refine (itemsUpTo_yields (P := fun x => Checked false (.statement x)) .rightBrace
    (hg.listItem _) s).bind fun body s hbody => ?_
  exact .skip fun _ s => .pure hbody

theorem variableDeclarator (ctx : Context) (kind : VariableKind) :
    Reads .declarator (variableDeclarator g ctx kind) := by
  intro s
  unfold Grammar.variableDeclarator
  refine .skip fun start s => (hg.bindingTarget ctx _ s).bind fun target s htarget => ?_
  refine .skip fun hasValue s => ?_
  extract_lets rest
  have hrest : ∀ init s, (∀ e, init = some e → Checked false (.expression e)) →
      Yields (rest init) (fun d _ => Checked false (.declarator d)) s := by
    intro init s hinit
    refine .skip fun span s => .pure (.node trivial ?_)
    exact List.forall_mem_cons.mpr ⟨htarget, ofOption_checked hinit⟩
  split
  · exact ((hg.assignment ctx).optional s).bind hrest
  · exact .run rfl (hrest none s (by simp))

theorem variableDeclarators (ctx : Context) (kind : VariableKind) (inHead : Bool) :
    ReadsAll .declarator (variableDeclarators g ctx kind inHead) := by
  intro s
  refine collect_yields (fun earlier s _ => ?_) s
  refine (hg.variableDeclarator ctx kind s).bind fun d s hd => ?_
  extract_lets rest
  have hrest : ∀ u s, Yields (rest u)
      (fun r _ => r.Adds fun d => Checked false (.declarator d)) s := by
    intro u s
    refine .skip fun atComma s => ?_
    split
    · exact .pure hd
    · exact .pure hd
  split
  · exact .skip hrest
  · exact hrest () s

theorem variableStatement (ctx : Context) (kind : VariableKind) :
    Reads .statement (variableStatement g ctx kind) := by
  intro s
  unfold Grammar.variableStatement
  refine .skip fun start s => .skip fun _ s => ?_
  refine (hg.variableDeclarators ctx kind false s).bind fun found s hfound => ?_
  refine .skip fun _ s => .skip fun span s => .pure (.node trivial ?_)
  simpa [Node.children, Node.ofStatement] using hfound

theorem parenExpression (ctx : Context) : Reads .expression (parenExpression g ctx) := by
  intro s
  unfold Grammar.parenExpression
  refine .skip fun _ s => (hg.expression ctx.withIn s).bind fun e s he => ?_
  exact .skip fun _ s => .pure he

theorem loopBody (ctx : Context) : Reads .statement (loopBody g ctx) := hg.statement _ _

theorem ifStatement (ctx : Context) (start : Nat) :
    Reads .statement (ifStatement g ctx start) := by
  intro s
  unfold Grammar.ifStatement
  refine .skip fun _ s => (hg.parenExpression ctx s).bind fun test s htest => ?_
  refine (hg.statement ctx .ifBody s).bind fun consequent s hconsequent => ?_
  refine .skip fun hasElse s => ?_
  split
  · refine (hg.statement ctx .ifBody s).bind fun alternate s halternate => ?_
    refine .skip fun span s => .pure (.node trivial ?_)
    simpa [Node.children, Node.ofStatement] using ⟨htest, hconsequent, halternate⟩
  · refine .skip fun span s => .pure (.node trivial ?_)
    simpa [Node.children, Node.ofStatement] using ⟨htest, hconsequent⟩

theorem whileStatement (ctx : Context) (start : Nat) :
    Reads .statement (whileStatement g ctx start) := by
  intro s
  unfold Grammar.whileStatement
  refine .skip fun _ s => (hg.parenExpression ctx s).bind fun test s htest => ?_
  refine (hg.loopBody ctx s).bind fun body s hbody => .skip fun span s => .pure (.node trivial ?_)
  simpa [Node.children, Node.ofStatement] using ⟨htest, hbody⟩

theorem doWhileStatement (ctx : Context) (start : Nat) :
    Reads .statement (doWhileStatement g ctx start) := by
  intro s
  unfold Grammar.doWhileStatement
  refine .skip fun _ s => (hg.loopBody ctx s).bind fun body s hbody => .skip fun _ s => ?_
  refine (hg.parenExpression ctx s).bind fun test s htest => .skip fun hasEnd s => ?_
  extract_lets rest
  have hrest : ∀ u s, Yields (rest u) (fun x _ => Checked false (.statement x)) s := by
    intro u s
    refine .skip fun span s => .pure (.node trivial ?_)
    simpa [Node.children, Node.ofStatement] using ⟨hbody, htest⟩
  split
  · exact .skip hrest
  · exact hrest () s

omit hg in
theorem jump (ctx : Context) (start : Nat) (isContinue : Bool) :
    Reads .statement (jump ctx start isContinue) := by
  intro s
  unfold Grammar.jump
  refine .skip fun _ s => .skip fun token s => .skip fun lineBreak s => ?_
  extract_lets rest
  have hrest : ∀ label s, Yields (rest label) (fun x _ => Checked false (.statement x)) s := by
    intro label s
    refine .skip fun _ s => .skip fun span s => .pure ?_
    cases isContinue with
    | true => exact .node trivial (by simp [Node.children, Node.ofStatement])
    | false => exact .node trivial (by simp [Node.children, Node.ofStatement])
  split
  · exact .skip hrest
  · exact .skip fun _ s => .skip hrest

theorem returnStatement (ctx : Context) (start : Nat) :
    Reads .statement (returnStatement g ctx start) := by
  intro s
  unfold Grammar.returnStatement
  refine (stops_fail _).guard ?_
  refine .skip fun _ s => .skip fun token s => .skip fun lineBreak s => ?_
  extract_lets rest
  have hrest : ∀ argument s, (∀ e, argument = some e → Checked false (.expression e)) →
      Yields (rest argument) (fun x _ => Checked false (.statement x)) s := by
    intro argument s hargument
    refine .skip fun _ s => .skip fun span s => .pure (.node trivial ?_)
    exact ofOption_checked hargument
  split
  · exact .run rfl (hrest none s (by simp))
  · exact ((hg.expression ctx).optional s).bind hrest

theorem withStatement (ctx : Context) (start : Nat) :
    Reads .statement (withStatement g ctx start) := by
  intro s
  unfold Grammar.withStatement
  refine (stops_fail _).guard ?_
  refine .skip fun _ s => (hg.parenExpression ctx s).bind fun object s hobject => ?_
  refine (hg.statement ctx .single s).bind fun body s hbody => ?_
  extract_lets rest
  have hrest : ∀ u s, Yields (rest u) (fun x _ => Checked false (.statement x)) s := by
    intro u s
    refine .skip fun span s => .pure (.node trivial ?_)
    simpa [Node.children, Node.ofStatement] using ⟨hobject, hbody⟩
  split
  · exact (stops_failAt _ _).guard (hrest () s)
  · exact hrest () s

theorem caseTest (ctx : Context) (earlier : List SwitchCase) (s : State) :
    Yields (caseTest g ctx earlier)
      (fun test _ => ∀ e, test = some e → Checked false (.expression e)) s := by
  unfold Grammar.caseTest
  refine .skip fun token s => ?_
  split
  · exact .skip fun _ s => (hg.expression ctx.withIn).optional s
  · exact (stops_fail _).guard (.skip fun _ s => .pure (by simp))
  · exact stops_unexpected.yields

theorem switchCase (ctx : Context) (earlier : List SwitchCase) :
    Reads .switchCase (switchCase g ctx earlier) := by
  intro s
  unfold Grammar.switchCase
  refine .skip fun start s => (hg.caseTest ctx earlier s).bind fun test s htest => ?_
  refine .skip fun _ s => (collect_yields (P := fun x => Checked false (.statement x))
    (fun earlier s _ => ?_) s).bind fun found s hfound => .skip fun span s =>
    .pure (.node trivial ?_)
  · refine .skip fun token s => ?_
    split
    · exact .pure trivial
    · exact (hg.listItem _ s).bind fun x s hx => .pure hx
  · refine List.forall_mem_append.mpr ⟨ofOption_checked htest, ?_⟩
    exact List.forall_mem_map.mpr hfound

theorem switchStatement (ctx : Context) (start : Nat) :
    Reads .statement (switchStatement g ctx start) := by
  intro s
  unfold Grammar.switchStatement
  refine .skip fun _ s => (hg.parenExpression ctx s).bind fun e s he => .skip fun _ s => ?_
  refine (inScope_reads (Q := fun cases => ∀ c ∈ cases, Checked false (.switchCase c)) _
    (fun s => ?_) s).bind fun found s hfound => .skip fun span s => .pure (.node trivial ?_)
  · refine (collect_yields (P := fun c => Checked false (.switchCase c))
      (fun earlier s _ => ?_) s).bind fun found s hfound => .skip fun _ s => .pure hfound
    refine .skip fun atClose s => ?_
    split
    · exact .pure trivial
    · exact (hg.switchCase ctx earlier s).bind fun c s hc => .pure hc
  · simpa [Node.children, Node.ofStatement] using ⟨he, hfound⟩

theorem throwStatement (ctx : Context) (start : Nat) :
    Reads .statement (throwStatement g ctx start) := by
  intro s
  unfold Grammar.throwStatement
  refine .skip fun _ s => .skip fun lineBreak s => (stops_fail _).guard ?_
  refine (hg.expression ctx s).bind fun e s he => ?_
  refine .skip fun _ s => .skip fun span s => .pure (.node trivial ?_)
  simpa [Node.children, Node.ofStatement] using he

theorem catchClause (ctx : Context) : Reads .catchClause (catchClause g ctx) := by
  intro s
  unfold Grammar.catchClause
  refine .skip fun start s => .skip fun _ s => ?_
  refine inScope_reads (Q := fun c => Checked false (.catchClause c)) _ (fun s => ?_) s
  refine .skip fun hasParam s => ?_
  extract_lets rest
  have hrest : ∀ param s, (∀ p, param = some p → Checked false (.pattern p)) →
      Yields (rest param) (fun c _ => Checked false (.catchClause c)) s := by
    intro param s hparam
    refine (hg.block ctx .catchBody s).bind fun r s hbody => ?_
    cases param with
    | none =>
      refine .skip fun span s => .pure (.node trivial ?_)
      simpa [Node.children] using hbody
    | some p =>
      refine .skip fun span s => .pure (.node trivial ?_)
      simpa [Node.children] using ⟨hparam p rfl, hbody⟩
  split
  · refine .skip fun token s => (hg.bindingTarget ctx _ s).bind fun p s hp => ?_
    exact .skip fun _ s => .run rfl (hrest (some p) s (by simpa using hp))
  · exact .run rfl (hrest none s (by simp))

theorem tryStatement (ctx : Context) (start : Nat) :
    Reads .statement (tryStatement g ctx start) := by
  intro s
  unfold Grammar.tryStatement
  refine .skip fun _ s => (hg.block ctx .block s).bind fun r s hbody => .skip fun hasHandler s => ?_
  obtain ⟨blockSpan, body⟩ := r
  extract_lets rest
  have hrest : ∀ handler s, (∀ c, handler = some c → Checked false (.catchClause c)) →
      Yields (rest handler) (fun x _ => Checked false (.statement x)) s := by
    intro handler s hhandler
    refine .skip fun hasFinalizer s => ?_
    extract_lets last
    have hlast : ∀ finalizer s,
        (∀ r, finalizer = some r → ∀ x ∈ r.2, Checked false (.statement x)) →
        Yields (last finalizer) (fun x _ => Checked false (.statement x)) s := by
      intro finalizer s hfinalizer
      refine .skip fun span s => ?_
      split
      · exact (stops_fail _).yields
      · refine .pure (.node trivial ?_)
        simpa [Node.children, Node.ofStatement] using ⟨hhandler _ rfl, hbody⟩
      · refine .pure (.node trivial ?_)
        simpa [Node.children, Node.ofStatement, or_imp, forall_and] using
          And.intro hbody (hfinalizer _ rfl)
      · refine .pure (.node trivial ?_)
        simpa [Node.children, Node.ofStatement, or_imp, forall_and] using
          And.intro (hhandler _ rfl) (And.intro hbody (hfinalizer _ rfl))
    split
    · refine .bind (.map ((hg.block ctx .block s).mono fun r _ hr => ?_)) hlast
      rintro r' ⟨⟩
      exact hr
    · exact .run rfl (hlast none s (by simp))
  split
  · exact ((hg.catchClause ctx).optional s).bind hrest
  · exact .run rfl (hrest none s (by simp))

theorem labeledStatement (ctx : Context) (start : Nat) (position : Position) :
    Reads .statement (labeledStatement g ctx start position) := by
  intro s
  unfold Grammar.labeledStatement
  refine .skip fun value s => .skip fun _ s => .skip fun label s => .skip fun _ s => ?_
  refine .skip fun _ s => (hg.statement ctx _ s).bind fun body s hbody => ?_
  refine .skip fun _ s => .skip fun span s => .pure (.node trivial ?_)
  simpa [Node.children, Node.ofStatement] using hbody

theorem expressionOrLabeled (ctx : Context) (start : Nat) (position : Position) :
    Reads .statement (expressionOrLabeled g ctx start position) := by
  intro s
  unfold Grammar.expressionOrLabeled
  refine .skip fun token s => .skip fun isLabel s => ?_
  split
  · exact hg.labeledStatement ctx start position s
  · refine (hg.expression ctx s).bind fun e s he => ?_
    refine .skip fun _ s => .skip fun span s => .pure (.node trivial ?_)
    simpa [Node.children, Node.ofStatement] using he

omit hg in
theorem functionStatement {step : Parser Function} (h : Reads .function step) :
    Reads .statement (do return .function (← step)) := by
  intro s
  refine (h s).bind fun f s hf => .pure (.node trivial ?_)
  simpa [Node.children, Node.ofStatement] using hf

theorem misplacedFunction (ctx : Context) (position : Position) :
    Reads .statement (misplacedFunction g ctx position) := by
  intro s
  unfold Grammar.misplacedFunction
  refine .skip fun following s => (stops_fail _).guard ((stops_fail _).guard ?_)
  split
  · exact functionStatement (inScope_reads _ (hg.functionDeclaration ctx false true)) s
  · exact functionStatement (hg.functionDeclaration ctx false true) s

theorem forRest (ctx : Context) (start : Nat) {init : ForHead}
    (hinit : Checked false (.forHead init)) : Reads .statement (forRest g ctx start init) := by
  intro s
  unfold Grammar.forRest
  refine .skip fun _ s => .skip fun noTest s => ?_
  extract_lets rest
  have hrest : ∀ test s, (∀ e, test = some e → Checked false (.expression e)) →
      Yields (rest test) (fun x _ => Checked false (.statement x)) s := by
    intro test s htest
    refine .skip fun _ s => .skip fun noUpdate s => ?_
    extract_lets last
    have hlast : ∀ update s, (∀ e, update = some e → Checked false (.expression e)) →
        Yields (last update) (fun x _ => Checked false (.statement x)) s := by
      intro update s hupdate
      refine .skip fun _ s => (hg.loopBody ctx s).bind fun body s hbody => .skip fun span s => ?_
      refine .pure (.node trivial ?_)
      refine List.forall_mem_cons.mpr ⟨hinit, List.forall_mem_cons.mpr ⟨hbody, ?_⟩⟩
      exact List.forall_mem_append.mpr ⟨ofOption_checked htest, ofOption_checked hupdate⟩
    split
    · exact .run rfl (hlast none s (by simp))
    · exact ((hg.expression ctx.withIn).optional s).bind hlast
  split
  · exact .run rfl (hrest none s (by simp))
  · exact ((hg.expression ctx.withIn).optional s).bind hrest

theorem forEach (ctx : Context) (start : Nat) {left : ForHead}
    (hleft : Checked false (.forHead left)) (isOf isAwait : Bool) :
    Reads .statement (forEach g ctx start left isOf isAwait) := by
  intro s
  unfold Grammar.forEach
  refine .skip fun _ s => ?_
  extract_lets rest
  have hrest : ∀ right s, Checked false (.expression right) →
      Yields (rest right) (fun x _ => Checked false (.statement x)) s := by
    intro right s hright
    refine .skip fun _ s => (hg.loopBody ctx s).bind fun body s hbody => .skip fun span s => ?_
    refine .pure ?_
    split
    · refine .node trivial ?_
      simpa [Node.children, Node.ofStatement] using ⟨hleft, hright, hbody⟩
    · refine .node trivial ?_
      simpa [Node.children, Node.ofStatement] using ⟨hleft, hright, hbody⟩
  split
  · exact (hg.assignment ctx.withIn s).bind hrest
  · exact (hg.expression ctx.withIn s).bind hrest

theorem forVariables (ctx : Context) (start : Nat) (isAwait : Bool) (kind : VariableKind) :
    Reads .statement (forVariables g ctx start isAwait kind) := by
  intro s
  unfold Grammar.forVariables
  refine .skip fun initStart s => .skip fun _ s => ?_
  refine (hg.variableDeclarators _ kind true s).bind fun found s hfound => .skip fun span s => ?_
  have hhead : Checked false (.forHead (.variables span kind found)) :=
    .node trivial (by simpa [Node.children] using hfound)
  refine .skip fun isOf s => .skip fun _ s => ?_
  split
  · exact .skip fun _ s => hg.forEach ctx start hhead _ isAwait s
  · exact .skip fun _ s => hg.forRest ctx start hhead s

omit hg in
theorem forKeyword_frame (s : State) : Yields forKeyword? (fun _ s' => s' = s) s := by
  unfold forKeyword?
  refine .run rfl ?_
  split
  · exact .pure rfl
  · refine .run rfl ?_
    split
    · exact .pure rfl
    · exact .pure rfl

omit hg in
theorem checkAwait_frame (isAwait : Bool) (isOf : Option Bool) (s : State) :
    Yields (checkAwait isAwait isOf) (fun _ s' => s' = s) s := by
  unfold checkAwait
  split
  · exact (stops_fail _).yields
  · exact .pure rfl

theorem forExpression (ctx : Context) (start : Nat) (isAwait : Bool) :
    Reads .statement (forExpression g ctx start isAwait) := by
  intro s
  unfold Grammar.forExpression
  refine .skip fun initStart s => .skip fun startsWithLet s => ?_
  refine (hg.assignmentCover _ s).bind fun e s he => ?_
  refine (forKeyword_frame s).bind fun isOf s' hs => ?_
  subst hs
  refine (checkAwait_frame isAwait isOf _).bind fun _ s' hs => ?_
  subst hs
  split
  · refine (stops_failAt _ _).guard (.run rfl ((stops_failAt _ _).guard ?_))
    refine (patternTarget ctx _ he).bind fun target s htarget => ?_
    exact hg.forEach ctx start (.node trivial (by simpa [Node.children] using htarget)) _ isAwait s
  · refine (checkCover_yields he).bind fun _ s hchecked => ?_
    refine (hg.sequenceAfter _ initStart hchecked s).bind fun init s hinit => ?_
    exact hg.forRest ctx start (.node trivial (by simpa [Node.children] using hinit)) s

theorem forHead (ctx : Context) (start : Nat) (isAwait : Bool) :
    Reads .statement (forHead g ctx start isAwait) := by
  intro s
  unfold Grammar.forHead
  refine .skip fun atSemicolon s => ?_
  split
  · refine .skip fun _ s => ?_
    exact hg.forRest ctx start (.node trivial (by simp [Node.children])) s
  · refine .skip fun kind s => ?_
    split
    · exact hg.forVariables ctx start isAwait _ s
    · exact hg.forExpression ctx start isAwait s

theorem forStatement (ctx : Context) (start : Nat) :
    Reads .statement (forStatement g ctx start) := by
  intro s
  unfold Grammar.forStatement
  refine .skip fun _ s => .skip fun isAwait s => ?_
  have hhead : ∀ s, Yields (expect .leftParen >>= fun _ =>
      inScope [.forHead] (Grammar.forHead g ctx start isAwait))
      (fun x _ => Checked false (.statement x)) s := fun s =>
    .skip fun _ s => inScope_reads _ (hg.forHead ctx start isAwait) s
  split
  · refine stops_unexpected.guard ?_
    exact .skip fun offset s => .skip fun _ s => .skip fun _ s => hhead s
  · exact hhead s

omit hg in
/-- Imports and exports of names contain no expressions. -/
theorem importDeclaration (ctx : Context) : Reads .statement (importDeclaration g ctx) := by
  intro s
  unfold Grammar.importDeclaration
  refine .skip fun start s => .skip fun _ s => .skip fun bare s => ?_
  extract_lets rest
  have hrest : ∀ r s, Yields (rest r) (fun x _ => Checked false (.statement x)) s := by
    intro r s
    refine .skip fun _ s => .skip fun span s => .pure (.node trivial ?_)
    simp [Node.children, Node.ofStatement]
  split
  · exact .skip fun source s => .skip hrest
  · exact .skip fun specifiers s => .skip fun source s => .skip hrest

omit hg in
theorem exportAll (ctx : Context) (start : Nat) : Reads .statement (exportAll g ctx start) := by
  intro s
  unfold Grammar.exportAll
  refine .skip fun _ s => .skip fun named s => ?_
  extract_lets rest
  have hrest : ∀ name s, Yields (rest name) (fun x _ => Checked false (.statement x)) s := by
    intro name s
    refine .skip fun source s => .skip fun _ s => .skip fun span s => .pure (.node trivial ?_)
    simp [Node.children, Node.ofStatement]
  split
  · exact .skip fun _ s => .skip fun start s => .skip fun name s => .skip fun _ s => .skip hrest
  · exact .skip hrest

omit hg in
theorem exportNames (ctx : Context) (start : Nat) :
    Reads .statement (exportNames g ctx start) := by
  intro s
  unfold Grammar.exportNames
  refine .skip fun _ s => .skip fun entries s => .skip fun _ s => .skip fun named s => ?_
  extract_lets rest
  have hrest : ∀ found s, Yields (rest found) (fun x _ => Checked false (.statement x)) s := by
    intro found s
    unfold rest
    extract_lets last
    have hlast : ∀ u s, Yields (last u) (fun x _ => Checked false (.statement x)) s := by
      intro u s
      refine .skip fun _ s => .skip fun _ s => .skip fun span s => .pure (.node trivial ?_)
      simp [Node.children, Node.ofStatement]
    split
    · exact .skip hlast
    · exact hlast () s
  split
  · exact .skip fun _ s => .skip hrest
  · exact .skip hrest

theorem exportDecorators (ctx : Context) {before : List Decorator}
    (hbefore : ∀ d ∈ before, Checked false (.decorator d)) :
    ReadsAll .decorator (exportDecorators g ctx before) := by
  intro s
  unfold Grammar.exportDecorators
  refine .skip fun atSign s => ?_
  split
  · exact (stops_fail _).guard (hg.decorators ctx s)
  · exact .pure hbefore

theorem exportDefault (ctx : Context) (start : Nat) {before : List Decorator}
    (hbefore : ∀ d ∈ before, Checked false (.decorator d)) :
    Reads .statement (exportDefault g ctx start before) := by
  have hfunction : ∀ isAsync, Reads .statement (do
      let value ← Grammar.functionDeclaration g ctx isAsync false
      return .exportDefaultFunction (← spanFrom start) value) := by
    intro isAsync s
    refine (hg.functionDeclaration ctx isAsync false s).bind fun value s hvalue => ?_
    refine .skip fun span s => .pure (.node trivial ?_)
    simpa [Node.children, Node.ofStatement] using hvalue
  intro s
  unfold Grammar.exportDefault
  refine .skip fun keywordStart s => .skip fun _ s => ?_
  refine (hg.exportDecorators ctx hbefore s).bind fun found s hfound => ?_
  refine .skip fun _ s => .skip fun valueStart s => .skip fun atClass s => ?_
  split
  · refine (hg.classDefinition ctx valueStart true hfound true s).bind fun value s hvalue => ?_
    refine .skip fun span s => .pure (.node trivial ?_)
    simpa [Node.children, Node.ofStatement] using hvalue
  · refine (stops_fail _).guard (.skip fun atFunction s => ?_)
    split
    · exact hfunction false s
    · refine .skip fun atAsync s => ?_
      split
      · exact hfunction true s
      · refine (hg.assignment ctx s).bind fun e s he => ?_
        refine .skip fun _ s => .skip fun span s => .pure (.node trivial ?_)
        simpa [Node.children, Node.ofStatement] using he

theorem classStatement (ctx : Context) (start : Nat) {found : List Decorator}
    (hfound : ∀ d ∈ found, Checked false (.decorator d)) :
    Reads .statement (do
      return .classDeclaration (← Grammar.classDefinition g ctx start true found false)) := by
  intro s
  refine (hg.classDefinition ctx start true hfound false s).bind fun c s hc => .pure ?_
  exact .node trivial (by simpa [Node.children, Node.ofStatement] using hc)

theorem exportedDeclaration (ctx : Context) {found : List Decorator}
    (hfound : ∀ d ∈ found, Checked false (.decorator d)) :
    Reads .statement (exportedDeclaration g ctx found) := by
  intro s
  unfold Grammar.exportedDeclaration
  refine .skip fun start s => .skip fun token s => ?_
  split
  case h_1 | h_2 | h_3 => exact hg.listItem ctx s
  · refine .skip fun escaped s => ?_
    split
    · exact stops_unexpected.yields
    · exact hg.listItem ctx s
  · refine .skip fun atAsync s => ?_
    split
    · exact hg.listItem ctx s
    · exact stops_unexpected.yields
  · exact hg.classStatement ctx start hfound s
  · exact stops_unexpected.yields

theorem exportDeclaration (ctx : Context) (start : Nat) {found : List Decorator}
    (hfound : ∀ d ∈ found, Checked false (.decorator d)) :
    Reads .statement (exportDeclaration g ctx start found) := by
  intro s
  unfold Grammar.exportDeclaration
  refine .skip fun declarationStart s => ?_
  refine (hg.exportedDeclaration ctx hfound s).bind fun declaration s hdeclaration => ?_
  refine (stops_failAt _ _).guard (.skip fun _ s => .skip fun span s => .pure (.node trivial ?_))
  simpa [Node.children, Node.ofStatement] using hdeclaration

theorem exportStatement (ctx : Context) (start : Nat) {before : List Decorator}
    (hbefore : ∀ d ∈ before, Checked false (.decorator d)) :
    Reads .statement (exportStatement g ctx start before) := by
  intro s
  unfold Grammar.exportStatement
  refine .skip fun _ s => (hg.exportDecorators ctx hbefore s).bind fun found s hfound => ?_
  refine .skip fun token s => (stops_fail _).guard ?_
  split
  · exact exportAll ctx start s
  · exact hg.exportDefault ctx start hfound s
  · exact exportNames ctx start s
  · exact hg.exportDeclaration ctx start hfound s

end EcmaSyntax.Grammar.Phrases.Checks
