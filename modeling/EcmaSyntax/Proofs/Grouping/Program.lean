import EcmaSyntax.Proofs.Grouping.Operation
import EcmaSyntax.Proofs.Cover.Program
import EcmaSyntax.Unicode.IdentifierRanges

/-!
Operators in the programs that texts spell. Statements, loops, imports and exports are no operands:
what they read is put together as it comes. With them every phrase of the grammar groups the
operators in what it reads, by induction on how deep phrases are nested, so in a tree that keeps its
parentheses each operand is one that its operator can have.
-/

namespace EcmaSyntax.Grammar

open EcmaSyntax.Diagnostic EcmaSyntax.Lexer EcmaSyntax.Scope EcmaSyntax.Tree

section

variable {version : Nat} [Unicode.IdentifierChars version]

instance {name : String} {start : Nat} : Steady Ready (openLabel name start) := by
  unfold openLabel
  refine ⟨.skip fun s => .skip fun _ => ?_⟩
  split
  · exact Steady.keeps
  · refine .skip fun _ => .skip fun token => .skip fun escaped => ?_
    split
    · exact Steady.keeps
    · split
      · exact Steady.keeps
      · exact Steady.keeps

namespace Phrases.Groups

variable {g : Phrases} (hg : g.Groups)

include hg

theorem block (ctx : Context) (role : Role) :
    Keeps (fun found => ∀ x ∈ found.2, AllGrouped (.statement x)) (block g ctx role) := by
  have hbody : ∀ inner, BuildsAll .statement (do
      let body ← g.itemsUpTo .rightBrace (g.listItem inner)
      next
      return body) := fun inner =>
    (itemsUpTo_preserves .rightBrace (hg.listItem inner)).bind fun _ hbody =>
      .skip fun _ => .pure hbody
  unfold Grammar.block
  refine .skip fun start => .skip fun _ => ((hbody _).inScope _).bind fun body hbody => ?_
  exact .skip fun span => .pure hbody

theorem variableDeclarator (ctx : Context) (kind : VariableKind) :
    Builds .declarator (variableDeclarator g ctx kind) := by
  unfold Grammar.variableDeclarator
  refine .skip fun start => (hg.bindingTarget ctx _).bind fun target htarget => ?_
  refine .skip fun hasValue => ?_
  extract_lets rest
  have hrest : ∀ init, (∀ e ∈ init, AllGrouped (.expression e)) →
      Builds .declarator (rest init) := by
    intro init hinit
    refine .skip fun span => .pure (.node trivial ?_)
    exact List.forall_mem_cons.mpr ⟨htarget, Node.every_ofOption hinit⟩
  split
  · exact (hg.assignment ctx).optional.bind hrest
  · exact Preserves.bind (.pure nofun) hrest

theorem variableDeclarators (ctx : Context) (kind : VariableKind) (inHead : Bool) :
    BuildsAll .declarator (variableDeclarators g ctx kind inHead) := by
  refine collect_preserves fun earlier _ => (hg.variableDeclarator ctx kind).bind fun d hd => ?_
  extract_lets rest
  have hrest : ∀ u, Keeps (Round.Adds fun d => AllGrouped (.declarator d)) (rest u) := by
    intro u
    refine .skip fun atComma => ?_
    split
    · exact .pure hd
    · exact .pure hd
  split
  · exact .skip hrest
  · exact hrest ()

theorem variableStatement (ctx : Context) (kind : VariableKind) :
    Builds .statement (variableStatement g ctx kind) := by
  unfold Grammar.variableStatement
  refine .skip fun start => .skip fun _ => ?_
  refine (hg.variableDeclarators ctx kind false).bind fun found hfound => ?_
  exact .skip fun _ => .skip fun span => .pure (.list trivial hfound rfl)

theorem parenExpression (ctx : Context) : Builds .expression (parenExpression g ctx) := by
  unfold Grammar.parenExpression
  exact .skip fun _ => (hg.expression ctx.withIn).bind fun e he => .skip fun _ => .pure he

theorem loopBody (ctx : Context) : Builds .statement (loopBody g ctx) := hg.statement _ _

theorem ifStatement (ctx : Context) (start : Nat) :
    Builds .statement (ifStatement g ctx start) := by
  unfold Grammar.ifStatement
  refine .skip fun _ => (hg.parenExpression ctx).bind fun test htest => ?_
  refine (hg.statement ctx .ifBody).bind fun consequent hconsequent => .skip fun hasElse => ?_
  split
  · refine (hg.statement ctx .ifBody).bind fun alternate halternate => .skip fun span => ?_
    exact .pure (.triple trivial htest hconsequent halternate rfl)
  · exact .skip fun span => .pure (.pair trivial htest hconsequent rfl)

theorem whileStatement (ctx : Context) (start : Nat) :
    Builds .statement (whileStatement g ctx start) := by
  unfold Grammar.whileStatement
  refine .skip fun _ => (hg.parenExpression ctx).bind fun test htest => ?_
  refine (hg.loopBody ctx).bind fun body hbody => .skip fun span => ?_
  exact .pure (.pair trivial htest hbody rfl)

theorem doWhileStatement (ctx : Context) (start : Nat) :
    Builds .statement (doWhileStatement g ctx start) := by
  unfold Grammar.doWhileStatement
  refine .skip fun _ => (hg.loopBody ctx).bind fun body hbody => .skip fun _ => ?_
  refine (hg.parenExpression ctx).bind fun test htest => .skip fun hasEnd => ?_
  extract_lets rest
  have hrest : ∀ u, Builds .statement (rest u) := fun u =>
    .skip fun span => .pure (.pair trivial hbody htest rfl)
  split
  · exact .skip hrest
  · exact hrest ()

omit hg in
theorem jump (ctx : Context) (start : Nat) (isContinue : Bool) :
    Builds .statement (jump ctx start isContinue) := by
  unfold Grammar.jump
  refine .skip fun _ => .skip fun token => .skip fun lineBreak => ?_
  extract_lets rest
  have hrest : ∀ label, Builds .statement (rest label) := by
    intro label
    refine .skip fun _ => .skip fun span => .pure ?_
    cases isContinue with
    | true => exact .leaf trivial rfl
    | false => exact .leaf trivial rfl
  split
  · exact .skip hrest
  · exact .skip fun _ => .skip hrest

theorem returnStatement (ctx : Context) (start : Nat) :
    Builds .statement (returnStatement g ctx start) := by
  unfold Grammar.returnStatement
  refine (stops_fail _).preserves_guard
    (.skip fun _ => .skip fun token => .skip fun lineBreak => ?_)
  extract_lets rest
  have hrest : ∀ argument, (∀ e ∈ argument, AllGrouped (.expression e)) →
      Builds .statement (rest argument) := by
    intro argument hargument
    refine .skip fun _ => .skip fun span => .pure (.node trivial ?_)
    exact Node.every_ofOption hargument
  split
  · exact Preserves.bind (.pure nofun) hrest
  · exact (hg.expression ctx).optional.bind hrest

theorem withStatement (ctx : Context) (start : Nat) :
    Builds .statement (withStatement g ctx start) := by
  unfold Grammar.withStatement
  refine (stops_fail _).preserves_guard (.skip fun _ => ?_)
  refine (hg.parenExpression ctx).bind fun object hobject => ?_
  refine (hg.statement ctx .single).bind fun body hbody => ?_
  extract_lets rest
  have hrest : ∀ u, Builds .statement (rest u) := fun u =>
    .skip fun span => .pure (.pair trivial hobject hbody rfl)
  split
  · exact (stops_failAt _ _).preserves_guard (hrest ())
  · exact hrest ()

theorem caseTest (ctx : Context) (earlier : List SwitchCase) :
    Keeps (fun test => ∀ e ∈ test, AllGrouped (.expression e)) (caseTest g ctx earlier) := by
  unfold Grammar.caseTest
  refine .skip fun token => ?_
  split
  · exact .skip fun _ => (hg.expression ctx.withIn).optional
  · exact (stops_fail _).preserves_guard (.skip fun _ => .pure nofun)
  · exact stops_unexpected.preserves

theorem switchCase (ctx : Context) (earlier : List SwitchCase) :
    Builds .switchCase (switchCase g ctx earlier) := by
  unfold Grammar.switchCase
  refine .skip fun start => (hg.caseTest ctx earlier).bind fun test htest => .skip fun _ => ?_
  refine Preserves.bind (collect_preserves (P := fun x => AllGrouped (.statement x))
    fun earlier _ => ?_) fun found hfound => .skip fun span => .pure (.node trivial ?_)
  · refine .skip fun token => ?_
    split
    · exact .pure trivial
    · exact (hg.listItem _).bind fun x hx => .pure hx
  · refine List.forall_mem_append.mpr ⟨Node.every_ofOption htest, ?_⟩
    exact List.forall_mem_map.mpr hfound

theorem switchStatement (ctx : Context) (start : Nat) :
    Builds .statement (switchStatement g ctx start) := by
  have hcases : BuildsAll .switchCase (do
      let cases ← g.collect fun earlier => do
        if ← atToken .rightBrace then return .stop
        return .more (← Grammar.switchCase g ctx earlier)
      next
      return cases) := by
    refine Preserves.bind (collect_preserves (P := fun c => AllGrouped (.switchCase c))
      fun earlier _ => ?_) fun found hfound => .skip fun _ => .pure hfound
    refine .skip fun atClose => ?_
    split
    · exact .pure trivial
    · exact (hg.switchCase ctx earlier).bind fun c hc => .pure hc
  unfold Grammar.switchStatement
  refine .skip fun _ => (hg.parenExpression ctx).bind fun e he => .skip fun _ => ?_
  refine (hcases.inScope _).bind fun found hfound => .skip fun span => ?_
  exact .pure (.consList trivial he hfound rfl)

theorem throwStatement (ctx : Context) (start : Nat) :
    Builds .statement (throwStatement g ctx start) := by
  unfold Grammar.throwStatement
  refine .skip fun _ => .skip fun lineBreak => (stops_fail _).preserves_guard ?_
  refine (hg.expression ctx).bind fun e he => .skip fun _ => .skip fun span => ?_
  exact .pure (.single trivial he rfl)

theorem catchClause (ctx : Context) : Builds .catchClause (catchClause g ctx) := by
  unfold Grammar.catchClause
  refine .skip fun start => .skip fun _ => Keeps.inScope (.skip fun hasParam => ?_) _
  extract_lets rest
  have hrest : ∀ param, (∀ p ∈ param, AllGrouped (.pattern p)) →
      Builds .catchClause (rest param) := by
    intro param hparam
    refine (hg.block ctx .catchBody).bind fun found hbody => ?_
    cases param with
    | none => exact .skip fun span => .pure (.list trivial hbody rfl)
    | some p => exact .skip fun span => .pure (.consList trivial (hparam p rfl) hbody rfl)
  split
  · refine .skip fun token => (hg.bindingTarget ctx _).bind fun p hp => .skip fun _ => ?_
    exact Preserves.bind (.pure (by simpa using hp)) hrest
  · exact Preserves.bind (.pure nofun) hrest

theorem tryStatement (ctx : Context) (start : Nat) :
    Builds .statement (tryStatement g ctx start) := by
  unfold Grammar.tryStatement
  refine .skip fun _ => (hg.block ctx .block).bind fun r hbody => .skip fun hasHandler => ?_
  obtain ⟨blockSpan, body⟩ := r
  extract_lets rest
  have hrest : ∀ handler, (∀ c ∈ handler, AllGrouped (.catchClause c)) →
      Builds .statement (rest handler) := by
    intro handler hhandler
    refine .skip fun hasFinalizer => ?_
    extract_lets last
    have hlast : ∀ finalizer, (∀ r ∈ finalizer, ∀ x ∈ r.2, AllGrouped (.statement x)) →
        Builds .statement (last finalizer) := by
      intro finalizer hfinalizer
      refine .skip fun span => ?_
      split
      · exact (stops_fail _).preserves
      · exact .pure (.consList trivial (hhandler _ rfl) hbody rfl)
      · exact .pure (.lists trivial hbody (hfinalizer _ rfl) rfl)
      · refine .pure (.node trivial (List.forall_mem_cons.mpr ⟨hhandler _ rfl, ?_⟩))
        exact List.forall_mem_append.mpr
          ⟨List.forall_mem_map.mpr hbody, List.forall_mem_map.mpr (hfinalizer _ rfl)⟩
    split
    · exact (hg.block ctx .block).optional.bind hlast
    · exact Preserves.bind (.pure nofun) hlast
  split
  · exact (hg.catchClause ctx).optional.bind hrest
  · exact Preserves.bind (.pure nofun) hrest

theorem labeledStatement (ctx : Context) (start : Nat) (position : Position) :
    Builds .statement (labeledStatement g ctx start position) := by
  unfold Grammar.labeledStatement
  refine .skip fun value => .skip fun _ => .skip fun label => .skip fun _ => .skip fun _ => ?_
  refine (hg.statement ctx _).bind fun body hbody => .skip fun _ => .skip fun span => ?_
  exact .pure (.single trivial hbody rfl)

theorem expressionOrLabeled (ctx : Context) (start : Nat) (position : Position) :
    Builds .statement (expressionOrLabeled g ctx start position) := by
  unfold Grammar.expressionOrLabeled
  refine .skip fun token => .skip fun isLabel => ?_
  split
  · exact hg.labeledStatement ctx start position
  · refine (hg.expression ctx).bind fun e he => .skip fun _ => .skip fun span => ?_
    exact .pure (.single trivial he rfl)

omit hg in
theorem functionStatement {step : Parser Function} (h : Builds .function step) :
    Builds .statement (do return .function (← step)) :=
  h.bind fun _ hf => .pure (.single trivial hf rfl)

theorem classStatement (ctx : Context) (start : Nat) {found : List Decorator}
    (hfound : ∀ d ∈ found, AllGrouped (.decorator d)) :
    Builds .statement (do
      return .classDeclaration (← Grammar.classDefinition g ctx start true found false)) :=
  (hg.classDefinition ctx start true hfound false).bind fun _ hc => .pure (.single trivial hc rfl)

theorem misplacedFunction (ctx : Context) (position : Position) :
    Builds .statement (misplacedFunction g ctx position) := by
  unfold Grammar.misplacedFunction
  refine .skip fun following => (stops_fail _).preserves_guard ((stops_fail _).preserves_guard ?_)
  have hfunction := hg.functionDeclaration ctx false true
  split
  · exact functionStatement (hfunction.inScope _)
  · exact functionStatement hfunction

theorem forRest (ctx : Context) (start : Nat) {init : ForHead}
    (hinit : AllGrouped (.forHead init)) : Builds .statement (forRest g ctx start init) := by
  unfold Grammar.forRest
  refine .skip fun _ => .skip fun noTest => ?_
  extract_lets rest
  have hrest : ∀ test, (∀ e ∈ test, AllGrouped (.expression e)) →
      Builds .statement (rest test) := by
    intro test htest
    refine .skip fun _ => .skip fun noUpdate => ?_
    extract_lets last
    have hlast : ∀ update, (∀ e ∈ update, AllGrouped (.expression e)) →
        Builds .statement (last update) := by
      intro update hupdate
      refine .skip fun _ => (hg.loopBody ctx).bind fun body hbody => .skip fun span => ?_
      refine .pure (.node trivial ?_)
      refine List.forall_mem_cons.mpr ⟨hinit, List.forall_mem_cons.mpr ⟨hbody, ?_⟩⟩
      exact List.forall_mem_append.mpr ⟨Node.every_ofOption htest, Node.every_ofOption hupdate⟩
    split
    · exact Preserves.bind (.pure nofun) hlast
    · exact (hg.expression ctx.withIn).optional.bind hlast
  split
  · exact Preserves.bind (.pure nofun) hrest
  · exact (hg.expression ctx.withIn).optional.bind hrest

theorem forEach (ctx : Context) (start : Nat) {left : ForHead}
    (hleft : AllGrouped (.forHead left)) (isOf isAwait : Bool) :
    Builds .statement (forEach g ctx start left isOf isAwait) := by
  unfold Grammar.forEach
  refine .skip fun _ => ?_
  extract_lets rest
  have hrest : ∀ right, AllGrouped (.expression right) → Builds .statement (rest right) := by
    intro right hright
    refine .skip fun _ => (hg.loopBody ctx).bind fun body hbody => .skip fun span => .pure ?_
    split
    · exact .triple trivial hleft hright hbody rfl
    · exact .triple trivial hleft hright hbody rfl
  split
  · exact (hg.assignment ctx.withIn).bind hrest
  · exact (hg.expression ctx.withIn).bind hrest

theorem forVariables (ctx : Context) (start : Nat) (isAwait : Bool) (kind : VariableKind) :
    Builds .statement (forVariables g ctx start isAwait kind) := by
  unfold Grammar.forVariables
  refine .skip fun initStart => .skip fun _ => ?_
  refine (hg.variableDeclarators _ kind true).bind fun found hfound => .skip fun span => ?_
  have hhead : AllGrouped (.forHead (.variables span kind found)) := .list trivial hfound rfl
  refine .skip fun isOf => .skip fun _ => ?_
  split
  · exact .skip fun _ => hg.forEach ctx start hhead _ isAwait
  · exact .skip fun _ => hg.forRest ctx start hhead

theorem forExpression (ctx : Context) (start : Nat) (isAwait : Bool) :
    Builds .statement (forExpression g ctx start isAwait) := by
  unfold Grammar.forExpression
  refine .skip fun initStart => .skip fun startsWithLet => ?_
  refine (hg.assignmentCover _).bind fun e he => .skip fun isOf => .skip fun _ => ?_
  split
  · refine (stops_failAt _ _).preserves_guard
      (.skip fun isMarked => (stops_failAt _ _).preserves_guard ?_)
    refine (patternTarget ctx he _).bind fun target htarget => ?_
    exact hg.forEach ctx start (.single trivial htarget rfl) _ isAwait
  · refine .skip fun _ => (hg.sequenceAfter _ initStart he).bind fun init hinit => ?_
    exact hg.forRest ctx start (.single trivial hinit rfl)

theorem forHead (ctx : Context) (start : Nat) (isAwait : Bool) :
    Builds .statement (forHead g ctx start isAwait) := by
  unfold Grammar.forHead
  refine .skip fun atSemicolon => ?_
  split
  · exact .skip fun _ => hg.forRest ctx start (.leaf trivial rfl)
  · refine .skip fun kind => ?_
    split
    · exact hg.forVariables ctx start isAwait _
    · exact hg.forExpression ctx start isAwait

theorem forStatement (ctx : Context) (start : Nat) :
    Builds .statement (forStatement g ctx start) := by
  unfold Grammar.forStatement
  refine .skip fun _ => .skip fun isAwait => ?_
  have hhead : Builds .statement (expect .leftParen >>= fun _ =>
      inScope [.forHead] (Grammar.forHead g ctx start isAwait)) :=
    .skip fun _ => (hg.forHead ctx start isAwait).inScope _
  split
  · exact stops_unexpected.preserves_guard (.skip fun offset => .skip fun _ => .skip fun _ => hhead)
  · exact hhead

omit hg in
theorem importDeclaration (ctx : Context) : Builds .statement (importDeclaration g ctx) := by
  unfold Grammar.importDeclaration
  refine .skip fun start => .skip fun _ => .skip fun bare => ?_
  extract_lets rest
  have hrest : ∀ r, Builds .statement (rest r) := fun r =>
    .skip fun _ => .skip fun span => .pure (.leaf trivial rfl)
  split
  · exact .skip fun source => .skip hrest
  · exact .skip fun specifiers => .skip fun source => .skip hrest

omit hg in
theorem exportAll (ctx : Context) (start : Nat) : Builds .statement (exportAll g ctx start) := by
  unfold Grammar.exportAll
  refine .skip fun _ => .skip fun named => ?_
  extract_lets rest
  have hrest : ∀ name, Builds .statement (rest name) := fun name =>
    .skip fun source => .skip fun _ => .skip fun span => .pure (.leaf trivial rfl)
  split
  · exact .skip fun _ => .skip fun start => .skip fun name => .skip fun _ => .skip hrest
  · exact .skip hrest

omit hg in
theorem exportNames (ctx : Context) (start : Nat) :
    Builds .statement (exportNames g ctx start) := by
  unfold Grammar.exportNames
  refine .skip fun _ => .skip fun entries => .skip fun _ => .skip fun named => ?_
  extract_lets rest
  have hrest : ∀ found, Builds .statement (rest found) := by
    intro found
    unfold rest
    extract_lets last
    have hlast : ∀ u, Builds .statement (last u) := fun u =>
      .skip fun _ => .skip fun _ => .skip fun span => .pure (.leaf trivial rfl)
    split
    · exact .skip hlast
    · exact hlast ()
  split
  · exact .skip fun _ => .skip hrest
  · exact .skip hrest

theorem exportDecorators (ctx : Context) {before : List Decorator}
    (hbefore : ∀ d ∈ before, AllGrouped (.decorator d)) :
    BuildsAll .decorator (exportDecorators g ctx before) := by
  unfold Grammar.exportDecorators
  refine .skip fun atSign => ?_
  split
  · exact (stops_fail _).preserves_guard (hg.decorators ctx)
  · exact .pure hbefore

theorem exportDefault (ctx : Context) (start : Nat) {before : List Decorator}
    (hbefore : ∀ d ∈ before, AllGrouped (.decorator d)) :
    Builds .statement (exportDefault g ctx start before) := by
  have hfunction : ∀ isAsync, Builds .statement (do
      let value ← Grammar.functionDeclaration g ctx isAsync false
      return .exportDefaultFunction (← spanFrom start) value) := fun isAsync =>
    (hg.functionDeclaration ctx isAsync false).bind fun value hvalue =>
      .skip fun span => .pure (.single trivial hvalue rfl)
  unfold Grammar.exportDefault
  refine .skip fun keywordStart => .skip fun _ => ?_
  refine (hg.exportDecorators ctx hbefore).bind fun found hfound => ?_
  refine .skip fun _ => .skip fun valueStart => .skip fun atClass => ?_
  split
  · refine (hg.classDefinition ctx valueStart true hfound true).bind fun value hvalue => ?_
    exact .skip fun span => .pure (.single trivial hvalue rfl)
  · refine (stops_fail _).preserves_guard (.skip fun atFunction => ?_)
    split
    · exact hfunction false
    · refine .skip fun atAsync => ?_
      split
      · exact hfunction true
      · refine (hg.assignment ctx).bind fun e he => .skip fun _ => .skip fun span => ?_
        exact .pure (.single trivial he rfl)

theorem exportedDeclaration (ctx : Context) {found : List Decorator}
    (hfound : ∀ d ∈ found, AllGrouped (.decorator d)) :
    Builds .statement (exportedDeclaration g ctx found) := by
  unfold Grammar.exportedDeclaration
  refine .skip fun start => .skip fun token => ?_
  split
  case h_1 | h_2 | h_3 => exact hg.listItem ctx
  · refine .skip fun escaped => ?_
    split
    · exact stops_unexpected.preserves
    · exact hg.listItem ctx
  · refine .skip fun atAsync => ?_
    split
    · exact hg.listItem ctx
    · exact stops_unexpected.preserves
  · exact hg.classStatement ctx start hfound
  · exact stops_unexpected.preserves

theorem exportDeclaration (ctx : Context) (start : Nat) {found : List Decorator}
    (hfound : ∀ d ∈ found, AllGrouped (.decorator d)) :
    Builds .statement (exportDeclaration g ctx start found) := by
  unfold Grammar.exportDeclaration
  refine .skip fun declarationStart => ?_
  refine (hg.exportedDeclaration ctx hfound).bind fun declaration hdeclaration => ?_
  refine (stops_failAt _ _).preserves_guard (.skip fun _ => .skip fun span => ?_)
  exact .pure (.single trivial hdeclaration rfl)

theorem exportStatement (ctx : Context) (start : Nat) {before : List Decorator}
    (hbefore : ∀ d ∈ before, AllGrouped (.decorator d)) :
    Builds .statement (exportStatement g ctx start before) := by
  unfold Grammar.exportStatement
  refine .skip fun _ => (hg.exportDecorators ctx hbefore).bind fun found hfound => ?_
  refine .skip fun token => (stops_fail _).preserves_guard ?_
  split
  · exact exportAll ctx start
  · exact hg.exportDefault ctx start hfound
  · exact exportNames ctx start
  · exact hg.exportDeclaration ctx start hfound

theorem statementBody (ctx : Context) (position : Position) :
    Builds .statement (statementBody g ctx position) := by
  unfold Grammar.statementBody
  refine .skip fun start => .skip fun token => .skip fun escaped =>
    (stops_fail _).preserves_guard ?_
  split
  · exact (hg.block ctx .block).bind fun found hbody => .pure (.list trivial hbody rfl)
  · exact .skip fun _ => .skip fun span => .pure (.leaf trivial rfl)
  · exact hg.variableStatement ctx .varKind
  · exact hg.ifStatement ctx start
  · exact hg.forStatement ctx start
  · exact hg.whileStatement ctx start
  · exact hg.doWhileStatement ctx start
  · exact jump ctx start true
  · exact jump ctx start false
  · exact hg.returnStatement ctx start
  · exact hg.withStatement ctx start
  · exact hg.switchStatement ctx start
  · exact hg.throwStatement ctx start
  · exact hg.tryStatement ctx start
  · exact .skip fun _ => .skip fun _ => .skip fun span => .pure (.leaf trivial rfl)
  · exact hg.misplacedFunction ctx position
  case h_17 | h_18 | h_19 => exact (stops_fail _).preserves
  case h_20 | h_21 | h_22 =>
    refine .skip fun refused => ?_
    split
    · exact (stops_fail _).preserves
    · exact hg.expressionOrLabeled ctx start position
  · exact hg.expressionOrLabeled ctx start position

theorem statement_body (ctx : Context) (position : Position) :
    Builds .statement (Grammar.statement g ctx position) :=
  (hg.statementBody ctx position).nested

theorem decoratedItem (ctx : Context) (start : Nat) :
    Builds .statement (decoratedItem g ctx start) := by
  unfold Grammar.decoratedItem
  refine (hg.decorators ctx).bind fun found hfound => .skip fun token => ?_
  split
  · exact hg.classStatement ctx start hfound
  · split
    · exact hg.exportStatement ctx start hfound
    · exact (stops_fail _).preserves
  · exact (stops_fail _).preserves

omit hg in
theorem topLevelItem (ctx : Context) (word : String) {phrase : Parser Statement}
    (h : Builds .statement phrase) : Builds .statement (topLevelItem ctx word phrase) :=
  (stops_fail _).preserves_guard h

theorem listItem_body (ctx : Context) : Builds .statement (Grammar.listItem g ctx) := by
  have none : ∀ d ∈ ([] : List Decorator), AllGrouped (.decorator d) := fun _ h => by cases h
  unfold Grammar.listItem
  refine .skip fun start => .skip fun atFunction => ?_
  split
  · exact functionStatement (hg.functionDeclaration ctx false true).nested
  refine .skip fun atAsync => ?_
  split
  · exact functionStatement (hg.functionDeclaration ctx true true).nested
  refine .skip fun atClass => ?_
  split
  · exact (hg.classDefinition ctx start true none false).nested.bind fun c hc =>
      .pure (.single trivial hc rfl)
  refine .skip fun atSign => ?_
  split
  · exact hg.decoratedItem ctx start
  refine .skip fun atConst => ?_
  split
  · exact hg.variableStatement ctx .constKind
  refine .skip fun atLet => ?_
  split
  · exact hg.variableStatement ctx .letKind
  refine .skip fun atImport => ?_
  split
  · exact topLevelItem ctx "import" (importDeclaration ctx)
  refine .skip fun atExport => ?_
  split
  · exact topLevelItem ctx "export" (hg.exportStatement ctx start none)
  exact hg.statement_body ctx .listItem

theorem program (length : Nat) {s : State} (hs : Ready s) :
    Yields (program g length) (fun p _ => ∀ x ∈ p.body, AllGrouped (.statement x)) s := by
  unfold Grammar.program
  refine (Steady.keeps s hs).bind fun _ s' hs' => ?_
  refine (hg.bodyStatements _ true .endOfSource s' hs'.1).bind fun r s hbody => ?_
  exact .skip fun _ s => .pure hbody.2

end Phrases.Groups

theorem phrases_groups {options : Options} (hparens : options.preserveParens = true)
    (size fuel : Nat) : (phrases options size fuel).Groups := by
  induction fuel with
  | zero =>
    exact
      { parens := hparens
        assignmentCover := fun _ => (stops_fail _).preserves
        unary := fun _ _ _ => (stops_fail _).yields
        binary := fun _ _ _ _ _ _ _ => (stops_fail _).yields
        newCall := fun _ => (stops_fail _).preserves
        leftHandSide := fun _ => (stops_fail _).preserves
        markup := fun _ _ => (stops_fail _).preserves
        bindingTarget := fun _ _ => (stops_fail _).preserves
        statement := fun _ _ => (stops_fail _).preserves
        listItem := fun _ => (stops_fail _).preserves }
  | succ fuel ih =>
    exact
      { parens := hparens
        assignmentCover := ih.assignmentCover_body
        unary := fun ctx s hs => (ih.unary_yields ctx hs).mono fun _ _ he => ⟨he.1, he.2.grouped⟩
        binary := ih.binary_body
        newCall := ih.newCall_body
        leftHandSide := fun ctx s hs =>
          (ih.leftHandSide_yields ctx hs).mono fun _ _ he => ⟨he.1, he.2.grouped⟩
        markup := ih.markup_body
        bindingTarget := ih.bindingTarget_body
        statement := ih.statement_body
        listItem := ih.listItem_body }

theorem ready_initial (options : Options) (observing : Bool) (text : List Char) :
    Ready (State.initial options observing text) :=
  ⟨⟨[], .refl _, .of_none rfl rfl _, fun _ => rfl, fun _ => rfl⟩, nofun, rfl⟩

theorem parse_allGrouped {options : Options} {text : String} {p : Program}
    (hparens : options.preserveParens = true) (h : parse options text = .ok p) :
    ∀ x ∈ p.body, AllGrouped (.statement x) := by
  unfold parse run at h
  split at h
  · rename_i q s hok
    cases h
    exact ((phrases_groups hparens _ _).program _ (ready_initial ..)).result hok
  · cases h

/-- In a tree that keeps its parentheses, every operand holds together as tightly as
its operator needs. -/
theorem operands_grouped {options : Options} {text : String} {p : Program}
    (hparens : options.preserveParens = true) (h : parse options text = .ok p) :
    (∀ span left operator right,
        p.Contains (.expression (.binary span left operator right)) →
          Grouped operator.token left right) ∧
      ∀ span left operator right,
        p.Contains (.expression (.logical span left operator right)) →
          Grouped operator.token left right := by
  have hall := parse_allGrouped hparens h
  constructor
  · rintro span left operator right ⟨x, hx, hwithin⟩
    exact hall x hx _ hwithin
  · rintro span left operator right ⟨x, hx, hwithin⟩
    exact hall x hx _ hwithin

end

/-- Operators of each kind next to each other, with and without parentheses. -/
theorem operands_grouped_mixed :
    ∃ p, parse { Options.script with preserveParens := true }
        "(a ?? b) || (-c) ** 2 + d * (e, f) ** g ** h" = .ok p ∧
      (∀ span left operator right,
          p.Contains (.expression (.binary span left operator right)) →
            Grouped operator.token left right) ∧
        ∀ span left operator right,
          p.Contains (.expression (.logical span left operator right)) →
            Grouped operator.token left right := by
  obtain ⟨p, hp⟩ := exists_ok_of_isOk { Options.script with preserveParens := true }
    "(a ?? b) || (-c) ** 2 + d * (e, f) ** g ** h" (by decide +kernel)
  exact ⟨p, hp, operands_grouped rfl hp⟩

end EcmaSyntax.Grammar
