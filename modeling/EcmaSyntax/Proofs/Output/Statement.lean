import EcmaSyntax.Grammar.Statement
import EcmaSyntax.Grammar.Module
import EcmaSyntax.Proofs.Output.Operation

/-!
Statements, loops, imports and exports where nobody observes. Labels, jumps and the
exported names are looked up by what identifiers and strings stand for.
-/

namespace EcmaSyntax.Grammar

open EcmaSyntax.Diagnostic EcmaSyntax.Lexer EcmaSyntax.Scope EcmaSyntax.Text EcmaSyntax.Tree

variable {version : Nat} [Unicode.IdentifierChars version]

section Steps

instance : Unwatched atLetDeclaration := by unfold atLetDeclaration; infer_instance

instance : Unwatched atAsyncFunction := by unfold atAsyncFunction; infer_instance

instance : Unwatched atMisplacedLet := by unfold atMisplacedLet; infer_instance

instance : Unwatched atImportDeclaration := by unfold atImportDeclaration; infer_instance

@[simp] theorem checkInitializer_withoutRaw (kind : VariableKind) (d : VariableDeclarator) :
    checkInitializer kind d.withoutRaw = checkInitializer kind d := by
  unfold checkInitializer
  rw [d.init_withoutRaw, d.span_withoutRaw, d.id_withoutRaw, d.id.isSimple_withoutRaw,
    Option.isSome_map]

instance {kind : VariableKind} {d : VariableDeclarator} : Unwatched (checkInitializer kind d) := by
  unfold checkInitializer; infer_instance

instance {isContinue : Bool} : Unwatched (jumpLabel isContinue) := by
  unfold jumpLabel
  refine ⟨.skip fun name => .look fun s => ?_⟩
  dsimp only [State.unobserved]
  split
  · exact .refuse
  · exact .guard Blind.mirrors

instance {ctx : Context} {start : Nat} {isContinue : Bool} :
    Unwatched (checkJump ctx start isContinue) := by
  unfold checkJump; infer_instance

instance {name : String} {start : Nat} : Unwatched (openLabel name start) := by
  unfold openLabel
  refine ⟨.look fun s => .change (fun _ => rfl) fun _ => ?_⟩
  dsimp only [State.unobserved]
  split
  · exact .refuse
  · refine .change (fun _ => rfl) fun _ => .skip fun token => .skip fun escaped => .ite ?_ ?_
    · exact .modify fun _ => rfl
    · refine .ite (.skip fun following => .ite ?_ (.pure rfl)) (.pure rfl)
      exact .modify fun _ => rfl

theorem isUseStrict_withoutRaw (s : Statement) : isUseStrict s.withoutRaw = isUseStrict s := by
  cases s with
  | expression span e text => cases e <;> rfl
  | _ => rfl

theorem any_noTest (cases : List SwitchCase) :
    (cases.map SwitchCase.withoutRaw).any (fun c => c.test.isNone) =
      cases.any fun c => c.test.isNone := by
  have htest : ∀ c : SwitchCase, c.withoutRaw.test.isNone = c.test.isNone := by
    intro c
    cases c with
    | mk span test consequent => cases test <;> rfl
  simp [htest, Function.comp_def]

theorem checkForDeclarators_withoutRaw (g : Phrases) (ctx : Context) (start : Nat)
    (kind : VariableKind) (isOf : Bool) (declarations : List VariableDeclarator) :
    checkForDeclarators g ctx start kind isOf (declarations.map VariableDeclarator.withoutRaw) =
      checkForDeclarators g ctx start kind isOf declarations := by
  match declarations with
  | [] => rfl
  | [d] =>
    simp only [List.map_cons, List.map_nil, checkForDeclarators, d.init_withoutRaw,
      d.span_withoutRaw, d.id_withoutRaw, d.id.isSimple_withoutRaw, Option.isSome_map]
  | _ :: _ :: _ => rfl

instance {g : Phrases} {ctx : Context} {start : Nat} {kind : VariableKind} {isOf : Bool}
    {declarations : List VariableDeclarator} :
    Unwatched (checkForDeclarators g ctx start kind isOf declarations) := by
  unfold checkForDeclarators
  dsimp only
  split <;> infer_instance

instance : Unwatched forKeyword? := by unfold forKeyword?; infer_instance

instance {isAwait : Bool} {isOf : Option Bool} : Unwatched (checkAwait isAwait isOf) := by
  unfold checkAwait; infer_instance

instance : Unwatched forDeclaration? := by unfold forDeclaration?; infer_instance

@[simp] theorem isBareAsync_withoutRaw (e : Expression) (start : Nat) :
    isBareAsync e.withoutRaw start = isBareAsync e start := by
  cases e <;> rfl

end Steps

namespace Phrases.Quieted

variable {g g' : Phrases} (h : g.Quieted g')

include h

theorem block (ctx : Context) (role : Role) :
    Echoes (fun found => (found.1, found.2.map Statement.withoutRaw)) (block g ctx role)
      (block g' ctx role) := by
  have hbody : ∀ inner, Echoes (List.map Statement.withoutRaw)
      (do
        let body ← g.itemsUpTo .rightBrace (g.listItem inner)
        next
        return body)
      (do
        let body ← g'.itemsUpTo .rightBrace (g'.listItem inner)
        next
        return body) := fun inner =>
    (h.itemsUpTo .rightBrace (h.listItem inner)).bind fun body => .skip fun _ => .pure rfl
  unfold Grammar.block
  refine .skip fun start => .skip fun _ => ((hbody _).inScope _).bind fun body => ?_
  exact .skip fun span => .pure rfl

theorem variableDeclarator (ctx : Context) (kind : VariableKind) :
    Echoes VariableDeclarator.withoutRaw (variableDeclarator g ctx kind)
      (variableDeclarator g' ctx kind) := by
  unfold Grammar.variableDeclarator
  refine .skip fun start => (h.bindingTarget ctx _).bind fun target => .skip fun hasValue => ?_
  extract_lets rest rest'
  have hrest : ∀ init, Echoes VariableDeclarator.withoutRaw (rest init)
      (rest' (init.map Expression.withoutRaw)) := fun init =>
    .skip fun span => .pure (by simp [VariableDeclarator.withoutRaw])
  refine .ite ((h.assignment ctx).optional.bind hrest) ?_
  exact Mirrors.bind (k := Option.map Expression.withoutRaw) (.pure rfl) hrest

theorem variableDeclarators (ctx : Context) (kind : VariableKind) (inHead : Bool) :
    Echoes (List.map VariableDeclarator.withoutRaw) (variableDeclarators g ctx kind inHead)
      (variableDeclarators g' ctx kind inHead) := by
  refine h.collect fun earlier => (h.variableDeclarator ctx kind).bind fun d => ?_
  rw [checkInitializer_withoutRaw]
  extract_lets rest rest'
  have hrest : ∀ u, Echoes (Round.map VariableDeclarator.withoutRaw) (rest u) (rest' u) :=
    fun u => .skip fun atComma => .ite (.pure rfl) (.pure rfl)
  exact .ite (.skip hrest) (hrest ())

theorem variableStatement (ctx : Context) (kind : VariableKind) :
    Echoes Statement.withoutRaw (variableStatement g ctx kind) (variableStatement g' ctx kind) := by
  unfold Grammar.variableStatement
  refine .skip fun start => .skip fun _ => (h.variableDeclarators ctx kind false).bind fun found =>
    ?_
  exact .skip fun _ => .skip fun span => .pure (by simp [Statement.withoutRaw])

theorem parenExpression (ctx : Context) :
    Echoes Expression.withoutRaw (parenExpression g ctx) (parenExpression g' ctx) := by
  unfold Grammar.parenExpression
  exact .skip fun _ => (h.expression ctx.withIn).bind fun e => .skip fun _ => .pure rfl

theorem loopBody (ctx : Context) :
    Echoes Statement.withoutRaw (loopBody g ctx) (loopBody g' ctx) :=
  h.statement _ _

theorem ifStatement (ctx : Context) (start : Nat) :
    Echoes Statement.withoutRaw (ifStatement g ctx start) (ifStatement g' ctx start) := by
  unfold Grammar.ifStatement
  refine .skip fun _ => (h.parenExpression ctx).bind fun test => ?_
  refine (h.statement ctx .ifBody).bind fun consequent => .skip fun hasElse => .ite ?_ ?_
  · exact (h.statement ctx .ifBody).bind fun alternate => .skip fun span => .pure rfl
  · exact .skip fun span => .pure rfl

theorem whileStatement (ctx : Context) (start : Nat) :
    Echoes Statement.withoutRaw (whileStatement g ctx start) (whileStatement g' ctx start) := by
  unfold Grammar.whileStatement
  refine .skip fun _ => (h.parenExpression ctx).bind fun test => ?_
  exact (h.loopBody ctx).bind fun body => .skip fun span => .pure rfl

theorem doWhileStatement (ctx : Context) (start : Nat) :
    Echoes Statement.withoutRaw (doWhileStatement g ctx start) (doWhileStatement g' ctx start) := by
  unfold Grammar.doWhileStatement
  refine .skip fun _ => (h.loopBody ctx).bind fun body => .skip fun _ => ?_
  refine (h.parenExpression ctx).bind fun test => .skip fun hasEnd => .ite ?_ ?_
  · exact .skip fun _ => .skip fun span => .pure rfl
  · exact .skip fun span => .pure rfl

omit h in
theorem jump (ctx : Context) (start : Nat) (isContinue : Bool) :
    Echoes Statement.withoutRaw (jump ctx start isContinue) (jump ctx start isContinue) := by
  unfold Grammar.jump
  refine .skip fun _ => .skip fun token => .skip fun lineBreak => ?_
  extract_lets rest
  have hrest : ∀ label, Echoes Statement.withoutRaw (rest label) (rest label) := fun label =>
    .skip fun _ => .skip fun span => .pure (by cases isContinue <;> rfl)
  exact .ite (.skip hrest) (.skip fun _ => .skip hrest)

theorem returnStatement (ctx : Context) (start : Nat) :
    Echoes Statement.withoutRaw (returnStatement g ctx start) (returnStatement g' ctx start) := by
  unfold Grammar.returnStatement
  refine .guard (.skip fun _ => .skip fun token => .skip fun lineBreak => ?_)
  extract_lets rest
  have hrest : ∀ argument, Echoes Statement.withoutRaw (rest argument)
      (rest (argument.map Expression.withoutRaw)) := fun argument =>
    .skip fun _ => .skip fun span => .pure (by simp [Statement.withoutRaw])
  refine .ite ?_ ((h.expression ctx).optional.bind hrest)
  exact Mirrors.bind (k := Option.map Expression.withoutRaw) (.pure rfl) hrest

theorem withStatement (ctx : Context) (start : Nat) :
    Echoes Statement.withoutRaw (withStatement g ctx start) (withStatement g' ctx start) := by
  unfold Grammar.withStatement
  refine .guard (.skip fun _ => (h.parenExpression ctx).bind fun object => ?_)
  refine (h.statement ctx .single).bind fun body => ?_
  extract_lets rest rest'
  have hrest : ∀ body', Echoes Statement.withoutRaw (rest body') (rest' body') := fun _ =>
    .skip fun span => .pure rfl
  cases body with
  | block span items =>
    cases items with
    | nil => exact hrest ()
    | cons first others =>
      change Echoes _ (if isUseStrict first then _ else _)
        (if isUseStrict first.withoutRaw then _ else _)
      rw [isUseStrict_withoutRaw]
      exact .guard (hrest ())
  | _ => exact hrest ()

theorem caseTest (ctx : Context) (earlier : List SwitchCase) :
    Echoes (Option.map Expression.withoutRaw) (caseTest g ctx earlier)
      (caseTest g' ctx (earlier.map SwitchCase.withoutRaw)) := by
  unfold Grammar.caseTest
  rw [any_noTest]
  refine .skip fun token => ?_
  split
  · exact .skip fun _ => (h.expression ctx.withIn).optional
  · exact .guard (.skip fun _ => .pure rfl)
  · exact .refuse

theorem switchCase (ctx : Context) (earlier : List SwitchCase) :
    Echoes SwitchCase.withoutRaw (switchCase g ctx earlier)
      (switchCase g' ctx (earlier.map SwitchCase.withoutRaw)) := by
  unfold Grammar.switchCase
  refine .skip fun start => (h.caseTest ctx earlier).bind fun test => .skip fun _ => ?_
  refine (h.collect (k := Statement.withoutRaw) fun earlier => ?_).bind fun found =>
    .skip fun span => .pure (by simp [SwitchCase.withoutRaw])
  refine .skip fun token => .ite (.pure rfl) ?_
  exact (h.listItem _).bind fun x => .pure rfl

theorem switchStatement (ctx : Context) (start : Nat) :
    Echoes Statement.withoutRaw (switchStatement g ctx start) (switchStatement g' ctx start) := by
  have hcases : Echoes (List.map SwitchCase.withoutRaw)
      (do
        let cases ← g.collect fun earlier => do
          if ← atToken .rightBrace then return .stop
          return .more (← Grammar.switchCase g ctx earlier)
        next
        return cases)
      (do
        let cases ← g'.collect fun earlier => do
          if ← atToken .rightBrace then return .stop
          return .more (← Grammar.switchCase g' ctx earlier)
        next
        return cases) := by
    refine (h.collect fun earlier => ?_).bind fun found => .skip fun _ => .pure rfl
    exact .skip fun atClose => .ite (.pure rfl) ((h.switchCase ctx earlier).bind fun c => .pure rfl)
  unfold Grammar.switchStatement
  refine .skip fun _ => (h.parenExpression ctx).bind fun e => .skip fun _ => ?_
  refine (hcases.inScope _).bind fun found => .skip fun span => .pure ?_
  simp [Statement.withoutRaw]

theorem throwStatement (ctx : Context) (start : Nat) :
    Echoes Statement.withoutRaw (throwStatement g ctx start) (throwStatement g' ctx start) := by
  unfold Grammar.throwStatement
  refine .skip fun _ => .skip fun lineBreak => .guard ((h.expression ctx).bind fun e => ?_)
  exact .skip fun _ => .skip fun span => .pure rfl

theorem catchClause (ctx : Context) :
    Echoes CatchClause.withoutRaw (catchClause g ctx) (catchClause g' ctx) := by
  unfold Grammar.catchClause
  refine .skip fun start => .skip fun _ => .inScope (.skip fun hasParam => ?_) _
  extract_lets rest rest'
  have hrest : ∀ param, Echoes CatchClause.withoutRaw (rest param)
      (rest' (param.map Pattern.withoutRaw)) := by
    intro param
    refine (h.block ctx .catchBody).bind fun found => ?_
    cases param with
    | none => exact .skip fun span => .pure (by simp [CatchClause.withoutRaw])
    | some p => exact .skip fun span => .pure (by simp [CatchClause.withoutRaw])
  refine .ite (.skip fun token => ?_) ?_
  · refine (h.bindingTarget ctx _).bind fun p => .skip fun _ => ?_
    exact Mirrors.bind (k := Option.map Pattern.withoutRaw) (.pure rfl) hrest
  · exact Mirrors.bind (k := Option.map Pattern.withoutRaw) (.pure rfl) hrest

theorem tryStatement (ctx : Context) (start : Nat) :
    Echoes Statement.withoutRaw (tryStatement g ctx start) (tryStatement g' ctx start) := by
  unfold Grammar.tryStatement
  refine .skip fun _ => (h.block ctx .block).bind fun r => .skip fun hasHandler => ?_
  obtain ⟨blockSpan, body⟩ := r
  extract_lets rest rest'
  have hrest : ∀ handler, Echoes Statement.withoutRaw (rest handler)
      (rest' (handler.map CatchClause.withoutRaw)) := by
    intro handler
    refine .skip fun hasFinalizer => ?_
    extract_lets last last'
    have hlast : ∀ finalizer : Option (Span × List Statement), Echoes Statement.withoutRaw
        (last finalizer)
        (last' (finalizer.map fun found => (found.1, found.2.map Statement.withoutRaw))) := by
      intro finalizer
      refine .skip fun span => ?_
      cases handler with
      | none =>
        cases finalizer with
        | none => exact .refuse
        | some found => exact .pure (by simp [Statement.withoutRaw])
      | some handler =>
        cases finalizer with
        | none => exact .pure (by simp [Statement.withoutRaw])
        | some found => exact .pure (by simp [Statement.withoutRaw])
    refine .ite ((h.block ctx .block).optional.bind hlast) ?_
    exact Mirrors.bind
      (k := Option.map fun found => (found.1, found.2.map Statement.withoutRaw)) (.pure rfl) hlast
  refine .ite ((h.catchClause ctx).optional.bind hrest) ?_
  exact Mirrors.bind (k := Option.map CatchClause.withoutRaw) (.pure rfl) hrest

theorem labeledStatement (ctx : Context) (start : Nat) (position : Position) :
    Echoes Statement.withoutRaw (labeledStatement g ctx start position)
      (labeledStatement g' ctx start position) := by
  unfold Grammar.labeledStatement
  refine .skip fun value => .skip fun _ => .skip fun label => .skip fun _ => .skip fun _ => ?_
  refine (h.statement ctx _).bind fun body => .change (fun _ => rfl) fun _ => ?_
  exact .skip fun span => .pure rfl

theorem expressionOrLabeled (ctx : Context) (start : Nat) (position : Position) :
    Echoes Statement.withoutRaw (expressionOrLabeled g ctx start position)
      (expressionOrLabeled g' ctx start position) := by
  unfold Grammar.expressionOrLabeled
  refine .skip fun token => .skip fun isLabel => .ite ?_ ?_
  · exact h.labeledStatement ctx start position
  · exact (h.expression ctx).bind fun e => .skip fun _ => .skip fun span => .pure rfl

omit h in
theorem functionStatement {step image : Parser Tree.Function}
    (hstep : Echoes Function.withoutRaw step image) :
    Echoes Statement.withoutRaw (do return .function (← step)) (do return .function (← image)) :=
  hstep.bind fun _ => .pure rfl

theorem classStatement (ctx : Context) (start : Nat) (found : List Decorator) :
    Echoes Statement.withoutRaw
      (do
        return .classDeclaration (← Grammar.classDefinition g ctx start true found false))
      (do
        return .classDeclaration
          (← Grammar.classDefinition g' ctx start true (found.map Decorator.withoutRaw) false)) :=
  (h.classDefinition ctx start true found false).bind fun _ => .pure rfl

theorem misplacedFunction (ctx : Context) (position : Position) :
    Echoes Statement.withoutRaw (misplacedFunction g ctx position)
      (misplacedFunction g' ctx position) := by
  have hfunction := h.functionDeclaration ctx false true
  unfold Grammar.misplacedFunction
  rw [h.options]
  refine .skip fun following => .guard (.guard (.ite ?_ ?_))
  · exact functionStatement (hfunction.inScope _)
  · exact functionStatement hfunction

theorem forRest (ctx : Context) (start : Nat) (init : ForHead) :
    Echoes Statement.withoutRaw (forRest g ctx start init)
      (forRest g' ctx start init.withoutRaw) := by
  unfold Grammar.forRest
  refine .skip fun _ => .skip fun noTest => ?_
  extract_lets rest rest'
  have hrest : ∀ test, Echoes Statement.withoutRaw (rest test)
      (rest' (test.map Expression.withoutRaw)) := by
    intro test
    refine .skip fun _ => .skip fun noUpdate => ?_
    extract_lets last last'
    have hlast : ∀ update, Echoes Statement.withoutRaw (last update)
        (last' (update.map Expression.withoutRaw)) := by
      intro update
      refine .skip fun _ => (h.loopBody ctx).bind fun body => .skip fun span => .pure ?_
      simp [Statement.withoutRaw]
    refine .ite ?_ ((h.expression ctx.withIn).optional.bind hlast)
    exact Mirrors.bind (k := Option.map Expression.withoutRaw) (.pure rfl) hlast
  refine .ite ?_ ((h.expression ctx.withIn).optional.bind hrest)
  exact Mirrors.bind (k := Option.map Expression.withoutRaw) (.pure rfl) hrest

theorem forEach (ctx : Context) (start : Nat) (left : ForHead) (isOf isAwait : Bool) :
    Echoes Statement.withoutRaw (forEach g ctx start left isOf isAwait)
      (forEach g' ctx start left.withoutRaw isOf isAwait) := by
  unfold Grammar.forEach
  refine .skip fun _ => ?_
  extract_lets rest rest'
  have hrest : ∀ right, Echoes Statement.withoutRaw (rest right) (rest' right.withoutRaw) := by
    intro right
    refine .skip fun _ => (h.loopBody ctx).bind fun body => .skip fun span => .pure ?_
    cases isOf <;> rfl
  exact .ite ((h.assignment ctx.withIn).bind hrest) ((h.expression ctx.withIn).bind hrest)

theorem checkForDeclarators_eq (ctx : Context) (start : Nat) (kind : VariableKind) (isOf : Bool)
    (declarations : List VariableDeclarator) :
    checkForDeclarators g' ctx start kind isOf declarations =
      checkForDeclarators g ctx start kind isOf declarations := by
  unfold checkForDeclarators
  rw [h.options]
  rfl

theorem forVariables (ctx : Context) (start : Nat) (isAwait : Bool) (kind : VariableKind) :
    Echoes Statement.withoutRaw (forVariables g ctx start isAwait kind)
      (forVariables g' ctx start isAwait kind) := by
  unfold Grammar.forVariables
  refine .skip fun initStart => .skip fun _ => ?_
  refine (h.variableDeclarators _ kind true).bind fun found => .skip fun span => ?_
  have hhead : ForHead.variables span kind (found.map VariableDeclarator.withoutRaw) =
      (ForHead.variables span kind found).withoutRaw := by
    simp [ForHead.withoutRaw]
  have hchecks : (found.map VariableDeclarator.withoutRaw).forM (checkInitializer kind) =
      found.forM (checkInitializer kind) := by
    simp [List.forM_map]
  dsimp only
  rw [hhead]
  refine .skip fun isOf => .skip fun _ => ?_
  split
  · rw [h.checkForDeclarators_eq, checkForDeclarators_withoutRaw]
    exact .skip fun _ => h.forEach ctx start _ _ isAwait
  · rw [hchecks]
    exact .skip fun _ => h.forRest ctx start _

theorem forExpression (ctx : Context) (start : Nat) (isAwait : Bool) :
    Echoes Statement.withoutRaw (forExpression g ctx start isAwait)
      (forExpression g' ctx start isAwait) := by
  unfold Grammar.forExpression
  refine .skip fun initStart => .skip fun startsWithLet => ?_
  refine (h.assignmentCover _).bind fun e => .skip fun isOf => .skip fun _ => ?_
  rw [checkCover_withoutRaw, isBareAsync_withoutRaw, isParenthesized_withoutRaw]
  split
  · refine .guard (.skip fun inParens => .guard ?_)
    refine (h.patternTarget ctx e _).bind fun target => ?_
    exact h.forEach ctx start (.pattern target) _ isAwait
  · refine .skip fun _ => (h.sequenceAfter _ initStart e).bind fun init => ?_
    exact h.forRest ctx start (.expression init)

theorem forHead (ctx : Context) (start : Nat) (isAwait : Bool) :
    Echoes Statement.withoutRaw (forHead g ctx start isAwait) (forHead g' ctx start isAwait) := by
  unfold Grammar.forHead
  refine .skip fun noInit => .ite (.skip fun _ => h.forRest ctx start .nothing) ?_
  refine .skip fun kind => ?_
  split
  · exact h.forVariables ctx start isAwait _
  · exact h.forExpression ctx start isAwait

theorem forStatement (ctx : Context) (start : Nat) :
    Echoes Statement.withoutRaw (forStatement g ctx start) (forStatement g' ctx start) := by
  unfold Grammar.forStatement
  refine .skip fun _ => .skip fun isAwait => ?_
  extract_lets rest awaited rest' awaited'
  have hrest : ∀ u, Echoes Statement.withoutRaw (rest u) (rest' u) := fun u =>
    .skip fun _ => (h.forHead ctx start isAwait).inScope _
  refine .ite (.guard (.skip fun offset => ?_)) (hrest ())
  exact .change (fun _ => rfl) fun _ => .skip hrest

end Phrases.Quieted

end EcmaSyntax.Grammar
