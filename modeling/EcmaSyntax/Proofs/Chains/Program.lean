import EcmaSyntax.Proofs.Chains.Expressions
import EcmaSyntax.Proofs.Cover.Program
import EcmaSyntax.Unicode.IdentifierRanges

/-!
Optional chains in a program. Statements may stand anywhere, except for imports and exports, which
are read only at the top level of a module. So each optional member or call has one chain around it,
to which links lead up from it.
-/

set_option synthInstance.maxSize 4000

namespace EcmaSyntax.Grammar

open EcmaSyntax.Diagnostic EcmaSyntax.Scope EcmaSyntax.Tree EcmaSyntax.Tree.Node

variable {keepsParens : Bool} {g : Phrases} [hg : g.Chains keepsParens] {ctx : Context}
  {start : Nat}

section

variable {version : Nat} [Unicode.IdentifierChars version]

section Parts

instance {role : Role} : Makes (Proper keepsParens) (block g ctx role) := by
  unfold block
  infer_instance

instance {kind : VariableKind} : Makes (Proper keepsParens) (variableDeclarator g ctx kind) := by
  unfold variableDeclarator
  infer_instance

instance {kind : VariableKind} {inHead : Bool} :
    Makes (Proper keepsParens) (variableDeclarators g ctx kind inHead) := by
  unfold variableDeclarators
  infer_instance

instance {kind : VariableKind} : Makes (Proper keepsParens) (variableStatement g ctx kind) := by
  unfold variableStatement
  infer_instance

instance : Makes (Proper keepsParens) (parenExpression g ctx) := by
  unfold parenExpression
  infer_instance

instance : Makes (Proper keepsParens) (loopBody g ctx) := by
  unfold loopBody
  infer_instance

end Parts

section Simple

instance : Makes (Proper keepsParens) (ifStatement g ctx start) := by
  unfold ifStatement
  infer_instance

instance : Makes (Proper keepsParens) (whileStatement g ctx start) := by
  unfold whileStatement
  infer_instance

instance : Makes (Proper keepsParens) (doWhileStatement g ctx start) := by
  unfold doWhileStatement
  infer_instance

omit hg in
instance {isContinue : Bool} : Makes (Proper keepsParens) (jump ctx start isContinue) := by
  unfold jump
  infer_instance

instance : Makes (Proper keepsParens) (returnStatement g ctx start) := by
  unfold returnStatement
  infer_instance

instance : Makes (Proper keepsParens) (withStatement g ctx start) := by
  unfold withStatement
  extract_lets rest
  have hrest : ∀ u, Makes (Proper keepsParens) (rest u) := by
    refine fun u => .skip fun _ => Makes.bind
      (P := Proper keepsParens) inferInstance fun object _ => ?_
    refine Makes.bind (P := Proper keepsParens) inferInstance fun body hbody => ?_
    extract_lets last
    have hlast : ∀ u, Makes (Proper keepsParens) (last u) := fun u => inferInstance
    clear_value last
    split <;> infer_instance
  clear_value rest
  infer_instance

instance : Makes (Proper keepsParens) (throwStatement g ctx start) := by
  unfold throwStatement
  infer_instance

end Simple

section Compound

instance {earlier : List SwitchCase} : Makes (Proper keepsParens) (caseTest g ctx earlier) := by
  unfold caseTest
  refine .skip fun token => ?_
  split <;> infer_instance

instance {earlier : List SwitchCase} : Makes (Proper keepsParens) (switchCase g ctx earlier) := by
  unfold switchCase
  infer_instance

instance : Makes (Proper keepsParens) (switchStatement g ctx start) := by
  unfold switchStatement
  infer_instance

instance : Makes (Proper keepsParens) (catchClause g ctx) := by
  unfold catchClause
  have hparam : ∀ start (bodySpan : Text.Span) (body : {body // AllIn (Proper keepsParens) body})
      (param : {param // AllIn (Proper keepsParens) param}), Makes (Proper keepsParens) (
        match param.1 with
        | none => do return CatchClause.plain (← spanFrom start) bodySpan body.1
        | some param => do return .binding (← spanFrom start) param bodySpan body.1) := by
    rintro start bodySpan body ⟨_ | param, hparam⟩
    · infer_instance
    · have := hparam.of_some
      infer_instance
  infer_instance

instance : Makes (Proper keepsParens) (tryStatement g ctx start) := by
  have hlast : ∀ span blockSpan (body : {body // AllIn (Proper keepsParens) body})
      (handler : {handler // AllIn (Proper keepsParens) handler})
      (finalizer : {finalizer // AllIn (Proper keepsParens) finalizer}),
      Makes (Proper keepsParens) (show Parser Statement from
        match handler.1, finalizer.1 with
        | none, none => fail .missingCatchOrFinally
        | some handler, none => return .tryCatch span blockSpan body.1 handler
        | none, some (finalSpan, final) =>
          return .tryFinally span blockSpan body.1 finalSpan final
        | some handler, some (finalSpan, final) =>
          return .tryCatchFinally span blockSpan body.1 handler finalSpan final) := by
    rintro span blockSpan body ⟨_ | handler, hhandler⟩ ⟨_ | ⟨finalSpan, final⟩, hfinal⟩
    · infer_instance
    · have : AllIn (Proper keepsParens) final := ⟨hfinal.of_some.all.2⟩
      infer_instance
    · have := hhandler.of_some
      infer_instance
    · have := hhandler.of_some
      have : AllIn (Proper keepsParens) final := ⟨hfinal.of_some.all.2⟩
      infer_instance
  unfold tryStatement
  infer_instance

instance {position : Position} :
    Makes (Proper keepsParens) (labeledStatement g ctx start position) := by
  unfold labeledStatement
  infer_instance

instance {position : Position} :
    Makes (Proper keepsParens) (expressionOrLabeled g ctx start position) := by
  unfold expressionOrLabeled
  infer_instance

instance {position : Position} : Makes (Proper keepsParens) (misplacedFunction g ctx position) := by
  unfold misplacedFunction
  infer_instance

end Compound

section Loops

instance {init : ForHead} [AllIn (Proper keepsParens) init] :
    Makes (Proper keepsParens) (forRest g ctx start init) := by
  unfold forRest
  infer_instance

instance {left : ForHead} {isOf isAwait : Bool} [AllIn (Proper keepsParens) left] :
    Makes (Proper keepsParens) (forEach g ctx start left isOf isAwait) := by
  unfold forEach
  infer_instance

instance {isAwait : Bool} {kind : VariableKind} :
    Makes (Proper keepsParens) (forVariables g ctx start isAwait kind) := by
  unfold forVariables
  refine .skip fun initStart => .skip fun _ => ?_
  refine Makes.bind (P := Proper keepsParens) inferInstance fun declarations hdeclarations => ?_
  refine .skip fun span => .skip fun isOf => .skip fun _ => ?_
  split <;> infer_instance

instance {isAwait : Bool} : Makes (Proper keepsParens) (forExpression g ctx start isAwait) := by
  unfold forExpression
  refine .skip fun initStart => .skip fun startsWithLet => ?_
  refine Makes.bind (P := Proper keepsParens) inferInstance fun e he => ?_
  refine .skip fun isOf => .skip fun _ => ?_
  split <;> infer_instance

instance {isAwait : Bool} : Makes (Proper keepsParens) (forHead g ctx start isAwait) := by
  unfold forHead
  refine .skip fun atSemicolon => ?_
  split
  · infer_instance
  · refine .skip fun kind => ?_
    split <;> infer_instance

instance : Makes (Proper keepsParens) (forStatement g ctx start) := by
  unfold forStatement
  infer_instance

end Loops

section Statements

instance {position : Position} : Makes (Proper keepsParens) (statementBody g ctx position) := by
  unfold statementBody
  refine .skip fun start => .skip fun token => .skip fun escaped => ?_
  extract_lets rest
  have hrest : ∀ u, Makes (Proper keepsParens) (rest u) := by
    intro u
    dsimp only [rest]
    split <;> infer_instance
  clear_value rest
  infer_instance

instance {position : Position} : Makes (Proper keepsParens) (statement g ctx position) := by
  unfold statement
  infer_instance

end Statements

section Modules

omit hg in
/-- At the top level of a module any statement may stand. -/
theorem listed_statement {x : Statement}
    (hc : ∀ c ∈ (Node.statement x).children, c.Proper keepsParens) :
    (Node.statement x).Listed keepsParens true :=
  ⟨.node ⟨fun c hn => (hc c hn).free, trivial⟩ fun c hn => (hc c hn).every, nofun⟩

omit hg in
instance {x : Statement} [hc : AllIn (Proper keepsParens) (Node.statement x).children] :
    AllIn (Listed keepsParens true) x := ⟨listed_statement hc.all⟩

omit hg in
instance (priority := low) {topLevel : Bool} {step : Parser Statement}
    [h : Makes (Proper keepsParens) step] : Makes (Listed keepsParens topLevel) step :=
  ⟨h.makes.mono fun _ hx => ⟨⟨hx.all.every, fun _ => hx.all.free⟩⟩⟩

omit hg in
instance : Makes (Listed keepsParens true) (importDeclaration g ctx) := by
  unfold importDeclaration
  infer_instance

omit hg in
instance : Makes (Listed keepsParens true) (exportAll g ctx start) := by
  unfold exportAll
  infer_instance

instance {before : List Decorator} [AllIn (Proper keepsParens) before] :
    Makes (Proper keepsParens) (exportDecorators g ctx before) := by
  unfold exportDecorators
  infer_instance

instance {before : List Decorator} [AllIn (Proper keepsParens) before] :
    Makes (Listed keepsParens true) (exportDefault g ctx start before) := by
  unfold exportDefault
  infer_instance

omit hg in
instance : Makes (Listed keepsParens true) (exportNames g ctx start) := by
  unfold exportNames
  infer_instance

instance : Makes (Listed keepsParens true) (g.listItem ctx) :=
  ⟨(hg.listItem ctx).makes.mono fun _ hx => ⟨⟨hx.all.every, nofun⟩⟩⟩

instance {decorators : List Decorator} [AllIn (Proper keepsParens) decorators] :
    Makes (Listed keepsParens true) (exportedDeclaration g ctx decorators) := by
  unfold exportedDeclaration
  refine .skip fun start => .skip fun token => ?_
  split <;> infer_instance

/-- A declaration that is exported is no import or export itself. -/
instance {decorators : List Decorator} [AllIn (Proper keepsParens) decorators] :
    Makes (Listed keepsParens true) (exportDeclaration g ctx start decorators) := by
  unfold exportDeclaration
  refine .skip fun declarationStart => ?_
  refine Makes.bind (P := Listed keepsParens true) inferInstance fun declaration hlisted => ?_
  extract_lets rest
  split
  · exact .stop fun s => (stops_failAt _ _).bind
  · rename_i hdeclaration
    have hfree : declaration.isModuleItem = false := by
      cases declaration <;> first | rfl | exact absurd rfl hdeclaration
    have hproper : AllIn (Proper keepsParens) declaration := ⟨⟨hlisted.all.every, hfree⟩⟩
    infer_instance

instance {before : List Decorator} [AllIn (Proper keepsParens) before] :
    Makes (Listed keepsParens true) (exportStatement g ctx start before) := by
  unfold exportStatement
  refine .skip fun _ => Makes.bind (P := Proper keepsParens) inferInstance fun found hfound => ?_
  refine .skip fun token => ?_
  extract_lets rest
  have hrest : ∀ u, Makes (Listed keepsParens true) (rest u) := by
    intro u
    dsimp only [rest]
    split <;> infer_instance
  clear_value rest
  infer_instance

omit hg in
instance {word : String} {phrase : Parser Statement} [h : Makes (Listed keepsParens true) phrase] :
    Makes (Listed keepsParens ctx.topLevel) (topLevelItem ctx word phrase) := by
  unfold topLevelItem
  extract_lets rest
  split
  · exact .stop fun s => (stops_fail _).bind
  · rename_i htop
    obtain htop : ctx.topLevel = true := by simpa using htop
    rw [htop]
    exact h

instance : Makes (Listed keepsParens ctx.topLevel) (decoratedItem g ctx start) := by
  unfold decoratedItem
  refine Makes.bind (P := Proper keepsParens) inferInstance fun found hfound => ?_
  refine .skip fun token => ?_
  split
  · infer_instance
  · split
    · rename_i htop
      rw [htop]
      infer_instance
    · infer_instance
  · infer_instance

instance : Makes (Listed keepsParens ctx.topLevel) (listItem g ctx) := by
  unfold listItem
  infer_instance

end Modules

theorem phrases_chains (options : Options) (size fuel : Nat) :
    (phrases options size fuel).Chains options.preserveParens := by
  induction fuel with
  | zero =>
    exact
      { preserveParens := rfl
        assignmentCover := fun _ => .stop (stops_fail _)
        unary := fun _ => .stop (stops_fail _)
        binary := fun _ _ _ _ _ => .stop (stops_fail _)
        newCall := fun _ => .stop (stops_fail _)
        leftHandSide := fun _ => .stop (stops_fail _)
        markup := fun _ _ => .stop (stops_fail _)
        bindingTarget := fun _ _ => .stop (stops_fail _)
        statement := fun _ _ => .stop (stops_fail _)
        listItem := fun _ => .stop (stops_fail _) }
  | succ fuel ih =>
    exact
      { preserveParens := rfl
        assignmentCover := fun ctx =>
          inferInstanceAs (Makes _ (assignmentCover (phrases options size fuel) ctx))
        unary := fun ctx => inferInstanceAs (Makes _ (unary (phrases options size fuel) ctx))
        binary := fun ctx start left minimum _ =>
          inferInstanceAs (Makes _ (binary (phrases options size fuel) ctx start left minimum))
        newCall := fun ctx => inferInstanceAs (Makes _ (newCall (phrases options size fuel) ctx))
        leftHandSide := fun ctx =>
          inferInstanceAs (Makes _ (leftHandSide (phrases options size fuel) ctx))
        markup := fun ctx exit =>
          inferInstanceAs (Makes _ (markup (phrases options size fuel) ctx exit))
        bindingTarget := fun ctx kind =>
          inferInstanceAs (Makes _ (bindingTarget (phrases options size fuel) ctx kind))
        statement := fun ctx position =>
          inferInstanceAs (Makes _ (statement (phrases options size fuel) ctx position))
        listItem := fun ctx =>
          inferInstanceAs (Makes _ (listItem (phrases options size fuel) ctx)) }

theorem listed_program (length : Nat) (s : State) : Yields (program g length)
    (fun p _ => ∀ x ∈ p.body, (Node.statement x).Listed keepsParens g.options.module) s := by
  unfold program
  refine .skip fun _ s => (makes_bodyStatements.yields s).bind fun found s hfound => ?_
  exact .skip fun _ s => .pure hfound.all.1

theorem parse_listed {options : Options} {text : String} {p : Program}
    (h : parse options text = .ok p) :
    ∀ x ∈ p.body, (Node.statement x).Listed options.preserveParens options.module := by
  unfold parse run at h
  split at h
  · rename_i q s hok
    cases h
    have hg := phrases_chains options (text.toList.length + 2) (8 * (text.toList.length + 2))
    exact (listed_program _ _).result hok
  · cases h

/-- Optional chains in the tree of a program have one boundary each. -/
theorem parse_chainsFit {options : Options} {text : String} {p : Program}
    (h : parse options text = .ok p) : p.ChainsFit options.preserveParens :=
  p.chainsFit fun x hx => (parse_listed h x hx).every

end

/-- Chains in parentheses that are kept, next to one in brackets and a target. -/
theorem parse_chainsFit_nested :
    ∃ p, parse { Options.script with preserveParens := true }
        "(a?.b).c?.[d?.(e).f]; [(g?.h).i] = new (j?.k)(l++)" = .ok p ∧ p.ChainsFit true := by
  obtain ⟨p, hp⟩ := exists_ok_of_isOk { Options.script with preserveParens := true }
    "(a?.b).c?.[d?.(e).f]; [(g?.h).i] = new (j?.k)(l++)" (by decide +kernel)
  exact ⟨p, hp, parse_chainsFit hp⟩

end EcmaSyntax.Grammar
