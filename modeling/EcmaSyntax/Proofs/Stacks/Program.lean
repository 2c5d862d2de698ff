import EcmaSyntax.Proofs.Stacks.Phrases
import EcmaSyntax.Unicode.IdentifierRanges

/-!
Statements close what they open. A label is opened by one step and closed by another, with the
statement that it names between them; that it was marked by then changes no name. Blocks, cases,
heads of loops and handlers have a scope each.

Imports, exports and whole programs close what they open, and with them every phrase of the grammar.
So the parts of the state that are opened and closed by hand are after a phrase what they were
before it, and at the end of a program nothing is open but its own scope.
-/

set_option synthInstance.maxSize 4000

namespace EcmaSyntax.Grammar

open EcmaSyntax.Diagnostic EcmaSyntax.Scope EcmaSyntax.Tree

section

variable {version : Nat} [Unicode.IdentifierChars version]

section Phrases

variable {g : Phrases} [g.Close] {ctx : Context} {start : Nat}

section Parts

instance {role : Role} : Closes (block g ctx role) := by unfold block; infer_instance

instance {kind : VariableKind} : Closes (variableDeclarator g ctx kind) := by
  unfold variableDeclarator; infer_instance

instance {kind : VariableKind} {inHead : Bool} :
    Closes (variableDeclarators g ctx kind inHead) := by
  unfold variableDeclarators; infer_instance

instance {kind : VariableKind} : Closes (variableStatement g ctx kind) := by
  unfold variableStatement; infer_instance

instance : Closes (parenExpression g ctx) := by unfold parenExpression; infer_instance

instance : Closes (loopBody g ctx) := by unfold loopBody; infer_instance

end Parts

section Simple

instance : Closes (ifStatement g ctx start) := by unfold ifStatement; infer_instance

instance : Closes (whileStatement g ctx start) := by unfold whileStatement; infer_instance

instance : Closes (doWhileStatement g ctx start) := by unfold doWhileStatement; infer_instance

omit [g.Close] in
instance {isContinue : Bool} : Closes (jump ctx start isContinue) := by unfold jump; infer_instance

instance : Closes (returnStatement g ctx start) := by unfold returnStatement; infer_instance

instance : Closes (withStatement g ctx start) := by
  have hbody : ∀ object body, Closes (do
      match body with
      | .block _ (first :: _) => if isUseStrict first then failAt .strictWith start
      | _ => pure ()
      return Statement.withStatement (← spanFrom start) object body) := by
    intro object body
    split <;> infer_instance
  unfold withStatement; infer_instance

instance : Closes (throwStatement g ctx start) := by unfold throwStatement; infer_instance

end Simple

section Compound

instance {earlier : List SwitchCase} : Closes (caseTest g ctx earlier) := by
  unfold caseTest
  refine .skip fun token => ?_
  split <;> infer_instance

instance {earlier : List SwitchCase} : Closes (switchCase g ctx earlier) := by
  unfold switchCase; infer_instance

instance : Closes (switchStatement g ctx start) := by unfold switchStatement; infer_instance

instance : Closes (catchClause g ctx) := by
  have hclause : ∀ start bodySpan body (param : Option Pattern),
      Closes (show Parser CatchClause from
        match param with
        | none => do return .plain (← spanFrom start) bodySpan body
        | some param => do return .binding (← spanFrom start) param bodySpan body) := by
    intro start bodySpan body param
    split <;> infer_instance
  unfold catchClause; infer_instance

instance : Closes (tryStatement g ctx start) := by
  have hlast : ∀ span blockSpan body handler (finalizer : Option (Text.Span × List Statement)),
      Closes (show Parser Statement from
        match handler, finalizer with
        | none, none => fail .missingCatchOrFinally
        | some handler, none => return .tryCatch span blockSpan body handler
        | none, some (finalSpan, final) => return .tryFinally span blockSpan body finalSpan final
        | some handler, some (finalSpan, final) =>
          return .tryCatchFinally span blockSpan body handler finalSpan final) := by
    intro span blockSpan body handler finalizer
    split <;> infer_instance
  unfold tryStatement; infer_instance

instance {position : Position} : Closes (misplacedFunction g ctx position) := by
  unfold misplacedFunction; infer_instance

end Compound

section Labels

omit [g.Close] in
/-- A mark leaves the names of the labels as they are. -/
instance {first : Nat} :
    Closes (modify fun s => { s with labels := s.labels.markIteration first } : Parser Unit) := by
  refine ⟨fun s => .ok rfl ?_⟩
  change { s.levels with labels := (s.labels.markIteration first).map Label.name } = s.levels
  rw [Labels.names_markIteration]
  rfl

omit [g.Close] in
theorem names_push {labels opened : Labels} {name : String} (h : labels.push? name = some opened) :
    opened.map Label.name = labels.map Label.name ++ [name] := by
  unfold Labels.push? at h
  split at h
  · cases h
  · cases h
    exact List.map_append

omit [g.Close] in
/-- A label is the newest one after it was opened. -/
theorem openLabel_levels (name : String) (s : State) : Yields (openLabel name start)
    (fun _ s' => s'.levels = { s.levels with labels := s.levels.labels ++ [name] }) s := by
  unfold openLabel
  refine .run rfl (.run rfl ?_)
  split
  · exact (stops_failAt _ _).yields
  · rename_i labels hpush
    refine .run rfl ((Closes.yields _).mono fun _ s' hs' => hs'.trans ?_)
    change { s.levels with labels := labels.map Label.name } = _
    rw [names_push hpush]
    rfl

instance {position : Position} : Closes (labeledStatement g ctx start position) := by
  unfold labeledStatement
  refine .skip fun value => .skip fun _ => .skip fun label => .skip fun _ => ⟨fun s => ?_⟩
  refine (openLabel_levels label.name s).bind fun _ s₁ hs₁ => ?_
  refine (Closes.yields s₁).bind fun body s₂ hs₂ => .run rfl (.run rfl (.pure ?_))
  have hopen : s₂.labels.map Label.name = s.levels.labels ++ [label.name] :=
    congrArg Levels.labels (hs₂.trans hs₁)
  change { s₂.levels with labels := s₂.labels.pop.map Label.name } = s.levels
  rw [Labels.pop, List.map_dropLast, hopen, List.dropLast_concat, hs₂, hs₁]

end Labels

section Loops

instance {init : ForHead} : Closes (forRest g ctx start init) := by unfold forRest; infer_instance

instance {left : ForHead} {isOf isAwait : Bool} :
    Closes (forEach g ctx start left isOf isAwait) := by
  unfold forEach; infer_instance

instance {isAwait : Bool} {kind : VariableKind} :
    Closes (forVariables g ctx start isAwait kind) := by
  unfold forVariables
  refine .skip fun initStart => .skip fun _ => .skip fun declarations => .skip fun span => ?_
  refine .skip fun isOf => .skip fun _ => ?_
  split <;> infer_instance

instance {isAwait : Bool} : Closes (forExpression g ctx start isAwait) := by
  unfold forExpression
  refine .skip fun initStart => .skip fun startsWithLet => .skip fun e => ?_
  refine .skip fun isOf => .skip fun _ => ?_
  split <;> infer_instance

instance {isAwait : Bool} : Closes (forHead g ctx start isAwait) := by
  unfold forHead
  refine .skip fun atSemicolon => ?_
  split
  · infer_instance
  · refine .skip fun kind => ?_
    split <;> infer_instance

instance : Closes (forStatement g ctx start) := by unfold forStatement; infer_instance

end Loops

section Statements

instance {position : Position} : Closes (expressionOrLabeled g ctx start position) := by
  unfold expressionOrLabeled; infer_instance

instance {position : Position} : Closes (statementBody g ctx position) := by
  unfold statementBody
  refine .skip fun start => .skip fun token => .skip fun escaped => ?_
  extract_lets rest
  have hrest : ∀ u, Closes (rest u) := by
    intro u
    dsimp only [rest]
    split <;> infer_instance
  clear_value rest
  infer_instance

instance {position : Position} : Closes (statement g ctx position) := by
  unfold statement; infer_instance

end Statements

section Items

omit [g.Close] in
instance : Closes (exportAll g ctx start) := by unfold exportAll; infer_instance

instance {before : List Decorator} : Closes (exportDecorators g ctx before) := by
  unfold exportDecorators; infer_instance

instance {before : List Decorator} : Closes (exportDefault g ctx start before) := by
  unfold exportDefault
  refine .skip fun keywordStart => .skip fun _ => .skip fun found => .skip fun _ => ?_
  infer_instance

omit [g.Close] in
instance : Closes (exportNames g ctx start) := by unfold exportNames; infer_instance

instance {found : List Decorator} : Closes (exportedDeclaration g ctx found) := by
  unfold exportedDeclaration
  refine .skip fun start => .skip fun token => ?_
  split <;> infer_instance

instance {found : List Decorator} : Closes (exportDeclaration g ctx start found) := by
  unfold exportDeclaration; infer_instance

instance {before : List Decorator} : Closes (exportStatement g ctx start before) := by
  unfold exportStatement
  refine .skip fun _ => .skip fun found => .skip fun token => ?_
  extract_lets rest
  have hrest : ∀ u, Closes (rest u) := by
    intro u
    dsimp only [rest]
    split <;> infer_instance
  clear_value rest
  infer_instance

omit [g.Close] in
instance : Closes (importDeclaration g ctx) := by unfold importDeclaration; infer_instance

omit [g.Close] in
instance {word : String} {phrase : Parser Statement} [Closes phrase] :
    Closes (topLevelItem ctx word phrase) := by
  unfold topLevelItem; infer_instance

instance : Closes (decoratedItem g ctx start) := by
  unfold decoratedItem
  refine .skip fun found => .skip fun token => ?_
  split <;> infer_instance

instance : Closes (listItem g ctx) := by
  unfold listItem
  refine .skip fun start => .skip fun isFunction => ?_
  infer_instance

instance {length : Nat} : Closes (program g length) := by unfold program; infer_instance

end Items

end Phrases

instance phrases_close (options : Options) (size fuel : Nat) :
    (phrases options size fuel).Close := by
  induction fuel with
  | zero =>
    exact
      { assignmentCover := fun _ => .of_stops (stops_fail _)
        unary := fun _ => .of_stops (stops_fail _)
        binary := fun _ _ _ _ => .of_stops (stops_fail _)
        newCall := fun _ => .of_stops (stops_fail _)
        leftHandSide := fun _ => .of_stops (stops_fail _)
        markup := fun _ _ => .of_stops (stops_fail _)
        bindingTarget := fun _ _ => .of_stops (stops_fail _)
        statement := fun _ _ => .of_stops (stops_fail _)
        listItem := fun _ => .of_stops (stops_fail _) }
  | succ fuel ih =>
    exact
      { assignmentCover := fun ctx =>
          inferInstanceAs (Closes (assignmentCover (phrases options size fuel) ctx))
        unary := fun ctx => inferInstanceAs (Closes (unary (phrases options size fuel) ctx))
        binary := fun ctx start left minimum =>
          inferInstanceAs (Closes (binary (phrases options size fuel) ctx start left minimum))
        newCall := fun ctx => inferInstanceAs (Closes (newCall (phrases options size fuel) ctx))
        leftHandSide := fun ctx =>
          inferInstanceAs (Closes (leftHandSide (phrases options size fuel) ctx))
        markup := fun ctx exit =>
          inferInstanceAs (Closes (markup (phrases options size fuel) ctx exit))
        bindingTarget := fun ctx kind =>
          inferInstanceAs (Closes (bindingTarget (phrases options size fuel) ctx kind))
        statement := fun ctx position =>
          inferInstanceAs (Closes (statement (phrases options size fuel) ctx position))
        listItem := fun ctx =>
          inferInstanceAs (Closes (listItem (phrases options size fuel) ctx)) }

/-- The phrases of the grammar, whatever they are told and whatever stands before them. To open a
label is none of its own: the label is closed behind the statement that it names. -/
inductive IsPhrase (g : Phrases) : {α : Type} → Parser α → Prop
  -- Names and literals.
  | identifier : IsPhrase g identifier
  | bindingIdentifier (ctx kind) : IsPhrase g (bindingIdentifier g.options ctx kind)
  | privateName : IsPhrase g privateName
  | privateReference : IsPhrase g privateReference
  | literal (ctx) : IsPhrase g (literal g.options ctx)
  | regexLiteral : IsPhrase g (regexLiteral g.options)
  | templateElement (tagged isTail) : IsPhrase g (templateElement tagged isTail)
  | template (ctx tagged) : IsPhrase g (template g ctx tagged)
  | propertyKey (ctx allowPrivate) : IsPhrase g (propertyKey g ctx allowPrivate)
  | memberName : IsPhrase g memberName
  -- Binding patterns.
  | bindingElement (ctx kind) : IsPhrase g (bindingElement g ctx kind)
  | bindingRest (ctx kind close) : IsPhrase g (bindingRest g ctx kind close)
  | arrayBinding (ctx kind) : IsPhrase g (arrayBinding g ctx kind)
  | shorthandBinding (ctx kind start id) : IsPhrase g (shorthandBinding g ctx kind start id)
  | propertyBinding (ctx kind keys) : IsPhrase g (propertyBinding g ctx kind keys)
  | objectBinding (ctx kind) : IsPhrase g (objectBinding g ctx kind)
  | bindingTarget (ctx kind) : IsPhrase g (bindingTarget g ctx kind)
  -- Bodies and functions.
  | directive (ctx) : IsPhrase g (directive g ctx)
  | prologue (ctx simpleParams) : IsPhrase g (prologue g ctx simpleParams)
  | bodyStatements (ctx simpleParams close) : IsPhrase g (bodyStatements g ctx simpleParams close)
  | formalParameters (ctx) : IsPhrase g (formalParameters g ctx)
  | functionParts (ctx shape name) : IsPhrase g (functionParts g ctx shape name)
  | functionDeclaration (ctx isAsync nameRequired) :
    IsPhrase g (functionDeclaration g ctx isAsync nameRequired)
  | functionExpression (ctx start isAsync) : IsPhrase g (functionExpression g ctx start isAsync)
  | methodFunction (ctx isAsync generator shape) :
    IsPhrase g (methodFunction g ctx isAsync generator shape)
  | arrowBody (ctx inner simple) : IsPhrase g (arrowBody g ctx inner simple)
  | arrowFunction (ctx start params isAsync) : IsPhrase g (arrowFunction g ctx start params isAsync)
  -- Classes.
  | modifiers (isStatic) : IsPhrase g (modifiers isStatic)
  | staticBlock (ctx start) : IsPhrase g (staticBlock g ctx start)
  | decoratorExpression (ctx) : IsPhrase g (decoratorExpression g ctx)
  | decorators (ctx) : IsPhrase g (decorators g ctx)
  | classMethod (ctx derived earlier found start m key computed keyStart) :
    IsPhrase g (classMethod g ctx derived earlier found start m key computed keyStart)
  | classField (ctx found start m key computed keyStart) :
    IsPhrase g (classField g ctx found start m key computed keyStart)
  | classElement (ctx derived earlier) : IsPhrase g (classElement g ctx derived earlier)
  | classBody (ctx derived) : IsPhrase g (classBody g ctx derived)
  | classDefinition (ctx start isDeclaration found isDefaultExport) :
    IsPhrase g (classDefinition g ctx start isDeclaration found isDefaultExport)
  -- Markup.
  | markupIdentifier : IsPhrase g markupIdentifier
  | markupName : IsPhrase g (markupName g)
  | attributeValue (ctx) : IsPhrase g (attributeValue g ctx)
  | namedAttribute (ctx) : IsPhrase g (namedAttribute g ctx)
  | spreadAttribute (ctx) : IsPhrase g (spreadAttribute g ctx)
  | attributes (ctx) : IsPhrase g (attributes g ctx)
  | childExpression (ctx) : IsPhrase g (childExpression g ctx)
  | children (ctx) : IsPhrase g (children g ctx)
  | fragmentFrom (ctx exit start) : IsPhrase g (fragmentFrom g ctx exit start)
  | closingTag (name) : IsPhrase g (closingTag g name)
  | markupElement (ctx exit start) : IsPhrase g (markupElement g ctx exit start)
  | markup (ctx exit) : IsPhrase g (markup g ctx exit)
  | markupExpression (ctx) : IsPhrase g (markupExpression g ctx)
  -- Primary expressions.
  | elementFrom (start isSpread e) : IsPhrase g (elementFrom start isSpread e)
  | coveredArguments (ctx) : IsPhrase g (coveredArguments g ctx)
  | arguments (ctx) : IsPhrase g (arguments g ctx)
  | arrayLiteral (ctx) : IsPhrase g (arrayLiteral g ctx)
  | propertyHead : IsPhrase g propertyHead
  | shorthandProperty (ctx start keyStart id) :
    IsPhrase g (shorthandProperty g ctx start keyStart id)
  | objectProperty (ctx) : IsPhrase g (objectProperty g ctx)
  | objectMember (ctx) : IsPhrase g (objectMember g ctx)
  | objectLiteral (ctx) : IsPhrase g (objectLiteral g ctx)
  | groupItem (ctx) : IsPhrase g (groupItem g ctx)
  | groupArrow (ctx start items) : IsPhrase g (groupArrow g ctx start items)
  | groupValue (start close items) : IsPhrase g (groupValue g start close items)
  | parenGroup (ctx start canArrow) : IsPhrase g (parenGroup g ctx start canArrow)
  | asyncNameArrow (ctx start) : IsPhrase g (asyncNameArrow g ctx start)
  | asyncCallOrArrow (ctx start canArrow) : IsPhrase g (asyncCallOrArrow g ctx start canArrow)
  | plainName (ctx start canArrow) : IsPhrase g (plainName g ctx start canArrow)
  | namePrimary (ctx start canArrow) : IsPhrase g (namePrimary g ctx start canArrow)
  | otherPrimary (ctx start canArrow) : IsPhrase g (otherPrimary g ctx start canArrow)
  | primary (ctx) : IsPhrase g (primary g ctx)
  -- Members and calls.
  | computedProperty (ctx) : IsPhrase g (computedProperty g ctx)
  | optionalLink (ctx start object) : IsPhrase g (optionalLink g ctx start object)
  | chainLink (ctx start allowCalls chain) : IsPhrase g (chainLink g ctx start allowCalls chain)
  | callTail (ctx start e allowCalls) : IsPhrase g (callTail g ctx start e allowCalls)
  | superExpression (ctx allowCall) : IsPhrase g (superExpression ctx allowCall)
  | importCall (ctx start) : IsPhrase g (importCall g ctx start)
  | importExpression (ctx) : IsPhrase g (importExpression g ctx)
  | newCallee (ctx) : IsPhrase g (newCallee g ctx)
  | newCall (ctx) : IsPhrase g (newCall g ctx)
  | leftHandSide (ctx) : IsPhrase g (leftHandSide g ctx)
  -- Operators.
  | unaryOperation (ctx start token) : IsPhrase g (unaryOperation g ctx start token)
  | updateBefore (ctx start token) : IsPhrase g (updateBefore g ctx start token)
  | awaitOperation (ctx start) : IsPhrase g (awaitOperation g ctx start)
  | updateAfter (ctx) : IsPhrase g (updateAfter g ctx)
  | unary (ctx) : IsPhrase g (unary g ctx)
  | binaryLink (ctx start minimum left) : IsPhrase g (binaryLink g ctx start minimum left)
  | binary (ctx start left minimum) : IsPhrase g (binary g ctx start left minimum)
  | binaryExpression (ctx) : IsPhrase g (binaryExpression g ctx)
  | conditional (ctx) : IsPhrase g (conditional g ctx)
  | yieldExpression (ctx) : IsPhrase g (yieldExpression g ctx)
  | simpleTarget (ctx left cause) : IsPhrase g (simpleTarget ctx left cause)
  | patternTarget (ctx left cause) : IsPhrase g (patternTarget g ctx left cause)
  | assignmentTarget (ctx token left) : IsPhrase g (assignmentTarget g ctx token left)
  | assignmentCover (ctx) : IsPhrase g (assignmentCover g ctx)
  | assignment (ctx) : IsPhrase g (g.assignment ctx)
  | covered (ctx) : IsPhrase g (g.covered ctx)
  | sequenceAfter (ctx start first) : IsPhrase g (g.sequenceAfter ctx start first)
  | expression (ctx) : IsPhrase g (g.expression ctx)
  -- Statements.
  | block (ctx role) : IsPhrase g (block g ctx role)
  | variableDeclarator (ctx kind) : IsPhrase g (variableDeclarator g ctx kind)
  | variableDeclarators (ctx kind inHead) : IsPhrase g (variableDeclarators g ctx kind inHead)
  | variableStatement (ctx kind) : IsPhrase g (variableStatement g ctx kind)
  | parenExpression (ctx) : IsPhrase g (parenExpression g ctx)
  | ifStatement (ctx start) : IsPhrase g (ifStatement g ctx start)
  | loopBody (ctx) : IsPhrase g (loopBody g ctx)
  | whileStatement (ctx start) : IsPhrase g (whileStatement g ctx start)
  | doWhileStatement (ctx start) : IsPhrase g (doWhileStatement g ctx start)
  | jumpLabel (isContinue) : IsPhrase g (jumpLabel isContinue)
  | jump (ctx start isContinue) : IsPhrase g (jump ctx start isContinue)
  | returnStatement (ctx start) : IsPhrase g (returnStatement g ctx start)
  | withStatement (ctx start) : IsPhrase g (withStatement g ctx start)
  | caseTest (ctx earlier) : IsPhrase g (caseTest g ctx earlier)
  | switchCase (ctx earlier) : IsPhrase g (switchCase g ctx earlier)
  | switchStatement (ctx start) : IsPhrase g (switchStatement g ctx start)
  | throwStatement (ctx start) : IsPhrase g (throwStatement g ctx start)
  | catchClause (ctx) : IsPhrase g (catchClause g ctx)
  | tryStatement (ctx start) : IsPhrase g (tryStatement g ctx start)
  | labeledStatement (ctx start position) : IsPhrase g (labeledStatement g ctx start position)
  | expressionOrLabeled (ctx start position) : IsPhrase g (expressionOrLabeled g ctx start position)
  | misplacedFunction (ctx position) : IsPhrase g (misplacedFunction g ctx position)
  | forRest (ctx start init) : IsPhrase g (forRest g ctx start init)
  | forEach (ctx start left isOf isAwait) : IsPhrase g (forEach g ctx start left isOf isAwait)
  | forVariables (ctx start isAwait kind) : IsPhrase g (forVariables g ctx start isAwait kind)
  | forExpression (ctx start isAwait) : IsPhrase g (forExpression g ctx start isAwait)
  | forHead (ctx start isAwait) : IsPhrase g (forHead g ctx start isAwait)
  | forStatement (ctx start) : IsPhrase g (forStatement g ctx start)
  | statementBody (ctx position) : IsPhrase g (statementBody g ctx position)
  | statement (ctx position) : IsPhrase g (statement g ctx position)
  | decoratedItem (ctx start) : IsPhrase g (decoratedItem g ctx start)
  | listItem (ctx) : IsPhrase g (listItem g ctx)
  -- Imports, exports and programs.
  | moduleName (ctx) : IsPhrase g (moduleName g ctx)
  | expectString (ctx) : IsPhrase g (expectString g ctx)
  | attributeKey (ctx) : IsPhrase g (attributeKey g ctx)
  | importAttribute (ctx earlier) : IsPhrase g (importAttribute g ctx earlier)
  | importAttributes (ctx) : IsPhrase g (importAttributes g ctx)
  | moduleSource (ctx) : IsPhrase g (moduleSource g ctx)
  | fromClause (ctx) : IsPhrase g (fromClause g ctx)
  | importBinding (ctx) : IsPhrase g (importBinding g ctx)
  | importSpecifier (ctx) : IsPhrase g (importSpecifier g ctx)
  | importAll (ctx) : IsPhrase g (importAll g ctx)
  | importSpecifiers (ctx) : IsPhrase g (importSpecifiers g ctx)
  | importClause (ctx) : IsPhrase g (importClause g ctx)
  | importDeclaration (ctx) : IsPhrase g (importDeclaration g ctx)
  | exportAll (ctx start) : IsPhrase g (exportAll g ctx start)
  | exportDecorators (ctx before) : IsPhrase g (exportDecorators g ctx before)
  | exportDefault (ctx start before) : IsPhrase g (exportDefault g ctx start before)
  | exportEntry (ctx) : IsPhrase g (exportEntry g ctx)
  | exportNames (ctx start) : IsPhrase g (exportNames g ctx start)
  | exportedDeclaration (ctx found) : IsPhrase g (exportedDeclaration g ctx found)
  | exportDeclaration (ctx start found) : IsPhrase g (exportDeclaration g ctx start found)
  | exportStatement (ctx start before) : IsPhrase g (exportStatement g ctx start before)
  | program (length) : IsPhrase g (program g length)

theorem IsPhrase.closes {g : Phrases} [g.Close] {α : Type} {step : Parser α}
    (h : IsPhrase g step) : Closes step := by
  cases h <;> infer_instance

theorem IsPhrase.levels {g : Phrases} [g.Close] {α : Type} {step : Parser α}
    (h : IsPhrase g step) {s s' : State} {a : α} (hrun : step s = .ok a s') :
    s'.levels = s.levels :=
  (h.closes.yields s).result hrun

/-- A phrase that is read leaves the scopes, the names of the labels, the classes and the nesting
as they were, whatever they were, and a program ends in its own scope with nothing else open. -/
theorem phrases_restore_levels :
    (∀ (options : Options) (size fuel : Nat) {α : Type} {step : Parser α},
      IsPhrase (phrases options size fuel) step →
      ∀ (s s' : State) (a : α), step s = .ok a s' → s'.levels = s.levels) ∧
    ∀ (options : Options) (observing : Bool) (text : List Char) (p : Program) (s : State),
      run options observing text = .ok p s →
      s.levels = { scopes := [[.topLevel]], labels := [], classes := 0, depth := 0 } :=
  ⟨fun _ _ _ _ _ hstep _ _ _ hrun => hstep.levels hrun,
    fun _ _ _ _ _ hrun => (IsPhrase.program _).levels hrun⟩

/-- The state that a step ends in, if it has a result. -/
def finalState? {α : Type} : EStateM.Result Failure State α → Option State
  | .ok _ s => some s
  | .error _ _ => none

theorem exists_ok_of_finalState {α : Type} {found : EStateM.Result Failure State α} {s : State}
    (h : finalState? found = some s) : ∃ a, found = .ok a s := by
  cases found with
  | ok a s' =>
    cases h
    exact ⟨a, rfl⟩
  | error failure s' => cases h

/-- A class with a static block in a loop behind a label. -/
def classInLoop : String :=
  "a: for (let i of b) try { class C { #p; static { c: do break c; while (1) } } } catch { }"

end

/-- The loop as it is read in a function behind another label, and as a program. -/
theorem phrases_restore_levels_nested :
    (∃ s x s', s.levels = ⟨[[.functionBody], [.topLevel]], ["d"], 1, 3⟩ ∧
      statement (phrases .script 91 91) .none .listItem s = .ok x s' ∧ s'.levels = s.levels) ∧
    ∃ p s, run .script false classInLoop.toList = .ok p s ∧
      s.levels = ⟨[[.topLevel]], [], 0, 0⟩ := by
  obtain ⟨hlevels, hprogram⟩ := phrases_restore_levels
  constructor
  · have hok : (finalState? (next { State.initial .script false classInLoop.toList with
          scopes := Stack.initial.push [.functionBody]
          labels := [⟨"d", false⟩]
          privateNames := [ClassNames.empty]
          depth := 3 })).any (fun s =>
        s.levels = ⟨[[.functionBody], [.topLevel]], ["d"], 1, 3⟩ &&
          (finalState? (statement (phrases .script 91 91) .none .listItem s)).isSome) = true := by
      decide +kernel
    obtain ⟨s, -, hs⟩ := (Option.any_eq_true _ _).mp hok
    obtain ⟨hopen, hread⟩ := Bool.and_eq_true_iff.mp hs
    obtain ⟨s', hs'⟩ := Option.isSome_iff_exists.mp hread
    obtain ⟨x, hrun⟩ := exists_ok_of_finalState hs'
    exact ⟨s, x, s', of_decide_eq_true hopen, hrun,
      hlevels .script 91 91 (.statement .none .listItem) s s' x hrun⟩
  · have hok : (finalState? (run .script false classInLoop.toList)).isSome = true := by
      decide +kernel
    obtain ⟨s, hs⟩ := Option.isSome_iff_exists.mp hok
    obtain ⟨p, hrun⟩ := exists_ok_of_finalState hs
    exact ⟨p, s, hrun, hprogram .script false _ p s hrun⟩

end EcmaSyntax.Grammar
