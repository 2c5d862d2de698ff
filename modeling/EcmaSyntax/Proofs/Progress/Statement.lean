import EcmaSyntax.Proofs.Places.Operation
import EcmaSyntax.Proofs.Progress.Primary
import EcmaSyntax.Grammar.Statement

/-!
Operands, operators and statements get on. Every link of a chain and every binary operator takes a
token; an operand takes one before any phrase inside it is read. Most statements are known by their
first token; the others start with an expression or with a label. Names are exported only where
that is allowed.
-/

set_option synthInstance.maxSize 1000

namespace EcmaSyntax.Grammar

open EcmaSyntax.Diagnostic EcmaSyntax.Lexer EcmaSyntax.Scope EcmaSyntax.Tree

variable {version : Nat} [Unicode.IdentifierChars version]

variable {c : Course} {more : Nat} {s : State} {g : Phrases} [hg : g.Progresses c]
  {ctx : Context} {start : Nat}

section Chains

instance : Takes c (computedProperty g ctx) := by
  unfold computedProperty; infer_instance

instance {object : Expression} : Takes c (optionalLink g ctx start object) := by
  unfold optionalLink
  refine .later fun token => ?_
  split
  · infer_instance
  · infer_instance
  · exact ⟨fun s => .failed tells_fail⟩
  · exact ⟨fun s => .failed tells_fail⟩
  · infer_instance

theorem passes_chainLink {allowCalls : Bool} {chain : Chain} :
    Passes c 2 (·.isSome = true) (chainLink g ctx start allowCalls chain) s := by
  unfold chainLink
  refine .look rfl ?_
  split
  · exact Takes.always
  · exact Takes.always
  · split
    · exact Takes.always
    · exact .pure fun h => absurd h Bool.false_ne_true
  · exact .guard tells_fail fun _ => Takes.always
  · exact .guard tells_fail fun _ => Takes.always
  · exact .guard tells_fail fun _ => Takes.always
  · exact .pure fun h => absurd h Bool.false_ne_true

instance {e : Expression} {allowCalls : Bool} : Proceeds c (callTail g ctx start e allowCalls) := by
  have hchain : Proceeds c (iterate (chainLink g ctx start allowCalls) g.size ⟨e, false⟩) :=
    proceeds_iterate (fun _ _ => passes_chainLink) _
  unfold callTail
  infer_instance

end Chains

section Operands

theorem passes_superExpression {allowCall : Bool} (hend : s.token ≠ .endOfSource) :
    Passes c more (fun _ => True) (superExpression ctx allowCall) s := by
  refine .look rfl (.taken (passes_next hend) fun _ => ?_)
  infer_instance

instance : Proceeds c (importCall g ctx start) := by
  unfold importCall
  refine .skip fun _ => .skip fun atEnd => .skip fun atSpread => .guard tells_fail ?_
  refine .skip fun source => .skip fun hasOptions => ?_
  extract_lets rest checked
  have hrest : ∀ options, Proceeds c (rest options) := fun options => .skip fun atEnd =>
    .guard tells_fail (.skip fun _ => inferInstance)
  clear_value rest
  have hchecked : ∀ u, Proceeds c (checked u) := fun u => inferInstance
  clear_value checked
  infer_instance

theorem passes_importExpression (hend : s.token ≠ .endOfSource) :
    Passes c more (fun _ => True) (importExpression g ctx) s := by
  refine .look rfl (.taken (passes_next hend) fun _ => .skip fun _ => .skip fun token => ?_)
  split <;> infer_instance

/-- What is created may be created by another `new` inside. -/
instance : Proceeds c (newCallee g ctx) := by
  refine ⟨fun s => .look rfl (.look rfl ?_)⟩
  split
  · rename_i hat
    exact (hg.newCall ctx s (State.ne_of_atWord hat)).mono (by decide) fun _ => False.elim
  · refine .look rfl ?_
    split
    · rename_i hat
      exact (passes_superExpression (State.ne_of_atWord hat)).mono (Nat.le_refl 2) fun _ =>
        False.elim
    · refine .look rfl ?_
      split
      · rename_i hat
        refine .taken (passes_importExpression (State.ne_of_atWord hat)) fun e => ?_
        split <;> infer_instance
      · exact passes_primary.mono (Nat.le_refl 2) fun _ => False.elim

theorem passes_newCall (hend : s.token ≠ .endOfSource) :
    Passes c more (fun _ => True) (newCall g ctx) s := by
  refine .nested fun depth => .look rfl
    (.taken (passes_next hend) fun _ => .skip fun isTarget => ?_)
  split
  · infer_instance
  · infer_instance

theorem passes_leftHandSide : Passes c more (fun _ => True) (leftHandSide g ctx) s := by
  unfold leftHandSide
  refine .look rfl (.look rfl (.look rfl (.look rfl ?_)))
  extract_lets rest
  have hrest : ∀ e, Proceeds c (rest e) := fun e => inferInstance
  clear_value rest
  split
  · rename_i hat
    exact .taken (passes_newCall (State.ne_of_atWord hat)) hrest
  · split
    · rename_i hat
      exact .taken (passes_superExpression (State.ne_of_atWord hat)) hrest
    · split
      · rename_i hat
        exact .taken (passes_importExpression (State.ne_of_atWord hat)) hrest
      · exact .taken passes_primary hrest

instance : Takes c (leftHandSide g ctx) := ⟨fun _ => passes_leftHandSide⟩

end Operands

section Unary

instance {target : Expression} {position : String} :
    Light (checkUpdateTarget ctx target position) :=
  (tells_checkUpdateTarget ctx target position).light

instance {argument : Expression} : Light (checkDelete ctx argument start) :=
  (tells_checkDelete ctx argument start).light

theorem passes_operand (hend : s.token ≠ .endOfSource) : Passes c more (fun _ => True) (nested do
    next
    g.unary ctx) s :=
  .nested fun _ => .taken (passes_next hend) fun _ => inferInstance

theorem passes_unaryOperation {token : Token} (hend : s.token ≠ .endOfSource) :
    Passes c more (fun _ => True) (unaryOperation g ctx start token) s := by
  refine .taken (passes_operand hend) fun argument => .skip fun _ => ?_
  split <;> infer_instance

theorem passes_updateBefore {token : Token} (hend : s.token ≠ .endOfSource) :
    Passes c more (fun _ => True) (updateBefore g ctx start token) s :=
  .taken (passes_operand hend) fun _ => inferInstance

theorem passes_awaitOperation (hend : s.token ≠ .endOfSource) :
    Passes c more (fun _ => True) (awaitOperation g ctx start) s :=
  .guard tells_fail fun _ => .change rfl rfl rfl (fun _ => rfl)
    (.taken (passes_operand hend) fun _ => inferInstance)

theorem passes_updateAfter : Passes c more (fun _ => True) (updateAfter g ctx) s :=
  .look rfl (.taken passes_leftHandSide fun _ => inferInstance)

theorem passes_unary : Passes c more (fun _ => True) (unary g ctx) s := by
  refine .look rfl (.look rfl (.look rfl ?_))
  split
  · rename_i hunary
    refine passes_unaryOperation fun hend => ?_
    rw [hend] at hunary
    cases hunary
  · split
    · rename_i hupdate
      refine passes_updateBefore fun hend => ?_
      rw [hend] at hupdate
      cases hupdate
    · refine .look rfl ?_
      split
      · rename_i hawait
        exact passes_awaitOperation (State.ne_of_atWord (Bool.and_eq_true_iff.mp hawait).2)
      · exact passes_updateAfter

instance : Takes c (unary g ctx) := ⟨fun _ => passes_unary⟩

end Unary

section Binary

theorem peeks_checkCover (e : Expression) : Peeks (checkCover e) := by
  have hlight : Light (checkCover e) := inferInstance
  refine fun s => (hlight.moves s).and (.run rfl (.run rfl ?_))
  dsimp only
  split
  · exact (stops_failAt _ _).yields
  · split
    · exact (stops_failAt _ _).yields
    · exact .pure rfl

theorem peeks_refusePrivateName (e : Expression) : Peeks (refusePrivateName e) := by
  refine .of_still fun s => ?_
  unfold refusePrivateName
  split
  · exact (stops_failAt _ _).yields
  · exact .pure rfl

theorem peeks_checkMixing (a b : Option Token) : Peeks (checkMixing a b) := by
  refine .of_still fun s => ?_
  unfold checkMixing
  split
  · split
    · exact (stops_fail _).yields
    · exact .pure rfl
  · exact .pure rfl

/-- The end of the text is no operator. -/
theorem ne_of_binaryStrength (h : (ctx.binaryStrength s.token == 0) ≠ true) :
    s.token ≠ .endOfSource := by
  intro hend
  rw [hend] at h
  exact h rfl

theorem passes_binaryLink {minimum : Nat} {left : Expression × Option Token} :
    Passes c more (·.isSome = true) (binaryLink g ctx start minimum left) s := by
  unfold binaryLink
  refine .look rfl ?_
  extract_lets strength apply check
  split
  · exact .pure nofun
  · rename_i hstrength
    have hbinary : (ctx.binaryStrength s.token == 0) ≠ true := fun h => hstrength (by
      rw [show (strength == 0) = true from h]
      rfl)
    have hend : s.token ≠ .endOfSource := ne_of_binaryStrength hbinary
    have happly : ∀ s', s'.token = s.token → Passes c more (·.isSome = true) (apply ⟨⟩) s' := by
      refine fun s₁ h₁ => .peeks (peeks_checkCover _) fun _ s₂ h₂ _ => ?_
      refine .taken (passes_next (by rwa [h₂, h₁])) fun _ => .skip fun rightStart => ?_
      refine .skip fun operand => .skip fun found => ?_
      split
      refine .skip fun _ => .skip fun _ => .skip fun _ => .skip fun span => ?_
      split <;> infer_instance
    have hcheck : ∀ s', s'.token = s.token → Passes c more (·.isSome = true) (check ⟨⟩) s' :=
      fun s₁ h₁ => .peeks (peeks_checkMixing _ _) fun _ s₂ h₂ _ =>
        .look rfl (.guard tells_failAt fun _ => happly s₂ (h₂.trans h₁))
    split
    · exact .peeks (peeks_refusePrivateName _) fun _ s₁ h₁ _ => hcheck s₁ h₁
    · exact hcheck s rfl

theorem passes_binary {left : Expression} {minimum : Nat} :
    Passes c more (fun _ => False) (binary g ctx start left minimum) s := fun hs =>
  passes_iterate (fun _ _ => passes_binaryLink) g.size (left, none) s
    (Nat.lt_of_le_of_lt hs.left_le_length hg.size) hs

instance {left : Expression} {minimum : Nat} : Proceeds c (binary g ctx start left minimum) :=
  ⟨fun _ => passes_binary⟩

theorem passes_binaryExpression : Passes c more (fun _ => True) (binaryExpression g ctx) s := by
  refine .look rfl (.taken passes_unary fun left => .skip fun isArrow => ?_)
  split
  · infer_instance
  · refine .skip fun found => ?_
    split
    infer_instance

end Binary

section Assignment

theorem passes_conditional : Passes c more (fun _ => True) (conditional g ctx) s := by
  refine .look rfl (.taken passes_binaryExpression fun test => ?_)
  infer_instance

theorem passes_yieldExpression (hend : s.token ≠ .endOfSource) :
    Passes c more (fun _ => True) (yieldExpression g ctx) s := by
  refine .look rfl (.guard tells_fail fun _ => .change rfl rfl rfl (fun _ => rfl) ?_)
  refine .taken (passes_next hend) fun _ => ?_
  infer_instance

instance {token : Token} {left : Expression} : Light (assignmentTarget g ctx token left) :=
  (tells_assignmentTarget g ctx token left g.options).light

instance {left : Expression} {cause : Cause} [cause.IsImmediate] :
    Light (patternTarget g ctx left cause) := (tells_patternTarget g ctx left cause g.options).light

theorem passes_assignmentCover : Passes c more (fun _ => True) (assignmentCover g ctx) s := by
  refine .nested fun depth => .look rfl ?_
  split
  · rename_i hyield
    exact passes_yieldExpression (State.ne_of_atWord (Bool.and_eq_true_iff.mp hyield).2)
  · refine .look rfl (.change rfl rfl rfl (fun _ => rfl) (.taken passes_conditional fun left => ?_))
    refine .skip fun token => .skip fun isArrow => ?_
    split
    · infer_instance
    · split <;> infer_instance

end Assignment

section Parts

instance {role : Role} : Takes c (block g ctx role) := by unfold block; infer_instance

theorem passes_block {role : Role} : Passes c more (fun _ => True) (block g ctx role) s :=
  .look rfl (.taken passes_expect fun _ => inferInstance)

theorem passes_variableDeclarator {kind : VariableKind} :
    Passes c 1 (fun _ => True) (variableDeclarator g ctx kind) s := by
  refine .look rfl (.taken (hg.bindingTarget ctx _ s) fun target => ?_)
  infer_instance

instance {kind : VariableKind} : Takes c (variableDeclarator g ctx kind) :=
  .of_passes (by decide) fun _ => passes_variableDeclarator

instance {kind : VariableKind} {inHead : Bool} : Advances c (Round.declarator g ctx kind inHead) :=
  ⟨fun _ s => .taken (Takes.passes s) fun _ => inferInstance⟩

theorem passes_variableDeclarators {kind : VariableKind} {inHead : Bool} :
    Passes c 1 (fun _ => True) (variableDeclarators g ctx kind inHead) s :=
  passes_collect (.taken passes_variableDeclarator fun _ => inferInstance)

instance {kind : VariableKind} {inHead : Bool} : Takes c (variableDeclarators g ctx kind inHead) :=
  .of_passes (by decide) fun _ => passes_variableDeclarators

theorem passes_variableStatement {kind : VariableKind} :
    Passes c 1 (fun _ => True) (variableStatement g ctx kind) s :=
  .look rfl (.skip fun _ _ _ => .taken passes_variableDeclarators fun _ => inferInstance)

instance : Takes c (parenExpression g ctx) := by unfold parenExpression; infer_instance

instance : Takes c (loopBody g ctx) := by unfold loopBody; infer_instance

end Parts

section Simple

variable (hend : s.token ≠ .endOfSource)

include hend

theorem passes_ifStatement : Passes c more (fun _ => True) (ifStatement g ctx start) s :=
  .taken (passes_next hend) fun _ => inferInstance

theorem passes_whileStatement : Passes c more (fun _ => True) (whileStatement g ctx start) s :=
  .taken (passes_next hend) fun _ => inferInstance

theorem passes_doWhileStatement : Passes c more (fun _ => True) (doWhileStatement g ctx start) s :=
  .taken (passes_next hend) fun _ => inferInstance

theorem passes_jump {isContinue : Bool} :
    Passes c more (fun _ => True) (jump ctx start isContinue) s :=
  .taken (passes_next hend) fun _ => inferInstance

theorem passes_returnStatement : Passes c more (fun _ => True) (returnStatement g ctx start) s :=
  .guard tells_fail fun _ => .taken (passes_next hend) fun _ => inferInstance

theorem passes_withStatement : Passes c more (fun _ => True) (withStatement g ctx start) s := by
  refine .guard tells_fail fun _ => .taken (passes_next hend) fun _ => .skip fun object => ?_
  refine .skip fun body => ?_
  extract_lets rest
  have hrest : ∀ u, Proceeds c (rest u) := fun u => inferInstance
  clear_value rest
  split <;> infer_instance

theorem passes_throwStatement : Passes c more (fun _ => True) (throwStatement g ctx start) s :=
  .taken (passes_next hend) fun _ => inferInstance

end Simple

section Compound

instance {earlier : List SwitchCase} : Takes c (caseTest g ctx earlier) := by
  refine ⟨fun s => .look rfl ?_⟩
  split
  · rename_i htoken
    exact .taken (passes_next (State.ne_of_eq htoken)) fun _ => inferInstance
  · rename_i htoken
    exact .guard tells_fail fun _ => .taken (passes_next (State.ne_of_eq htoken)) fun _ =>
      inferInstance
  · exact .failed tells_unexpected

instance [c.Permits ctx] : Advances c (Round.caseItem g ctx) := by
  refine ⟨fun earlier s => .look rfl ?_⟩
  split
  · exact .pure id
  · exact Takes.always

instance {earlier : List SwitchCase} : Takes c (switchCase g ctx earlier) := by
  unfold switchCase
  refine .later fun start => .first fun test => .skip fun _ => ?_
  extract_lets inner
  have hinner : c.Permits inner := ⟨fun _ => rfl⟩
  clear_value inner
  infer_instance

instance : Advances c (Round.switchCase g ctx) := by
  refine ⟨fun earlier s => .look rfl ?_⟩
  split
  · exact .pure id
  · exact Takes.always

theorem passes_switchStatement (hend : s.token ≠ .endOfSource) :
    Passes c more (fun _ => True) (switchStatement g ctx start) s :=
  .taken (passes_next hend) fun _ => inferInstance

instance : Proceeds c (catchClause g ctx) := by
  unfold catchClause
  refine .skip fun start => .skip fun _ => .inScope (.skip fun hasParam => ?_)
  extract_lets rest
  have hrest : ∀ param, Proceeds c (rest param) := by
    intro param
    refine .skip fun found => ?_
    split
    split <;> infer_instance
  clear_value rest
  infer_instance

theorem passes_tryStatement (hend : s.token ≠ .endOfSource) :
    Passes c more (fun _ => True) (tryStatement g ctx start) s := by
  refine .taken (passes_next hend) fun _ => .skip fun found => ?_
  split
  refine .skip fun hasHandler => ?_
  extract_lets rest
  have hrest : ∀ handler, Proceeds c (rest handler) := by
    intro handler
    refine .skip fun hasFinalizer => ?_
    extract_lets last
    have hlast : ∀ finalizer, Proceeds c (last finalizer) := fun finalizer => .skip fun span => by
      split <;> infer_instance
    clear_value last
    infer_instance
  clear_value rest
  infer_instance

end Compound

section Labels

theorem passes_labeledStatement {position : Position} (hend : s.token ≠ .endOfSource) :
    Passes c more (fun _ => True) (labeledStatement g ctx start position) s := by
  have hpeeks : Peeks (checkReference ctx s.lexer.value.text start) := by
    refine .of_still fun s => ?_
    unfold checkReference ofExcept
    split
    · exact .pure rfl
    · trivial
  refine .look rfl (.peeks hpeeks fun _ s₁ h₁ _ => ?_)
  exact .taken (passes_identifier (by rwa [h₁])) fun label => inferInstance

theorem passes_expressionOrLabeled {position : Position} :
    Passes c 1 (fun _ => True) (expressionOrLabeled g ctx start position) s := by
  have hexpression : ∀ {s}, Passes c 1 (fun _ => True) (do
      let e ← g.expression ctx
      endStatement
      return Statement.expression (← spanFrom start) e none) s :=
    .taken passes_expression fun _ => inferInstance
  refine .look rfl ?_
  cases hname : s.token.isIdentifier with
  | false => exact .look rfl hexpression
  | true =>
    refine .peeks (.and (peeks_peekToken.result _) _) fun isLabel s₁ h₁ _ => ?_
    split
    · exact passes_labeledStatement (h₁ ▸ State.ne_of_isIdentifier hname)
    · exact hexpression

/-- A function takes a token with its keyword. -/
theorem passes_misplacedFunction {position : Position} :
    Passes c more (fun _ => True) (misplacedFunction g ctx position) s := by
  refine .skip fun token s₁ _ => .guard tells_fail fun _ => .guard tells_fail fun _ => ?_
  split
  · refine .taken (.inScope _ fun _ => passes_functionDeclaration) fun _ => inferInstance
  · exact .taken passes_functionDeclaration fun _ => inferInstance

end Labels

section Loops

instance {init : ForHead} : Proceeds c (forRest g ctx start init) := by
  unfold forRest
  refine .skip fun _ => .skip fun noTest => ?_
  extract_lets rest
  have hrest : ∀ test, Proceeds c (rest test) := by
    refine fun test => .skip fun _ => .skip fun noUpdate => ?_
    extract_lets last
    have hlast : ∀ update, Proceeds c (last update) := fun update => inferInstance
    clear_value last
    infer_instance
  clear_value rest
  infer_instance

instance {left : ForHead} {isOf isAwait : Bool} :
    Proceeds c (forEach g ctx start left isOf isAwait) := by
  unfold forEach; infer_instance

instance {isAwait : Bool} {kind : VariableKind} :
    Proceeds c (forVariables g ctx start isAwait kind) := by
  unfold forVariables
  refine .skip fun initStart => .skip fun _ => .skip fun declarations => .skip fun span => ?_
  refine .skip fun isOf => .skip fun _ => ?_
  split <;> infer_instance

instance {isAwait : Bool} : Proceeds c (forExpression g ctx start isAwait) := by
  unfold forExpression
  refine .skip fun initStart => .skip fun startsWithLet => .skip fun e => ?_
  refine .skip fun isOf => .skip fun _ => ?_
  split
  · infer_instance
  · infer_instance

instance {isAwait : Bool} : Proceeds c (forHead g ctx start isAwait) := by
  unfold forHead
  refine .skip fun atSemicolon => ?_
  split
  · infer_instance
  · refine .skip fun kind => ?_
    split <;> infer_instance

theorem passes_forStatement (hend : s.token ≠ .endOfSource) :
    Passes c more (fun _ => True) (forStatement g ctx start) s := by
  refine .taken (passes_next hend) fun _ => ?_
  infer_instance

end Loops

set_option synthInstance.maxSize 2000

section Names

omit hg in
theorem passes_moduleName : Passes c more (fun _ => True) (moduleName g ctx) s := by
  refine .look rfl ?_
  split
  · rename_i hstring
    refine .look rfl (.guard tells_fail fun _ => ?_)
    exact .taken (passes_literal (State.ne_of_beq hstring)) fun _ => inferInstance
  · refine .guard tells_unexpected fun hword => ?_
    refine .taken (passes_identifier (State.ne_of_isWord ?_)) fun _ => inferInstance
    simpa using hword

instance : Takes c (moduleName g ctx) := ⟨fun _ => passes_moduleName⟩

instance : Takes c (attributeKey g ctx) := by
  refine ⟨fun s => .look rfl ?_⟩
  split
  · rename_i hstring
    exact .taken (passes_literal (State.ne_of_beq hstring)) fun _ => inferInstance
  · split
    · rename_i hword
      exact .taken (passes_identifier (State.ne_of_isWord hword)) fun _ => inferInstance
    · exact .failed tells_unexpected

instance {earlier : List ImportAttribute} : Takes c (importAttribute g ctx earlier) := by
  unfold importAttribute
  infer_instance

instance : Proceeds c (importAttributes g ctx) := by unfold importAttributes; infer_instance

instance : Proceeds c (moduleSource g ctx) := by unfold moduleSource; infer_instance

instance : Proceeds c (fromClause g ctx) := by unfold fromClause; infer_instance

end Names

section Imports

instance : Proceeds c (importBinding g ctx) := by unfold importBinding; infer_instance

instance {isName : Bool} {name : ModuleName} : Proceeds c (sameBinding g ctx isName name) := by
  unfold sameBinding
  split <;> infer_instance

instance : Takes c (importSpecifier g ctx) := by
  unfold importSpecifier
  refine .later fun start => .later fun token => .first fun imported => ?_
  infer_instance

instance : Proceeds c (importAll g ctx) := by unfold importAll; infer_instance

instance : Proceeds c (importSpecifiers g ctx) := by
  unfold importSpecifiers
  refine .skip fun token => ?_
  split <;> infer_instance

instance : Proceeds c (importClause g ctx) := by unfold importClause; infer_instance

theorem passes_importDeclaration : Passes c more (fun _ => True) (importDeclaration g ctx) s := by
  refine .look rfl (.taken passes_expect fun _ => .skip fun atString => ?_)
  extract_lets rest
  have hrest : ∀ found, Proceeds c (rest found) := fun found => by
    dsimp only [rest]
    infer_instance
  clear_value rest
  infer_instance

end Imports

section Exports

/-- Names may be exported. -/
class Course.Exports (c : Course) : Prop where
  loud : ¬ c.quiet

variable [he : c.Exports]

instance : c.Permits ctx := ⟨fun hquiet => absurd hquiet he.loud⟩

/-- A change to what is exported. -/
instance {exports : State → Exports} :
    Proceeds c (modify fun s => { s with exports := exports s } : Parser Unit) := by
  rw [← bind_pure (modify _)]
  exact ⟨fun s => .change rfl rfl rfl (fun hquiet => absurd hquiet he.loud) (.pure id)⟩

instance {name : String} {offset : Nat} : Proceeds c (addExport name offset) := by
  unfold addExport
  refine .skip fun s => ?_
  split
  · exact ⟨fun s _ => error_lasts _⟩
  · infer_instance

instance {isLocal : Bool} {specifier : ExportSpecifier} :
    Proceeds c (noteExport isLocal specifier) := by
  unfold noteExport; infer_instance

omit he in
instance : Takes c (exportEntry g ctx) := by
  have hfault : Light (localFault? ctx) := tells_localFault.light
  unfold exportEntry
  refine .later fun start => .later fun fault => .first fun binding => ?_
  infer_instance

instance : Proceeds c (exportAll g ctx start) := by
  unfold exportAll
  infer_instance

omit he in
instance {before : List Decorator} : Proceeds c (exportDecorators g ctx before) := by
  unfold exportDecorators; infer_instance

instance {before : List Decorator} : Proceeds c (exportDefault g ctx start before) := by
  unfold exportDefault
  refine .skip fun keywordStart => .skip fun _ => .skip fun found => .skip fun _ => ?_
  refine .skip fun valueStart => .skip fun atClass => ?_
  split
  · infer_instance
  · exact .guard tells_fail (.skip fun atFunction => inferInstance)

instance : Proceeds c (exportNames g ctx start) := by
  unfold exportNames
  refine .skip fun _ => ⟨fun s => (Proceeds.passes s).known (exportEntries_immediate s)
    fun entries s' hentries _ => ?_⟩
  have hfaults := light_faults hentries
  refine (Proceeds.skip fun _ => .skip fun isFrom => ?_).passes s'
  extract_lets rest
  have hrest : ∀ found, Proceeds c (rest found) := by
    intro found
    dsimp only [rest]
    infer_instance
  clear_value rest
  infer_instance

instance {found : List Decorator} : Proceeds c (exportedDeclaration g ctx found) := by
  unfold exportedDeclaration
  refine .skip fun start => .skip fun token => ?_
  split <;> infer_instance

instance {found : List Decorator} : Proceeds c (exportDeclaration g ctx start found) := by
  unfold exportDeclaration; infer_instance

theorem passes_exportStatement {before : List Decorator} :
    Passes c more (fun _ => True) (exportStatement g ctx start before) s := by
  refine .taken passes_expect fun _ => .skip fun found => .skip fun token => ?_
  refine .guard tells_fail ?_
  split <;> infer_instance

instance {before : List Decorator} : Proceeds c (exportStatement g ctx start before) :=
  .of_passes (Nat.le_refl 2) fun _ => passes_exportStatement

end Exports

end EcmaSyntax.Grammar
