import EcmaSyntax.Grammar.Operation
import EcmaSyntax.Proofs.Output.Primary

/-!
Calls and operators where nobody observes. What is asked about an operand, its form and
where it stands, is the same without the text of its literals.
-/

namespace EcmaSyntax.Grammar

open EcmaSyntax.Diagnostic EcmaSyntax.Lexer EcmaSyntax.Scope EcmaSyntax.Text EcmaSyntax.Tree

variable {version : Nat} [Unicode.IdentifierChars version]

/-- What has been applied so far without the text of literals. -/
def Chain.withoutRaw (chain : Chain) : Chain := ⟨chain.expression.withoutRaw, chain.isOptional⟩

theorem echoes_superExpression (ctx : Context) (allowCall : Bool) :
    Echoes Expression.withoutRaw (superExpression ctx allowCall)
      (superExpression ctx allowCall) := by
  unfold superExpression
  refine .skip fun start => .skip fun _ => .skip fun token => ?_
  extract_lets rest
  have hrest : ∀ u, Echoes Expression.withoutRaw (rest u) (rest u) := fun u =>
    .skip fun _ => .skip fun span => .pure rfl
  refine .ite (.ite .halt (hrest ())) (.ite (.ite .halt (.skip fun isPrivate => ?_)) .halt)
  exact .ite .halt (hrest ())

section Operators

@[simp] theorem checkUpdateTarget_withoutRaw (ctx : Context) (e : Expression) (position : String) :
    checkUpdateTarget ctx e.withoutRaw position = checkUpdateTarget ctx e position := by
  unfold checkUpdateTarget
  rw [e.withoutParens_withoutRaw, e.start_withoutRaw]
  cases e.withoutParens <;> rfl

instance {ctx : Context} {e : Expression} {position : String} :
    Unwatched (checkUpdateTarget ctx e position) := by
  unfold checkUpdateTarget
  extract_lets refused
  have hrefused : Echoes id refused refused := .failing (failAt _ _)
  refine ⟨.look fun s => .ite hrefused ?_⟩
  split
  · exact Blind.mirrors
  · exact .pure rfl
  · exact hrefused

theorem deleteTarget_withoutRaw (e : Expression) :
    deleteTarget e.withoutRaw = (deleteTarget e).withoutRaw := by
  unfold deleteTarget
  rw [e.withoutParens_withoutRaw]
  cases e.withoutParens <;> rfl

@[simp] theorem checkDelete_withoutRaw (ctx : Context) (e : Expression) (start : Nat) :
    checkDelete ctx e.withoutRaw start = checkDelete ctx e start := by
  unfold checkDelete
  rw [deleteTarget_withoutRaw]
  cases deleteTarget e with
  | member span object property computed optional => cases property <;> rfl
  | _ => rfl

instance {ctx : Context} {e : Expression} {start : Nat} : Unwatched (checkDelete ctx e start) := by
  unfold checkDelete
  split <;> infer_instance

instance {a b : Option Token} : Unwatched (checkMixing a b) := by
  unfold checkMixing
  split <;> infer_instance

@[simp] theorem refusePrivateName_withoutRaw (e : Expression) :
    refusePrivateName e.withoutRaw = refusePrivateName e := by
  cases e <;> rfl

instance {e : Expression} : Unwatched (refusePrivateName e) := by
  unfold refusePrivateName
  split <;> infer_instance

@[simp] theorem isUnaryOrAwait_withoutRaw (e : Expression) :
    isUnaryOrAwait e.withoutRaw = isUnaryOrAwait e := by
  cases e <;> rfl

theorem binaryNode_withoutRaw (span : Span) (token : Token) (left right : Expression) :
    binaryNode span token left.withoutRaw right.withoutRaw =
      (binaryNode span token left right).map Expression.withoutRaw := by
  unfold binaryNode
  cases LogicalOperator.ofToken? token with
  | some operator => rfl
  | none => cases BinaryOperator.ofToken? token <;> rfl

@[simp] theorem isArrayOrObject_withoutRaw (e : Expression) :
    isArrayOrObject e.withoutRaw = isArrayOrObject e := by
  cases e <;> rfl

theorem echoes_simpleTarget (ctx : Context) (left : Expression) (cause : Cause) :
    Echoes Pattern.withoutRaw (simpleTarget ctx left cause)
      (simpleTarget ctx left.withoutRaw cause) := by
  unfold simpleTarget
  rw [left.withoutParens_withoutRaw, left.start_withoutRaw]
  refine .look fun s => .guard ?_
  cases left.withoutParens with
  | identifier id => exact .skip fun _ => .pure rfl
  | member span object property computed optional => exact .pure rfl
  | _ => exact .refuse

end Operators

namespace Phrases.Quieted

variable {g g' : Phrases} (h : g.Quieted g')

include h

theorem computedProperty (ctx : Context) :
    Echoes Expression.withoutRaw (computedProperty g ctx) (computedProperty g' ctx) := by
  unfold Grammar.computedProperty
  exact .skip fun _ => (h.expression ctx.withIn).bind fun property => .skip fun _ => .pure rfl

theorem optionalLink (ctx : Context) (start : Nat) (object : Expression) :
    Echoes Expression.withoutRaw (optionalLink g ctx start object)
      (optionalLink g' ctx start object.withoutRaw) := by
  unfold Grammar.optionalLink
  refine .skip fun token => ?_
  split
  · refine (h.arguments ctx).bind fun args => .skip fun span => .pure ?_
    simp [Expression.withoutRaw]
  · exact (h.computedProperty ctx).bind fun property => .skip fun span => .pure rfl
  · exact .refuse
  · exact .refuse
  · exact echoes_memberName.bind fun property => .skip fun span => .pure rfl

theorem chainLink (ctx : Context) (start : Nat) (allowCalls : Bool) (chain : Chain) :
    Echoes (Option.map Chain.withoutRaw) (chainLink g ctx start allowCalls chain)
      (chainLink g' ctx start allowCalls chain.withoutRaw) := by
  obtain ⟨object, isOptional⟩ := chain
  unfold Grammar.chainLink
  dsimp only [Chain.withoutRaw]
  rw [checkCover_withoutRaw]
  refine .skip fun token => ?_
  split
  · refine .skip fun _ => .skip fun _ => echoes_memberName.bind fun property => ?_
    exact .skip fun _ => .skip fun span => .pure rfl
  · refine .skip fun _ => (h.computedProperty ctx).bind fun property => ?_
    exact .skip fun _ => .skip fun span => .pure rfl
  · refine .ite (.skip fun _ => (h.arguments ctx).bind fun args => .skip fun _ => ?_) (.pure rfl)
    exact .skip fun span => .pure (by simp [Chain.withoutRaw, Expression.withoutRaw])
  · refine .guard (.skip fun _ => .skip fun _ => (h.optionalLink ctx start object).bind fun e => ?_)
    exact .skip fun _ => .pure rfl
  case h_5 | h_6 =>
    refine .guard (.skip fun _ => (h.template ctx true).bind fun parts => .skip fun _ => ?_)
    refine .skip fun span => .pure ?_
    simp [Chain.withoutRaw, Expression.withoutRaw, TemplateParts.withoutRaw]
  · exact .pure rfl

theorem callTail (ctx : Context) (start : Nat) (e : Expression) (allowCalls : Bool) :
    Echoes Expression.withoutRaw (callTail g ctx start e allowCalls)
      (callTail g' ctx start e.withoutRaw allowCalls) := by
  unfold Grammar.callTail
  rw [h.size]
  refine (Mirrors.iterate (h.chainLink ctx start allowCalls) g.size ⟨e, false⟩).bind fun chain => ?_
  exact .ite (.skip fun _ => .skip fun span => .pure rfl) (.pure rfl)

theorem importCall (ctx : Context) (start : Nat) :
    Echoes Expression.withoutRaw (importCall g ctx start) (importCall g' ctx start) := by
  unfold Grammar.importCall
  refine .skip fun _ => .skip fun isEmpty => .skip fun isSpread => .guard ?_
  refine (h.assignment ctx.withIn).bind fun source => .skip fun hasOptions => ?_
  extract_lets rest given rest' given'
  have hrest : ∀ options, Echoes Expression.withoutRaw (rest options)
      (rest' (options.map Expression.withoutRaw)) := by
    intro options
    refine .skip fun atClose => .guard (.skip fun _ => .skip fun _ => .skip fun span => .pure ?_)
    simp [Expression.withoutRaw]
  refine .ite (.skip fun isSpread => .guard ?_) ?_
  · refine (h.assignment ctx.withIn).bind fun e => .skip fun _ => ?_
    exact Mirrors.bind (k := Option.map Expression.withoutRaw) (.pure rfl) hrest
  · exact Mirrors.bind (k := Option.map Expression.withoutRaw) (.pure rfl) hrest

theorem importExpression (ctx : Context) :
    Echoes Expression.withoutRaw (importExpression g ctx) (importExpression g' ctx) := by
  unfold Grammar.importExpression
  refine .look fun s => .skip fun _ => .skip fun _ => .skip fun token => ?_
  split
  · refine .skip fun _ => .skip fun atMeta => .ite (.skip fun raw => .halt) (.guard ?_)
    exact .skip fun property => .skip fun span => .pure rfl
  · exact h.importCall ctx _
  · exact .refuse

theorem newCallee (ctx : Context) :
    Echoes Expression.withoutRaw (newCallee g ctx) (newCallee g' ctx) := by
  unfold Grammar.newCallee
  refine .skip fun start => .skip fun atNew => .ite (h.newCall ctx) (.skip fun atSuper => ?_)
  refine .ite (echoes_superExpression ctx false) (.skip fun atImport => .ite ?_ (h.primary ctx))
  refine (h.importExpression ctx).bind fun e => ?_
  cases e with
  | importCall => exact .refuse
  | _ => exact .pure rfl

theorem newCall_body (ctx : Context) :
    Echoes Expression.withoutRaw (Grammar.newCall g ctx) (Grammar.newCall g' ctx) := by
  refine .nested (.look fun s => .skip fun _ => .skip fun hasDot => .ite ?_ ?_)
  · refine .skip fun atTarget => .ite (.skip fun raw => .halt) (.guard ?_)
    exact .skip fun property => .skip fun _ => .skip fun span => .pure rfl
  refine .skip fun calleeStart => (h.newCallee ctx).bind fun callee => ?_
  refine (h.callTail ctx calleeStart callee false).bind fun callee => .skip fun hasArguments => ?_
  extract_lets rest rest'
  have hrest : ∀ args, Echoes Expression.withoutRaw (rest args)
      (rest' (args.map Element.withoutRaw)) := fun args =>
    .skip fun _ => .skip fun span => .pure (by simp [Expression.withoutRaw])
  exact .ite ((h.arguments ctx).bind hrest) (Mirrors.bind (.pure rfl) hrest)

theorem leftHandSide_body (ctx : Context) :
    Echoes Expression.withoutRaw (Grammar.leftHandSide g ctx) (Grammar.leftHandSide g' ctx) := by
  unfold Grammar.leftHandSide
  refine .skip fun start => .skip fun atNew => ?_
  extract_lets rest rest'
  have hrest : ∀ e, Echoes Expression.withoutRaw (rest e) (rest' e.withoutRaw) := by
    intro e
    dsimp only [rest, rest']
    rw [isBareArrow_withoutRaw]
    exact .skip fun isBare => .ite (.pure rfl) (h.callTail ctx start e true)
  refine .skip fun atSuper => .skip fun atImport => .ite ?_ (.ite ?_ (.ite ?_ ?_))
  · exact (h.newCall_body ctx).bind hrest
  · exact (echoes_superExpression ctx true).bind hrest
  · exact (h.importExpression ctx).bind hrest
  · exact (h.primary ctx).bind hrest

/-- The operand of an operator before it. -/
theorem operand (ctx : Context) :
    Echoes Expression.withoutRaw
      (nested do
        next
        g.unary ctx)
      (nested do
        next
        g'.unary ctx) :=
  .nested (.skip fun _ => h.unary ctx)

theorem unaryOperation (ctx : Context) (start : Nat) (token : Token) :
    Echoes Expression.withoutRaw (unaryOperation g ctx start token)
      (unaryOperation g' ctx start token) := by
  unfold Grammar.unaryOperation
  refine (h.operand ctx).bind fun argument => ?_
  rw [checkCover_withoutRaw, checkDelete_withoutRaw]
  refine .skip fun _ => ?_
  split
  · exact .refuse
  · refine .ite (.skip fun _ => ?_) ?_
    · exact .skip fun _ => .skip fun span => .pure rfl
    · exact .skip fun _ => .skip fun span => .pure rfl

theorem updateBefore (ctx : Context) (start : Nat) (token : Token) :
    Echoes Expression.withoutRaw (updateBefore g ctx start token)
      (updateBefore g' ctx start token) := by
  unfold Grammar.updateBefore
  refine (h.operand ctx).bind fun argument => ?_
  rw [checkUpdateTarget_withoutRaw]
  exact .skip fun _ => .skip fun _ => .skip fun span => .pure rfl

theorem awaitOperation (ctx : Context) (start : Nat) :
    Echoes Expression.withoutRaw (awaitOperation g ctx start) (awaitOperation g' ctx start) := by
  unfold Grammar.awaitOperation
  refine .guard (.change (fun _ => rfl) fun _ => (h.operand ctx).bind fun argument => ?_)
  rw [checkCover_withoutRaw]
  exact .skip fun _ => .skip fun _ => .skip fun span => .pure rfl

theorem updateAfter (ctx : Context) :
    Echoes Expression.withoutRaw (updateAfter g ctx) (updateAfter g' ctx) := by
  unfold Grammar.updateAfter
  refine .skip fun start => (h.leftHandSide_body ctx).bind fun e => .skip fun token => ?_
  rw [isBareArrow_withoutRaw, checkCover_withoutRaw, checkUpdateTarget_withoutRaw]
  refine .skip fun lineBreak => .skip fun isBare => .ite (.pure rfl) (.skip fun _ => ?_)
  exact .skip fun _ => .skip fun _ => .skip fun _ => .skip fun span => .pure rfl

theorem unary_body (ctx : Context) :
    Echoes Expression.withoutRaw (Grammar.unary g ctx) (Grammar.unary g' ctx) := by
  unfold Grammar.unary
  refine .skip fun start => .skip fun token => .skip fun escaped => .ite ?_ (.ite ?_ ?_)
  · exact h.unaryOperation ctx start token
  · exact h.updateBefore ctx start token
  · exact .skip fun atAwait => .ite (h.awaitOperation ctx start) (h.updateAfter ctx)

theorem binaryLink (ctx : Context) (start minimum : Nat) (left : Expression × Option Token) :
    Echoes (Option.map fun found => (found.1.withoutRaw, found.2))
      (binaryLink g ctx start minimum left)
      (binaryLink g' ctx start minimum (left.1.withoutRaw, left.2)) := by
  obtain ⟨e, last⟩ := left
  unfold Grammar.binaryLink
  dsimp -zeta only
  rw [refusePrivateName_withoutRaw, isUnaryOrAwait_withoutRaw, isParenthesized_withoutRaw,
    checkCover_withoutRaw]
  refine .skip fun token => .ite (.pure rfl) ?_
  extract_lets applied checked applied' checked'
  have happlied : ∀ u, Echoes (Option.map fun found => (found.1.withoutRaw, found.2)) (applied u)
      (applied' u) := by
    intro u
    refine .skip fun _ => .skip fun _ => .skip fun rightStart => ?_
    refine (h.unary_body ctx).bind fun operand => ?_
    refine (h.binary ctx rightStart operand _).nested.bind fun r => ?_
    obtain ⟨right, last⟩ := r
    dsimp only
    rw [refusePrivateName_withoutRaw, checkCover_withoutRaw]
    refine .skip fun _ => .skip fun _ => .skip fun _ => .skip fun span => ?_
    rw [binaryNode_withoutRaw]
    cases binaryNode span token e right with
    | none => exact .refuse
    | some e => exact .skip fun _ => .pure rfl
  have hchecked : ∀ u, Echoes (Option.map fun found => (found.1.withoutRaw, found.2)) (checked u)
      (checked' u) := fun u => .skip fun _ => .skip fun inParens => .guard (happlied ())
  exact .ite (.skip hchecked) (hchecked ())

theorem binary_body (ctx : Context) (start : Nat) (left : Expression) (minimum : Nat) :
    Echoes (fun found => (found.1.withoutRaw, found.2)) (Grammar.binary g ctx start left minimum)
      (Grammar.binary g' ctx start left.withoutRaw minimum) := by
  unfold Grammar.binary
  rw [h.size]
  exact Mirrors.iterate (h.binaryLink ctx start minimum) g.size (left, none)

theorem binaryExpression (ctx : Context) :
    Echoes Expression.withoutRaw (binaryExpression g ctx) (binaryExpression g' ctx) := by
  unfold Grammar.binaryExpression
  refine .skip fun start => (h.unary_body ctx).bind fun left => ?_
  rw [isBareArrow_withoutRaw]
  refine .skip fun isBare => .ite (.pure rfl) ?_
  refine (h.binary_body ctx start left 1).bind fun r => ?_
  obtain ⟨e, last⟩ := r
  dsimp only
  rw [refusePrivateName_withoutRaw]
  exact .skip fun _ => .pure rfl

theorem conditional (ctx : Context) :
    Echoes Expression.withoutRaw (conditional g ctx) (conditional g' ctx) := by
  unfold Grammar.conditional
  refine .skip fun start => (h.binaryExpression ctx).bind fun test => .skip fun atQuestion => ?_
  rw [isBareArrow_withoutRaw, checkCover_withoutRaw]
  refine .skip fun isBare => .ite (.pure rfl) (.skip fun _ => .skip fun _ => ?_)
  refine (h.assignment ctx.withIn).bind fun consequent => .skip fun _ => ?_
  refine (h.assignment ctx).bind fun alternate => .skip fun _ => .skip fun span => .pure rfl

theorem yieldExpression (ctx : Context) :
    Echoes Expression.withoutRaw (yieldExpression g ctx) (yieldExpression g' ctx) := by
  unfold Grammar.yieldExpression
  refine .skip fun start => .guard (.change (fun _ => rfl) fun _ => .skip fun _ => ?_)
  refine .skip fun lineBreak => .skip fun delegate => .skip fun token => ?_
  extract_lets rest
  have hrest : ∀ argument, Echoes Expression.withoutRaw (rest argument)
      (rest (argument.map Expression.withoutRaw)) := fun argument =>
    .skip fun _ => .skip fun span => .pure (by simp [Expression.withoutRaw])
  exact .ite ((h.assignment ctx).optional.bind hrest) (Mirrors.bind (.pure rfl) hrest)

theorem patternTarget (ctx : Context) (left : Expression) (cause : Cause) :
    Echoes Pattern.withoutRaw (patternTarget g ctx left cause)
      (patternTarget g' ctx left.withoutRaw cause) := by
  unfold Grammar.patternTarget
  rw [isArrayOrObject_withoutRaw, isParenthesized_withoutRaw, checkCover_withoutRaw,
    h.conversion_eq]
  refine .skip fun inParens => .ite (.skip fun _ => .skip fun c => ?_) (.skip fun _ => ?_)
  · exact echoes_ofExcept (toPattern_withoutRaw left)
  · exact echoes_simpleTarget ctx left cause

theorem assignmentTarget (ctx : Context) (token : Token) (left : Expression) :
    Echoes Pattern.withoutRaw (assignmentTarget g ctx token left)
      (assignmentTarget g' ctx token left.withoutRaw) := by
  unfold Grammar.assignmentTarget
  rw [checkCover_withoutRaw]
  refine .ite (h.patternTarget ctx left _) (.skip fun _ => ?_)
  exact echoes_simpleTarget ctx left _

theorem assignmentCover_body (ctx : Context) :
    Echoes Expression.withoutRaw (Grammar.assignmentCover g ctx)
      (Grammar.assignmentCover g' ctx) := by
  refine .nested (.skip fun atYield => .ite (h.yieldExpression ctx) (.skip fun start => ?_))
  refine .change (fun _ => rfl) fun _ => (h.conditional ctx).bind fun left => ?_
  rw [isBareArrow_withoutRaw]
  refine .skip fun token => .skip fun isBare => .ite (.pure rfl) ?_
  split
  · exact .refuse
  · refine (h.assignmentTarget ctx token left).bind fun target => .skip fun _ => ?_
    exact (h.assignment ctx).bind fun right => .skip fun _ => .skip fun span => .pure rfl

end Phrases.Quieted

end EcmaSyntax.Grammar
