import EcmaSyntax.Proofs.Jumps.Primary

/-!
Expressions made with operators. What is applied to an operand, and the operands of an
operator, have their jumps inside of functions.
-/

namespace EcmaSyntax.Grammar

open EcmaSyntax.Diagnostic EcmaSyntax.Tree

variable {version : Nat} [Unicode.IdentifierChars version]

variable {o : Outline}

theorem enclosed_binaryNode {span : Text.Span} {token : Token} {left right e : Expression}
    (h : binaryNode span token left right = some e) (hleft : Enclosed (.expression left))
    (hright : Enclosed (.expression right)) : Enclosed (.expression e) := by
  unfold binaryNode at h
  split at h
  · cases h
    exact .pair trivial hleft hright rfl
  · obtain ⟨operator, -, rfl⟩ := Option.map_eq_some_iff.mp h
    exact .pair trivial hleft hright rfl

theorem confines_superExpression (ctx : Context) (allowCall : Bool) :
    Confines o .expression (superExpression ctx allowCall) := by
  have hleaf : ∀ start, Confines o .expression
      (plainExpression >>= fun _ => do return .superKeyword (← spanFrom start)) :=
    fun start => .skip fun _ => .skip fun span => .pure (.leaf trivial rfl)
  unfold superExpression
  refine .skip fun start => .skip fun _ => .skip fun token => ?_
  extract_lets rest
  split
  · exact (stops_failAt _ _).preserves_guard (hleaf start)
  · split
    · refine (stops_failAt _ _).preserves_guard (.skip fun isPrivate => ?_)
      exact (stops_failAt _ _).preserves_guard (hleaf start)
    · exact fun _ _ => (stops_failAt _ _).bind

theorem confines_simpleTarget (ctx : Context) {left : Expression}
    (hleft : Enclosed (.expression left)) (cause : Cause) :
    Confines o .pattern (simpleTarget ctx left cause) := by
  have hinner := (withoutParens_allIn (G := Enclosed) ⟨hleft⟩).all
  unfold simpleTarget
  refine .skip fun s => (stops_failAt _ _).preserves_guard ?_
  split
  · exact .skip fun _ => .pure (.leaf trivial rfl)
  · rename_i heq
    rw [heq] at hinner
    exact .pure (HoldsBelow.target hinner)
  · exact (stops_failAt _ _).preserves

namespace Phrases.Targets

variable {g : Phrases} (hg : g.Targets)

include hg

theorem computedProperty (ctx : Context) : Confines o .expression (computedProperty g ctx) := by
  unfold Grammar.computedProperty
  exact .skip fun _ => (hg.expression ctx.withIn).bind fun e he => .skip fun _ => .pure he

theorem optionalLink (ctx : Context) (start : Nat) {object : Expression}
    (hobject : Enclosed (.expression object)) :
    Confines o .expression (optionalLink g ctx start object) := by
  unfold Grammar.optionalLink
  refine .skip fun token => ?_
  split
  · refine (hg.arguments ctx).bind fun args hargs => .skip fun span => .pure ?_
    exact .consList trivial hobject hargs rfl
  · refine (hg.computedProperty ctx).bind fun property hproperty => .skip fun span => ?_
    exact .pure (.pair trivial hobject hproperty rfl)
  · exact (stops_fail _).preserves
  · exact (stops_fail _).preserves
  · refine confines_memberName.bind fun property hproperty => .skip fun span => ?_
    exact .pure (.pair trivial hobject hproperty rfl)

/-- What is applied to an operand makes another. -/
theorem chainLink (ctx : Context) (start : Nat) (allowCalls : Bool) {chain : Chain}
    (h : Enclosed (.expression chain.expression)) :
    Balances o (fun found => ∀ longer ∈ found, Enclosed (.expression longer.expression))
      (chainLink g ctx start allowCalls chain) := by
  have hone : ∀ {longer : Chain}, Enclosed (.expression longer.expression) →
      ∀ other ∈ some longer, Enclosed (.expression other.expression) := by
    rintro longer hlonger _ ⟨⟩
    exact hlonger
  unfold Grammar.chainLink
  refine .skip fun token => ?_
  split
  · refine .skip fun _ => .skip fun _ => confines_memberName.bind fun property hproperty => ?_
    refine .skip fun _ => .skip fun span => .pure (hone ?_)
    exact .pair trivial h hproperty rfl
  · refine .skip fun _ => (hg.computedProperty ctx).bind fun property hproperty => ?_
    refine .skip fun _ => .skip fun span => .pure (hone ?_)
    exact .pair trivial h hproperty rfl
  · split
    · refine .skip fun _ => (hg.arguments ctx).bind fun args hargs => ?_
      refine .skip fun _ => .skip fun span => .pure (hone ?_)
      exact .consList trivial h hargs rfl
    · exact .pure nofun
  · refine (stops_fail _).preserves_guard (.skip fun _ => .skip fun _ => ?_)
    refine (hg.optionalLink ctx start h).bind fun e he => ?_
    exact .skip fun _ => .pure (hone he)
  case h_5 | h_6 =>
    refine (stops_fail _).preserves_guard (.skip fun _ => ?_)
    refine (hg.template ctx true).bind fun parts hparts => .skip fun _ => .skip fun span => ?_
    exact .pure (hone (.consList trivial h hparts rfl))
  · exact .pure nofun

theorem callTail (ctx : Context) (start : Nat) {e : Expression} (allowCalls : Bool)
    (he : Enclosed (.expression e)) :
    Confines o .expression (callTail g ctx start e allowCalls) := by
  unfold Grammar.callTail
  refine Preserves.bind (Preserves.iterate
    (P := fun chain => Enclosed (.expression chain.expression))
    (fun _ h => hg.chainLink ctx start allowCalls h) g.size he) fun chain hchain => ?_
  split
  · exact .skip fun _ => .skip fun span => .pure (.single trivial hchain rfl)
  · exact .pure hchain

theorem importCall (ctx : Context) (start : Nat) :
    Confines o .expression (importCall g ctx start) := by
  unfold Grammar.importCall
  refine .skip fun _ => .skip fun atClose => .skip fun atSpread => (stops_fail _).preserves_guard ?_
  refine (hg.assignment ctx.withIn).bind fun source hsource => .skip fun hasOptions => ?_
  extract_lets rest
  have hrest : ∀ options, (∀ e ∈ options, Enclosed (.expression e)) →
      Confines o .expression (rest options) := by
    intro options hoptions
    refine .skip fun atClose => (stops_fail _).preserves_guard ?_
    refine .skip fun _ => .skip fun _ => .skip fun span => .pure (.node trivial ?_)
    exact List.forall_mem_cons.mpr ⟨hsource, Node.every_ofOption hoptions⟩
  split
  · refine .skip fun atSpread => (stops_fail _).preserves_guard ?_
    refine (hg.assignment ctx.withIn).bind fun e he => .skip fun _ => ?_
    exact Preserves.bind (.pure (by simpa using he)) hrest
  · exact Preserves.bind (.pure nofun) hrest

theorem importExpression (ctx : Context) : Confines o .expression (importExpression g ctx) := by
  unfold Grammar.importExpression
  refine .skip fun s => .skip fun _ => .skip fun _ => .skip fun token => ?_
  split
  · refine .skip fun _ => .skip fun atMeta => ?_
    dsimp only
    split
    · exact .skip fun raw => fun _ _ => (stops_fail _).bind
    · refine (stops_failAt _ _).preserves_guard ?_
      exact .skip fun property => .skip fun span => .pure (.leaf trivial rfl)
  · exact hg.importCall ctx _
  · exact stops_unexpected.preserves

theorem newCallee (ctx : Context) : Confines o .expression (newCallee g ctx) := by
  unfold Grammar.newCallee
  refine .skip fun start => .skip fun atNew => ?_
  split
  · exact hg.newCall ctx
  · refine .skip fun atSuper => ?_
    split
    · exact confines_superExpression ctx false
    · refine .skip fun atImport => ?_
      split
      · refine (hg.importExpression ctx).bind fun e he => ?_
        split
        · exact (stops_failAt _ _).preserves
        · exact .pure he
      · exact hg.primary ctx

theorem newCall_body (ctx : Context) : Confines o .expression (Grammar.newCall g ctx) := by
  refine Balances.nested (.skip fun s => .skip fun _ => .skip fun atDot => ?_)
  split
  · refine .skip fun atTarget => ?_
    dsimp only
    split
    · exact .skip fun raw => fun _ _ => (stops_fail _).bind
    · refine (stops_failAt _ _).preserves_guard ?_
      exact .skip fun property => .skip fun _ => .skip fun span => .pure (.leaf trivial rfl)
  · refine .skip fun calleeStart => (hg.newCallee ctx).bind fun inner hinner => ?_
    refine (hg.callTail ctx calleeStart false hinner).bind fun callee hcallee => ?_
    refine .skip fun hasArgs => ?_
    extract_lets rest
    have hrest : ∀ {o : Outline} args, (∀ x ∈ args, Enclosed (.element x)) →
        Confines o .expression (rest args) := fun args hargs =>
      .skip fun _ => .skip fun span => .pure (.consList trivial hcallee hargs rfl)
    split
    · exact (hg.arguments ctx).bind hrest
    · exact Preserves.bind (.pure nofun) hrest

theorem leftHandSide_body (ctx : Context) :
    Confines o .expression (Grammar.leftHandSide g ctx) := by
  unfold Grammar.leftHandSide
  refine .skip fun start => .skip fun atNew => ?_
  extract_lets rest
  have hrest : ∀ e, Enclosed (.expression e) → Confines o .expression (rest e) := by
    refine fun e he => .skip fun isBare => ?_
    split
    · exact .pure he
    · exact hg.callTail ctx start true he
  split
  · exact (hg.newCall_body ctx).bind hrest
  · refine .skip fun atSuper => ?_
    split
    · exact (confines_superExpression ctx true).bind hrest
    · refine .skip fun atImport => ?_
      split
      · exact (hg.importExpression ctx).bind hrest
      · exact (hg.primary ctx).bind hrest

theorem operand (ctx : Context) : Confines o .expression (nested (next >>= fun _ => g.unary ctx)) :=
  Balances.nested (.skip fun _ => hg.unary ctx)

theorem unaryOperation (ctx : Context) (start : Nat) (token : Token) :
    Confines o .expression (unaryOperation g ctx start token) := by
  unfold Grammar.unaryOperation
  refine (hg.operand ctx).bind fun argument hargument => .skip fun _ => ?_
  split
  · exact (stops_failAt _ _).preserves
  · extract_lets rest
    have hrest : ∀ u, Confines o .expression (rest u) := fun u =>
      .skip fun _ => .skip fun span => .pure (.single trivial hargument rfl)
    split
    · exact .skip hrest
    · exact hrest ()

theorem updateBefore (ctx : Context) (start : Nat) (token : Token) :
    Confines o .expression (updateBefore g ctx start token) := by
  unfold Grammar.updateBefore
  refine (hg.operand ctx).bind fun argument hargument => .skip fun _ => .skip fun _ => ?_
  exact .skip fun span => .pure (.single trivial hargument rfl)

theorem awaitOperation (ctx : Context) (start : Nat) :
    Confines o .expression (awaitOperation g ctx start) := by
  unfold Grammar.awaitOperation
  refine (stops_fail _).preserves_guard (.skip fun _ => ?_)
  refine (hg.operand ctx).bind fun argument hargument => .skip fun _ => .skip fun _ => ?_
  exact .skip fun span => .pure (.single trivial hargument rfl)

theorem updateAfter (ctx : Context) : Confines o .expression (updateAfter g ctx) := by
  unfold Grammar.updateAfter
  refine .skip fun start => (hg.leftHandSide_body ctx).bind fun e he => ?_
  refine .skip fun token => .skip fun lineBreak => .skip fun isBare => ?_
  split
  · exact .pure he
  · refine .skip fun _ => .skip fun _ => .skip fun _ => .skip fun _ => .skip fun span => ?_
    exact .pure (.single trivial he rfl)

theorem unary_body (ctx : Context) : Confines o .expression (Grammar.unary g ctx) := by
  unfold Grammar.unary
  refine .skip fun start => .skip fun token => .skip fun escaped => ?_
  split
  · exact hg.unaryOperation ctx start token
  · split
    · exact hg.updateBefore ctx start token
    · refine .skip fun atAwait => ?_
      split
      · exact hg.awaitOperation ctx start
      · exact hg.updateAfter ctx

/-- One round of the loop over binary operators. -/
theorem binaryLink (ctx : Context) (start minimum : Nat) {left : Expression × Option Token}
    (h : Enclosed (.expression left.1)) :
    Balances o (fun found => ∀ longer ∈ found, Enclosed (.expression longer.1))
      (binaryLink g ctx start minimum left) := by
  unfold Grammar.binaryLink
  refine .skip fun token => ?_
  extract_lets strength operate apply
  have hoperate : ∀ u, Balances o (fun found => ∀ longer ∈ found, Enclosed (.expression longer.1))
      (operate u) := by
    refine fun _ => .skip fun _ => .skip fun _ => .skip fun rightStart => ?_
    refine (hg.unary_body ctx).bind fun operand hoperand => ?_
    refine Preserves.bind (Balances.nested (hg.binary ctx _ operand _ hoperand))
      fun right hright => ?_
    refine .skip fun _ => .skip fun _ => .skip fun _ => .skip fun span => ?_
    split
    · exact (stops_failAt _ _).preserves
    · rename_i e hnode
      refine .skip fun _ => .pure ?_
      rintro _ ⟨⟩
      exact enclosed_binaryNode hnode h hright
  have happly : ∀ u, Balances o (fun found => ∀ longer ∈ found, Enclosed (.expression longer.1))
      (apply u) := by
    refine fun _ => .skip fun _ => .skip fun isMarked => ?_
    exact (stops_failAt _ _).preserves_guard (hoperate ())
  split
  · exact .pure nofun
  · split
    · exact .skip happly
    · exact happly ()

theorem binary_body (ctx : Context) (start : Nat) {left : Expression} (minimum : Nat)
    (h : Enclosed (.expression left)) :
    Balances o (fun found => Enclosed (.expression found.1))
      (Grammar.binary g ctx start left minimum) :=
  Preserves.iterate (P := fun found : Expression × Option Token => Enclosed (.expression found.1))
    (fun _ hfound => hg.binaryLink ctx start minimum hfound) g.size h

theorem binaryExpression (ctx : Context) : Confines o .expression (binaryExpression g ctx) := by
  unfold Grammar.binaryExpression
  refine .skip fun start => (hg.unary_body ctx).bind fun left hleft => .skip fun isBare => ?_
  split
  · exact .pure hleft
  · refine (hg.binary_body ctx start 1 hleft).bind fun found hfound => ?_
    exact .skip fun _ => .pure hfound

theorem conditional (ctx : Context) : Confines o .expression (conditional g ctx) := by
  unfold Grammar.conditional
  refine .skip fun start => (hg.binaryExpression ctx).bind fun test htest => ?_
  refine .skip fun atQuestion => .skip fun isBare => ?_
  split
  · exact .pure htest
  · refine .skip fun _ => .skip fun _ => ?_
    refine (hg.assignment ctx.withIn).bind fun consequent hconsequent => .skip fun _ => ?_
    refine (hg.assignment ctx).bind fun alternate halternate => .skip fun _ => .skip fun span => ?_
    exact .pure (.triple trivial htest hconsequent halternate rfl)

theorem yieldExpression (ctx : Context) : Confines o .expression (yieldExpression g ctx) := by
  unfold Grammar.yieldExpression
  refine .skip fun start => (stops_fail _).preserves_guard (.skip fun _ => .skip fun _ => ?_)
  refine .skip fun lineBreak => .skip fun delegate => .skip fun token => ?_
  extract_lets rest
  have hrest : ∀ argument, (∀ e ∈ argument, Enclosed (.expression e)) →
      Confines o .expression (rest argument) := by
    intro argument hargument
    refine .skip fun _ => .skip fun span => .pure (.node trivial ?_)
    exact Node.every_ofOption hargument
  split
  · exact (hg.assignment ctx).optional.bind hrest
  · exact Preserves.bind (.pure nofun) hrest

omit hg in
theorem patternTarget (ctx : Context) {left : Expression} (hleft : Enclosed (.expression left))
    (cause : Cause) : Confines o .pattern (patternTarget g ctx left cause) := by
  unfold Grammar.patternTarget
  refine .skip fun isMarked => ?_
  split
  · refine .skip fun _ => .skip fun c => (preserves_ofExcept _).mono fun p hok => ?_
    exact (toPattern_allIn (G := Enclosed) left hok ⟨hleft⟩).all
  · exact .skip fun _ => confines_simpleTarget ctx hleft cause

omit hg in
theorem assignmentTarget (ctx : Context) (token : Token) {left : Expression}
    (hleft : Enclosed (.expression left)) :
    Confines o .pattern (assignmentTarget g ctx token left) := by
  unfold Grammar.assignmentTarget
  split
  · exact patternTarget ctx hleft _
  · exact .skip fun _ => confines_simpleTarget ctx hleft _

theorem assignmentCover_body (ctx : Context) :
    Confines o .expression (Grammar.assignmentCover g ctx) := by
  refine Balances.nested (.skip fun atYield => ?_)
  split
  · exact hg.yieldExpression ctx
  · refine .skip fun start => .skip fun _ => (hg.conditional ctx).bind fun left hleft => ?_
    refine .skip fun token => .skip fun isBare => ?_
    split
    · exact .pure hleft
    · split
      · exact stops_unexpected.preserves
      · refine (assignmentTarget ctx _ hleft).bind fun target htarget => .skip fun _ => ?_
        refine (hg.assignment ctx).bind fun right hright => .skip fun _ => .skip fun span => ?_
        exact .pure (.pair trivial htarget hright rfl)

end Phrases.Targets

end EcmaSyntax.Grammar
