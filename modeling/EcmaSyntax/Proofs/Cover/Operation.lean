import EcmaSyntax.Proofs.Cover.Primary
import EcmaSyntax.Proofs.Grammar.Outcome

/-!
What is applied to expressions: members, calls, `new` and the operators. Each
of them checks its operands, so that only an operand on its own passes on its
cover state. The exception is `new`, which does not look at its callee: reading
arguments forgets what the callee left open.
-/

namespace EcmaSyntax.Grammar

open EcmaSyntax.Tree

variable {version : Nat} [Unicode.IdentifierChars version]

/-- An optional chain has no literal parts. -/
structure Chain.IsPending (chain : Chain) (cover : Cover) : Prop where
  pending : Pending chain.expression cover
  settled : chain.isOptional = true → Checked.isSettled chain.expression = true

theorem superExpression_reads (ctx : Context) (allowCall : Bool) :
    Reads .expression (superExpression ctx allowCall) := by
  intro s
  unfold superExpression
  have hleaf : ∀ start s, Yields
      (plainExpression >>= fun _ => do return .superKeyword (← spanFrom start))
      (fun e _ => Checked false (.expression e)) s := fun start s =>
    .skip fun _ s => .skip fun span s =>
      .pure (.node trivial (by simp [Node.children, Node.ofExpression]))
  refine .skip fun start s => .skip fun _ s => .skip fun token s => ?_
  extract_lets rest
  split
  · exact (stops_failAt _ _).guard (hleaf start s)
  · split
    · refine (stops_failAt _ _).guard (.skip fun isPrivate s => ?_)
      exact (stops_failAt _ _).guard (hleaf start s)
    · exact (stops_failAt _ _).bind

theorem checkUpdateTarget_yields (ctx : Context) (target : Expression) (position : String)
    (s : State) : Yields (checkUpdateTarget ctx target position)
      (fun _ _ => Checked.isSettled target = true) s := by
  unfold checkUpdateTarget
  refine .skip fun state s => ?_
  split
  · exact (stops_failAt _ _).yields
  · cases target with
    | array span elements => exact (stops_failAt _ _).yields
    | object span members => exact (stops_failAt _ _).yields
    | newCall span callee arguments => exact (stops_failAt _ _).yields
    | _ => exact .of_results fun _ _ => rfl

theorem binaryNode_checked {span : Text.Span} {token : Token} {left right e : Expression}
    (h : binaryNode span token left right = some e) (hleft : Checked false (.expression left))
    (hright : Checked false (.expression right)) : Checked false (.expression e) := by
  unfold binaryNode at h
  split at h
  · cases h
    exact .node trivial (by simpa [Node.children, Node.ofExpression] using ⟨hleft, hright⟩)
  · obtain ⟨operator, _, rfl⟩ := Option.map_eq_some_iff.mp h
    exact .node trivial (by simpa [Node.children, Node.ofExpression] using ⟨hleft, hright⟩)

theorem simpleTarget_reads (ctx : Context) {left : Expression}
    (hleft : Checked true (.expression left)) (cause : Diagnostic.Cause) :
    Reads .pattern (simpleTarget ctx left cause) := by
  intro s
  have hinner := withoutParens_checked hleft
  unfold simpleTarget
  refine .skip fun state s => (stops_failAt _ _).guard ?_
  split
  · exact .skip fun _ s => .pure (checked_identifier _)
  · rename_i heq
    rw [heq] at hinner
    exact .pure (checked_member hinner)
  · exact (stops_failAt _ _).yields

namespace Phrases.Checks

variable {g : Phrases} (hg : g.Checks)

include hg

theorem computedProperty (ctx : Context) : Reads .expression (computedProperty g ctx) := by
  intro s
  unfold Grammar.computedProperty
  refine .skip fun _ s => (hg.expression ctx.withIn s).bind fun e s he => ?_
  exact .skip fun _ s => .pure he

theorem optionalLink (ctx : Context) (start : Nat) {object : Expression}
    (hobject : Checked false (.expression object)) (s : State) :
    Yields (optionalLink g ctx start object)
      (fun e _ => Checked false (.expression e) ∧ Checked.isSettled e = true) s := by
  unfold Grammar.optionalLink
  refine .skip fun token s => ?_
  split
  · refine (hg.arguments ctx s).bind fun args s hargs => .skip fun span s => .pure ?_
    exact ⟨checked_call hobject hargs.1 span true, rfl⟩
  · refine (hg.computedProperty ctx s).bind fun property s hproperty => ?_
    exact .skip fun span s => .pure ⟨checked_memberExpression hobject hproperty span true true, rfl⟩
  · exact (stops_fail _).yields
  · exact (stops_fail _).yields
  · refine (memberName_reads s).bind fun property s hproperty => ?_
    exact .skip fun span s =>
      .pure ⟨checked_memberExpression hobject hproperty span false true, rfl⟩

theorem chainLink (ctx : Context) (start : Nat) (allowCalls : Bool) (chain : Chain) (s : State)
    (h : chain.IsPending s.cover) :
    Yields (chainLink g ctx start allowCalls chain)
      (fun r s' => (r.getD chain).IsPending s'.cover) s := by
  unfold Grammar.chainLink
  refine .run rfl ?_
  split
  · refine (checkCover_yields h.pending).bind fun _ s hobject => .skip fun _ s => ?_
    refine (memberName_reads s).bind fun property s hproperty => ?_
    refine .skip fun _ s => .skip fun span s => .pure ⟨?_, fun _ => rfl⟩
    exact (checked_memberExpression hobject hproperty span false false).pending
  · refine (checkCover_yields h.pending).bind fun _ s hobject => ?_
    refine (hg.computedProperty ctx s).bind fun property s hproperty => ?_
    refine .skip fun _ s => .skip fun span s => .pure ⟨?_, fun _ => rfl⟩
    exact (checked_memberExpression hobject hproperty span true false).pending
  · split
    · refine (checkCover_yields h.pending).bind fun _ s hobject => ?_
      refine (hg.arguments ctx s).bind fun args s hargs => ?_
      refine .skip fun _ s => .skip fun span s => .pure ⟨?_, fun _ => rfl⟩
      exact (checked_call hobject hargs.1 span false).pending
    · exact .pure h
  · refine (stops_fail _).guard ?_
    refine (checkCover_yields h.pending).bind fun _ s hobject => .skip fun _ s => ?_
    refine (hg.optionalLink ctx start hobject s).bind fun e s he => ?_
    exact .skip fun _ s => .pure ⟨he.1.pending, fun _ => he.2⟩
  case h_5 | h_6 =>
    refine (stops_fail _).guard ?_
    refine (checkCover_yields h.pending).bind fun _ s hobject => ?_
    refine (hg.template ctx true s).bind fun parts s hparts => ?_
    refine .skip fun _ s => .skip fun span s =>
      .pure ⟨Checked.pending (.node trivial ?_), fun _ => rfl⟩
    simpa [Node.children, Node.ofExpression] using ⟨hobject, hparts⟩
  · exact .pure h

theorem callTail (ctx : Context) (start : Nat) {e : Expression} (allowCalls : Bool) {s : State}
    (he : Pending e s.cover) :
    Yields (callTail g ctx start e allowCalls) (fun e s' => Pending e s'.cover) s := by
  unfold Grammar.callTail
  refine (Yields.iterate (I := fun chain s => chain.IsPending s.cover)
    (hg.chainLink ctx start allowCalls) g.size _ s ⟨he, by simp⟩).bind fun chain s hchain => ?_
  split
  · rename_i hoptional
    have hsettled := hchain.pending.settle (hchain.settled hoptional)
    refine .skip fun _ s => .skip fun span s => .pure (Checked.pending (.node trivial ?_))
    simpa [Node.children, Node.ofExpression] using hsettled
  · exact .pure hchain.pending

theorem importCall (ctx : Context) (start : Nat) :
    Reads .expression (importCall g ctx start) := by
  intro s
  unfold Grammar.importCall
  refine .skip fun _ s => .skip fun atClose s => .skip fun atSpread s => (stops_fail _).guard ?_
  refine (hg.assignment ctx.withIn s).bind fun source s hsource => .skip fun hasOptions s => ?_
  extract_lets rest
  have hrest : ∀ options s, (∀ e, options = some e → Checked false (.expression e)) →
      Yields (rest options) (fun e _ => Checked false (.expression e)) s := by
    intro options s hoptions
    refine .skip fun atClose s => (stops_fail _).guard ?_
    refine .skip fun _ s => .skip fun _ s => .skip fun span s => .pure (.node trivial ?_)
    exact List.forall_mem_cons.mpr ⟨hsource, ofOption_checked hoptions⟩
  split
  · refine .skip fun atSpread s => (stops_fail _).guard ?_
    refine (hg.assignment ctx.withIn s).bind fun e s he => .skip fun _ s => ?_
    exact .run rfl (hrest (some e) s (by simpa using he))
  · exact .run rfl (hrest none s (by simp))

theorem importExpression (ctx : Context) : Reads .expression (importExpression g ctx) := by
  intro s
  unfold Grammar.importExpression
  refine .skip fun state s => .skip fun _ s => .skip fun _ s => .skip fun token s => ?_
  split
  · refine .skip fun _ s => .skip fun atMeta s => ?_
    dsimp only
    split
    · exact .skip fun raw s => (stops_fail _).bind
    · refine (stops_failAt _ _).guard ?_
      refine .skip fun property s => .skip fun span s => .pure ?_
      exact .node trivial (by simp [Node.children, Node.ofExpression])
  · exact hg.importCall ctx _ s
  · exact stops_unexpected.yields

theorem newCallee (ctx : Context) : ReadsPending (newCallee g ctx) := by
  intro s
  unfold Grammar.newCallee
  refine .skip fun start s => .skip fun atNew s => ?_
  split
  · exact hg.newCall ctx s
  · refine .skip fun atSuper s => ?_
    split
    · exact (superExpression_reads ctx false).pending s
    · refine .skip fun atImport s => ?_
      split
      · refine (hg.importExpression ctx s).bind fun e s he => ?_
        split
        · exact (stops_failAt _ _).yields
        · exact .pure he.pending
      · exact hg.primary ctx s

theorem newCall_body (ctx : Context) : ReadsPending (Grammar.newCall g ctx) := by
  refine nested_pending fun s => .skip fun state s => .skip fun _ s => .skip fun atDot s => ?_
  split
  · refine .skip fun atTarget s => ?_
    dsimp only
    split
    · exact .skip fun raw s => (stops_fail _).bind
    · refine (stops_failAt _ _).guard ?_
      refine .skip fun property s => .skip fun _ s => .skip fun span s => .pure ?_
      exact Checked.pending (.node trivial (by simp [Node.children, Node.ofExpression]))
  · refine .skip fun calleeStart s => (hg.newCallee ctx s).bind fun inner s hinner => ?_
    refine (hg.callTail ctx calleeStart false hinner).bind fun callee s hcallee => .run rfl ?_
    extract_lets rest
    have hrest : ∀ args s, (∀ x ∈ args, Checked false (.element x)) →
        (args = [] → Pending callee s.cover) →
        Yields (rest args) (fun e s' => Pending e s'.cover) s := by
      intro args s hargs hnone
      exact .run rfl (.run rfl (.pure (pending_newCall hcallee.parts hargs hnone _)))
    split
    · refine (hg.arguments ctx s).bind fun args s' hargs => hrest args s' hargs.1 fun hnil => ?_
      rw [hargs.2 hnil]
      exact hcallee
    · exact .run rfl (hrest [] s (by simp) fun _ => hcallee)

theorem leftHandSide_body (ctx : Context) : ReadsPending (Grammar.leftHandSide g ctx) := by
  intro s
  unfold Grammar.leftHandSide
  refine .skip fun start s => .skip fun atNew s => ?_
  extract_lets rest
  have hrest : ∀ e s, Pending e s.cover →
      Yields (rest e) (fun e s' => Pending e s'.cover) s := by
    intro e s he
    refine (isBareArrow_frame e s).bind fun isBare s' hs => ?_
    subst hs
    split
    · exact .pure he
    · exact hg.callTail ctx start true he
  split
  · exact (hg.newCall_body ctx s).bind hrest
  · refine .skip fun atSuper s => ?_
    split
    · exact ((superExpression_reads ctx true).pending s).bind hrest
    · refine .skip fun atImport s => ?_
      split
      · exact ((hg.importExpression ctx).pending s).bind hrest
      · exact (hg.primary ctx s).bind hrest

theorem operand (ctx : Context) : ReadsPending (nested (next >>= fun _ => g.unary ctx)) :=
  nested_pending fun _ => .skip fun _ s => hg.unary ctx s

theorem unaryOperation (ctx : Context) (start : Nat) (token : Token) :
    Reads .expression (unaryOperation g ctx start token) := by
  intro s
  unfold Grammar.unaryOperation
  refine (hg.operand ctx s).bind fun argument s hargument => ?_
  refine (checkCover_yields hargument).bind fun _ s hchecked => ?_
  split
  · exact (stops_failAt _ _).yields
  · extract_lets rest
    have hrest : ∀ u s, Yields (rest u) (fun e _ => Checked false (.expression e)) s := by
      intro u s
      refine .skip fun _ s => .skip fun span s => .pure (.node trivial ?_)
      simpa [Node.children, Node.ofExpression] using hchecked
    split
    · exact .skip hrest
    · exact hrest () s

theorem updateBefore (ctx : Context) (start : Nat) (token : Token) :
    Reads .expression (updateBefore g ctx start token) := by
  intro s
  unfold Grammar.updateBefore
  refine (hg.operand ctx s).bind fun argument s hargument => ?_
  refine (checkUpdateTarget_yields ctx argument _ s).bind fun _ s hsettled => ?_
  have hchecked := hargument.settle hsettled
  refine .skip fun _ s => .skip fun span s => .pure (.node trivial ?_)
  simpa [Node.children, Node.ofExpression] using hchecked

theorem awaitOperation (ctx : Context) (start : Nat) :
    Reads .expression (awaitOperation g ctx start) := by
  intro s
  unfold Grammar.awaitOperation
  refine (stops_fail _).guard (.skip fun _ s => ?_)
  refine (hg.operand ctx s).bind fun argument s hargument => ?_
  refine (checkCover_yields hargument).bind fun _ s hchecked => ?_
  refine .skip fun _ s => .skip fun span s => .pure (.node trivial ?_)
  simpa [Node.children, Node.ofExpression] using hchecked

theorem updateAfter (ctx : Context) : ReadsPending (updateAfter g ctx) := by
  intro s
  unfold Grammar.updateAfter
  refine .skip fun start s => (hg.leftHandSide_body ctx s).bind fun e s he => ?_
  refine .run rfl (.run rfl ?_)
  refine (isBareArrow_frame e s).bind fun isBare s' hs => ?_
  subst hs
  split
  · exact .pure he
  · refine (checkCover_yields he).bind fun _ s hchecked => .skip fun _ s => .skip fun _ s => ?_
    refine .skip fun _ s => .skip fun span s => .pure (Checked.pending (.node trivial ?_))
    simpa [Node.children, Node.ofExpression] using hchecked

theorem unary_body (ctx : Context) : ReadsPending (Grammar.unary g ctx) := by
  intro s
  unfold Grammar.unary
  refine .skip fun start s => .skip fun token s => .skip fun escaped s => ?_
  split
  · exact (hg.unaryOperation ctx start token).pending s
  · split
    · exact (hg.updateBefore ctx start token).pending s
    · refine .skip fun atAwait s => ?_
      split
      · exact (hg.awaitOperation ctx start).pending s
      · exact hg.updateAfter ctx s

theorem binaryLink (ctx : Context) (start minimum : Nat) (left : Expression × Option Token)
    (s : State) (h : Pending left.1 s.cover) :
    Yields (binaryLink g ctx start minimum left)
      (fun r s' => Pending (r.getD left).1 s'.cover) s := by
  unfold Grammar.binaryLink
  refine .run rfl ?_
  extract_lets strength operate apply
  have hoperate : ∀ u, Yields (operate u) (fun r s' => Pending (r.getD left).1 s'.cover) s := by
    intro u
    refine (checkCover_yields h).bind fun _ s hleft => .skip fun _ s => .skip fun rightStart s => ?_
    refine (hg.unary_body ctx s).bind fun operand s hoperand => ?_
    refine (nested_yields (P := fun s => Pending operand s.cover) (fun _ _ hs => hs)
      (fun _ _ _ hr => hr) (hg.binary ctx rightStart operand _) hoperand).bind
      fun r s hright => ?_
    obtain ⟨right, last⟩ := r
    refine (refusePrivateName_frame right s).bind fun _ s' hs => ?_
    subst hs
    refine (checkCover_yields hright).bind fun _ s hchecked => .skip fun _ s => .skip fun span s =>
      ?_
    split
    · exact (stops_failAt _ _).yields
    · rename_i heq
      exact .skip fun _ s => .pure (binaryNode_checked heq hleft hchecked).pending
  have happly : ∀ u, Yields (apply u) (fun r s' => Pending (r.getD left).1 s'.cover) s := by
    intro u
    refine (checkMixing_frame _ _ s).bind fun _ s' hs => ?_
    subst hs
    exact .run rfl ((stops_failAt _ _).guard (hoperate ()))
  split
  · exact .pure h
  · split
    · refine (refusePrivateName_frame left.1 s).bind fun _ s' hs => ?_
      subst hs
      exact happly ()
    · exact happly ()

theorem binary_body (ctx : Context) (start : Nat) (left : Expression) (minimum : Nat) (s : State)
    (h : Pending left s.cover) :
    Yields (Grammar.binary g ctx start left minimum) (fun r s' => Pending r.1 s'.cover) s :=
  Yields.iterate (I := fun (left : Expression × Option Token) s => Pending left.1 s.cover)
    (hg.binaryLink ctx start minimum) g.size _ s h

theorem binaryExpression (ctx : Context) : ReadsPending (binaryExpression g ctx) := by
  intro s
  unfold Grammar.binaryExpression
  refine .skip fun start s => (hg.unary_body ctx s).bind fun left s hleft => ?_
  refine (isBareArrow_frame left s).bind fun isBare s' hs => ?_
  subst hs
  split
  · exact .pure hleft
  · refine (hg.binary_body ctx start left 1 _ hleft).bind fun r s he => ?_
    obtain ⟨e, last⟩ := r
    refine (refusePrivateName_frame e s).bind fun _ s' hs => ?_
    subst hs
    exact .pure he

theorem conditional (ctx : Context) : ReadsPending (conditional g ctx) := by
  intro s
  unfold Grammar.conditional
  refine .skip fun start s => (hg.binaryExpression ctx s).bind fun test s htest => .run rfl ?_
  refine (isBareArrow_frame test s).bind fun isBare s' hs => ?_
  subst hs
  split
  · exact .pure htest
  · refine (checkCover_yields htest).bind fun _ s hchecked => .skip fun _ s => ?_
    refine (hg.assignment ctx.withIn s).bind fun consequent s hconsequent => .skip fun _ s => ?_
    refine (hg.assignment ctx s).bind fun alternate s halternate => ?_
    refine .skip fun _ s => .skip fun span s => .pure (Checked.pending (.node trivial ?_))
    simpa [Node.children, Node.ofExpression] using ⟨hchecked, hconsequent, halternate⟩

theorem yieldExpression (ctx : Context) : Reads .expression (yieldExpression g ctx) := by
  intro s
  unfold Grammar.yieldExpression
  refine .skip fun start s => (stops_fail _).guard ?_
  refine .skip fun _ s => .skip fun _ s => .skip fun lineBreak s => .skip fun delegate s => ?_
  refine .skip fun token s => ?_
  extract_lets rest
  have hrest : ∀ argument s, (∀ e, argument = some e → Checked false (.expression e)) →
      Yields (rest argument) (fun e _ => Checked false (.expression e)) s := by
    intro argument s hargument
    refine .skip fun _ s => .skip fun span s => .pure (.node trivial ?_)
    exact ofOption_checked hargument
  split
  · exact ((hg.assignment ctx).optional s).bind hrest
  · exact .run rfl (hrest none s (by simp))

omit hg in
theorem patternTarget (ctx : Context) {left : Expression} (cause : Diagnostic.Cause) {s : State}
    (hleft : Pending left s.cover) :
    Yields (patternTarget g ctx left cause) (fun p _ => Checked false (.pattern p)) s := by
  unfold Grammar.patternTarget
  refine .run rfl ?_
  split
  · refine .skip fun _ s => .skip fun c s => (ofExcept_yields s).mono fun p _ hok => ?_
    exact toPattern_checked left hok hleft.parts
  · refine (checkCover_yields hleft).bind fun _ s hchecked => ?_
    exact simpleTarget_reads ctx hchecked.weaken cause s

omit hg in
theorem assignmentTarget (ctx : Context) (token : Token) {left : Expression} {s : State}
    (hleft : Pending left s.cover) :
    Yields (assignmentTarget g ctx token left) (fun p _ => Checked false (.pattern p)) s := by
  unfold Grammar.assignmentTarget
  split
  · exact patternTarget ctx _ hleft
  · refine (checkCover_yields hleft).bind fun _ s hchecked => ?_
    exact simpleTarget_reads ctx hchecked.weaken _ s

theorem assignmentCover_body (ctx : Context) :
    ReadsPending (Grammar.assignmentCover g ctx) := by
  refine nested_pending fun s => .skip fun atYield s => ?_
  split
  · exact (hg.yieldExpression ctx).pending s
  · refine .skip fun start s => .skip fun _ s => ?_
    refine (hg.conditional ctx s).bind fun left s hleft => .run rfl ?_
    refine (isBareArrow_frame left s).bind fun isBare s' hs => ?_
    subst hs
    split
    · exact .pure hleft
    · split
      · exact stops_unexpected.yields
      · refine (assignmentTarget ctx _ hleft).bind fun target s htarget => .skip fun _ s => ?_
        refine (hg.assignment ctx s).bind fun right s hright => .skip fun _ s => .skip fun span s =>
          ?_
        refine .pure (Checked.pending (.node trivial ?_))
        simpa [Node.children, Node.ofExpression] using ⟨htarget, hright⟩

end Phrases.Checks

end EcmaSyntax.Grammar
