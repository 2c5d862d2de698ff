import EcmaSyntax.Proofs.Grammar.Outcome
import EcmaSyntax.Proofs.Grouping.Primary

/-!
Binary operators are applied by strength. The loop that applies them keeps two things:
its expression is grouped, with an operator of at least the strength that is asked for
on the outside, and the token after it is too weak for the right operand of that
operator. So an operator that follows takes the whole expression as its left operand
rightly, and its own right operand ends before any operator that is as weak as it is.
-/

namespace EcmaSyntax.Grammar

open EcmaSyntax.Diagnostic EcmaSyntax.Tree

variable {version : Nat} [Unicode.IdentifierChars version]

section Operators

/-- An operator that is no `in` where that is none has its own strength. -/
theorem Context.binaryStrength_eq {ctx : Context} {token : Token}
    (h : ctx.binaryStrength token ≠ 0) : ctx.binaryStrength token = token.strength := by
  unfold Context.binaryStrength at h ⊢
  split
  · rename_i hin
    rw [if_pos hin] at h
    exact absurd rfl h
  · rfl

theorem unmixed_of_mixesCoalesce {a b : Token} (h : mixesCoalesce a b = false) :
    (a = .coalesce → b ≠ .logicalAnd ∧ b ≠ .logicalOr) ∧
      (b = .coalesce → a ≠ .logicalAnd ∧ a ≠ .logicalOr) := by
  refine ⟨?_, ?_⟩
  · rintro rfl
    refine ⟨?_, ?_⟩ <;> rintro rfl <;> cases h
  · rintro rfl
    refine ⟨?_, ?_⟩ <;> rintro rfl <;> cases h

/-- An operator groups what the loop has come to with a right operand that ends before
every operator as weak as it is. -/
theorem Folded.grouped_link {minimum : Nat} {token : Token} {left right : Expression × Option Token}
    (hleft : Folded minimum left) (hright : Folded (rightMinimum token) right)
    (hends : ∀ operator ∈ left.2, token.strength < rightMinimum operator)
    (hbase : token = .exponentiate → isUnaryOrAwait left.1 = false)
    (hmixLeft : ∀ operator ∈ left.2, mixesCoalesce operator token = false)
    (hmixRight : ∀ operator ∈ right.2, mixesCoalesce token operator = false) :
    Grouped token left.1 right.1 := by
  refine ⟨fun operator hop => ?_, fun operator hop => ?_, ⟨hleft.tight, hright.tight⟩, hbase,
    fun operator hop => ?_⟩
  · have hlast : left.2 = some operator := hleft.operator.symm.trans hop
    have hlt := hends operator hlast
    have hmax := rightMinimum_le operator
    refine ⟨?_, ?_⟩
    · rcases rightMinimum_cases operator with heq | ⟨-, heq⟩ <;> omega
    · rintro rfl
      omega
  · have hlast : right.2 = some operator := hright.operator.symm.trans hop
    have hle := hright.strong operator hlast
    rcases rightMinimum_cases token with heq | ⟨htoken, heq⟩
    · omega
    · exact ⟨by omega, fun hne => absurd htoken hne⟩
  · rcases hop with hop | hop
    · exact (unmixed_of_mixesCoalesce (hmixLeft operator (hleft.operator.symm.trans hop))).symm
    · exact unmixed_of_mixesCoalesce (hmixRight operator (hright.operator.symm.trans hop))

theorem folded_binaryNode {span : Text.Span} {minimum : Nat} {token : Token}
    {left right e : Expression} (h : binaryNode span token left right = some e)
    (hgrouped : Grouped token left right) (hleft : AllGrouped (.expression left))
    (hright : AllGrouped (.expression right)) (hstrong : minimum ≤ token.strength) :
    Folded minimum (e, some token) := by
  have hmin : ∀ operator ∈ some token, minimum ≤ operator.strength := by
    rintro _ ⟨⟩
    exact hstrong
  unfold binaryNode at h
  split at h
  · rename_i operator hoperator
    obtain rfl := LogicalOperator.token_of_ofToken? hoperator
    cases h
    exact ⟨.pair hgrouped hleft hright rfl, rfl, rfl, hmin⟩
  · obtain ⟨operator, hoperator, rfl⟩ := Option.map_eq_some_iff.mp h
    obtain rfl := BinaryOperator.token_of_ofToken? hoperator
    exact ⟨.pair hgrouped hleft hright rfl, rfl, rfl, hmin⟩

end Operators

section Steps

/-- With parentheses kept, no expression is marked. -/
theorem isParenthesized_run {s : State} (hs : Ready s) (e : Expression) :
    isParenthesized e s = .ok false s := by
  change EStateM.Result.ok (s.parenthesized.contains e.start) s = _
  rw [hs.marks]
  rfl

/-- With parentheses kept, an arrow function is bare wherever it stands by itself. -/
theorem isBareArrow_run {s : State} (hs : Ready s) (e : Expression) :
    isBareArrow e s = .ok (isArrow e) s := by
  have hparens := isParenthesized_run hs e
  cases e with
  | arrow => exact bind_of_ok hparens
  | blockArrow => exact bind_of_ok hparens
  | _ => rfl

theorem keeps_superExpression (ctx : Context) (allowCall : Bool) :
    Keeps (Operand False) (superExpression ctx allowCall) := by
  have hleaf : ∀ start, Keeps (Operand False)
      (plainExpression >>= fun _ => do return .superKeyword (← spanFrom start)) :=
    fun start => .skip fun _ => .skip fun span => .pure (.tight (.leaf trivial rfl) rfl rfl)
  unfold superExpression
  refine .skip fun start => .skip fun _ => .skip fun token => ?_
  extract_lets rest
  split
  · exact (stops_failAt _ _).preserves_guard (hleaf start)
  · split
    · refine (stops_failAt _ _).preserves_guard (.skip fun isPrivate => ?_)
      exact (stops_failAt _ _).preserves_guard (hleaf start)
    · exact fun _ _ => (stops_failAt _ _).bind

theorem builds_simpleTarget (ctx : Context) {left : Expression}
    (hleft : AllGrouped (.expression left)) (cause : Cause) :
    Builds .pattern (simpleTarget ctx left cause) := by
  have hinner := (withoutParens_allIn (G := AllGrouped) ⟨hleft⟩).all
  unfold simpleTarget
  refine .skip fun s => (stops_failAt _ _).preserves_guard ?_
  split
  · exact .skip fun _ => .pure (.leaf trivial rfl)
  · rename_i heq
    rw [heq] at hinner
    exact .pure (HoldsBelow.target hinner)
  · exact (stops_failAt _ _).preserves

end Steps

/-- The loop over binary operators stands before a token that is too weak for the right
operand of its last operator. -/
structure FoldedHere (ctx : Context) (minimum : Nat) (found : Expression × Option Token)
    (s : State) : Prop where
  ready : Ready s
  folded : Folded minimum found
  ends : ∀ operator ∈ found.2, Ends ctx (rightMinimum operator) s

namespace Phrases.Groups

variable {g : Phrases} (hg : g.Groups) {mayArrow : Prop}

include hg

theorem computedProperty (ctx : Context) : Builds .expression (computedProperty g ctx) := by
  unfold Grammar.computedProperty
  exact .skip fun _ => (hg.expression ctx.withIn).bind fun e he => .skip fun _ => .pure he

theorem optionalLink (ctx : Context) (start : Nat) {object : Expression}
    (hobject : AllGrouped (.expression object)) :
    Keeps (Operand False) (optionalLink g ctx start object) := by
  unfold Grammar.optionalLink
  refine .skip fun token => ?_
  split
  · refine (hg.arguments ctx).bind fun args hargs => .skip fun span => .pure (.tight ?_ rfl rfl)
    exact .consList trivial hobject hargs rfl
  · refine (hg.computedProperty ctx).bind fun property hproperty => .skip fun span => ?_
    exact .pure (.tight (.pair trivial hobject hproperty rfl) rfl rfl)
  · exact (stops_fail _).preserves
  · exact (stops_fail _).preserves
  · refine builds_memberName.bind fun property hproperty => .skip fun span => ?_
    exact .pure (.tight (.pair trivial hobject hproperty rfl) rfl rfl)

/-- What is applied to an operand makes another. -/
theorem chainLink (ctx : Context) (start : Nat) (allowCalls : Bool) {chain : Chain}
    (h : Operand mayArrow chain.expression) :
    Keeps (fun found => ∀ longer ∈ found, Operand mayArrow longer.expression)
      (chainLink g ctx start allowCalls chain) := by
  have hone : ∀ {longer : Chain}, Operand mayArrow longer.expression →
      ∀ other ∈ some longer, Operand mayArrow other.expression := by
    rintro longer hlonger _ ⟨⟩
    exact hlonger
  unfold Grammar.chainLink
  refine .skip fun token => ?_
  split
  · refine .skip fun _ => .skip fun _ => builds_memberName.bind fun property hproperty => ?_
    refine .skip fun _ => .skip fun span => .pure (hone (.tight ?_ rfl rfl))
    exact .pair trivial h.grouped hproperty rfl
  · refine .skip fun _ => (hg.computedProperty ctx).bind fun property hproperty => ?_
    refine .skip fun _ => .skip fun span => .pure (hone (.tight ?_ rfl rfl))
    exact .pair trivial h.grouped hproperty rfl
  · split
    · refine .skip fun _ => (hg.arguments ctx).bind fun args hargs => ?_
      refine .skip fun _ => .skip fun span => .pure (hone (.tight ?_ rfl rfl))
      exact .consList trivial h.grouped hargs rfl
    · exact .pure nofun
  · refine (stops_fail _).preserves_guard (.skip fun _ => .skip fun _ => ?_)
    refine (hg.optionalLink ctx start h.grouped).bind fun e he => ?_
    exact .skip fun _ => .pure (hone (he.mono False.elim))
  case h_5 | h_6 =>
    refine (stops_fail _).preserves_guard (.skip fun _ => ?_)
    refine (hg.template ctx true).bind fun parts hparts => .skip fun _ => .skip fun span => ?_
    exact .pure (hone (.tight (.consList trivial h.grouped hparts rfl) rfl rfl))
  · exact .pure nofun

theorem callTail (ctx : Context) (start : Nat) {e : Expression} (allowCalls : Bool)
    (he : Operand mayArrow e) : Keeps (Operand mayArrow) (callTail g ctx start e allowCalls) := by
  unfold Grammar.callTail
  refine Preserves.bind (Preserves.iterate (P := fun chain => Operand mayArrow chain.expression)
    (fun _ h => hg.chainLink ctx start allowCalls h) g.size he) fun chain hchain => ?_
  split
  · exact .skip fun _ => .skip fun span =>
      .pure (.tight (.single trivial hchain.grouped rfl) rfl rfl)
  · exact .pure hchain

theorem importCall (ctx : Context) (start : Nat) :
    Keeps (Operand False) (importCall g ctx start) := by
  unfold Grammar.importCall
  refine .skip fun _ => .skip fun atClose => .skip fun atSpread => (stops_fail _).preserves_guard ?_
  refine (hg.assignment ctx.withIn).bind fun source hsource => .skip fun hasOptions => ?_
  extract_lets rest
  have hrest : ∀ options, (∀ e ∈ options, AllGrouped (.expression e)) →
      Keeps (Operand False) (rest options) := by
    intro options hoptions
    refine .skip fun atClose => (stops_fail _).preserves_guard ?_
    refine .skip fun _ => .skip fun _ => .skip fun span => .pure (.tight (.node trivial ?_) rfl rfl)
    exact List.forall_mem_cons.mpr ⟨hsource, Node.every_ofOption hoptions⟩
  split
  · refine .skip fun atSpread => (stops_fail _).preserves_guard ?_
    refine (hg.assignment ctx.withIn).bind fun e he => .skip fun _ => ?_
    exact Preserves.bind (.pure (by simpa using he)) hrest
  · exact Preserves.bind (.pure nofun) hrest

theorem importExpression (ctx : Context) : Keeps (Operand False) (importExpression g ctx) := by
  unfold Grammar.importExpression
  refine .skip fun s => .skip fun _ => .skip fun _ => .skip fun token => ?_
  split
  · refine .skip fun _ => .skip fun atMeta => ?_
    dsimp only
    split
    · exact .skip fun raw => fun _ _ => (stops_fail _).bind
    · refine (stops_failAt _ _).preserves_guard ?_
      exact .skip fun property => .skip fun span => .pure (.tight (.leaf trivial rfl) rfl rfl)
  · exact hg.importCall ctx _
  · exact stops_unexpected.preserves

theorem newCallee (ctx : Context) : Keeps (Operand True) (newCallee g ctx) := by
  unfold Grammar.newCallee
  refine .skip fun start => .skip fun atNew => ?_
  split
  · exact (hg.newCall ctx).mono fun e he => he.mono False.elim
  · refine .skip fun atSuper => ?_
    split
    · exact (keeps_superExpression ctx false).mono fun e he => he.mono False.elim
    · refine .skip fun atImport => ?_
      split
      · refine (hg.importExpression ctx).bind fun e he => ?_
        split
        · exact (stops_failAt _ _).preserves
        · exact .pure (he.mono False.elim)
      · exact fun s hs => (hg.primary ctx hs).mono fun e s' he => ⟨he.1, he.2.mono fun _ => trivial⟩

theorem newCall_body (ctx : Context) : Keeps (Operand False) (Grammar.newCall g ctx) := by
  refine Keeps.nested (.skip fun s => .skip fun _ => .skip fun atDot => ?_)
  split
  · refine .skip fun atTarget => ?_
    dsimp only
    split
    · exact .skip fun raw => fun _ _ => (stops_fail _).bind
    · refine (stops_failAt _ _).preserves_guard ?_
      exact .skip fun property => .skip fun _ => .skip fun span =>
        .pure (.tight (.leaf trivial rfl) rfl rfl)
  · refine .skip fun calleeStart => (hg.newCallee ctx).bind fun inner hinner => ?_
    refine (hg.callTail ctx calleeStart false hinner).bind fun callee hcallee =>
      .skip fun hasArgs => ?_
    extract_lets rest
    have hrest : ∀ args, (∀ x ∈ args, AllGrouped (.element x)) →
        Keeps (Operand False) (rest args) := fun args hargs =>
      .skip fun _ => .skip fun span =>
        .pure (.tight (.consList trivial hcallee.grouped hargs rfl) rfl rfl)
    split
    · exact (hg.arguments ctx).bind hrest
    · exact Preserves.bind (.pure nofun) hrest

/-- Nothing is applied to an arrow function, so it is the first thing that is read. -/
theorem leftHandSide_yields (ctx : Context) {s : State} (hs : Ready s) :
    Yields (Grammar.leftHandSide g ctx)
      (fun e s' => Ready s' ∧ Operand (s.assignmentStart = some s.start) e) s := by
  unfold Grammar.leftHandSide
  refine .run rfl (.run rfl ?_)
  extract_lets rest
  have hrest : ∀ e s', Ready s' ∧ Operand (s.assignmentStart = some s.start) e →
      Yields (rest e)
        (fun e s' => Ready s' ∧ Operand (s.assignmentStart = some s.start) e) s' := by
    intro e s' he
    refine .run (isBareArrow_run he.1 e) ?_
    split
    · exact .pure he
    · exact hg.callTail ctx _ true he.2 s' he.1
  have hother : ∀ {step : Parser Expression}, Keeps (Operand False) step →
      Yields (step >>= rest)
        (fun e s' => Ready s' ∧ Operand (s.assignmentStart = some s.start) e) s := fun hstep =>
    (hstep s hs).bind fun e s' he => hrest e s' ⟨he.1, he.2.mono False.elim⟩
  split
  · exact hother (hg.newCall_body ctx)
  · refine .run rfl ?_
    split
    · exact hother (keeps_superExpression ctx true)
    · refine .run rfl ?_
      split
      · exact hother (hg.importExpression ctx)
      · exact (hg.primary ctx hs).bind hrest

theorem operand (ctx : Context) : Builds .expression (nested (next >>= fun _ => g.unary ctx)) :=
  Keeps.nested (.skip fun _ => hg.unary ctx)

theorem unaryOperation (ctx : Context) (start : Nat) (token : Token) :
    Keeps (Operand False) (unaryOperation g ctx start token) := by
  unfold Grammar.unaryOperation
  refine (hg.operand ctx).bind fun argument hargument => .skip fun _ => ?_
  split
  · exact (stops_failAt _ _).preserves
  · extract_lets rest
    have hrest : ∀ u, Keeps (Operand False) (rest u) := fun u =>
      .skip fun _ => .skip fun span => .pure (.tight (.single trivial hargument rfl) rfl rfl)
    split
    · exact .skip hrest
    · exact hrest ()

theorem updateBefore (ctx : Context) (start : Nat) (token : Token) :
    Keeps (Operand False) (updateBefore g ctx start token) := by
  unfold Grammar.updateBefore
  refine (hg.operand ctx).bind fun argument hargument => .skip fun _ => .skip fun _ => ?_
  exact .skip fun span => .pure (.tight (.single trivial hargument rfl) rfl rfl)

theorem awaitOperation (ctx : Context) (start : Nat) :
    Keeps (Operand False) (awaitOperation g ctx start) := by
  unfold Grammar.awaitOperation
  refine (stops_fail _).preserves_guard (.skip fun _ => ?_)
  refine (hg.operand ctx).bind fun argument hargument => .skip fun _ => .skip fun _ => ?_
  exact .skip fun span => .pure (.tight (.single trivial hargument rfl) rfl rfl)

theorem updateAfter_yields (ctx : Context) {s : State} (hs : Ready s) :
    Yields (updateAfter g ctx)
      (fun e s' => Ready s' ∧ Operand (s.assignmentStart = some s.start) e) s := by
  unfold Grammar.updateAfter
  refine .run rfl ((hg.leftHandSide_yields ctx hs).bind fun e s₁ he => ?_)
  refine Preserves.skip (fun token => .skip fun lineBreak => .skip fun isBare => ?_) s₁ he.1
  split
  · exact .pure he.2
  · refine .skip fun _ => .skip fun _ => .skip fun _ => .skip fun _ => .skip fun span => ?_
    exact .pure (.tight (.single trivial he.2.grouped rfl) rfl rfl)

theorem unary_yields (ctx : Context) {s : State} (hs : Ready s) :
    Yields (Grammar.unary g ctx)
      (fun e s' => Ready s' ∧ Operand (s.assignmentStart = some s.start) e) s := by
  have hother : ∀ {step : Parser Expression}, Keeps (Operand False) step →
      Yields step (fun e s' => Ready s' ∧ Operand (s.assignmentStart = some s.start) e) s :=
    fun hstep => (hstep s hs).mono fun e s' he => ⟨he.1, he.2.mono False.elim⟩
  unfold Grammar.unary
  refine .run rfl (.run rfl (.run rfl ?_))
  split
  · exact hother (hg.unaryOperation ctx _ _)
  · split
    · exact hother (hg.updateBefore ctx _ _)
    · refine .run rfl ?_
      split
      · exact hother (hg.awaitOperation ctx _)
      · exact hg.updateAfter_yields ctx hs

/-- The right operand of an operator starts where no arrow function may begin. -/
theorem rightOperand_yields (ctx : Context) {s : State} (hs : Ready s) (hbars : BarsArrow s)
    (minimum : Nat) :
    Yields (Grammar.unary g ctx) (fun e s' => Ready s' ∧ Folded minimum (e, none)) s := by
  refine (hg.unary_yields ctx hs).mono fun e s' he => ⟨he.1, he.2.grouped, ?_, he.2.operator, nofun⟩
  refine Bool.eq_false_iff.mpr fun hloose => hbars ?_
  exact (he.2.loose hloose).2

/-- The operators of at least some strength that are applied to an operand, one level
deeper. -/
theorem nestedBinary_yields (ctx : Context) (start minimum : Nat) {e : Expression} {s : State}
    (hs : Ready s) (he : Folded minimum (e, none)) :
    Yields (nested (g.binary ctx start e minimum))
      (fun found s' => Ready s' ∧ Folded minimum found ∧ Ends ctx minimum s') s :=
  nested_yields (P := Ready) (fun _ _ hready => hready) (fun _ _ _ hfound => hfound)
    (fun s hready => hg.binary ctx start e minimum s hready he) hs

/-- One round of the loop over binary operators. -/
theorem binaryLink_yields (ctx : Context) (start minimum : Nat) {left : Expression × Option Token}
    {s : State} (h : FoldedHere ctx minimum left s) :
    Yields (binaryLink g ctx start minimum left) (fun found s' =>
      match found with
      | some longer => FoldedHere ctx minimum longer s'
      | none => Ready s' ∧ Folded minimum left ∧ Ends ctx minimum s') s := by
  unfold Grammar.binaryLink
  refine .run rfl ?_
  extract_lets strength operate apply
  by_cases hweak : Ends ctx minimum s
  · have hstop : (strength == 0 || decide (strength < minimum)) = true := by
      simpa [Ends] using hweak
    rw [if_pos hstop]
    exact .pure ⟨h.ready, h.folded, hweak⟩
  have hgoes : ¬ (strength == 0 || decide (strength < minimum)) = true := by
    simpa [Ends] using hweak
  obtain ⟨hnonzero, hle⟩ : strength ≠ 0 ∧ minimum ≤ strength := by
    simpa [Ends] using hweak
  have hstrength : strength = s.token.strength := Context.binaryStrength_eq hnonzero
  have hright : (if s.token.isRightAssociative then strength else strength + 1) =
      rightMinimum s.token := by
    rw [hstrength]
    rfl
  have hend : s.token ≠ .endOfSource := by
    intro heq
    rw [hstrength, heq] at hnonzero
    exact hnonzero rfl
  have hends : ∀ operator ∈ left.2, s.token.strength < rightMinimum operator := by
    intro operator hoperator
    rw [← hstrength]
    exact (h.ends operator hoperator).resolve_left hnonzero
  rw [if_neg hgoes]
  have hoperate : (∀ operator ∈ left.2, mixesCoalesce operator s.token = false) →
      (s.token = .exponentiate → isUnaryOrAwait left.1 = false) →
      Yields (operate ()) (fun found s' =>
        match found with
        | some longer => FoldedHere ctx minimum longer s'
        | none => Ready s' ∧ Folded minimum left ∧ Ends ctx minimum s') s := by
    intro hmixLeft hbase
    refine (checkCover_frame left.1 s).bind fun _ s₁ hs₁ => ?_
    subst hs₁
    refine (next_yields (s := { s with cover := Cover.none }) h.ready).bind fun _ s₂ hs₂ =>
      .run rfl ?_
    refine (hg.rightOperand_yields ctx hs₂.1 (hs₂.2 hend) (rightMinimum s.token)).bind
      fun operand s₃ hoperand => ?_
    rw [hright]
    refine (hg.nestedBinary_yields ctx _ _ hoperand.1 hoperand.2).bind fun right s₄ hfound => ?_
    obtain ⟨hs₄, hfolded, hrightEnds⟩ := hfound
    refine (refusePrivateName_frame right.1 s₄).bind fun _ s₅ hs₅ => ?_
    subst hs₅
    refine (checkCover_frame right.1 s₅).bind fun _ s₆ hs₆ => ?_
    subst hs₆
    refine (checkMixing_yields (some s.token) right.2 _).bind fun _ s₇ hs₇ => .run rfl ?_
    obtain ⟨rfl, hmixRight⟩ := hs₇
    have hgrouped := h.folded.grouped_link hfolded hends hbase hmixLeft
      fun operator hoperator => hmixRight s.token rfl operator hoperator
    split
    · exact (stops_failAt _ _).yields
    · rename_i e hnode
      refine .run rfl (.pure ⟨hs₄, ?_, ?_⟩)
      · exact folded_binaryNode hnode hgrouped h.folded.grouped hfolded.grouped (hstrength ▸ hle)
      · rintro _ ⟨⟩
        exact hrightEnds
  have happly : Yields (apply ()) (fun found s' =>
      match found with
      | some longer => FoldedHere ctx minimum longer s'
      | none => Ready s' ∧ Folded minimum left ∧ Ends ctx minimum s') s := by
    refine (checkMixing_yields left.2 (some s.token) s).bind fun _ s₁ hs₁ => ?_
    have hmix : ∀ operator ∈ left.2, mixesCoalesce operator s.token = false :=
      fun operator hoperator => hs₁.2 operator hoperator s.token rfl
    rw [hs₁.1]
    refine .run (isParenthesized_run h.ready left.1) ?_
    split
    · exact (stops_failAt _ _).bind
    · rename_i hnot
      refine hoperate hmix fun htoken => ?_
      simpa [htoken] using hnot
  split
  · exact (refusePrivateName_frame left.1 s).bind fun _ s₁ hs₁ => hs₁ ▸ happly
  · exact happly

/-- The loop ends before an operator that is too weak for it. -/
theorem binary_body (ctx : Context) (start : Nat) (left : Expression) (minimum : Nat) (s : State)
    (hs : Ready s) (hleft : Folded minimum (left, none)) :
    Yields (Grammar.binary g ctx start left minimum)
      (fun found s' => Ready s' ∧ Folded minimum found ∧ Ends ctx minimum s') s :=
  Yields.iterate_until (I := fun left s => FoldedHere ctx minimum left s)
    (fun _ _ h => (hg.binaryLink_yields ctx start minimum h).mono fun found _ hfound => by
      cases found <;> exact hfound)
    g.size (left, none) s ⟨hs, hleft, nofun⟩

/-- An arrow function is the whole of a binary expression, not an operand in one. -/
theorem binaryExpression (ctx : Context) : Builds .expression (binaryExpression g ctx) := by
  intro s hs
  unfold Grammar.binaryExpression
  refine .run rfl ((hg.unary_yields ctx hs).bind fun left s₁ hleft => ?_)
  refine .run (isBareArrow_run hleft.1 left) ?_
  split
  · exact .pure ⟨hleft.1, hleft.2.grouped⟩
  · rename_i hbare
    have htight : isLoose left = false :=
      Bool.eq_false_iff.mpr fun hloose => hbare (hleft.2.loose hloose).1
    have hfolded : Folded 1 (left, none) := ⟨hleft.2.grouped, htight, hleft.2.operator, nofun⟩
    refine (hg.binary_body ctx s.start left 1 s₁ hleft.1 hfolded).bind fun found s₂ hfound => ?_
    have hrest : Builds .expression (do refusePrivateName found.1; return found.1) :=
      .skip fun _ => .pure hfound.2.1.grouped
    exact hrest s₂ hfound.1

theorem conditional (ctx : Context) : Builds .expression (conditional g ctx) := by
  unfold Grammar.conditional
  refine .skip fun start => (hg.binaryExpression ctx).bind fun test htest => ?_
  refine .skip fun atQuestion => .skip fun isBare => ?_
  split
  · exact .pure htest
  · refine .skip fun _ => .skip fun _ => ?_
    refine (hg.assignment ctx.withIn).bind fun consequent hconsequent => .skip fun _ => ?_
    refine (hg.assignment ctx).bind fun alternate halternate => .skip fun _ => .skip fun span => ?_
    exact .pure (.triple trivial htest hconsequent halternate rfl)

theorem yieldExpression (ctx : Context) : Builds .expression (yieldExpression g ctx) := by
  unfold Grammar.yieldExpression
  refine .skip fun start => (stops_fail _).preserves_guard (.skip fun _ => .skip fun _ => ?_)
  refine .skip fun lineBreak => .skip fun delegate => .skip fun token => ?_
  extract_lets rest
  have hrest : ∀ argument, (∀ e ∈ argument, AllGrouped (.expression e)) →
      Builds .expression (rest argument) := by
    intro argument hargument
    refine .skip fun _ => .skip fun span => .pure (.node trivial ?_)
    exact Node.every_ofOption hargument
  split
  · exact (hg.assignment ctx).optional.bind hrest
  · exact Preserves.bind (.pure nofun) hrest

omit hg in
theorem patternTarget (ctx : Context) {left : Expression} (hleft : AllGrouped (.expression left))
    (cause : Cause) : Builds .pattern (patternTarget g ctx left cause) := by
  unfold Grammar.patternTarget
  refine .skip fun isMarked => ?_
  split
  · refine .skip fun _ => .skip fun c => (preserves_ofExcept _).mono fun p hok => ?_
    exact (toPattern_allIn (G := AllGrouped) left hok ⟨hleft⟩).all
  · exact .skip fun _ => builds_simpleTarget ctx hleft cause

omit hg in
theorem assignmentTarget (ctx : Context) (token : Token) {left : Expression}
    (hleft : AllGrouped (.expression left)) :
    Builds .pattern (assignmentTarget g ctx token left) := by
  unfold Grammar.assignmentTarget
  split
  · exact patternTarget ctx hleft _
  · exact .skip fun _ => builds_simpleTarget ctx hleft _

omit hg in
/-- An assignment expression starts at the current token. -/
theorem ready_assignmentStart {s : State} (hs : Ready s) :
    Ready { s with assignmentStart := some s.start } :=
  ⟨hs.token, fun _ hoffset => by simp_all [State.start], hs.marks⟩

theorem assignmentCover_body (ctx : Context) :
    Builds .expression (Grammar.assignmentCover g ctx) := by
  refine Keeps.nested (.skip fun atYield => ?_)
  split
  · exact hg.yieldExpression ctx
  · intro s hs
    refine .run rfl (.run rfl ?_)
    refine Preserves.bind (hg.conditional ctx) (fun left hleft => ?_) _ (ready_assignmentStart hs)
    refine .skip fun token => .skip fun isBare => ?_
    split
    · exact .pure hleft
    · split
      · exact stops_unexpected.preserves
      · refine (assignmentTarget ctx _ hleft).bind fun target htarget => .skip fun _ => ?_
        refine (hg.assignment ctx).bind fun right hright => .skip fun _ => .skip fun span => ?_
        exact .pure (.pair trivial htarget hright rfl)

end Phrases.Groups

end EcmaSyntax.Grammar
