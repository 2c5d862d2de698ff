import EcmaSyntax.Grammar.Call
import EcmaSyntax.Proofs.Places.Primary
import EcmaSyntax.Grammar.Operation

/-!
Expressions made of others. The token after `super` decides how it stands, before what is applied to
it has been read, so an operand is allowed as the next token takes it. `yield` and `await` leave a
mark where they stand, after which whatever contains them is exposed; targets and what is deleted
are looked at again without the parentheses around them.
-/

namespace EcmaSyntax.Grammar

open EcmaSyntax.Diagnostic EcmaSyntax.Lexer EcmaSyntax.Tree

variable {version : Nat} [Unicode.IdentifierChars version]

variable {α : Type} {q : Inquiry} {effect : Effect} {ctx : Context} {s : State}

/-- How an operand stands if a token follows, where calls may be applied to it. -/
def operandSlot (allowCalls : Bool) : Token → Slot
  | .leftParen => if allowCalls then .callee else .value
  | .dot | .leftBracket => .object
  | _ => .value

/-- An expression may stand before any token. -/
theorem AllowedAs.beforeToken {options : Options} {exposed : Prop} {grant : Grant}
    {e : Expression} (h : Allowed options exposed grant (.expression e)) (allowCalls : Bool)
    (token : Token) :
    AllowedAs options exposed grant (operandSlot allowCalls token) (.expression e) := by
  unfold operandSlot
  split
  · split
    · exact .operand h (.inl rfl)
    · exact h
  · exact .operand h (.inr rfl)
  · exact .operand h (.inr rfl)
  · exact h

/-- `super` and what is known of it from the token that follows. -/
theorem superExpression_meets (options : Options) (ctx : Context) (allowCall : Bool) (s : State) :
    Meets Failure.IsImmediate (superExpression ctx allowCall) (fun e s' => Moves s s' ∧
      (∃ span, e = .superKeyword span) ∧ ∀ exposed,
        AllowedAs options exposed ctx.grant (operandSlot allowCall s'.token)
          (.expression e)) s := by
  unfold superExpression
  refine .run rfl (((inferInstance : Light next).moves s).bind fun _ s₁ h₁ => .run rfl ?_)
  replace h₁ := h₁.toMoves
  extract_lets rest
  have hrest : ∀ s₂, Moves s₁ s₂ → s₂.token = s₁.token →
      (∀ span exposed, AllowedAs options exposed ctx.grant (operandSlot allowCall s₁.token)
        (.expression (.superKeyword span))) →
      Meets Failure.IsImmediate (rest ⟨⟩) (fun e s' => Moves s s' ∧
        (∃ span, e = .superKeyword span) ∧ ∀ exposed,
          AllowedAs options exposed ctx.grant (operandSlot allowCall s'.token)
            (.expression e)) s₂ := by
    intro s₂ h₂ htoken hallowed
    have hmoves := (inferInstance : Light plainExpression).moves s₂
    refine .run rfl (.run rfl (.pure ⟨?_, ⟨_, rfl⟩, fun exposed => ?_⟩))
    · exact (h₁.trans h₂).trans (hmoves.result rfl).toMoves
    · change AllowedAs options exposed ctx.grant (operandSlot allowCall s₂.token) _
      rw [htoken]
      exact hallowed _ exposed
  split
  · rename_i hcall
    obtain ⟨htoken, rfl⟩ := Bool.and_eq_true_iff.mp hcall
    split
    · exact ((tells_failAt s₁).bind fun _ _ h => h.2.elim)
    · rename_i hderived
      refine hrest s₁ .refl rfl fun span exposed => ?_
      rw [show s₁.token = .leftParen from beq_iff_eq.mp htoken]
      exact .superCall (show ctx.inDerivedConstructor = true by simpa using hderived)
  · split
    · rename_i hmember
      split
      · exact ((tells_failAt s₁).bind fun _ _ h => h.2.elim)
      · rename_i hmethod
        have hsuper : ∀ span exposed, AllowedAs options exposed ctx.grant
            (operandSlot allowCall s₁.token) (.expression (.superKeyword span)) := by
          have hobject : operandSlot allowCall s₁.token = .object := by
            rcases Bool.or_eq_true_iff.mp hmember with h | h
            · rw [show s₁.token = .dot from beq_iff_eq.mp h]
              rfl
            · rw [show s₁.token = .leftBracket from beq_iff_eq.mp h]
              rfl
          rw [hobject]
          exact fun _ _ => .superObject (show ctx.inMethod = true by simpa using hmethod)
        refine ((peeks_peekToken.result _).and _ s₁).bind fun isPrivate s₂ h₂ => ?_
        split
        · exact ((tells_failAt s₂).bind fun _ _ h => h.2.elim)
        · exact hrest s₂ h₂.1.toMoves h₂.2 hsuper
    · exact ((tells_failAt s₁).bind fun _ _ h => h.2.elim)

/-- Whether an expression is an arrow function can be seen without moving on. -/
theorem isBareArrow_returns (e : Expression) (s : State) :
    ∃ bare, isBareArrow e s = .ok bare s := by
  cases e <;> exact ⟨_, rfl⟩

section Targets

theorem allowed_binaryNode {options : Options} {exposed : Prop} {grant : Grant}
    {span : Text.Span} {token : Token} {left right e : Expression}
    (h : binaryNode span token left right = some e)
    (hleft : Allowed options exposed grant (.expression left))
    (hright : Allowed options exposed grant (.expression right)) :
    Allowed options exposed grant (.expression e) := by
  unfold binaryNode at h
  split at h
  · cases h
    exact .pair rfl hleft hright rfl
  · obtain ⟨operator, -, rfl⟩ := Option.map_eq_some_iff.mp h
    exact .pair rfl hleft hright rfl

theorem tells_checkUpdateTarget (ctx : Context) (target : Expression) (position : String) :
    Tells (fun _ => ctx.strict = true → ∀ id, target.withoutParens = .identifier id →
      IsAssignable id.name) (checkUpdateTarget ctx target position) := by
  unfold checkUpdateTarget
  refine .skip fun s => ?_
  split
  · exact .absurd tells_failAt
  · split
    · rename_i id hid
      intro s
      refine (tells_checkTarget ctx id s).mono fun _ _ h => ⟨h.1, fun hstrict other hother => ?_⟩
      rw [hid] at hother
      cases hother
      exact isAssignable_of_target h.2 hstrict
    · rename_i hmember
      refine .pure fun _ id hid => ?_
      rw [hmember] at hid
      cases hid
    · exact .absurd tells_failAt

/-- Strict code deletes no name, in parentheses or not. -/
theorem tells_checkDelete (ctx : Context) (argument : Expression) (start : Nat) :
    Tells (fun _ => ctx.strict = true → ∀ id, argument.withoutParens ≠ .identifier id)
      (checkDelete ctx argument start) := by
  unfold checkDelete
  split
  · split
    · exact .absurd tells_failAt
    · rename_i hsloppy
      exact .pure fun hstrict => absurd hstrict hsloppy
  · exact .absurd tells_failAt
  · rename_i hname _
    refine .pure fun _ id hid => hname id ?_
    unfold deleteTarget
    rw [hid]

/-- The pattern for a literal has no default of its own. -/
theorem isTarget_of_toPattern {c : Conversion} {e : Expression} {p : Pattern}
    (he : isArrayOrObject e = true) (h : toPattern c e = .ok p) : p.IsTarget := by
  have hparens : c.parenthesizedTarget e ≠ .ok p := by
    unfold Conversion.parenthesizedTarget
    cases e <;> simp_all [isArrayOrObject, Expression.withoutParens, Conversion.invalidTarget]
  unfold toPattern at h
  cases e with
  | array span elements =>
    dsimp only at h
    split at h
    · exact absurd h hparens
    · cases hps : toPatterns c elements with
      | error failure => rw [hps] at h; cases h
      | ok ps => rw [hps] at h; cases h; trivial
  | object span members =>
    dsimp only at h
    split at h
    · exact absurd h hparens
    · cases hps : toProperties c [] members with
      | error failure => rw [hps] at h; cases h
      | ok ps => rw [hps] at h; cases h; trivial
  | _ => cases he

/-- The pattern is spelled as a target is, and stands where the expression did. -/
abbrev Targets (options : Options) (grant : Grant) (left : Expression) (p : Pattern) : Prop :=
  ∀ exposed, Allowed options exposed grant (.expression left) →
    p.IsTarget ∧ Allowed options exposed grant (.pattern p)

/-- A target that is a name or a member stands where the expression did. -/
theorem tells_simpleTarget (options : Options) (grant : Grant) (ctx : Context) (left : Expression)
    (cause : Cause) [cause.IsImmediate] (hstrict : grant.strict = true → ctx.strict = true) :
    Tells (Targets options grant left) (simpleTarget ctx left cause) := by
  unfold simpleTarget
  refine .skip fun s => .guard tells_failAt fun _ => ?_
  have hinner : ∀ {exposed : Prop} {place : Place},
      Allowed options exposed grant (.expression left) →
      CoversPlace options exposed grant place → ∃ slot, slot ≠ .name ∧
        Suits options (place.as slot) (.expression left.withoutParens) :=
    fun hleft hplace => suits_withoutParens (show Slot.value ≠ .name by rintro ⟨⟩) (hleft _ hplace)
  split
  · rename_i id hid
    refine .bind (tells_checkTarget ctx id) fun _ htarget => ?_
    refine .pure fun exposed hleft => ⟨?_, fun place hplace => ?_⟩
    · obtain ⟨slot, hslot, h⟩ := hinner hleft covers_constructor
      rw [hid] at h
      exact ⟨h.here.spelling.1, h.here.spelling.2 hslot⟩
    · obtain ⟨slot, hslot, h⟩ := hinner hleft hplace
      rw [hid] at h
      exact suits_identifier fun hstrict' => ⟨isUnreserved_of_suits hslot h hstrict',
        isAssignable_of_target htarget (hstrict (hplace.strict hstrict'))⟩
  · rename_i hmember
    refine .pure fun exposed hleft => ⟨trivial, fun place hplace => ?_⟩
    obtain ⟨slot, -, h⟩ := hinner hleft hplace
    rw [hmember] at h
    exact suits_member h
  · exact .absurd tells_failAt

theorem tells_patternTarget (g : Phrases) (ctx : Context) (left : Expression) (cause : Cause)
    [cause.IsImmediate] (options : Options) :
    Tells (Targets options ctx.grant left) (patternTarget g ctx left cause) := by
  unfold patternTarget
  refine .skip fun isMarked => ?_
  split
  · rename_i hliteral
    refine .skip fun _ => .bind (tells_conversion _ _ _) fun c hc => ?_
    have hgives : Gives (Replaces options c left) (toPattern c left) := gives_toPattern left
    refine fun s => (hgives.noted.tells s).mono fun p _ hp => ⟨hp.1, fun exposed hleft => ?_⟩
    exact ⟨isTarget_of_toPattern (Bool.and_eq_true_iff.mp hliteral).1 hp.2.1,
      hp.2.2.allowed (fun hstrict => hc ▸ hstrict) hleft⟩
  · exact .skip fun _ => tells_simpleTarget options ctx.grant ctx left cause id

theorem tells_assignmentTarget (g : Phrases) (ctx : Context) (token : Token) (left : Expression)
    (options : Options) :
    Tells (Targets options ctx.grant left) (assignmentTarget g ctx token left) := by
  unfold assignmentTarget
  split
  · exact tells_patternTarget g ctx left _ options
  · exact .skip fun _ => tells_simpleTarget options ctx.grant ctx left _ id

end Targets

namespace Phrases.KeepPlacement

variable {g : Phrases} (hg : g.KeepPlacement q)

include hg

theorem computedProperty (ctx : Context) :
    Obeys q .none ctx .expression (Grammar.computedProperty g ctx) := by
  unfold Grammar.computedProperty
  exact .skip fun _ => (hg.expression ctx.withIn).bind fun e => .skip fun _ => .pure fun _ he => he

section Chains

variable (ctx : Context) (start : Nat)

theorem optionalLink (object : Expression) : KeepsPlacement q .none (fun exposed e =>
    Allowed q.options exposed ctx.grant (.expression object) →
      Allowed q.options exposed ctx.grant (.expression e))
      (Grammar.optionalLink g ctx start object) := by
  unfold Grammar.optionalLink
  refine .skip fun token => ?_
  split
  · refine (hg.arguments ctx).bind fun args => .skip fun span => .pure fun _ hargs hobject => ?_
    exact .call (.operand hobject (.inl rfl)) hargs
  · refine (hg.computedProperty ctx).bind fun property => .skip fun span => .pure ?_
    exact fun _ hproperty hobject => .member (.operand hobject (.inr rfl)) hproperty
  · exact keepsPlacement_fail
  · exact keepsPlacement_fail
  · refine (keepsPlacement_memberName ctx).bind fun property => .skip fun span => ?_
    exact .pure fun _ hproperty hobject => .member (.operand hobject (.inr rfl)) hproperty

/-- One more application, or the operand as it is. -/
def Extends (options : Options) (exposed : Prop) (grant : Grant) (chain : Chain) :
    Option Chain → Prop
  | some longer => Allowed options exposed grant (.expression longer.expression)
  | none => Allowed options exposed grant (.expression chain.expression)

theorem chainLink (allowCalls : Bool) (chain : Chain) (s : State) :
    KeepsPlacementAt q .none (fun exposed found =>
      AllowedAs q.options exposed ctx.grant (operandSlot allowCalls s.token)
        (.expression chain.expression) → Extends q.options exposed ctx.grant chain found)
      (Grammar.chainLink g ctx start allowCalls chain) s := by
  unfold Grammar.chainLink
  refine .look rfl ?_
  split
  case h_1 htoken =>
    rw [htoken]
    refine .skip fun _ _ _ => .skip fun _ s₁ _ =>
      (keepsPlacement_memberName ctx).bind (fun property => ?_) s₁
    refine .skip fun _ => .skip fun span => .pure fun _ hproperty hobject => ?_
    exact .member hobject hproperty
  case h_2 htoken =>
    rw [htoken]
    refine .skip fun _ s₁ _ => (hg.computedProperty ctx).bind (fun property => ?_) s₁
    refine .skip fun _ => .skip fun span => .pure fun _ hproperty hobject => ?_
    exact .member hobject hproperty
  case h_3 htoken =>
    rw [htoken]
    split
    · rename_i hcalls
      rw [show operandSlot allowCalls .leftParen = .callee from if_pos hcalls]
      refine .skip fun _ s₁ _ => (hg.arguments ctx).bind (fun args => ?_) s₁
      exact .skip fun _ => .skip fun span => .pure fun _ hargs hcallee => .call hcallee hargs
    · rename_i hcalls
      rw [show operandSlot allowCalls .leftParen = .value from if_neg hcalls]
      exact .pure fun _ hobject => hobject
  case h_4 htoken =>
    rw [htoken]
    refine KeepsPlacement.guard tells_fail (fun _ => .skip fun _ => .skip fun _ => ?_) s
    refine (hg.optionalLink ctx start chain.expression).bind fun e => .skip fun _ => ?_
    exact .pure fun _ he hobject => he hobject
  case h_7 hdot hbracket hparen hquestion hsingle htemplate =>
    refine .pure fun exposed hobject => ?_
    have hslot : operandSlot allowCalls s.token = .value := by
      unfold operandSlot
      split
      · rename_i htoken
        exact absurd htoken hparen
      · rename_i htoken
        exact absurd htoken hdot
      · rename_i htoken
        exact absurd htoken hbracket
      · rfl
    rwa [hslot] at hobject
  all_goals
    rename_i htoken
    rw [htoken]
    refine KeepsPlacement.guard tells_fail (fun _ => .skip fun _ => ?_) s
    refine (hg.template ctx true).bind fun parts => .skip fun _ => .skip fun span => .pure ?_
    exact fun _ hparts hobject => .consList rfl hobject hparts rfl

theorem callTail (e : Expression) (allowCalls : Bool) (s : State) :
    KeepsPlacementAt q .none (fun exposed r =>
      AllowedAs q.options exposed ctx.grant (operandSlot allowCalls s.token) (.expression e) →
        Allowed q.options exposed ctx.grant (.expression r))
      (Grammar.callTail g ctx start e allowCalls) s := by
  have hlater : ∀ fuel chain, KeepsPlacement q .none (fun exposed (r : Chain) =>
      Allowed q.options exposed ctx.grant (.expression chain.expression) →
        Allowed q.options exposed ctx.grant (.expression r.expression))
      (iterate (Grammar.chainLink g ctx start allowCalls) fuel chain) :=
    fun fuel => keepsPlacement_iterate (P := fun exposed (chain : Chain) =>
      Allowed q.options exposed ctx.grant (.expression chain.expression)) (fun chain s => by
        refine (hg.chainLink ctx start allowCalls chain s).mono
          fun exposed found hfound hchain => ?_
        rintro longer hlonger
        have hextends := hfound (hchain.beforeToken allowCalls s.token)
        rwa [Option.mem_def.mp hlonger] at hextends) fuel
  have hall : KeepsPlacementAt q .none (fun exposed (r : Chain) =>
      AllowedAs q.options exposed ctx.grant (operandSlot allowCalls s.token) (.expression e) →
        Allowed q.options exposed ctx.grant (.expression r.expression))
      (iterate (Grammar.chainLink g ctx start allowCalls) g.size ⟨e, false⟩) s := by
    cases g.size with
    | zero => exact keepsPlacement_exhausted s
    | succ fuel =>
      unfold iterate
      refine (hg.chainLink ctx start allowCalls ⟨e, false⟩ s).bind fun found s₁ _ => ?_
      cases found with
      | none => exact .pure fun _ hextends he => hextends he
      | some longer =>
        exact (hlater fuel longer s₁).mono fun _ _ hr hextends he => hr (hextends he)
  unfold Grammar.callTail
  refine hall.bind fun chain s₁ _ => ?_
  split
  · refine .skip fun _ _ _ => .skip fun span _ _ => .pure fun _ hchain he => ?_
    exact .single rfl (hchain he) rfl
  · exact .pure fun _ hchain he => hchain he

end Chains

section Operands

variable (ctx : Context)

theorem importCall (start : Nat) :
    Obeys q .none ctx .expression (Grammar.importCall g ctx start) := by
  unfold Grammar.importCall
  refine .skip fun _ => .skip fun atClose => .skip fun atSpread => .guard tells_fail fun _ => ?_
  refine (hg.assignment ctx.withIn).bind fun source => .skip fun hasOptions => ?_
  extract_lets rest
  have hrest : ∀ options, KeepsPlacement q .none (fun exposed e =>
      (∀ x ∈ options, Allowed q.options exposed ctx.grant (.expression x)) →
        Allowed q.options exposed ctx.grant (.expression source) →
          Allowed q.options exposed ctx.grant (.expression e)) (rest options) := by
    intro options
    refine .skip fun atClose => .guard tells_fail fun _ => .skip fun _ => .skip fun _ => ?_
    refine .skip fun span => .pure fun _ hoptions hsource => .node rfl ?_
    exact List.forall_mem_cons.mpr ⟨hsource, AllowedAs.ofOption hoptions⟩
  split
  · refine .skip fun atSpread => .guard tells_fail fun _ => ?_
    refine (hg.assignment ctx.withIn).bind fun e => .skip fun _ => ?_
    refine (hrest (some e)).mono fun _ _ hcall he => hcall ?_
    rintro _ ⟨⟩
    exact he
  · exact (hrest none).mono fun _ _ hcall => hcall nofun

theorem importExpression : Obeys q .none ctx .expression (Grammar.importExpression g ctx) := by
  unfold Grammar.importExpression
  refine .skip fun s => .skip fun _ => .skip fun _ => .skip fun token => ?_
  split
  · refine .skip fun _ => .skip fun atMeta => ?_
    dsimp only
    split
    · exact .skip fun raw => .tells tells_fail fun _ => False.elim
    · refine .guard tells_failAt fun _ => .skip fun property => .skip fun span => .pure fun _ => ?_
      exact .metaProperty (.inr rfl) fun hname =>
        absurd (show "import" = "new" from hname) (by decide)
  · exact hg.importCall ctx _
  · exact keepsPlacement_unexpected

/-- What follows a callee knows how it may stand there. -/
theorem newCallee {P : Prop → α → Prop} {rest : Expression → Parser α} {s : State}
    (hrest : ∀ e s', KeepsPlacementAt q .none (fun exposed a =>
      AllowedAs q.options exposed ctx.grant (operandSlot false s'.token) (.expression e) →
        P exposed a) (rest e) s') :
    KeepsPlacementAt q .none P (Grammar.newCallee g ctx >>= rest) s := by
  have hread : ∀ e s', KeepsPlacementAt q .none (fun exposed a =>
      Allowed q.options exposed ctx.grant (.expression e) → P exposed a) (rest e) s' :=
    fun e s' => (hrest e s').mono fun _ _ ha he => ha (he.beforeToken false s'.token)
  unfold Grammar.newCallee
  rw [bind_assoc]
  refine .look rfl ?_
  rw [bind_assoc]
  refine .look rfl ?_
  split
  · exact (hg.newCall ctx s).bind fun e s' _ => hread e s'
  · rw [bind_assoc]
    refine .look rfl ?_
    split
    · refine .moves (superExpression_meets q.options ctx false s) fun e s' _ he => ?_
      exact (hrest e s').mono fun exposed _ ha => ha (he.2 exposed)
    · rw [bind_assoc]
      refine .look rfl ?_
      split
      · rw [bind_assoc]
        refine (hg.importExpression ctx s).bind fun e s' _ => ?_
        split
        · exact .tells tells_failAt fun _ _ _ => False.elim
        · exact hread e s'
      · exact (hg.primary ctx s).bind fun e s' _ => hread e s'

theorem newCall_body : Obeys q .none ctx .expression (Grammar.newCall g ctx) := by
  refine KeepsPlacement.nested fun s => .look rfl (.skip fun _ _ _ => .skip fun atDot s₁ _ => ?_)
  split
  · refine .skip fun atTarget s₂ _ => ?_
    dsimp only
    split
    · exact .skip fun raw _ _ => .tells tells_fail fun _ _ _ => False.elim
    · refine KeepsPlacement.guard tells_failAt (fun htarget => ?_) s₂
      refine .skip fun property => .skip fun _ => .skip fun span => .pure fun _ => ?_
      exact .metaProperty (.inl rfl) fun _ => show ctx.newTarget = true by simpa using htarget
  · refine .skip fun calleeStart s₂ _ => hg.newCallee ctx fun inner s₃ => ?_
    refine (hg.callTail ctx calleeStart inner false s₃).bind fun callee s₄ _ => ?_
    refine KeepsPlacement.skip (fun hasArgs => ?_) s₄
    extract_lets rest
    have hrest : ∀ args, KeepsPlacement q .none (fun exposed e =>
        (∀ x ∈ args, Allowed q.options exposed ctx.grant (.element x)) →
          Allowed q.options exposed ctx.grant (.expression callee) →
            Allowed q.options exposed ctx.grant (.expression e)) (rest args) := fun args =>
      .skip fun _ => .skip fun span => .pure fun _ hargs hcallee => .consList rfl hcallee hargs rfl
    split
    · refine ((hg.arguments ctx).bind hrest).mono fun _ _ he hinner hslot => he (hinner hslot)
    · refine KeepsPlacement.mono (KeepsPlacement.bind (.pure fun _ => nofun) hrest)
        fun _ _ he hinner hslot => he (hinner hslot)

theorem leftHandSide_body : Obeys q .none ctx .expression (Grammar.leftHandSide g ctx) := by
  unfold Grammar.leftHandSide
  refine fun s => .look rfl (.look rfl ?_)
  extract_lets rest
  have hrest : ∀ e s', KeepsPlacementAt q .none (fun exposed r =>
      Allowed q.options exposed ctx.grant (.expression e) →
        Allowed q.options exposed ctx.grant (.expression r)) (rest e) s' := by
    intro e s'
    obtain ⟨bare, hbare⟩ := isBareArrow_returns e s'
    refine .look hbare ?_
    split
    · exact .pure fun _ he => he
    · refine (hg.callTail ctx s.start e true s').mono fun _ _ hr he => ?_
      exact hr (he.beforeToken true s'.token)
  split
  · exact (hg.newCall_body ctx s).bind fun e s' _ => hrest e s'
  · refine .look rfl (.look rfl ?_)
    split
    · refine .moves (superExpression_meets q.options ctx true s) fun e s' _ he => ?_
      obtain ⟨⟨span, rfl⟩, he⟩ := he
      refine .look rfl ((hg.callTail ctx s.start _ true s').mono fun exposed _ hr => ?_)
      exact hr (he exposed)
    · split
      · exact (hg.importExpression ctx s).bind fun e s' _ => hrest e s'
      · exact (hg.primary ctx s).bind fun e s' _ => hrest e s'

end Operands

section Unary

variable (ctx : Context)

theorem operand : Obeys q .none ctx .expression (nested (next >>= fun _ => g.unary ctx)) :=
  KeepsPlacement.nested (.skip fun _ => hg.unary ctx)

theorem unaryOperation (start : Nat) (token : Token) :
    Obeys q .none ctx .expression (Grammar.unaryOperation g ctx start token) := by
  unfold Grammar.unaryOperation
  refine (hg.operand ctx).bind fun argument => .skip fun _ => ?_
  split
  · exact keepsPlacement_failAt
  · rename_i operator _
    extract_lets rest
    have hrest : ∀ u, (operator = .delete → ctx.strict = true →
        ∀ id, argument.withoutParens ≠ .identifier id) → KeepsPlacement q .none (fun exposed e =>
          Allowed q.options exposed ctx.grant (.expression argument) →
            Allowed q.options exposed ctx.grant (.expression e)) (rest u) :=
      fun u hdelete => .skip fun _ => .skip fun span => .pure fun _ => .unary hdelete
    split
    · exact .tells (tells_checkDelete _ _ _) fun u hdelete => hrest u fun _ => hdelete
    · rename_i hother
      exact hrest () fun hdelete => absurd (beq_iff_eq.mpr hdelete) hother

theorem updateBefore (start : Nat) (token : Token) :
    Obeys q .none ctx .expression (Grammar.updateBefore g ctx start token) := by
  unfold Grammar.updateBefore
  refine (hg.operand ctx).bind fun argument => ?_
  refine .tells (tells_checkUpdateTarget _ _ _) fun _ htarget => .skip fun _ => ?_
  exact .skip fun span => .pure fun _ => .update htarget

theorem awaitOperation (hasync : ctx.inAsync = true) (s : State) :
    KeepsPlacementAt q .none (fun exposed e => Allowed q.options exposed ctx.grant (.expression e))
      (Grammar.awaitOperation g ctx s.start) s := by
  unfold Grammar.awaitOperation
  split
  · exact .tells tells_fail fun _ _ _ => False.elim
  · rename_i hparameters
    refine .mark rfl rfl rfl (.inr rfl) ((hg.operand ctx).bind (fun argument => ?_) _)
    refine .skip fun _ => .skip fun _ => .skip fun span => .pure fun _ hargument hexposed => ?_
    exact .await hexposed (Bool.eq_false_iff.mpr hparameters) hasync hargument

theorem updateAfter : Obeys q .none ctx .expression (Grammar.updateAfter g ctx) := by
  unfold Grammar.updateAfter
  refine .skip fun start => (hg.leftHandSide_body ctx).bind fun e => ?_
  refine .skip fun token => .skip fun lineBreak => .skip fun isBare => ?_
  split
  · exact .pure fun _ he => he
  · refine .skip fun _ => .tells (tells_checkUpdateTarget _ _ _) fun _ htarget => ?_
    exact .skip fun _ => .skip fun _ => .skip fun span => .pure fun _ => .update htarget

theorem unary_body : Obeys q .none ctx .expression (Grammar.unary g ctx) := by
  unfold Grammar.unary
  refine fun s => .look rfl (.look rfl (.look rfl ?_))
  split
  · exact hg.unaryOperation ctx _ _ s
  · split
    · exact hg.updateBefore ctx _ _ s
    · refine .look rfl ?_
      split
      · rename_i hawait
        exact hg.awaitOperation ctx (Bool.and_eq_true_iff.mp hawait).1 s
      · exact hg.updateAfter ctx s

end Unary

section Binary

variable (ctx : Context) (start : Nat)

/-- One round of the loop over binary operators. -/
theorem binaryLink (minimum : Nat) (left : Expression × Option Token) :
    KeepsPlacement q .none (fun exposed found =>
      Allowed q.options exposed ctx.grant (.expression left.1) →
        ∀ longer ∈ found, Allowed q.options exposed ctx.grant (.expression longer.1))
      (Grammar.binaryLink g ctx start minimum left) := by
  unfold Grammar.binaryLink
  refine .skip fun token => ?_
  extract_lets strength operate apply
  have hoperate : ∀ u, KeepsPlacement q .none (fun exposed found =>
      Allowed q.options exposed ctx.grant (.expression left.1) →
        ∀ longer ∈ found, Allowed q.options exposed ctx.grant (.expression longer.1))
      (operate u) := by
    refine fun _ => .skip fun _ => .skip fun _ => .skip fun rightStart => ?_
    refine (hg.unary_body ctx).bind fun operand => ?_
    refine KeepsPlacement.bind (.nested (hg.binary ctx _ operand _)) fun right => ?_
    refine .skip fun _ => .skip fun _ => .skip fun _ => .skip fun span => ?_
    split
    · exact keepsPlacement_failAt
    · rename_i e hnode
      refine .skip fun _ => .pure fun _ hright hoperand hleft => ?_
      rintro _ ⟨⟩
      exact allowed_binaryNode hnode hleft (hright hoperand)
  have happly : ∀ u, KeepsPlacement q .none (fun exposed found =>
      Allowed q.options exposed ctx.grant (.expression left.1) →
        ∀ longer ∈ found, Allowed q.options exposed ctx.grant (.expression longer.1))
      (apply u) :=
    fun _ => .skip fun _ => .skip fun isMarked => .guard tells_failAt fun _ => hoperate ()
  split
  · refine .pure fun _ _ => ?_
    rintro _ ⟨⟩
  · split
    · exact .skip happly
    · exact happly ()

theorem binary_body (left : Expression) (minimum : Nat) :
    KeepsPlacement q .none (fun exposed found =>
    Allowed q.options exposed ctx.grant (.expression left) →
      Allowed q.options exposed ctx.grant (.expression found.1))
      (Grammar.binary g ctx start left minimum) :=
  keepsPlacement_iterate (P := fun exposed (found : Expression × Option Token) =>
    Allowed q.options exposed ctx.grant (.expression found.1))
    (fun found => hg.binaryLink ctx start minimum found) g.size (left, none)

theorem binaryExpression : Obeys q .none ctx .expression (Grammar.binaryExpression g ctx) := by
  unfold Grammar.binaryExpression
  refine .skip fun start => (hg.unary_body ctx).bind fun left => .skip fun isBare => ?_
  split
  · exact .pure fun _ hleft => hleft
  · refine (hg.binary_body ctx start left 1).bind fun found => ?_
    exact .skip fun _ => .pure fun _ hfound hleft => hfound hleft

theorem conditional : Obeys q .none ctx .expression (Grammar.conditional g ctx) := by
  unfold Grammar.conditional
  refine .skip fun start => (hg.binaryExpression ctx).bind fun test => ?_
  refine .skip fun atQuestion => .skip fun isBare => ?_
  split
  · exact .pure fun _ htest => htest
  · refine .skip fun _ => .skip fun _ => (hg.assignment ctx.withIn).bind fun consequent => ?_
    refine .skip fun _ => (hg.assignment ctx).bind fun alternate => .skip fun _ => ?_
    exact .skip fun span => .pure fun _ halternate hconsequent htest =>
      .triple rfl htest hconsequent halternate rfl

end Binary

section Assignment

variable (ctx : Context)

theorem yieldExpression (hgenerator : ctx.inGenerator = true) :
    Obeys q .none ctx .expression (Grammar.yieldExpression g ctx) := by
  unfold Grammar.yieldExpression
  intro s
  refine .look rfl ?_
  split
  · exact .tells tells_fail fun _ _ _ => False.elim
  · rename_i hparameters
    refine .mark rfl rfl rfl (.inl rfl) (KeepsPlacement.skip (fun _ => ?_) _)
    refine .skip fun lineBreak => .skip fun delegate => .skip fun token => ?_
    extract_lets rest
    have hrest : ∀ argument, KeepsPlacement q .none (fun exposed e =>
        (∀ x ∈ argument, Allowed q.options exposed ctx.grant (.expression x)) →
          exposed → Allowed q.options exposed ctx.grant (.expression e)) (rest argument) := by
      intro argument
      refine .skip fun _ => .skip fun span => .pure fun _ hargument hexposed => ?_
      exact .yield hexposed (Bool.eq_false_iff.mpr hparameters) hgenerator hargument
    split
    · exact (hg.assignment ctx).optional.bind hrest
    · exact KeepsPlacement.bind (.pure fun _ => nofun) hrest

theorem assignmentCover_body : Obeys q .none ctx .expression (Grammar.assignmentCover g ctx) := by
  refine KeepsPlacement.nested (.skip fun atYield => ?_)
  split
  · rename_i hyield
    exact hg.yieldExpression ctx (Bool.and_eq_true_iff.mp hyield).1
  · refine .skip fun start => .skip fun _ => (hg.conditional ctx).bind fun left => ?_
    refine .skip fun token => .skip fun isBare => ?_
    split
    · exact .pure fun _ hleft => hleft
    · split
      · exact keepsPlacement_unexpected
      · refine .tells (tells_assignmentTarget g ctx _ left q.options) fun target htarget => ?_
        refine .skip fun _ => (hg.assignment ctx).bind fun right => .skip fun _ => ?_
        refine .skip fun span => .pure fun exposed hright hleft => ?_
        exact .assignment (htarget exposed hleft).1 (htarget exposed hleft).2 hright

end Assignment

end Phrases.KeepPlacement

end EcmaSyntax.Grammar
