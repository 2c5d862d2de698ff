import EcmaSyntax.Proofs.Places.Function
import EcmaSyntax.Proofs.Places.Phrases

/-!
Primary expressions. The parameters of an arrow function are read before it is known that
they are some. If an arrow follows, nothing in them may be exposed, their names are declared
once it is reached, and the body decides about the strictness of both.
-/

namespace EcmaSyntax.Grammar

open EcmaSyntax.Diagnostic EcmaSyntax.Lexer EcmaSyntax.Scope EcmaSyntax.Tree

variable {version : Nat} [Unicode.IdentifierChars version]

variable {α β : Type} {q : Inquiry} {effect : Effect} {s : State}

section Arrows

variable {options : Options} {ctx : Context} {params : List Pattern} {isAsync simple : Bool}

/-- The body makes the code strict. -/
def ArrowBody.startsStrict : ArrowBody → Bool
  | .concise _ => false
  | .block _ body _ => Tree.startsStrict body

/-- The code in the body is strict, if it starts in a context. -/
def ArrowBody.isStrict (inner : Context) : ArrowBody → Bool
  | .concise _ => inner.strict
  | .block _ _ strict => strict

/-- What stands in the body is allowed in the code that it makes strict. -/
def ArrowBody.Fits (options : Options) (ctx : Context) (isAsync simple : Bool) : ArrowBody → Prop
  | .concise e => Allowed options True (ctx.enterArrow isAsync).grant (.expression e)
  | .block _ body strict => ∃ after, strict = after.strict ∧
      BodyFits options (ctx.enterArrow isAsync) simple (body, after)

theorem ArrowBody.Fits.isStrict_eq {body : ArrowBody} (h : body.Fits options ctx isAsync simple) :
    body.isStrict (ctx.enterArrow isAsync) = (ctx.strict || body.startsStrict) := by
  have hctx : (ctx.enterArrow isAsync).strict = ctx.strict :=
    congrArg Grant.strict (grant_enterArrow ctx isAsync)
  cases body with
  | concise e => exact hctx.trans (Bool.or_false _).symm
  | block bodySpan body strict =>
    obtain ⟨after, rfl, hbody⟩ := h
    rw [← hctx]
    exact congrArg Context.strict hbody.context

/-- An arrow function with its parameters in the order in which they were checked. -/
structure ArrowFits (options : Options) (ctx : Context) (isAsync : Bool) (params : List Pattern)
    (body : ArrowBody) : Prop where
  fits : body.Fits options ctx isAsync (params.all Pattern.isSimple)
  distinct : AreDistinct (parameterNames params)
  bindable : body.startsStrict = true → ctx.strict = false →
    ∀ p ∈ params, ∀ id ∈ p.boundNames, IsBindable id.name

theorem declareEach_run (options : Options) (ctx : Context) (names : List Identifier) (s : State) :
    names.forM (fun id => declare options ctx .parameter id.name id.span.start) s =
      .ok ⟨⟩ { s with scopes := declareNames (ctx.manner options .parameter) s.scopes names } := by
  induction names generalizing s with
  | nil => rfl
  | cons id rest ih => exact (bind_of_ok (declare_run s)).trans (ih _)

/-- Patterns as parameters declare their names in order. -/
theorem declarePatterns_run (options : Options) (ctx : Context) (params : List Pattern)
    (s : State) : params.forM (declarePattern options ctx .parameter) s =
      .ok ⟨⟩ { s with
        scopes := declareNames (ctx.manner options .parameter) s.scopes
          (parameterNames params) } := by
  induction params generalizing s with
  | nil => rfl
  | cons p rest ih =>
    have hnames : parameterNames (p :: rest) = p.boundNames ++ parameterNames rest := rfl
    rw [hnames, declareNames_append]
    exact (bind_of_ok (declareEach_run options ctx p.boundNames s)).trans (ih _)

theorem KeepsPlacementAt.declaredPatterns {Q : Prop → β → Prop} {rest : PUnit → Parser β}
    (hrest : KeepsPlacementAt q .current Q (rest ⟨⟩)
      { s with
        scopes := declareNames (ctx.manner options .parameter) s.scopes (parameterNames params) }) :
    KeepsPlacementAt q .current Q
      (params.forM (declarePattern options ctx .parameter) >>= rest) s := by
  intro hs
  refine .run (declarePatterns_run options ctx params s) ((hrest hs).mono fun b s' hb => ?_)
  have houter : Effect.current.Allows s.scopes
      (declareNames (ctx.manner options .parameter) s.scopes (parameterNames params)) :=
    outer_declareNames _ _ _
  exact ⟨hb.oriented, hb.start_le, houter.trans hb.scopes, hb.calm⟩

theorem ArrowFits.allowed {body : ArrowBody} {span : Text.Span} {exposed : Prop}
    (h : ArrowFits options ctx isAsync params body)
    (hparams : ∀ p ∈ params, Allowed options False ctx.grant (.pattern p)) :
    Allowed options exposed ctx.grant (.expression (match body with
      | .concise e => .arrow span isAsync params e
      | .block inner statements _ => .blockArrow span isAsync params inner statements)) := by
  cases body with
  | concise e => exact .arrow hparams h.distinct h.fits
  | block bodySpan body strict =>
    obtain ⟨after, -, hbody⟩ := h.fits
    refine .blockArrow (fun p hp => ?_) h.distinct hbody.allowed
    refine allowed_turn (hparams p hp) fun hchanges hsloppy =>
      ⟨?_, h.bindable hchanges hsloppy p hp⟩
    exact List.all_eq_true.mp (hbody.simple hchanges) p hp

end Arrows

section Checks

theorem tells_conversion (options : Options) (use : PatternUse) (ctx : Context) :
    Tells (fun c => c.ctx = ctx) (conversion options use ctx) :=
  fun _ => .ok rfl ⟨.refl, rfl⟩

theorem tells_checkNone (noted : Option Nat) (start : Nat) (cause : Cause) [cause.IsImmediate] :
    Tells (fun _ => ∀ mark ∈ noted, mark < start) (checkNone noted start cause) := by
  unfold checkNone
  split
  · split
    · exact .absurd tells_failAt
    · rename_i hlt
      refine .pure ?_
      rintro _ ⟨⟩
      exact Nat.lt_of_not_le hlt
  · refine .pure ?_
    rintro _ ⟨⟩

/-- `async` is not reserved. -/
theorem referenceFault_async (ctx : Context) : referenceFault? ctx "async" = none := by
  unfold referenceFault?
  rw [show Token.ofKeyword? "async" = some .asyncKeyword by decide]
  rfl

theorem groupExpression_allowed {options : Options} {exposed : Prop} {grant : Grant}
    {first : Expression} {rest : List Expression}
    (hfirst : Allowed options exposed grant (.expression first))
    (hrest : ∀ e ∈ rest, Allowed options exposed grant (.expression e)) :
    Allowed options exposed grant (.expression (groupExpression first rest)) := by
  unfold groupExpression
  split
  · exact hfirst
  · exact .list rfl (List.forall_mem_cons.mpr ⟨hfirst, hrest⟩) rfl

end Checks

namespace Phrases.KeepPlacement

variable {g : Phrases} (hg : g.KeepPlacement q)

include hg

section Literals

theorem arrayLiteral (ctx : Context) :
    Obeys q .none ctx .expression (Grammar.arrayLiteral g ctx) := by
  unfold Grammar.arrayLiteral
  refine .skip fun start => .skip fun _ => KeepsPlacement.bind (keepsPlacement_collect
    (P := fun exposed (x : Element × Cover) => Allowed q.options exposed ctx.grant (.element x.1))
    fun earlier => .skip fun atClose => ?_) fun found => ?_
  · split
    · exact .pure fun _ => trivial
    · refine .skip fun isHole => ?_
      split
      · exact .pure fun _ => .leaf rfl rfl
      · refine .skip fun start => .skip fun isSpread => (hg.covered ctx.withIn).bind fun r => ?_
        refine (reads_elementFrom ctx start isSpread r.1).bind fun x => .skip fun _ => ?_
        exact .pure fun _ hx he => hx he
  · refine .skip fun _ => .skip fun _ => .skip fun _ => .skip fun span => .pure ?_
    exact fun _ hfound => .list rfl (List.forall_mem_map.mpr hfound) rfl

theorem shorthandProperty (ctx : Context) (start keyStart : Nat) (id : Identifier) :
    KeepsPlacement q .none (fun exposed found =>
      AllowedKey q.options exposed ctx.grant false (.identifier id) →
        Allowed q.options exposed ctx.grant (.member found.1))
      (Grammar.shorthandProperty g ctx start keyStart id) := by
  unfold Grammar.shorthandProperty
  refine .tells (tells_checkReference ctx id.name keyStart) fun _ hname => ?_
  refine .skip fun _ => .skip fun hasValue => ?_
  split
  · refine (hg.assignment ctx).bind fun right => .skip fun valueSpan => .skip fun span => ?_
    refine .pure fun _ hright hkey => .property hkey (.assignment ?_ ?_ hright)
    · exact ⟨hkey.isWord, isReference_of_reference hname⟩
    · exact .shorthandTarget (isUnreserved_of_reference hname)
  · exact .skip fun span => .pure fun _ hkey => .property hkey (.identifier hkey.isWord hname)

theorem objectProperty (ctx : Context) : KeepsPlacement q .none (fun exposed found =>
    Allowed q.options exposed ctx.grant (.member found.1)) (Grammar.objectProperty g ctx) := by
  unfold Grammar.objectProperty
  refine .skip fun start => .skip fun head => .skip fun keyToken => .skip fun keyStart => ?_
  refine (hg.propertyKey ctx false).bind fun r => ?_
  obtain ⟨key, computed⟩ := r
  refine .skip fun atParen => ?_
  split
  · have hshape : accessorShape head.kind ≠ .plain ∧
        accessorShape head.kind ≠ .derivedConstructor := by
      cases head.kind <;> exact ⟨nofun, nofun⟩
    refine (hg.methodFunction ctx _ _ _ hshape.1).bind fun value => .skip fun span => ?_
    refine .pure fun exposed hvalue hkey => .property hkey ?_
    have hmethod := hvalue .objectMethod nofun fun h => absurd h hshape.2
    have hslot : propertySlot head.kind (head.kind == .init) false = .method .objectMethod := by
      cases head.kind <;> rfl
    rw [hslot]
    exact .functionExpression hmethod
  · refine .skip fun hasValue => ?_
    split
    · exact (hg.covered ctx).bind fun r => .skip fun span => .pure fun _ hvalue hkey =>
        .property hkey hvalue
    · split
      · split
        · rename_i hplain
          obtain rfl : computed = false := by simpa using (Bool.and_eq_true_iff.mp hplain).1
          exact hg.shorthandProperty ctx start keyStart _
        · exact keepsPlacement_unexpected
      · exact keepsPlacement_unexpected

theorem objectMember (ctx : Context) : KeepsPlacement q .none (fun exposed found =>
    Allowed q.options exposed ctx.grant (.member found.1)) (Grammar.objectMember g ctx) := by
  unfold Grammar.objectMember
  refine .skip fun start => .skip fun isSpread => ?_
  split
  · refine (hg.covered ctx).bind fun r => .skip fun _ => .skip fun span => ?_
    exact .pure fun _ he => .single rfl he rfl
  · exact hg.objectProperty ctx

theorem objectLiteral (ctx : Context) :
    Obeys q .none ctx .expression (Grammar.objectLiteral g ctx) := by
  unfold Grammar.objectLiteral
  refine .skip fun start => .skip fun _ => KeepsPlacement.bind
    (keepsPlacement_listed (P := fun exposed (x : ObjectMember × Cover) =>
      Allowed q.options exposed ctx.grant (.member x.1)) fun _ => hg.objectMember ctx.withIn)
    fun found => ?_
  refine .skip fun _ => .skip fun _ => .skip fun _ => .skip fun span => .pure fun _ hfound => ?_
  exact .list rfl (List.forall_mem_map.mpr hfound) rfl

end Literals

section ArrowFunctions

variable (ctx : Context)

theorem arrowBody (isAsync simple : Bool) :
    KeepsPlacement q .none (fun _ body => body.Fits q.options ctx isAsync simple)
      (Grammar.arrowBody g ctx (ctx.enterArrow isAsync) simple) := by
  have hparameters := congrArg Grant.inParameters (grant_enterArrow ctx isAsync)
  unfold Grammar.arrowBody
  refine .skip fun start => .skip fun isBlock => ?_
  split
  · refine KeepsPlacement.known (hg.bracedBody hparameters simple) fun found hfound =>
      .skip fun span => ?_
    exact .pure fun _ => ⟨found.2, rfl, hfound⟩
  · exact (hg.assignment _).always.bind fun e => .pure fun _ he => he

theorem arrowFunction_of (start : Nat) {params : List Pattern} (isAsync : Bool) {s : State}
    (hshows : ∀ failure z, z.refused = some ⟨start, .arrow, ctx.enterArrow isAsync, params⟩ →
      RepeatsFirst params failure → q.Shows failure z) :
    KeepsPlacementAt q .none (fun exposed e =>
      (∀ p ∈ params, Allowed q.options False ctx.grant (.pattern p)) →
        Allowed q.options exposed ctx.grant (.expression e))
      (Grammar.arrowFunction g ctx start params isAsync) s := by
  unfold Grammar.arrowFunction
  refine .skip fun _ s₀ _ => KeepsPlacementAt.bind
    (P := fun _ body => ArrowFits q.options ctx isAsync params body) (.inScope_current ?_)
    fun body s₁ hbody => .skip fun _ s₂ _ => .skip fun span s₃ _ => ?_
  · refine .declaredPatterns (.look rfl ?_)
    refine (keepsPlacementAt_settleParameters rfl rfl fun failure z _ => hshows failure z).bind
      fun _ s₁ hdistinct => ?_
    refine KeepsPlacementAt.quietBind ((hg.arrowBody ctx isAsync _).asFunction s₁)
      fun body s₂ hbody => ?_
    extract_lets strict
    have hstrict : strict = (ctx.strict || body.startsStrict) := hbody.always.isStrict_eq
    rw [hstrict]
    split
    · refine .tells (tells_checkBoundNames _ _ _) fun _ s₃ _ hbound => .pure fun _ _ _ => ?_
      refine ⟨hbody.always, hdistinct.always rfl, fun _ _ p hp id hid => ?_⟩
      exact isBindable_of_binding (hbound p hp id hid) rfl
    · rename_i hsame
      refine .pure fun _ _ _ => ⟨hbody.always, hdistinct.always rfl, fun hchanges hsloppy => ?_⟩
      simp [hchanges, hsloppy] at hsame
  · cases body with
    | concise e => exact .pure fun _ _ hparams => hbody.always.allowed hparams
    | block bodySpan body strict => exact .pure fun _ _ hparams => hbody.always.allowed hparams

theorem arrowFunction (start : Nat) {params : List Pattern} (isAsync : Bool) {s : State}
    (hshows : ∀ failure z, Grammar.arrowFunction g ctx start params isAsync s = .error failure z →
      z.refused = some ⟨start, .arrow, ctx.enterArrow isAsync, params⟩ →
      RepeatsFirst params failure → q.Shows failure z) :
    KeepsPlacementAt q .none (fun exposed e =>
      (∀ p ∈ params, Allowed q.options False ctx.grant (.pattern p)) →
        Allowed q.options exposed ctx.grant (.expression e))
      (Grammar.arrowFunction g ctx start params isAsync) s :=
  .shown (E := fun failure z => z.refused = some ⟨start, .arrow, ctx.enterArrow isAsync, params⟩ ∧
      RepeatsFirst params failure) (fun failure z herror h => hshows failure z herror h.1 h.2)
    ((hg.showing fun _ _ => .inl).arrowFunction_of ctx start isAsync
      fun _ _ hrefused hrepeats => .inr ⟨hrefused, hrepeats⟩)

theorem groupItem : KeepsPlacement q .none (fun exposed r =>
    r.Adds fun item => Allowed q.options exposed ctx.grant (.expression item.expression))
      (Grammar.groupItem g ctx) := by
  unfold Grammar.groupItem
  refine .skip fun atClose => ?_
  split
  · exact .pure fun _ => trivial
  · refine .skip fun start => .skip fun isRest => ?_
    split
    · refine (hg.covered ctx).bind fun r => .skip fun atComma => ?_
      split
      · refine .skip fun comma => .skip fun _ => .skip fun atParen => ?_
        split
        · exact .tells tells_failAt fun _ => False.elim
        · exact .tells tells_failAt fun _ => False.elim
      · exact .pure fun _ hr => hr
    · refine (hg.covered ctx).bind fun r => .skip fun atClose => ?_
      split
      · exact .pure fun _ hr => hr
      · exact .skip fun _ => .pure fun _ hr => hr

/-- At the arrow, the group may be parameters unless something is exposed in it. -/
theorem groupArrow (start : Nat) (items : List GroupItem) {s : State}
    (hshows : ∀ params c s' failure z, items.mapM (groupParameter c) = .ok params → Moves s s' →
      Grammar.arrowFunction g ctx start params false s' = .error failure z →
      z.refused = some ⟨start, .arrow, ctx.enterArrow false, params⟩ →
      RepeatsFirst params failure → q.Shows failure z) :
    KeepsPlacementAt q .none (fun exposed e => (Calm False start s → ∀ item ∈ items,
        Allowed q.options False ctx.grant (.expression item.expression)) →
      Allowed q.options exposed ctx.grant (.expression e))
      (Grammar.groupArrow g ctx start items) s := by
  unfold Grammar.groupArrow
  refine .skip fun _ s₁ h₁ => .look rfl ?_
  refine .tells (tells_checkNone _ _ _) fun _ s₂ h₂ hyield => .look rfl ?_
  refine .tells (tells_checkNone _ _ _) fun _ s₃ h₃ hawait => ?_
  refine .tells (tells_conversion _ _ _) fun c s₄ h₄ hc => ?_
  have hmoves := ((h₁.trans h₂).trans h₃).trans h₄
  have hcalm : Calm False start s := by
    refine .inr ⟨?_, ?_⟩
    · rwa [h₁.lastYield] at hyield
    · rwa [(h₁.trans h₂).lastAwait] at hawait
  have hstrict : ctx.grant.strict = true → c.ctx.strict = true := fun h => hc ▸ h
  have hgives : Gives (fun params => (∀ item ∈ items,
      Allowed q.options False ctx.grant (.expression item.expression)) →
        ∀ p ∈ params, Allowed q.options False ctx.grant (.pattern p))
      (items.mapM (groupParameter c)) := gives_groupParameters hstrict items
  refine .tells hgives.noted.tells fun params s₅ h₅ hparams => ?_
  exact (hg.arrowFunction ctx start false
    fun failure z => hshows params c s₅ failure z hparams.1 (hmoves.trans h₅)).mono
      fun exposed e he hitems => he (hparams.2 (hitems hcalm))

omit hg in
theorem groupValue (start close : Nat) (items : List GroupItem) :
    KeepsPlacement q .none (fun exposed e =>
    (∀ item ∈ items, Allowed q.options exposed ctx.grant (.expression item.expression)) →
      Allowed q.options exposed ctx.grant (.expression e))
      (Grammar.groupValue g start close items) := by
  unfold Grammar.groupValue
  extract_lets rest
  have hrest : ∀ u, KeepsPlacement q .none (fun exposed e =>
      (∀ item ∈ items, Allowed q.options exposed ctx.grant (.expression item.expression)) →
        Allowed q.options exposed ctx.grant (.expression e)) (rest u) := by
    intro u
    cases items with
    | nil => exact keepsPlacement_failAt
    | cons first others =>
      refine .guard tells_failAt fun _ => .skip fun _ => .skip fun _ => ?_
      have he : ∀ exposed, (∀ item ∈ first :: others,
          Allowed q.options exposed ctx.grant (.expression item.expression)) →
            Allowed q.options exposed ctx.grant
              (.expression (groupExpression first.expression
                (others.map GroupItem.expression))) := by
        intro exposed hitems
        rw [List.forall_mem_cons] at hitems
        exact groupExpression_allowed hitems.1 (List.forall_mem_map.mpr hitems.2)
      split
      · exact .skip fun span => .pure fun _ hitems => .single rfl (he _ hitems) rfl
      · exact .skip fun _ => .pure he
  split
  · exact .tells tells_failAt fun _ => False.elim
  · exact hrest ()

theorem parenGroup (start : Nat) (canArrow : Bool) {s : State} (hstart : start ≤ s.start) :
    KeepsPlacementAt q .none (fun exposed e => Allowed q.options exposed ctx.grant (.expression e))
      (Grammar.parenGroup g ctx start canArrow) s := by
  unfold Grammar.parenGroup
  intro hs
  refine KeepsPlacementAt.skip (fun _ s₁ h₁ hs₁ => ?_) hs
  have hstart₁ : start ≤ s₁.start := Nat.le_trans hstart (h₁.oriented hs).2
  refine KeepsPlacementAt.bindRun (keepsPlacement_collect (P := fun exposed item =>
    Allowed q.options exposed ctx.grant (.expression item.expression))
    (fun earlier => hg.groupItem ctx.withIn) s₁) (fun _ _ _ => id)
      (fun items s₂ hitems h₂ => ?_) hs₁
  refine .skip fun close s₃ h₃ => .skip fun _ s₄ h₄ => .skip fun atArrow s₅ h₅ => ?_
  have hmoves := (h₃.trans h₄).trans h₅
  split
  · refine (hg.groupArrow ctx start items
      fun params c s₆ failure z hparams h₆ herror hrefused hrepeats => ?_).mono
      fun exposed e he _ => he fun hcalm => (h₂.calm False start hstart₁ ?_).2
    · have hread := WasRead.group hs₁.sound hitems (hmoves.trans h₆) hparams herror
      exact hg.shows failure z _ ⟨hrefused, hread, hrepeats, trivial⟩
    · unfold Calm at hcalm ⊢
      rwa [← hmoves.lastYield, ← hmoves.lastAwait]
  · exact groupValue ctx start close items s₅

/-- The one parameter of an arrow function repeats no other. -/
theorem nameArrow (start : Nat) (id : Identifier) (isAsync : Bool)
    (hid : ctx.strict = true → IsBindable id.name) (s : State) :
    KeepsPlacementAt q .none (fun exposed e => Allowed q.options exposed ctx.grant (.expression e))
      (Grammar.arrowFunction g ctx start [.identifier id] isAsync) s := by
  refine (hg.arrowFunction ctx start isAsync fun failure z _ _ hrepeats => ?_).mono
    fun exposed e he => he (List.forall_mem_singleton.mpr (.binding hid))
  exact absurd hrepeats not_repeatsFirst_single

theorem asyncNameArrow (start : Nat) :
    Obeys q .none ctx .expression (Grammar.asyncNameArrow g ctx start) := by
  unfold Grammar.asyncNameArrow
  refine .skip fun _ => .skip fun id => .skip fun atArrow => .guard tells_unexpected fun _ => ?_
  refine .skip fun _ => .tells (tells_checkBinding _ _ _ _) fun _ hfault s => ?_
  exact hg.nameArrow ctx start id true (fun hstrict => isBindable_of_binding hfault hstrict) s

theorem plainName (start : Nat) (canArrow : Bool) {s : State}
    (htoken : s.token.isIdentifier = true) :
    KeepsPlacementAt q .none (fun exposed e => Allowed q.options exposed ctx.grant (.expression e))
      (Grammar.plainName g ctx start canArrow) s := by
  unfold Grammar.plainName
  refine (KeepsPlacementAt.word (isWord_of_isIdentifier htoken)).bind fun id s₁ hid => ?_
  refine KeepsPlacement.skip (fun atArrow => ?_) s₁
  split
  · refine .skip fun _ => .tells (tells_checkBinding _ _ _ _) fun _ hfault s => ?_
    refine (hg.nameArrow ctx start id false (isBindable_of_binding hfault) s).mono ?_
    exact fun _ _ he _ => he
  · refine .tells (tells_checkReference _ _ _) fun _ hname => .skip fun _ => .skip fun _ => ?_
    exact .pure fun _ hword => .identifier hword hname

/-- `async` may be called wherever it is read. -/
theorem asyncCallOrArrow (start : Nat) (canArrow : Bool) {s : State} (hstart : start ≤ s.start)
    (htoken : s.token = .asyncKeyword) :
    KeepsPlacementAt q .none (fun exposed e => Allowed q.options exposed ctx.grant (.expression e))
      (Grammar.asyncCallOrArrow g ctx start canArrow) s := by
  unfold Grammar.asyncCallOrArrow
  intro hs
  have hvalue : s.lexer.value.text = "async" := by
    have hspelled := hs.isSpelled
    unfold State.IsSpelled at hspelled
    rw [show s.lexer.token = .asyncKeyword from htoken] at hspelled
    exact hspelled rfl nofun
  have hname : referenceFault? ctx s.lexer.value.text = none := by
    rw [hvalue]
    exact referenceFault_async ctx
  refine KeepsPlacementAt.bind (.reference (by rw [htoken]; rfl) hname)
    (fun callee s₁ h₁ => .look rfl fun hs₁ => ?_) hs
  have hstart₁ : start ≤ s₁.start := Nat.le_trans hstart h₁.start_le
  refine KeepsPlacementAt.bindRun (hg.coveredArguments ctx s₁) (fun _ _ _ => id)
    (fun found s₂ hfound h₂ => ?_) hs₁
  extract_lets elements
  refine .skip fun atArrow s₃ h₃ => ?_
  split
  · refine .skip fun _ s₄ h₄ => .look rfl ?_
    refine .tells (tells_checkNone _ _ _) fun _ s₅ h₅ hawait => .skip fun s' s₆ h₆ => ?_
    refine .skip fun _ s₇ h₇ => .look rfl ?_
    refine .tells (tells_checkNone _ _ _) fun _ s₈ h₈ hyield => ?_
    refine .tells (tells_conversion _ _ _) fun c s₉ h₉ hc => ?_
    have hmoves₄ := h₃.trans h₄
    have hmoves₇ := ((hmoves₄.trans h₅).trans h₆).trans h₇
    have hcalm : Calm False start s₂ := by
      refine .inr ⟨?_, ?_⟩
      · rwa [hmoves₇.lastYield] at hyield
      · rwa [hmoves₄.lastAwait] at hawait
    have helements := (h₂.calm False start hstart₁ hcalm).2
    have hstrict : ctx.grant.strict = true → c.ctx.strict = true := fun h => hc ▸ h
    have hgives : Gives (fun params => (∀ x ∈ elements,
        Allowed q.options False ctx.grant (.element x)) →
          ∀ p ∈ params, Allowed q.options False ctx.grant (.pattern p))
        (toPatterns c elements) := gives_toPatterns_allowed hstrict elements
    refine .tells hgives.noted.tells fun params s₁₀ h₁₀ hparams => ?_
    have hmoves := ((hmoves₇.trans h₈).trans h₉).trans h₁₀
    refine (hg.arrowFunction ctx start true fun failure z herror hrefused hrepeats => ?_).mono
      fun exposed e he _ _ => he (hparams.2 (List.forall_mem_map.mpr helements))
    have hread := WasRead.call hs₁.sound hfound hmoves hparams.1 herror
    exact hg.shows failure z _ ⟨hrefused, hread, hrepeats, trivial⟩
  · refine .skip fun _ s₄ _ => .skip fun _ s₅ _ => .skip fun span s₆ _ => .pure ?_
    intro _ hfound hcallee
    exact .call (.operand hcallee (.inl rfl)) (List.forall_mem_map.mpr hfound)

theorem namePrimary (start : Nat) (canArrow : Bool) {s : State} (hstart : start ≤ s.start)
    (hidentifier : s.token.isIdentifier = true) :
    KeepsPlacementAt q .none (fun exposed e => Allowed q.options exposed ctx.grant (.expression e))
      (Grammar.namePrimary g ctx start canArrow) s := by
  unfold Grammar.namePrimary
  refine .look rfl ?_
  split
  · rename_i hword
    have htoken : s.token = .asyncKeyword := beq_iff_eq.mp (Bool.and_eq_true_iff.mp hword).1
    intro hs
    refine KeepsPlacementAt.peeks peeks_peekNext (fun following s₁ h₁ htoken₁ => ?_) hs
    obtain ⟨token, flags⟩ := following
    have hstart₁ : start ≤ s₁.start := Nat.le_trans hstart (h₁.oriented hs).2
    dsimp only
    split
    · exact hg.functionExpression ctx start true s₁
    · intro hs₁
      refine KeepsPlacementAt.peeks ((peeks_peekSecond.result _).and _)
        (fun isLoop s₂ h₂ htoken₂ => ?_) hs₁
      have hstart₂ : start ≤ s₂.start := Nat.le_trans hstart₁ (h₂.oriented hs₁).2
      split
      · exact hg.asyncNameArrow ctx start s₂
      · split
        · exact hg.asyncCallOrArrow ctx start canArrow hstart₂
            (htoken₂.trans (htoken₁.trans htoken))
        · exact hg.plainName ctx start canArrow (htoken₂.trans htoken₁ ▸ hidentifier)
  · exact hg.plainName ctx start canArrow hidentifier

end ArrowFunctions

section Operands

variable (ctx : Context) (start : Nat)

theorem markupExpression : Obeys q .none ctx .expression (Grammar.markupExpression g ctx) := by
  unfold Grammar.markupExpression
  refine (hg.markup_body ctx .expression).bind fun value => .skip fun adjacent => ?_
  exact .guard tells_fail fun _ => .skip fun _ => .pure fun _ hvalue => .single rfl hvalue rfl

theorem classOperand (found : List Decorator) : KeepsPlacement q .none (fun exposed e =>
    (∀ d ∈ found, Allowed q.options exposed ctx.grant (.decorator d)) →
      Allowed q.options exposed ctx.grant (.expression e)) (do
      return .classExpression (← Grammar.classDefinition g ctx start false found false)) := by
  have hnone : false = true → Effect.none = .declares := nofun
  refine (hg.classDefinition ctx start hnone found false).bind fun c => .pure ?_
  exact fun _ hc hfound => .single rfl (hc hfound) rfl

theorem templateOperand : Obeys q .none ctx .expression (do
    let parts ← Grammar.template g ctx false
    return .template parts.span parts.quasis parts.expressions) :=
  (hg.template ctx false).bind fun _ => .pure fun _ hparts => .list rfl hparts rfl

omit hg in
/-- A keyword that is a literal was not escaped. -/
theorem literalOperand {s : State}
    (hescaped : ¬ (s.token.isReserved && s.lexer.flags.escaped) = true)
    (htoken : s.token.isWord = true → s.token.isReserved = true) :
    KeepsPlacementAt q .none (fun exposed e =>
      Allowed q.options exposed ctx.grant (.expression e)) (do
      return .literal (← Grammar.literal g.options ctx)) s := by
  refine (KeepsPlacementAt.literal g.options ctx fun hword => ?_).bind fun lit _ _ =>
    .pure fun _ hlit => .literal hlit
  simpa [htoken hword] using hescaped

omit hg in
theorem regexOperand {s : State} (h : s.token = .divide ∨ s.token = .divideAssign) :
    KeepsPlacementAt q .none (fun exposed e =>
      Allowed q.options exposed ctx.grant (.expression e)) (do
      return .literal (← Grammar.regexLiteral g.options)) s :=
  (KeepsPlacementAt.regexLiteral g.options h).bind fun _ _ _ => .pure fun _ hlit => .literal hlit

theorem otherPrimary (canArrow : Bool) {s : State} (hstart : start ≤ s.start)
    (hescaped : ¬ (s.token.isReserved && s.lexer.flags.escaped) = true) :
    KeepsPlacementAt q .none (fun exposed e => Allowed q.options exposed ctx.grant (.expression e))
      (Grammar.otherPrimary g ctx start canArrow) s := by
  unfold Grammar.otherPrimary
  refine .look rfl ?_
  split
  case h_9 => exact .skip fun _ _ _ => .skip fun span _ _ => .pure fun _ => .leaf rfl rfl
  case h_10 | h_11 => exact hg.templateOperand ctx s
  case h_12 => exact hg.arrayLiteral ctx s
  case h_13 => exact hg.objectLiteral ctx s
  case h_14 => exact hg.parenGroup ctx start canArrow hstart
  case h_15 => exact hg.functionExpression ctx start false s
  case h_16 =>
    exact ((hg.classOperand ctx start []).mono fun _ _ he => he (List.forall_mem_nil _)) s
  case h_17 =>
    split
    · refine (hg.decorators ctx).bind (fun found => .skip fun atClass => ?_) s
      exact .guard tells_fail fun _ => hg.classOperand ctx start found
    · exact keepsPlacement_unexpected s
  case h_18 =>
    split
    · exact hg.markupExpression ctx s
    · exact keepsPlacement_unexpected s
  case h_19 =>
    refine .skip fun following s₁ _ => ?_
    split
    · exact .skip fun id _ _ => .pure fun _ => .leaf rfl rfl
    · exact keepsPlacement_fail s₁
  case h_20 => exact keepsPlacement_unexpected s
  case h_7 htoken => exact regexOperand ctx (.inl htoken)
  case h_8 htoken => exact regexOperand ctx (.inr htoken)
  all_goals
    rename_i htoken
    exact literalOperand ctx hescaped (by rw [htoken]; decide)

theorem primary : Obeys q .none ctx .expression (Grammar.primary g ctx) := by
  intro s
  unfold Grammar.primary
  refine .look rfl (.look rfl fun hs => ?_)
  refine KeepsPlacementAt.skip (fun _ s₁ h₁ => .look rfl ?_) hs
  have hstart : s.start ≤ s₁.start := (h₁.oriented hs).2
  split
  · rename_i hidentifier
    exact hg.namePrimary ctx s.start _ hstart hidentifier
  · refine .look rfl ?_
    split
    · exact keepsPlacement_fail s₁
    · rename_i hescaped
      exact hg.otherPrimary ctx s.start _ hstart hescaped

end Operands

end Phrases.KeepPlacement

end EcmaSyntax.Grammar
