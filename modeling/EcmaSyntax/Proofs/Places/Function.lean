import EcmaSyntax.Proofs.Places.Regions

/-!
Bodies and functions. The directives at the start of a body decide whether the code in it is
strict, and so are the parameters and the name of the function that were read before; what
was said about them in sloppy code is made up for when the body has been read.

Classes and decorators. Heritage, names and decorators of a class are read in the context
around it, which is strict but for the decorators; methods, fields and static blocks have
contexts of their own.
-/

namespace EcmaSyntax.Tree

/-- A directive, which is a string and nothing else. -/
def Statement.IsDirective (x : Statement) : Prop :=
  ∃ span lit text, lit.IsSpelled ∧ x = .expression span (.literal lit) (some text)

theorem Statement.IsDirective.isSome {x : Statement} (h : x.IsDirective) :
    x.directive?.isSome = true := by
  obtain ⟨span, lit, text, -, rfl⟩ := h
  rfl

/-- Whether code starts strict depends only on its directives. -/
theorem startsStrict_append {directives others : List Statement}
    (hdirectives : ∀ x ∈ directives, x.IsDirective) (hothers : ∀ x ∈ others, x.directive? = none) :
    startsStrict (directives ++ others) =
      directives.any fun x => x.directive? == some "use strict" := by
  have hnone : others.takeWhile (fun x => x.directive?.isSome) = [] := by
    cases others with
    | nil => rfl
    | cons x rest => simp [hothers x List.mem_cons_self]
  unfold startsStrict
  rw [List.takeWhile_append_of_pos fun x hx => (hdirectives x hx).isSome, hnone, List.append_nil]

end EcmaSyntax.Tree

namespace EcmaSyntax.Grammar

open EcmaSyntax.Diagnostic EcmaSyntax.Lexer EcmaSyntax.Scope EcmaSyntax.Tree

variable {version : Nat} [Unicode.IdentifierChars version]

variable {q : Inquiry} {g : Phrases} {ctx : Context} {simpleParams : Bool} {effect : Effect}

section Directives

/-- Directives and the statements after them, and the context that they lead to. -/
structure BodyFits (options : Options) (ctx : Context) (simpleParams : Bool)
    (found : List Statement × Context) : Prop where
  parts : ∃ directives others, found.1 = directives ++ others ∧
    (∀ x ∈ directives, x.IsDirective) ∧ ∀ x ∈ others, Permits options found.2 x
  context : found.2 = { ctx with strict := ctx.strict || startsStrict found.1 }
  simple : startsStrict found.1 = true → simpleParams = true

namespace BodyFits

variable {options : Options} {found : List Statement × Context}

/-- One more statement that is no directive. -/
theorem append (h : BodyFits options ctx simpleParams found) {statements : List Statement}
    (hstatements : ∀ x ∈ statements, Permits options found.2 x) :
    BodyFits options ctx simpleParams (found.1 ++ statements, found.2) := by
  obtain ⟨directives, others, heq, hdirectives, hothers⟩ := h.parts
  have hall : ∀ x ∈ others ++ statements, Permits options found.2 x :=
    List.forall_mem_append.mpr ⟨hothers, hstatements⟩
  have hstrict : startsStrict (found.1 ++ statements) = startsStrict found.1 := by
    rw [heq, List.append_assoc, startsStrict_append hdirectives fun x hx => (hall x hx).directive,
      startsStrict_append hdirectives fun x hx => (hothers x hx).directive]
  refine ⟨⟨directives, others ++ statements, by rw [heq, List.append_assoc], hdirectives, hall⟩,
    ?_, ?_⟩
  · rw [hstrict]
    exact h.context
  · rw [hstrict]
    exact h.simple

/-- What stands in the body is allowed in the code that it makes strict. -/
theorem allowed (h : BodyFits options ctx simpleParams found) : ∀ x ∈ found.1,
    Allowed options True (ctx.grant.turn (startsStrict found.1)) (.statement x) := by
  have hgrant : found.2.grant = ctx.grant.turn (startsStrict found.1) := by
    rw [h.context]
    rfl
  obtain ⟨directives, others, heq, hdirectives, hothers⟩ := h.parts
  rw [← hgrant]
  intro x hx
  rcases List.mem_append.mp (heq ▸ hx) with hx | hx
  · obtain ⟨span, lit, text, hlit, rfl⟩ := hdirectives x hx
    exact .single rfl (.literal hlit) rfl
  · exact (hothers x hx).allowed

end BodyFits

/-- The directives so far, and the context after them. -/
structure DirectivesFit (ctx : Context) (simpleParams : Bool) (directives : List Statement)
    (after : Context) : Prop where
  all : ∀ x ∈ directives, x.IsDirective
  context : after = { ctx with
    strict := ctx.strict || directives.any fun x => x.directive? == some "use strict" }
  simple : (directives.any fun x => x.directive? == some "use strict") = true → simpleParams = true

theorem DirectivesFit.add {directives : List Statement} {before after : Context} {x : Statement}
    {text : String} (h : DirectivesFit ctx simpleParams directives before)
    (hx : ∃ span lit, lit.IsSpelled ∧ x = .expression span (.literal lit) (some text))
    (hafter : after = { before with strict := before.strict || text == "use strict" })
    (hsimple : text = "use strict" → simpleParams = true) :
    DirectivesFit ctx simpleParams (directives ++ [x]) after := by
  obtain ⟨span, lit, hlit, rfl⟩ := hx
  refine ⟨List.forall_mem_append.mpr ⟨h.all, ?_⟩, ?_, ?_⟩
  · exact List.forall_mem_singleton.mpr ⟨span, lit, text, hlit, rfl⟩
  · simp [hafter, h.context, Statement.directive?, Bool.or_assoc]
  · intro hstrict
    rw [List.any_append, Bool.or_eq_true] at hstrict
    rcases hstrict with hstrict | hstrict
    · exact h.simple hstrict
    · exact hsimple (by simpa [Statement.directive?] using hstrict)

theorem DirectivesFit.bodyFits {options : Options} {directives others : List Statement}
    {after : Context} (h : DirectivesFit ctx simpleParams directives after)
    (hothers : ∀ x ∈ others, Permits options after x) :
    BodyFits options ctx simpleParams (directives ++ others, after) := by
  have hstrict := startsStrict_append h.all fun x hx => (hothers x hx).directive
  refine ⟨⟨directives, others, rfl, h.all, hothers⟩, ?_, ?_⟩
  · rw [hstrict]
    exact h.context
  · rw [hstrict]
    exact h.simple

end Directives

namespace Phrases.KeepPlacement

variable (hg : g.KeepPlacement q)

include hg

/-- A statement at a string is the directive that the string spells, or no directive. -/
theorem directive (hctx : ctx.inParameters = false) (s : State) :
    KeepsPlacementAt q .declares (fun _ found =>
      (found.2 = true → ∃ span lit, lit.IsSpelled ∧
        found.1 = .expression span (.literal lit) (some (unquoted s.lexer.raw))) ∧
      (found.2 = false → Permits q.options ctx found.1)) (Grammar.directive g ctx) s := by
  unfold Grammar.directive
  refine .look rfl ((hg.listItem ctx hctx).bind (fun statement => ?_) s)
  split
  · rename_i span lit directive
    split
    · refine .pure fun _ h => ⟨fun _ => ?_, by rintro ⟨⟩⟩
      obtain ⟨place, hsuits⟩ := h.allowed.suits
      have hlit : lit.IsSpelled := (hsuits.part List.mem_cons_self).here.spelling
      exact ⟨span, lit, hlit, rfl⟩
    · exact .pure fun _ h => ⟨by rintro ⟨⟩, fun _ => h⟩
  · exact .pure fun _ h => ⟨by rintro ⟨⟩, fun _ => h⟩

/-- The directives of a body, and the statement at a string that may follow them. -/
theorem prologue (hctx : ctx.inParameters = false) (simpleParams : Bool) :
    KeepsPlacement q .declares (fun _ found => BodyFits q.options ctx simpleParams found)
      (Grammar.prologue g ctx simpleParams) := by
  unfold Grammar.prologue
  refine (keepsPlacement_collect_of
    (I := fun earlier => DirectivesFit ctx simpleParams (earlier.reverse.map Prod.fst)
      ((earlier.head?.map fun r => r.2.ctx).getD ctx))
    (J := fun found => BodyFits q.options ctx simpleParams
      (found.map Prod.fst, (found.getLast?.map fun r => r.2.ctx).getD ctx))
    ⟨nofun, by simp, nofun⟩ fun earlier hearlier => ?_).known fun found hfound =>
      .pure fun _ => hfound
  extract_lets before
  have hbefore : DirectivesFit ctx simpleParams (earlier.reverse.map Prod.fst) before.ctx := by
    cases earlier <;> exact hearlier
  have hparameters : before.ctx.inParameters = false := by
    rw [hbefore.context]
    exact hctx
  refine .skip fun atString => ?_
  split
  · refine .pure fun _ => ?_
    have hfits := (hearlier.bodyFits nofun : BodyFits q.options ctx simpleParams (_ ++ [], _))
    simpa [Round.Leads] using hfits
  · intro s
    refine .look rfl ((hg.directive hparameters s).bind fun r s₁ hr => ?_)
    obtain ⟨statement, isDirective⟩ := r
    cases isDirective with
    | true =>
      refine KeepsPlacement.tells (tells_add _ _ _ _ _) (fun after hafter => .pure fun _ _ => ?_) s₁
      have hadd := hbefore.add (hr.always.1 rfl) hafter.1 hafter.2
      simpa [Round.Leads] using hadd
    | false =>
      refine .pure fun _ _ => ?_
      have hfits := hbefore.bodyFits (List.forall_mem_singleton.mpr (hr.always.2 rfl))
      simpa [Round.Leads] using hfits

theorem bodyStatements (hctx : ctx.inParameters = false) (simpleParams : Bool) (close : Token) :
    KeepsPlacement q .declares (fun _ found => BodyFits q.options ctx simpleParams found)
      (Grammar.bodyStatements g ctx simpleParams close) := by
  unfold Grammar.bodyStatements
  refine (hg.prologue hctx simpleParams).known fun r hr => ?_
  have hparameters : r.2.inParameters = false := by
    rw [hr.context]
    exact hctx
  refine KeepsPlacement.known (keepsPlacement_itemsUpTo (P := fun _ x => Permits q.options r.2 x)
    (hg.listItem r.2 hparameters)).always fun statements hstatements => .pure fun _ => ?_
  exact hr.append hstatements

/-- The body of a function declares nothing around it. -/
theorem bracedBody (hctx : ctx.inParameters = false) (simpleParams : Bool) :
    KeepsPlacement q .none (fun _ found => BodyFits q.options ctx simpleParams found)
      (Grammar.bracedBody g ctx simpleParams) := by
  refine .inScope_boundary rfl ?_
  refine (hg.bodyStatements hctx simpleParams .rightBrace).bind fun found => ?_
  exact .skip fun _ => .pure fun _ hfound => hfound

end Phrases.KeepPlacement

section Strictness

variable {options : Options} {exposed : Prop} {grant : Grant} {turnsStrict : Bool}

/-- A parameter that was read in sloppy code stays allowed, if the names in it are looked at
again where the code turns strict. -/
theorem allowed_turn {p : Pattern} (h : Allowed options exposed grant (.pattern p))
    (hagain : turnsStrict = true → grant.strict = false →
      p.isSimple = true ∧ ∀ id ∈ p.boundNames, IsBindable id.name) :
    Allowed options exposed (grant.turn turnsStrict) (.pattern p) := by
  cases hchanges : turnsStrict with
  | false => rwa [Grant.turn_false]
  | true =>
    cases hstrict : grant.strict with
    | true =>
      have hsame : grant.turn true = grant := by simp [Grant.turn, ← hstrict]
      rwa [hsame]
    | false =>
      obtain ⟨hsimple, hnames⟩ := hagain hchanges hstrict
      cases p with
      | identifier id => exact .binding fun _ => hnames id List.mem_cons_self
      | _ => cases hsimple

theorem tells_checkBoundNames (ctx : Context) (kind : BindingKind) (params : List Pattern) :
    Tells (fun _ => ∀ p ∈ params, ∀ id ∈ p.boundNames, bindingFault? ctx kind id.name = none)
      (params.forM (checkBoundNames ctx kind)) :=
  tells_forM params fun p _ => tells_forM p.boundNames fun _ _ => tells_checkBinding _ _ _ _

theorem tells_checkName (ctx : Context) (name : Option Identifier) :
    Tells (fun _ => ∀ id ∈ name, bindingFault? ctx .varName id.name = none)
      (name.forM fun id => checkBinding ctx .varName id.name id.span.start) := by
  cases name with
  | none => exact .pure nofun
  | some id =>
    exact fun s => (tells_checkBinding _ _ _ _ s).mono fun _ _ h => ⟨h.1, by simpa using h.2⟩

theorem functionBindingKind_still (ctx : Context) (s : State) :
    Meets Failure.IsImmediate (functionBindingKind ctx) (fun _ s' => s' = s) s := by
  unfold functionBindingKind
  refine .run rfl ?_
  dsimp only
  split <;> exact .pure rfl

theorem checkParameterCount_still (shape : FunctionShape) (params : List Pattern) (start : Nat)
    (s : State) :
    Meets Failure.IsImmediate (checkParameterCount shape params start) (fun _ s' => s' = s) s := by
  unfold checkParameterCount
  split <;> exact rfl

end Strictness

namespace Phrases.KeepPlacement

/-- Other evidence may be asked for, if what there is will do. -/
theorem showing {Shows : Failure → State → Prop} (hg : g.KeepPlacement q)
    (h : ∀ failure s, q.Shows failure s → Shows failure s) :
      g.KeepPlacement { q with Shows := Shows } where
  options := hg.options
  assignmentCover ctx := (hg.assignmentCover ctx).weaken rfl h
  unary ctx := (hg.unary ctx).weaken rfl h
  binary ctx start left minimum := (hg.binary ctx start left minimum).weaken rfl h
  newCall ctx := (hg.newCall ctx).weaken rfl h
  leftHandSide ctx := (hg.leftHandSide ctx).weaken rfl h
  markup ctx exit := (hg.markup ctx exit).weaken rfl h
  bindingTarget ctx kind := (hg.bindingTarget ctx kind).weaken rfl h
  targetNames := hg.targetNames
  statement ctx position hctx := (hg.statement ctx position hctx).weaken rfl h
  listItem ctx hctx := (hg.listItem ctx hctx).weaken rfl h
  shows failure s list hrepeats := h failure s (hg.shows failure s list hrepeats)

variable (hg : g.KeepPlacement q)

include hg

/-- A function, if there is evidence that the parameters just read may not repeat names. -/
theorem functionParts_of (hctx : ctx.inParameters = false) (shape : FunctionShape)
    (name : Option Identifier) {s : State}
    (hshows : ∀ params s₁ isStrict failure z,
      Grammar.formalParameters g { ctx with inParameters := true } s.entered = .ok params s₁ →
      ReadsBody g ctx (params.all Pattern.isSimple) isStrict s₁ →
      (ParameterList.mk s.start (.function shape isStrict) ctx params).isUnique = true →
      z.refused = some ⟨s.start, .function shape isStrict, ctx, params⟩ →
      RepeatsFirst params failure → q.Shows failure z) :
    KeepsPlacementAt q .none (fun _ parts =>
      PartsFit q.options ctx shape name parts.params parts.body)
      (Grammar.functionParts g ctx shape name) s := by
  unfold Grammar.functionParts
  refine KeepsPlacementAt.asFunction (P := fun _ (parts : FunctionParts) =>
    PartsFit q.options ctx shape name parts.params parts.body) (.inScope_current ?_)
  refine .look rfl (.look rfl fun hs => ?_)
  have hnames : ∀ params s₁,
      Grammar.formalParameters g { ctx with inParameters := true } s.entered = .ok params s₁ →
        s₁.scopes = declareNames (ctx.manner g.options .parameter)
          (s.scopes.push [.functionParams]) (parameterNames params) :=
    fun params s₁ hrun => ((hg.formalParameters_declares _ _ _ hs rfl).result hrun).2
  refine KeepsPlacementAt.bindRun (hg.formalParameters _ _) (fun params s₁ hreads _ => ?_)
    (fun params s₁ hreads hparams => ?_) hs
  · change s₁.scopes.outer = _
    rw [hnames params s₁ hreads]
    exact outer_declareNames _ _ _
  have hscopes := hnames params s₁ hreads
  refine .still (checkParameterCount_still _ _ _ _) fun _ => ?_
  extract_lets simple
  have hlight : KeepsPlacementAt q .none (fun _ _ => True) (expect .leftBrace) s₁ :=
    KeepsPlacement.of_tells tells_light (fun _ _ _ => trivial) s₁
  refine .look rfl (hlight.bindRun (fun _ _ _ => .of_eq) fun _ s₂ hbrace h₂ => ?_)
  refine (hg.bracedBody hctx simple s₂).bindRun (fun _ _ _ => .of_eq) fun found s₃ hbody h₃ => ?_
  have hfits := h₃.always
  obtain ⟨body, bodyCtx⟩ := found
  have hstrict : bodyCtx.strict = (ctx.strict || startsStrict body) := by
    rw [show bodyCtx = _ from hfits.context]
  have hstack : s₃.scopes = s₁.scopes := Eq.trans h₃.scopes h₂.scopes
  have hdepth : s₃.scopes.depth = (s.scopes.push [.functionParams]).depth := by
    unfold Stack.depth
    rw [hstack, hscopes, outer_declareNames]
  have hreadsBody : ReadsBody g ctx simple bodyCtx.strict s₁ := ⟨s₂, s₃, _, hbrace, hbody, hstrict⟩
  refine (keepsPlacementAt_settleParameters hdepth (hstack.trans hscopes)
    fun failure z => hshows params s₁ _ failure z hreads hreadsBody).bind fun _ s₄ hdistinct => ?_
  have hparts : (startsStrict body = true → ctx.strict = false →
      (∀ p ∈ params, ∀ id ∈ p.boundNames, IsBindable id.name) ∧
        ∀ id ∈ name, IsBindable id.name) → PartsFit q.options ctx shape name params body := by
    intro hagain
    refine ⟨fun p hp => ?_, hfits.allowed, fun hchanges hsloppy => (hagain hchanges hsloppy).2, ?_⟩
    · refine allowed_turn (hparams.always p hp) fun hchanges hsloppy => ?_
      exact ⟨List.all_eq_true.mp (hfits.simple hchanges) p hp, (hagain hchanges hsloppy).1 p hp⟩
    · intro hrepeated
      have hplain := Bool.eq_false_iff.mpr fun hunique => hrepeated (hdistinct.always hunique)
      simp only [ParameterList.isUnique, Bool.or_eq_false_iff, Bool.not_eq_false',
        bne_eq_false_iff_eq, hstrict] at hplain
      obtain ⟨⟨⟨⟨hsloppy, hsimple⟩, hshape⟩, hgenerator⟩, hasync⟩ := hplain
      have hall := fun p hp => List.all_eq_true.mp hsimple p hp
      exact ⟨hshape, hgenerator, hasync, hall, Bool.or_eq_false_iff.mpr hsloppy⟩
  dsimp only
  split
  · rename_i hturned
    have hbindable : ∀ {kind : BindingKind} {id : Identifier},
        bindingFault? bodyCtx kind id.name = none → IsBindable id.name :=
      fun h => isBindable_of_binding h (Bool.and_eq_true_iff.mp hturned).1
    refine .tells (tells_checkBoundNames _ _ _) fun _ s₅ _ hbound => ?_
    refine .tells (tells_checkName bodyCtx name) fun _ s₆ _ hname => ?_
    refine .skip fun span s₇ _ => .pure fun _ _ _ _ _ => hparts fun _ _ => ?_
    exact ⟨fun p hp id hid => hbindable (hbound p hp id hid),
      fun id hid => hbindable (hname id hid)⟩
  · rename_i hsame
    refine .skip fun span s₅ _ => .pure fun _ _ _ _ _ => hparts fun hchanges hsloppy => ?_
    simp [hstrict, hchanges, hsloppy] at hsame

theorem functionParts (hctx : ctx.inParameters = false) (shape : FunctionShape)
    (name : Option Identifier) :
    KeepsPlacement q .none (fun _ parts =>
      PartsFit q.options ctx shape name parts.params parts.body)
      (Grammar.functionParts g ctx shape name) := by
  intro s hs
  -- The evidence is this run itself.
  refine KeepsPlacementAt.shown (E := fun failure z => ∃ params s₁ isStrict,
    Grammar.formalParameters g { ctx with inParameters := true } s.entered = .ok params s₁ ∧
    ReadsBody g ctx (params.all Pattern.isSimple) isStrict s₁ ∧
    (ParameterList.mk s.start (.function shape isStrict) ctx params).isUnique = true ∧
    z.refused = some ⟨s.start, .function shape isStrict, ctx, params⟩ ∧
    RepeatsFirst params failure) (fun failure z herror hevidence => ?_) ?_ hs
  · obtain ⟨params, s₁, isStrict, hreads, hbody, hunique, hrefused, hrepeats⟩ := hevidence
    exact hg.shows failure z _
      ⟨hrefused, .function hs.sound hreads hbody herror, hrepeats, ParameterList.mustDiffer hunique⟩
  · refine (hg.showing fun _ _ => .inl).functionParts_of hctx shape name ?_
    exact fun params s₁ isStrict _ _ hreads hbody hunique hrefused hrepeats =>
      .inr ⟨params, s₁, isStrict, hreads, hbody, hunique, hrefused, hrepeats⟩

theorem functionDeclaration (ctx : Context) (isAsync nameRequired : Bool) :
    Obeys q .declares ctx .function (Grammar.functionDeclaration g ctx isAsync nameRequired) := by
  unfold Grammar.functionDeclaration
  refine .skip fun start => .skip fun generator => ?_
  have hinner := grant_enterFunction ctx isAsync generator
  intro s
  refine .look rfl ?_
  extract_lets rest
  have hrest : ∀ id : Option Identifier, (ctx.strict = true → ∀ x ∈ id, IsBindable x.name) →
      Obeys q .declares ctx .function (rest id) := by
    intro id hid
    refine (hg.functionParts (congrArg Grant.inParameters hinner) .plain id).quiet.bind
      fun parts => .skip fun span => .pure fun _ hparts => .plainFunction rfl ?_
    exact .function hparts (enters_function isAsync generator) (fun _ => rfl)
      fun hstrict => hid ((congrArg Grant.strict hinner).symm.trans hstrict)
  split
  · refine .look rfl (.look rfl (.still (functionBindingKind_still ctx s) fun kind => ?_))
    refine .checked fun hfault => .declared fun s₁ hs₁ => .named fun id hid => hrest _ ?_
    rintro hstrict _ ⟨⟩
    rw [hid, hs₁]
    exact isBindable_of_binding hfault hstrict
  · split
    · refine .skip fun escaped s₁ _ => ?_
      split
      · exact .skip fun raw s₂ _ => .tells tells_fail fun _ _ _ => False.elim
      · exact .tells tells_fail fun _ _ _ => False.elim
    · exact .look rfl (hrest none (fun _ => nofun) s)

theorem functionExpression (ctx : Context) (start : Nat) (isAsync : Bool) :
    Obeys q .none ctx .expression (Grammar.functionExpression g ctx start isAsync) := by
  unfold Grammar.functionExpression
  refine .skip fun generator => ?_
  extract_lets inner rest
  have hinner := grant_enterFunction ctx isAsync generator
  have hrest : ∀ id : Option Identifier, (inner.strict = true → ∀ x ∈ id, IsBindable x.name) →
      Obeys q .none ctx .expression (rest id) := by
    intro id hid
    refine (hg.functionParts (congrArg Grant.inParameters hinner) .plain id).bind fun parts => ?_
    refine .skip fun _ => .skip fun span => .pure fun _ hparts => .functionExpression ?_
    exact .function hparts (enters_function isAsync generator) (fun _ => rfl) hid
  refine fun s => .look rfl ?_
  split
  · refine .look rfl (.look rfl (.checked fun hfault => .named fun id hid => hrest _ ?_))
    rintro hstrict _ ⟨⟩
    rw [hid]
    exact isBindable_of_binding hfault hstrict
  · exact .look rfl (hrest none (fun _ => nofun) s)

/-- A method has the role that its object or class gives it. -/
theorem methodFunction (ctx : Context) (isAsync generator : Bool) (shape : FunctionShape)
    (hshape : shape ≠ .plain) : KeepsPlacement q .none (fun exposed f => ∀ role : FunctionRole,
      role ≠ .plain → (shape = .derivedConstructor → role = .classMethod .constructor true) →
        AllowedAs q.options exposed ctx.grant (.method role) (.function f))
      (Grammar.methodFunction g ctx isAsync generator shape) := by
  have hinner := grant_enterFunction ctx isAsync generator
  unfold Grammar.methodFunction
  refine .skip fun start => ?_
  extract_lets base inner
  have hstrict : inner.strict = ctx.strict := congrArg Grant.strict hinner
  have henters : ∀ role : FunctionRole, role ≠ .plain →
      (shape = .derivedConstructor → role = .classMethod .constructor true) →
        Enters ctx.grant inner.grant role generator isAsync := fun role hrole hderived =>
    ⟨hstrict, congrArg Grant.inGenerator hinner, congrArg Grant.inAsync hinner, fun _ => hrole,
      fun h => hderived (beq_iff_eq.mp (show (shape == .derivedConstructor) = true from h))⟩
  have hplace : inner.inParameters = false := congrArg Grant.inParameters hinner
  refine (hg.functionParts hplace shape none).bind fun parts => .skip fun span => .pure ?_
  intro exposed hparts role hrole hderived
  exact .function hparts (henters role hrole hderived) (fun h => absurd h hshape) fun _ => nofun

end Phrases.KeepPlacement

/-- An element of a class that has, or lacks, a superclass. -/
abbrev ObeysElement (q : Inquiry) (ctx : Context) (derived : Bool) (step : Parser ClassElement) :
    Prop :=
  KeepsPlacement q .none (fun exposed x =>
    AllowedElement q.options exposed ctx.grant derived x) step

theorem Modifiers.shape_isMethod (m : Modifiers) :
    m.shape ≠ .plain ∧ m.shape ≠ .derivedConstructor := by
  unfold shape
  split <;> exact ⟨nofun, nofun⟩

namespace Phrases.KeepPlacement

variable {g : Phrases} (hg : g.KeepPlacement q)

include hg

theorem staticBlock (ctx : Context) (derived : Bool) (start : Nat) :
    ObeysElement q ctx derived (Grammar.staticBlock g ctx start) := by
  have hparameters := congrArg Grant.inParameters (grant_initializerContext ctx)
  unfold Grammar.staticBlock
  refine .skip fun _ => .skip fun saved => .skip fun _ => ?_
  refine KeepsPlacement.bind (.inScope_boundary rfl (P := fun _ (body : List Statement) =>
    ∀ x ∈ body, Allowed q.options True (initializerContext ctx).grant (.statement x)) ?_)
    fun body => .skip fun _ => .skip fun span => .pure fun _ hbody => .staticBlock hbody
  refine KeepsPlacement.bind (keepsPlacement_itemsUpTo (hg.listItem _ hparameters)) fun body =>
    .skip fun _ => ?_
  exact .pure fun _ hbody x hx => (hbody x hx).allowed

theorem decoratorExpression (ctx : Context) :
    Obeys q .none ctx .expression (Grammar.decoratorExpression g ctx) := by
  unfold Grammar.decoratorExpression
  refine .skip fun start => .skip fun inParens => ?_
  split
  · exact (hg.expression ctx.withIn).bind fun e => .skip fun _ => .pure fun _ he => he
  · refine fun s => .look rfl ?_
    split
    · exact .tells tells_unexpected fun _ _ _ => False.elim
    rename_i hidentifier
    refine .look rfl (.referenced fun hname => ?_)
    refine (KeepsPlacementAt.reference (by simpa using hidentifier) hname).bind fun name s' hs' =>
      ?_
    refine KeepsPlacement.bind (keepsPlacement_iterate (P := fun exposed e =>
      Allowed q.options exposed ctx.grant (.expression e)) (fun object => ?_) g.size _)
      (fun path => .skip fun atParen => ?_) s'
    · refine .skip fun atDot => ?_
      split
      · refine (keepsPlacement_memberName ctx).bind fun property => .skip fun span => ?_
        refine .pure fun _ hproperty hobject => ?_
        rintro _ ⟨⟩
        exact .member (.operand hobject (.inr rfl)) hproperty
      · exact .pure fun _ _ => nofun
    · split
      · refine (hg.arguments ctx).bind fun args => .skip fun span => .pure ?_
        intro exposed hargs hpath hobject
        exact .call (.operand (hpath hobject) (.inl rfl)) hargs
      · exact .pure fun _ hpath hobject => hpath hobject

theorem decorators (ctx : Context) :
    ObeysAll q .none ctx .decorator (Grammar.decorators g ctx) := by
  refine keepsPlacement_collect fun earlier => .skip fun start => .skip fun atSign => ?_
  split
  · refine (hg.decoratorExpression ctx).bind fun e => .skip fun span => .pure fun _ he => ?_
    exact AllowedAs.single rfl he rfl
  · exact .pure fun _ => trivial

theorem classMethod (ctx : Context) (derived : Bool) (earlier : List ClassElement)
    (found : List Decorator) (start : Nat) (m : Modifiers) (key : Expression) (computed : Bool)
    (keyStart : Nat) : KeepsPlacement q .none (fun exposed x =>
      AllowedKey q.options exposed ctx.grant computed key →
        (∀ d ∈ found, Allowed q.options exposed ctx.grant (.decorator d)) →
          AllowedElement q.options exposed ctx.grant derived x)
      (Grammar.classMethod g ctx derived earlier found start m key computed keyStart) := by
  unfold Grammar.classMethod
  extract_lets name isConstructing kind shape rest
  have hshape : shape ≠ .plain := by
    unfold shape
    split
    · split <;> exact nofun
    · exact m.shape_isMethod.1
  have hderived : shape = .derivedConstructor →
      FunctionRole.classMethod kind derived = .classMethod .constructor true := by
    unfold shape kind
    split
    · split
      · rename_i h
        exact fun _ => by rw [h]
      · exact nofun
    · exact fun h => absurd h m.shape_isMethod.2
  have hrest : ∀ u, KeepsPlacement q .none (fun exposed x =>
      AllowedKey q.options exposed ctx.grant computed key →
        (∀ d ∈ found, Allowed q.options exposed ctx.grant (.decorator d)) →
          AllowedElement q.options exposed ctx.grant derived x) (rest u) := by
    intro u
    refine .skip fun _ => (hg.methodFunction ctx _ _ _ hshape).bind fun value => ?_
    refine .skip fun span => ?_
    exact .pure fun _ hvalue hkey hfound => .method hkey (hvalue _ nofun hderived) hfound
  split
  · exact .guard tells_failAt fun _ => .guard tells_failAt fun _ => hrest ()
  · exact hrest ()

theorem classField (ctx : Context) (derived : Bool) (found : List Decorator) (start : Nat)
    (m : Modifiers) (key : Expression) (computed : Bool) (keyStart : Nat) :
    KeepsPlacement q .none (fun exposed x => AllowedKey q.options exposed ctx.grant computed key →
      (∀ d ∈ found, Allowed q.options exposed ctx.grant (.decorator d)) →
        AllowedElement q.options exposed ctx.grant derived x)
      (Grammar.classField g ctx found start m key computed keyStart) := by
  unfold Grammar.classField
  refine .guard tells_unexpected fun _ => .guard tells_failAt fun _ => .skip fun _ => ?_
  refine .skip fun hasValue => ?_
  extract_lets rest
  have hrest : ∀ value, KeepsPlacement q .none (fun exposed x =>
      (∀ e ∈ value, Allowed q.options True (initializerContext ctx).grant (.expression e)) →
        AllowedKey q.options exposed ctx.grant computed key →
          (∀ d ∈ found, Allowed q.options exposed ctx.grant (.decorator d)) →
            AllowedElement q.options exposed ctx.grant derived x) (rest value) := by
    intro value
    refine .skip fun _ => .skip fun span => .pure fun _ hvalue hkey hfound => ?_
    exact .field hkey hvalue hfound
  split
  · exact (hg.assignment _).always.optional.bind hrest
  · exact KeepsPlacement.bind (.pure fun _ => nofun) hrest

theorem classElement (ctx : Context) (derived : Bool) (earlier : List ClassElement) :
    ObeysElement q ctx derived (Grammar.classElement g ctx derived earlier) := by
  unfold Grammar.classElement
  refine .skip fun start => .skip fun atSign => ?_
  extract_lets blockRest rest
  have hrest : ∀ found : List Decorator, KeepsPlacement q .none (fun exposed x =>
      (∀ d ∈ found, Allowed q.options exposed ctx.grant (.decorator d)) →
        AllowedElement q.options exposed ctx.grant derived x) (rest found) := by
    intro found
    refine .skip fun isStatic => ?_
    extract_lets last
    have hlast : KeepsPlacement q .none (fun exposed x =>
        (∀ d ∈ found, Allowed q.options exposed ctx.grant (.decorator d)) →
          AllowedElement q.options exposed ctx.grant derived x) (last ()) := by
      refine .skip fun m => .skip fun keyStart => (hg.propertyKey ctx true).bind fun r => ?_
      obtain ⟨key, computed⟩ := r
      refine .guard tells_failAt fun _ => .skip fun atParen => ?_
      split
      · exact hg.classMethod ctx derived earlier found start m key computed keyStart
      · exact hg.classField ctx derived found start m key computed keyStart
    split
    · refine .skip fun _ => .skip fun atBrace => ?_
      split
      · refine .guard tells_failAt fun _ => ?_
        exact (hg.staticBlock ctx derived start).mono fun _ _ hx _ => hx
      · exact hlast
    · exact hlast
  split
  · exact (hg.decorators ctx).bind hrest
  · exact KeepsPlacement.bind (.pure fun _ => nofun) hrest

theorem classBody (ctx : Context) (derived : Bool) : KeepsPlacement q .none (fun exposed found =>
    ∀ x ∈ found.2, AllowedElement q.options exposed ctx.grant derived x)
      (Grammar.classBody g ctx derived) := by
  have helements : KeepsPlacement q .none (fun exposed (elements : List ClassElement) =>
      ∀ x ∈ elements, AllowedElement q.options exposed ctx.grant derived x) (do
        let elements ← g.collect fun (earlier : List (Option ClassElement)) => do
          if ← atToken .rightBrace then return .stop
          if ← accept .semicolon then return .more none
          if ← atToken .endOfSource then unexpected
          return .more (some (← Grammar.classElement g ctx derived (earlier.filterMap id)))
        next
        return elements.filterMap id) := by
    refine KeepsPlacement.bind (keepsPlacement_collect
      (P := fun exposed (found : Option ClassElement) =>
      ∀ x ∈ found, AllowedElement q.options exposed ctx.grant derived x)
      fun earlier => .skip fun atBrace => ?_)
      fun found => .skip fun _ => .pure fun _ hfound x hx => ?_
    · split
      · exact .pure fun _ => trivial
      · refine .skip fun atSemicolon => ?_
        split
        · exact .pure fun _ => nofun
        · refine .skip fun atEnd => .guard tells_unexpected fun _ => ?_
          refine (hg.classElement ctx derived _).bind fun x => .pure fun _ hx => ?_
          rintro _ ⟨⟩
          exact hx
    · obtain ⟨y, hy, heq⟩ := List.mem_filterMap.mp hx
      exact hfound y hy x heq
  unfold Grammar.classBody
  refine .skip fun start => .skip fun _ => .skip fun _ => ?_
  refine (KeepsPlacement.inScope_quiet helements).bind fun elements => .skip fun s => ?_
  refine .skip fun _ => .tells (tells_light (h := light_exitClass s)) fun _ _ => ?_
  exact .skip fun span => .pure fun _ hfound => hfound

/-- A class declares its name only as a declaration. -/
theorem classDefinition (ctx : Context) (start : Nat) {isDeclaration : Bool}
    (heffect : isDeclaration = true → effect = .declares) (found : List Decorator)
    (isDefaultExport : Bool) : KeepsPlacement q effect (fun exposed c =>
      (∀ d ∈ found, Allowed q.options exposed ctx.grant (.decorator d)) →
        Allowed q.options exposed ctx.grant (.classDefinition c))
      (Grammar.classDefinition g ctx start isDeclaration found isDefaultExport) := by
  unfold Grammar.classDefinition
  refine .skip fun _ => ?_
  extract_lets inner rest
  refine fun s => .look rfl ?_
  have hrest : ∀ id : Option Identifier, (∀ x ∈ id, IsBindable x.name) →
      KeepsPlacement q effect (fun exposed c =>
        (∀ d ∈ found, Allowed q.options exposed ctx.grant (.decorator d)) →
          Allowed q.options exposed ctx.grant (.classDefinition c)) (rest id) := by
    intro id hid
    refine .skip fun hasHeritage => ?_
    extract_lets last
    have hlast : ∀ heritage : Option Expression, KeepsPlacement q effect (fun exposed c =>
        (∀ e ∈ heritage, Allowed q.options exposed inner.grant (.expression e)) →
          (∀ d ∈ found, Allowed q.options exposed ctx.grant (.decorator d)) →
            Allowed q.options exposed ctx.grant (.classDefinition c)) (last heritage) := by
      intro heritage
      refine (hg.classBody _ _).quiet.bind fun r => .skip fun _ => .skip fun span => ?_
      exact .pure fun _ helements hheritage hfound =>
        .classDefinition hid hheritage helements hfound
    split
    · refine (hg.leftHandSide inner).quiet.bind fun heritage => .skip fun _ s₁ => .look rfl ?_
      refine (hlast (some heritage) s₁).mono fun exposed c hc hheritage => hc ?_
      rintro _ ⟨⟩
      exact hheritage
    · refine fun s₁ => .look rfl ((hlast none s₁).mono fun exposed c hc => hc nofun)
  have hname : ∀ {id : Identifier}, bindingFault? inner .className id.name = none →
      ∀ x ∈ some id, IsBindable x.name := by
    rintro id hfault _ ⟨⟩
    exact isBindable_of_binding hfault rfl
  split
  · refine .look rfl (.look rfl (.checked fun hfault => ?_))
    split
    · rename_i hdeclaration
      obtain rfl := heffect hdeclaration
      refine .declared fun s₁ hs₁ => .named fun id hid => hrest _ (hname ?_)
      rwa [hid, hs₁]
    · refine .named fun id hid => hrest _ (hname ?_)
      rwa [hid]
  · split
    · exact .tells tells_fail fun _ _ _ => False.elim
    · exact .look rfl (hrest none nofun s)

end Phrases.KeepPlacement

end EcmaSyntax.Grammar
