import EcmaSyntax.Grammar.Class
import EcmaSyntax.Proofs.Places.Form
import EcmaSyntax.Proofs.Places.Phrases

/-!
What functions and classes are made of. What a parse permits inside of one of them is what the
region that it opens permits, so a function or class is allowed where its parts are allowed in the
contexts in which they are read.

The pattern of a parameter declares exactly the names that it binds, in the order in which they
stand; initializers and computed keys in it declare nothing.
-/

namespace EcmaSyntax.Tree

def PatternProperty.boundNames : PatternProperty → List Identifier
  | .property _ _ value _ _ => value.boundNames
  | .rest _ argument => argument.boundNames

theorem boundNamesOfPatterns_eq (patterns : List Pattern) :
    boundNamesOfPatterns patterns = patterns.flatMap Pattern.boundNames := by
  induction patterns with
  | nil => rfl
  | cons pattern rest ih => exact congrArg (pattern.boundNames ++ ·) ih

theorem boundNamesOfProperties_eq (properties : List PatternProperty) :
    boundNamesOfProperties properties = properties.flatMap PatternProperty.boundNames := by
  induction properties with
  | nil => rfl
  | cons property rest ih =>
    cases property with
    | property span key value shorthand computed => exact congrArg (value.boundNames ++ ·) ih
    | rest span argument => exact congrArg (argument.boundNames ++ ·) ih

end EcmaSyntax.Tree

namespace EcmaSyntax.Grammar

open EcmaSyntax.Diagnostic EcmaSyntax.Lexer EcmaSyntax.Scope EcmaSyntax.Text EcmaSyntax.Tree

variable {version : Nat} [Unicode.IdentifierChars version]

section Regions

@[simp] theorem Grant.turn_false (grant : Grant) : grant.turn false = grant := by
  simp [turn]

section Contexts

variable (ctx : Context)

theorem grant_enterFunction (isAsync generator : Bool) :
    (ctx.enterFunction isAsync generator).grant =
      ⟨ctx.strict, true, generator, isAsync, false, false, false, false, true⟩ := by
  simp [Context.grant, Context.enterFunction, Context.diff, Context.toList, Context.ofList,
    Context.functionReset, Context.thisBound, Context.none]

theorem grant_enterArrow (isAsync : Bool) :
    (ctx.enterArrow isAsync).grant =
      { ctx.grant with
        inFunction := true, inGenerator := false, inAsync := isAsync, inParameters := false } := by
  simp [Context.grant, Context.enterArrow, Context.diff, Context.toList, Context.ofList,
    Context.functionReset, Context.none]

theorem grant_initializerContext :
    (initializerContext ctx).grant =
      ⟨ctx.strict, false, false, false, true, false, true, false, true⟩ := by
  simp [Context.grant, initializerContext, Context.diff, Context.toList, Context.ofList,
    Context.functionReset, Context.none]

end Contexts

variable {options : Options} {exposed : Prop} {grant outer inner : Grant} {place : Place}
  {slot : Slot} {ctx : Context}

section Functions

variable {role : FunctionRole} {shape : FunctionShape} {f : Function} {name : Option Identifier}

/-- What is permitted inside a function, next to what is permitted around it. -/
structure Enters (outer inner : Grant) (role : FunctionRole) (generator isAsync : Bool) :
    Prop where
  strict : inner.strict = outer.strict
  generator : inner.inGenerator = generator
  isAsync : inner.inAsync = isAsync
  hasSuper : inner.inMethod = true → role ≠ .plain
  callsSuper : inner.inDerivedConstructor = true → role = .classMethod .constructor true

theorem enters_function (isAsync generator : Bool) :
    Enters ctx.grant (ctx.enterFunction isAsync generator).grant .plain generator isAsync := by
  rw [grant_enterFunction]
  exact ⟨rfl, rfl, rfl, nofun, nofun⟩

/-- Parameters and body of a function are allowed where they stand, and the first are told
apart by their names unless the function is one that may repeat them. -/
structure PartsFit (options : Options) (ctx : Context) (shape : FunctionShape)
    (name : Option Identifier) (params : List Pattern) (body : List Statement) : Prop where
  allowedParams : ∀ p ∈ params, Allowed options True
    { ctx.grant.turn (startsStrict body) with inParameters := true } (.pattern p)
  allowedBody : ∀ s ∈ body, Allowed options True (ctx.grant.turn (startsStrict body)) (.statement s)
  /-- The name was read before the code turned strict. -/
  bindable : startsStrict body = true → ctx.strict = false → ∀ id ∈ name, IsBindable id.name
  plain : ¬ AreDistinct (parameterNames params) →
    shape = .plain ∧ ctx.inGenerator = false ∧ ctx.inAsync = false ∧
      (∀ p ∈ params, p.isSimple = true) ∧ (ctx.strict || startsStrict body) = false

theorem hasSuper_of_role (h : role ≠ .plain)
    (hregion : place.thisRegion = some (.function role)) : place.HasSuper := by
  cases role with
  | plain => exact absurd rfl h
  | objectMethod => exact .inl hregion
  | classMethod kind derived => exact .inr (.inl ⟨kind, derived, hregion⟩)

theorem covers_functionBody (hplace : CoversPlace options exposed outer place)
    (henters : Enters outer inner role f.generator f.isAsync) :
    CoversPlace options True (inner.turn (startsStrict f.body))
      ((place.as (.method role)).functionBody f) where
  strict h := by
    rcases Bool.or_eq_true_iff.mp h with h | h
    · exact Bool.or_eq_true_iff.mpr (.inl (henters.strict.trans (hplace.strict h)))
    · exact Bool.or_eq_true_iff.mpr (.inr h)
  yields _ _ h := ⟨f.isAsync, by rw [← henters.generator.symm.trans h]; rfl⟩
  awaits _ _ h := .inl ⟨f.generator, by rw [← henters.isAsync.symm.trans h]; rfl⟩
  returns _ _ _ := .inl ⟨f.generator, f.isAsync, rfl⟩
  hasSuper h := hasSuper_of_role (henters.hasSuper h) rfl
  callsSuper h := congrArg (fun role => some (ThisRegion.function role)) (henters.callsSuper h)
  newTarget _ := nofun
  arguments h := by rcases h with h | h <;> cases h

theorem covers_functionParameters (hplace : CoversPlace options exposed outer place)
    (henters : Enters outer inner role f.generator f.isAsync) :
    CoversPlace options True { inner.turn (startsStrict f.body) with inParameters := true }
      ((place.as (.method role)).functionParameters f) :=
  { covers_functionBody hplace henters with
    yields := nofun
    awaits := nofun
    returns := nofun }

theorem AllowedAs.function {ctx : Context}
    (h : PartsFit options ctx shape f.id f.params f.body)
    (henters : Enters outer ctx.grant role f.generator f.isAsync)
    (hrole : shape = .plain → role = .plain)
    (hname : ctx.strict = true → ∀ id ∈ f.id, IsBindable id.name) :
    AllowedAs options exposed outer (.method role) (.function f) := by
  intro place hplace
  refine .node ⟨trivial, trivial, ?_, ?_, trivial⟩ ?_
  · intro hstrict
    cases hctx : ctx.strict with
    | true => exact hname hctx
    | false =>
      rcases Bool.or_eq_true_iff.mp hstrict with hplace' | hbody
      · have hctx' := henters.strict.trans (hplace.strict hplace')
        exact absurd hctx' (Bool.eq_false_iff.mp hctx)
      · exact h.bindable hbody hctx
  · intro hrepeated
    obtain ⟨hshape, hgenerator, hasync, hsimple, hsloppy⟩ := h.plain hrepeated
    refine ⟨hrole hshape, henters.generator.symm.trans hgenerator,
      henters.isAsync.symm.trans hasync, hsimple, ?_⟩
    rw [Bool.or_eq_false_iff] at hsloppy ⊢
    refine ⟨Bool.eq_false_iff.mpr fun hplace' => ?_, hsloppy.2⟩
    have hctx := henters.strict.trans (hplace.strict hplace')
    exact absurd hctx (Bool.eq_false_iff.mp hsloppy.1)
  · refine List.forall_mem_append.mpr ⟨List.forall_mem_map.mpr fun p hp => ?_,
      List.forall_mem_map.mpr fun s hs => ?_⟩
    · exact h.allowedParams p hp _ (covers_functionParameters hplace henters)
    · exact h.allowedBody s hs _ (covers_functionBody hplace henters)

/-- A function that is no method may stand in other ways. -/
theorem AllowedAs.plainFunction (hslot : slot.role = .plain)
    (h : AllowedAs options exposed grant (.method .plain) (.function f)) :
    AllowedAs options exposed grant slot (.function f) := by
  intro place hplace
  have hf := h place hplace
  have hrole : (place.as slot).slot.role = (place.as (.method .plain)).slot.role := hslot
  refine .node ⟨trivial, trivial, hf.here.strict, ?_, trivial⟩ fun part hpart => hf.part ?_
  · unfold ParametersFit
    rw [hrole]
    exact hf.here.parameters
  · unfold Node.parts Place.functionParameters Place.functionBody at hpart ⊢
    rwa [hrole] at hpart

theorem AllowedAs.functionExpression
    (h : AllowedAs options exposed grant (.method slot.role) (.function f)) :
    AllowedAs options exposed grant slot (.expression (.function f)) :=
  fun place hplace => .node ⟨trivial, trivial, trivial, trivial, trivial⟩
    (List.forall_mem_singleton.mpr (h place hplace))

end Functions

section Arrows

variable {isAsync turnsStrict : Bool} {params : List Pattern} {span bodySpan : Span}

theorem covers_arrowBody (hplace : CoversPlace options exposed ctx.grant place) :
    CoversPlace options True ((ctx.enterArrow isAsync).grant.turn turnsStrict)
      (place.arrowBody turnsStrict isAsync) := by
  rw [grant_enterArrow]
  exact
    { strict := fun h => by
        rcases Bool.or_eq_true_iff.mp h with h | h
        · exact Bool.or_eq_true_iff.mpr (.inl (hplace.strict h))
        · exact Bool.or_eq_true_iff.mpr (.inr h)
      yields := nofun
      awaits := fun _ _ h => .inr (.inl (by rw [← show isAsync = true from h]; rfl))
      returns := fun _ _ _ => .inr (.inl ⟨isAsync, rfl⟩)
      hasSuper := hplace.hasSuper
      callsSuper := hplace.callsSuper
      newTarget := hplace.newTarget
      arguments := hplace.arguments }

theorem covers_arrowParameters (hplace : CoversPlace options exposed grant place) :
    CoversPlace options False (grant.turn turnsStrict) (place.arrowParameters turnsStrict) where
  strict h := by
    rcases Bool.or_eq_true_iff.mp h with h | h
    · exact Bool.or_eq_true_iff.mpr (.inl (hplace.strict h))
    · exact Bool.or_eq_true_iff.mpr (.inr h)
  yields := nofun
  awaits := nofun
  returns := nofun
  hasSuper := hplace.hasSuper
  callsSuper := hplace.callsSuper
  newTarget := hplace.newTarget
  arguments := hplace.arguments

theorem AllowedAs.arrow {body : Expression}
    (hparams : ∀ p ∈ params, Allowed options False ctx.grant (.pattern p))
    (hdistinct : AreDistinct (parameterNames params))
    (hbody : Allowed options True (ctx.enterArrow isAsync).grant (.expression body)) :
    AllowedAs options exposed ctx.grant slot (.expression (.arrow span isAsync params body)) := by
  intro place hplace
  refine .node ⟨trivial, trivial, trivial, hdistinct, trivial⟩ (List.forall_mem_cons.mpr ⟨?_, ?_⟩)
  · have hcovers : CoversPlace options True ((ctx.enterArrow isAsync).grant.turn false)
        (place.arrowBody false isAsync) := covers_arrowBody hplace
    rw [Grant.turn_false] at hcovers
    exact hbody _ hcovers
  · refine List.forall_mem_map.mpr fun p hp => ?_
    have hcovers : CoversPlace options False (ctx.grant.turn false) (place.arrowParameters false) :=
      covers_arrowParameters hplace
    rw [Grant.turn_false] at hcovers
    exact hparams p hp _ hcovers

theorem AllowedAs.blockArrow {body : List Statement}
    (hparams : ∀ p ∈ params,
      Allowed options False (ctx.grant.turn (startsStrict body)) (.pattern p))
    (hdistinct : AreDistinct (parameterNames params))
    (hbody : ∀ s ∈ body, Allowed options True
      ((ctx.enterArrow isAsync).grant.turn (startsStrict body)) (.statement s)) :
    AllowedAs options exposed ctx.grant slot
      (.expression (.blockArrow span isAsync params bodySpan body)) := by
  intro place hplace
  refine .node ⟨trivial, trivial, trivial, hdistinct, trivial⟩ (List.forall_mem_append.mpr ⟨?_, ?_⟩)
  · exact List.forall_mem_map.mpr fun p hp => hparams p hp _ (covers_arrowParameters hplace)
  · exact List.forall_mem_map.mpr fun s hs => hbody s hs _ (covers_arrowBody hplace)

end Arrows

section Classes

variable {span : Span} {derived computed isStatic : Bool} {key : Expression}
  {decorators : List Decorator}

/-- An element of a class may stand where the class has, or lacks, a superclass. -/
def AllowedElement (options : Options) (exposed : Prop) (grant : Grant) (derived : Bool)
    (x : ClassElement) : Prop :=
  ∀ place, CoversPlace options exposed grant place → place.derived = derived →
    Suits options (place.as .value) (.classElement x)

theorem covers_heritage (hplace : CoversPlace options exposed grant place) :
    CoversPlace options exposed { grant with strict := true } place.heritage :=
  { hplace with strict := fun _ => rfl }

theorem covers_classElement (hplace : CoversPlace options exposed grant place) :
    CoversPlace options exposed { grant with strict := true } (place.classElement derived) :=
  { hplace with strict := fun _ => rfl }

theorem covers_initializer (hplace : CoversPlace options exposed ctx.grant place) :
    CoversPlace options True (initializerContext ctx).grant place.fieldInitializer := by
  rw [grant_initializerContext]
  exact
    { strict := hplace.strict
      yields := nofun
      awaits := nofun
      returns := nofun
      hasSuper := fun _ => .inr (.inr (.inl rfl))
      callsSuper := nofun
      newTarget := fun _ => nofun
      arguments := fun _ => rfl }

theorem covers_staticBlock (hplace : CoversPlace options exposed ctx.grant place) :
    CoversPlace options True (initializerContext ctx).grant place.staticBlock := by
  rw [grant_initializerContext]
  exact
    { strict := hplace.strict
      yields := nofun
      awaits := nofun
      returns := nofun
      hasSuper := fun _ => .inr (.inr (.inr rfl))
      callsSuper := nofun
      newTarget := fun _ => nofun
      arguments := fun _ => rfl }

theorem AllowedElement.method {kind : MethodKind} {value : Function}
    (hkey : AllowedKey options exposed grant computed key)
    (hvalue : AllowedAs options exposed grant (.method (.classMethod kind derived))
      (.function value))
    (hdecorators : ∀ d ∈ decorators, Allowed options exposed grant (.decorator d)) :
    AllowedElement options exposed grant derived
      (.method span isStatic computed key kind value decorators) := by
  rintro place hplace rfl
  refine .node ⟨trivial, trivial, trivial, trivial, trivial⟩ ?_
  refine List.forall_mem_cons.mpr ⟨hkey place hplace, ?_⟩
  refine List.forall_mem_cons.mpr ⟨hvalue place hplace, ?_⟩
  exact List.forall_mem_map.mpr fun d hd => hdecorators d hd place hplace

theorem AllowedElement.field {value : Option Expression}
    (hkey : AllowedKey options exposed ctx.grant computed key)
    (hvalue : ∀ e ∈ value, Allowed options True (initializerContext ctx).grant (.expression e))
    (hdecorators : ∀ d ∈ decorators, Allowed options exposed ctx.grant (.decorator d)) :
    AllowedElement options exposed ctx.grant derived
      (.field span isStatic computed key value decorators) := by
  intro place hplace _
  refine .node ⟨trivial, trivial, trivial, trivial, trivial⟩ ?_
  refine List.forall_mem_cons.mpr ⟨hkey place hplace, List.forall_mem_append.mpr ⟨?_, ?_⟩⟩
  · exact List.forall_mem_map.mpr fun c hc =>
      AllowedAs.ofOption hvalue c hc _ (covers_initializer hplace)
  · exact List.forall_mem_map.mpr fun d hd => hdecorators d hd place hplace

theorem AllowedElement.staticBlock {body : List Statement}
    (h : ∀ s ∈ body, Allowed options True (initializerContext ctx).grant (.statement s)) :
    AllowedElement options exposed ctx.grant derived (.staticBlock span body) := by
  intro place hplace _
  refine .node ⟨trivial, trivial, trivial, trivial, trivial⟩ ?_
  exact List.forall_mem_map.mpr fun s hs => h s hs _ (covers_staticBlock hplace)

theorem AllowedAs.classDefinition {c : ClassDefinition}
    (hname : ∀ id ∈ c.id, IsBindable id.name)
    (hheritage : ∀ e ∈ c.superClass,
      Allowed options exposed { grant with strict := true } (.expression e))
    (helements : ∀ x ∈ c.elements,
      AllowedElement options exposed { grant with strict := true } c.superClass.isSome x)
    (hdecorators : ∀ d ∈ c.decorators, Allowed options exposed grant (.decorator d)) :
    AllowedAs options exposed grant slot (.classDefinition c) := by
  intro place hplace
  refine .node ⟨trivial, trivial, hname, trivial, trivial⟩ (List.forall_mem_append.mpr ⟨?_, ?_⟩)
  · exact List.forall_mem_map.mpr fun n hn =>
      AllowedAs.ofOption hheritage n hn _ (covers_heritage hplace)
  · refine List.forall_mem_append.mpr ⟨List.forall_mem_map.mpr fun x hx => ?_, ?_⟩
    · exact helements x hx _ (covers_classElement hplace) rfl
    · exact List.forall_mem_map.mpr fun d hd => hdecorators d hd place hplace

end Classes

end Regions

section Declarations

variable {q : Inquiry} {g : Phrases} {ctx : Context}

section Names

/-- Only a word is a name and the name of a property. -/
theorem propertyKey_start {s : State} (h : s.token.isIdentifier = true) :
    Yields (propertyKey g ctx false)
      (fun found _ => ∀ id, found.1 = .identifier id → id.span.start = s.start) s := by
  unfold propertyKey
  refine .run rfl ?_
  split
  · rename_i htoken
    rw [htoken] at h
    cases h
  · exact .skip fun lit _ => .pure (by rintro _ ⟨⟩)
  · exact .skip fun lit _ => .pure (by rintro _ ⟨⟩)
  · exact .skip fun lit _ => .pure (by rintro _ ⟨⟩)
  · rename_i htoken
    rw [htoken] at h
    cases h
  · split
    · unfold identifier
      refine Meets.bind (.run rfl (.run rfl (.skip fun _ _ => .run rfl (.pure rfl))))
        fun id s' (hid : id.span.start = s.start) => .pure ?_
      rintro _ ⟨⟩
      exact hid
    · exact ((tells_unexpected s).weaken fun _ _ => trivial).mono fun _ _ h => h.2.elim

theorem tells_shorthandName (token : Token) (escaped : Bool) (start : Nat) (key : Expression) :
    Tells (fun id => token.isIdentifier = true ∧ key = .identifier id)
      (shorthandName token escaped start key) := by
  unfold shorthandName
  split
  · split
    · rename_i htoken
      exact .pure ⟨htoken, rfl⟩
    · split
      · exact .absurd tells_failAt
      · exact .absurd tells_unexpected
  · exact .absurd tells_unexpected

end Names

namespace Phrases.KeepPlacement

variable (hg : g.KeepPlacement q)

include hg

section Declared

variable (ctx : Context) (kind : BindingKind)

theorem bindingElement_declares :
    Declares q.text (ctx.manner g.options kind) [] Pattern.boundNames
      (Grammar.bindingElement g ctx kind) := by
  unfold Grammar.bindingElement
  refine .skip fun start => (hg.targetNames ctx kind).bind fun target => .skip fun found => ?_
  split
  · exact .quiet (hg.assignment ctx.withIn) fun right => .skip fun span => .pure rfl
  · exact .pure rfl

theorem bindingRest_declares (close : Token) :
    Declares q.text (ctx.manner g.options kind) [] (fun found => found.2.boundNames)
    (Grammar.bindingRest g ctx kind close) := by
  unfold Grammar.bindingRest
  refine .skip fun start => .skip fun _ => ?_
  extract_lets rest
  have hrest : ∀ argument, Declares q.text (ctx.manner g.options kind) argument.boundNames
    (fun found => found.2.boundNames)
      (rest argument) := by
    intro argument
    refine .skip fun atAssign => .guard tells_fail (.skip fun atComma => ?_)
    dsimp only
    split
    · refine .skip fun comma => .skip fun _ => .skip fun atClose => ?_
      split
      · exact .tells tells_failAt fun _ => False.elim
      · exact .tells tells_failAt fun _ => False.elim
    · exact .skip fun span => .pure rfl
  split
  · exact Declares.bind (.map (declares_bindingIdentifier q.text g.options ctx kind)) hrest
  · exact (hg.targetNames ctx kind).bind hrest

theorem arrayBinding_declares :
    Declares q.text (ctx.manner g.options kind) [] Pattern.boundNames
      (Grammar.arrayBinding g ctx kind) := by
  unfold Grammar.arrayBinding
  refine .skip fun start => .skip fun _ => Declares.bind (declares_collect
    Pattern.boundNames fun earlier => .skip fun token => ?_) fun elements =>
      .skip fun _ => .skip fun span => .pure (boundNamesOfPatterns_eq elements).symm
  split
  · exact .pure rfl
  · exact .skip fun _ => .pure rfl
  · exact (hg.bindingRest_declares ctx kind .rightBracket).bind fun r => .pure rfl
  · exact (hg.bindingElement_declares ctx kind).bind fun element => .skip fun _ => .pure rfl

theorem shorthandBinding_declares (start : Nat) (id : Identifier) (hstart : id.span.start = start) :
    Declares q.text (ctx.manner g.options kind) [] Pattern.boundNames
      (Grammar.shorthandBinding g ctx kind start id) := by
  subst hstart
  unfold Grammar.shorthandBinding
  refine .skip fun _ => ?_
  have hdeclare : Declares q.text (ctx.manner g.options kind) [] (fun _ => [id])
      (declare g.options ctx kind id.name id.span.start) := by
    intro base s hs hscopes
    refine (declare_yields g.options ctx kind _ _ s).mono fun _ s₁ hs₁ => ?_
    subst hs₁
    refine ⟨hs, ?_⟩
    rw [hscopes]
    rfl
  refine hdeclare.bind fun _ => .skip fun found => ?_
  split
  · exact .quiet (hg.assignment ctx.withIn) fun right => .skip fun span => .pure rfl
  · exact .pure rfl

theorem propertyBinding_declares (keys : List String) :
    Declares q.text (ctx.manner g.options kind) []
    (fun found => found.1.boundNames) (Grammar.propertyBinding g ctx kind keys) := by
  unfold Grammar.propertyBinding
  intro base s hs hscopes
  refine .run rfl (.run rfl (.run rfl ?_))
  refine Meets.bind (Q := fun r s₁ => (s.token.isIdentifier = true → ∀ id, r.1 = .identifier id →
      id.span.start = s.start) ∧ Oriented q.text s₁.lexer ∧ s₁.scopes = s.scopes)
    (Meets.yields_iff.mpr fun r s₁ hrun => ?_) fun r s₁ hs₁ => ?_
  · have hkey := (hg.propertyKey ctx false s hs).result hrun
    exact ⟨fun htoken => (propertyKey_start htoken).result hrun, hkey.oriented, hkey.scopes⟩
  obtain ⟨key, computed⟩ := r
  dsimp -zeta only
  extract_lets rest
  have hrest : ∀ keys, Declares q.text (ctx.manner g.options kind) []
    (fun found => found.1.boundNames) (rest keys) := by
    intro keys
    refine .skip fun found => ?_
    split
    · exact (hg.bindingElement_declares ctx kind).bind fun value => .skip fun span => .pure rfl
    · refine .tells (tells_shorthandName _ _ _ _) fun id hid => ?_
      refine (hg.shorthandBinding_declares ctx kind _ id ?_).bind fun value =>
        .skip fun span => .pure rfl
      exact hs₁.1 hid.1 id hid.2
  have hbefore : s₁.scopes = declareNames (ctx.manner g.options kind) base [] :=
    hs₁.2.2.trans hscopes
  split
  · exact Declares.skip hrest base s₁ hs₁.2.1 hbefore
  · exact Declares.tells (gives_noteKey _ _ _).tells (fun keys _ => hrest keys) base s₁ hs₁.2.1
      hbefore

theorem objectBinding_declares :
    Declares q.text (ctx.manner g.options kind) [] Pattern.boundNames
      (Grammar.objectBinding g ctx kind) := by
  unfold Grammar.objectBinding
  refine .skip fun start => .skip fun _ => Declares.bind (declares_collect
    (fun r : PatternProperty × List String => r.1.boundNames) fun earlier => ?_)
    fun properties => .skip fun _ => .skip fun span => .pure ?_
  · refine .skip fun token => ?_
    split
    · exact .pure rfl
    · exact (hg.bindingRest_declares ctx kind .rightBrace).bind fun r => .pure rfl
    · exact (hg.propertyBinding_declares ctx kind _).bind fun property => .skip fun _ => .pure rfl
  · rw [Pattern.boundNames, boundNamesOfProperties_eq, List.flatMap_map]

theorem bindingTarget_declares :
    Declares q.text (ctx.manner g.options kind) [] Pattern.boundNames
      (Grammar.bindingTarget g ctx kind) := by
  refine Declares.nested (.skip fun token => ?_)
  split
  · exact hg.arrayBinding_declares ctx kind
  · exact hg.objectBinding_declares ctx kind
  · exact (declares_bindingIdentifier q.text g.options ctx kind).bind fun id => .pure rfl

omit kind in
theorem formalParameters_declares :
    Declares q.text (ctx.manner g.options .parameter) [] parameterNames
      (Grammar.formalParameters g ctx) := by
  unfold Grammar.formalParameters
  refine .skip fun _ => Declares.bind (declares_collect Pattern.boundNames
    fun earlier => .skip fun token => ?_) fun params => .skip fun _ => .pure rfl
  split
  · exact .pure rfl
  · exact (hg.bindingRest_declares ctx .parameter .rightParen).bind fun r => .pure rfl
  · exact (hg.bindingElement_declares ctx .parameter).bind fun param => .skip fun _ => .pure rfl

end Declared

theorem formalParameters (ctx : Context) :
    ObeysAll q .declares ctx .pattern (Grammar.formalParameters g ctx) := by
  unfold Grammar.formalParameters
  refine .skip fun _ => KeepsPlacement.bind (keepsPlacement_collect (P := fun exposed p =>
    Allowed q.options exposed ctx.grant (.pattern p)) fun earlier => .skip fun token => ?_)
    fun params => .skip fun _ => .pure fun _ hparams => hparams
  split
  · exact .pure fun _ => trivial
  · refine (hg.bindingRest ctx .parameter .rightParen).bind fun r => .pure fun _ hr => ?_
    exact .single rfl hr rfl
  · refine (hg.bindingElement ctx .parameter).bind fun param => .skip fun _ => ?_
    exact .pure fun _ hparam => hparam

end Phrases.KeepPlacement

end Declarations

end EcmaSyntax.Grammar
