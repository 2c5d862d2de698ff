import EcmaSyntax.Grammar.Program
import EcmaSyntax.Proofs.Places.Statement
import EcmaSyntax.Unicode.IdentifierRanges

/-!
Modules, and the programs that texts spell. Every phrase of the grammar abides by the rules, by
induction on how deep phrases are nested, so every node of a program may stand where it does, and
there is evidence for a complaint about a repeated parameter.
-/

namespace EcmaSyntax.Grammar

open EcmaSyntax.Diagnostic EcmaSyntax.Lexer EcmaSyntax.Scope EcmaSyntax.Tree

section Modules

variable {version : Nat} [Unicode.IdentifierChars version]

variable {q : Inquiry} {g : Phrases}

section Imports

variable (ctx : Context)

/-- The names that the imports bind may be bound. -/
abbrev BindsImports (ctx : Context) (specifiers : List ImportSpecifier) : Prop :=
  ∀ x ∈ specifiers, bindingFault? ctx .importName x.binding.name = none

theorem keepsPlacement_importBinding : KeepsPlacement q .declares
    (fun _ id => bindingFault? ctx .importName id.name = none) (importBinding g ctx) := by
  unfold importBinding
  refine .skip fun token => ?_
  split
  · exact keepsPlacement_bindingIdentifier
  · split
    · exact .skip fun raw => keepsPlacement_fail
    · exact keepsPlacement_fail

theorem keepsPlacement_sameBinding (isName : Bool) (name : ModuleName) : KeepsPlacement q .declares
    (fun _ id => bindingFault? ctx .importName id.name = none) (sameBinding g ctx isName name) := by
  unfold sameBinding
  split
  · refine .guard tells_failAt fun _ s => .checked fun hfault => .declared fun s' _ => ?_
    exact .pure fun _ => hfault
  · exact keepsPlacement_fail

theorem keepsPlacement_importSpecifier : KeepsPlacement q .declares
    (fun _ x => bindingFault? ctx .importName x.binding.name = none) (importSpecifier g ctx) := by
  unfold importSpecifier
  refine .skip fun start => .skip fun token => .skip fun imported => .skip fun isNamed => ?_
  extract_lets rest
  have hrest : ∀ binding : Tree.Identifier, bindingFault? ctx .importName binding.name = none →
      KeepsPlacement q .declares (fun _ x => bindingFault? ctx .importName x.binding.name = none)
        (rest binding) := fun binding hbinding => .skip fun span => .pure fun _ => hbinding
  split
  · exact .skip fun _ => KeepsPlacement.known (keepsPlacement_importBinding ctx) hrest
  · exact KeepsPlacement.known (keepsPlacement_sameBinding ctx _ imported) hrest

theorem keepsPlacement_importAll : KeepsPlacement q .declares
    (fun _ x => bindingFault? ctx .importName x.binding.name = none) (importAll g ctx) := by
  unfold importAll
  refine .skip fun start => .skip fun _ => .skip fun atAs => .guard tells_unexpected fun _ => ?_
  refine .skip fun _ => KeepsPlacement.known
    (keepsPlacement_importBinding ctx) fun binding hbinding => ?_
  exact .skip fun span => .pure fun _ => hbinding

theorem keepsPlacement_importSpecifiers :
    KeepsPlacement q .declares (fun _ => BindsImports ctx) (importSpecifiers g ctx) := by
  unfold importSpecifiers
  refine .skip fun token => ?_
  split
  · refine KeepsPlacement.known (keepsPlacement_importAll ctx) fun x hx => .pure fun _ => ?_
    exact List.forall_mem_singleton.mpr hx
  · refine .skip fun _ => KeepsPlacement.known
      (keepsPlacement_listed fun _ => keepsPlacement_importSpecifier ctx)
      fun specifiers hspecifiers => ?_
    exact .skip fun _ => .pure fun _ => hspecifiers
  · exact keepsPlacement_unexpected

theorem keepsPlacement_importClause :
    KeepsPlacement q .declares (fun _ => BindsImports ctx) (importClause g ctx) := by
  unfold importClause
  refine .skip fun token => ?_
  split
  · refine .skip fun start => KeepsPlacement.known
      (keepsPlacement_importBinding ctx) fun binding hbinding => ?_
    refine .skip fun span => .skip fun hasMore => ?_
    split
    · refine KeepsPlacement.known (keepsPlacement_importSpecifiers ctx) fun specifiers
        hspecifiers => ?_
      exact .pure fun _ => List.forall_mem_cons.mpr ⟨hbinding, hspecifiers⟩
    · exact .pure fun _ => List.forall_mem_singleton.mpr hbinding
  · exact keepsPlacement_importSpecifiers ctx

theorem importDeclaration_finds : FindsStatement q ctx (importDeclaration g ctx) := by
  unfold importDeclaration
  refine .skip fun start => .skip fun _ => .skip fun isBare => ?_
  extract_lets rest
  have hrest : ∀ found, BindsImports ctx found.1 → FindsStatement q ctx (rest found) := by
    refine fun found hfound => .skip fun _ => .skip fun span => .pure fun _ => ⟨?_, rfl⟩
    exact .importDeclaration fun hstrict x hx => isBindable_of_binding (hfound x hx) hstrict
  split
  · exact .skip fun source => hrest ([], source) nofun
  · refine KeepsPlacement.known (keepsPlacement_importClause ctx) fun specifiers hspecifiers => ?_
    refine .skip fun source => ?_
    exact hrest (specifiers, source) hspecifiers

end Imports

section Exports

variable (ctx : Context) (start : Nat)

theorem exportAll_finds : FindsStatement q ctx (exportAll g ctx start) := by
  unfold exportAll
  refine .skip fun _ => .skip fun isNamed => ?_
  extract_lets rest
  have hrest : ∀ exported, FindsStatement q ctx (rest exported) := fun exported =>
    .skip fun found => .skip fun _ => .skip fun span => .pure fun _ => ⟨.leaf rfl rfl, rfl⟩
  split
  · exact .skip fun _ => .skip fun start => .skip fun name => .skip fun _ => hrest (some name)
  · exact hrest none

/-- An export of names contains nothing that is looked at. -/
theorem exportNames_finds : FindsStatement q ctx (exportNames g ctx start) := by
  refine .of_yields (R := fun x => ∃ d, x = .exportNames d) (fun s => ?_) ?_
  · unfold exportNames
    refine .skip fun _ _ => .skip fun entries _ => .skip fun _ _ => .skip fun isFrom s₁ => ?_
    extract_lets rest
    have hrest : ∀ found s, Yields (rest found) (fun x _ => ∃ d, x = .exportNames d) s := by
      intro found s
      unfold rest
      extract_lets last
      have hlast : ∀ u s, Yields (last u) (fun x _ => ∃ d, x = .exportNames d) s := fun u s =>
        .skip fun _ _ => .skip fun _ _ => .skip fun span _ => .pure ⟨_, rfl⟩
      split
      · exact .skip hlast
      · exact hlast () s
    split
    · exact .skip fun _ _ => .skip hrest
    · exact .skip hrest
  · rintro exposed _ ⟨d, rfl⟩
    exact ⟨.leaf rfl rfl, rfl⟩

end Exports

namespace Phrases.KeepPlacement

variable (hg : g.KeepPlacement q)

include hg

section Exports

variable (ctx : Context) (start : Nat)

theorem exportDecorators (before : List Decorator)
    (hbefore : ∀ d ∈ before, Allowed q.options True ctx.grant (.decorator d)) :
    FindsAll q ctx .decorator (Grammar.exportDecorators g ctx before) := by
  unfold Grammar.exportDecorators
  refine .skip fun atSign => ?_
  split
  · exact .guard tells_fail fun _ => (hg.decorators ctx).quiet.always
  · exact .pure fun _ => hbefore

theorem exportDefault (before : List Decorator)
    (hbefore : ∀ d ∈ before, Allowed q.options True ctx.grant (.decorator d)) :
    FindsStatement q ctx (Grammar.exportDefault g ctx start before) := by
  have hfunction : ∀ isAsync, FindsStatement q ctx (do
      let value ← Grammar.functionDeclaration g ctx isAsync false
      return .exportDefaultFunction (← spanFrom start) value) := fun isAsync =>
    KeepsPlacement.known (hg.functionDeclaration ctx isAsync false).always fun value hvalue =>
      .skip fun span => .pure fun _ => ⟨.single rfl hvalue rfl, rfl⟩
  unfold Grammar.exportDefault
  refine .skip fun keywordStart => .skip fun _ => ?_
  refine KeepsPlacement.known (hg.exportDecorators ctx before hbefore) fun found hfound => ?_
  refine .skip fun _ => .skip fun valueStart => .skip fun atClass => ?_
  split
  · refine KeepsPlacement.known (hg.classDefinition ctx valueStart (fun _ => rfl) found true).always
      fun value hvalue => .skip fun span => .pure fun _ => ?_
    exact ⟨.single rfl (hvalue hfound) rfl, rfl⟩
  · refine .guard tells_fail fun _ => .skip fun atFunction => ?_
    split
    · exact hfunction false
    · refine .skip fun atAsync => ?_
      split
      · exact hfunction true
      · refine KeepsPlacement.known (hg.assignment ctx).finds fun e he => .skip fun _ => ?_
        exact .skip fun span => .pure fun _ => ⟨.single rfl he rfl, rfl⟩

theorem exportedDeclaration (hctx : ctx.inParameters = false) (found : List Decorator)
    (hfound : ∀ d ∈ found, Allowed q.options True ctx.grant (.decorator d)) :
    FindsStatement q ctx (Grammar.exportedDeclaration g ctx found) := by
  unfold Grammar.exportedDeclaration
  refine .skip fun start => .skip fun token => ?_
  split
  case h_1 | h_2 | h_3 => exact hg.listItem ctx hctx
  · refine .skip fun escaped => ?_
    split
    · exact keepsPlacement_unexpected
    · exact hg.listItem ctx hctx
  · refine .skip fun atAsync => ?_
    split
    · exact hg.listItem ctx hctx
    · exact keepsPlacement_unexpected
  · exact hg.classStatement ctx start found hfound
  · exact keepsPlacement_unexpected

theorem exportDeclaration (hctx : ctx.inParameters = false) (found : List Decorator)
    (hfound : ∀ d ∈ found, Allowed q.options True ctx.grant (.decorator d)) :
    FindsStatement q ctx (Grammar.exportDeclaration g ctx start found) := by
  unfold Grammar.exportDeclaration
  refine .skip fun declarationStart => ?_
  refine KeepsPlacement.known (hg.exportedDeclaration ctx hctx found hfound)
    fun declaration hdeclaration => ?_
  refine .guard tells_failAt fun _ => .skip fun _ => .skip fun span => .pure fun _ => ?_
  exact ⟨.single rfl hdeclaration.allowed rfl, rfl⟩

theorem exportStatement (hctx : ctx.inParameters = false) (before : List Decorator)
    (hbefore : ∀ d ∈ before, Allowed q.options True ctx.grant (.decorator d)) :
    FindsStatement q ctx (Grammar.exportStatement g ctx start before) := by
  unfold Grammar.exportStatement
  refine .skip fun _ => KeepsPlacement.known
    (hg.exportDecorators ctx before hbefore) fun found hfound => ?_
  refine .skip fun token => .guard tells_fail fun _ => ?_
  split
  · exact exportAll_finds ctx start
  · exact hg.exportDefault ctx start found hfound
  · exact exportNames_finds ctx start
  · exact hg.exportDeclaration ctx start hctx found hfound

end Exports

section Items

variable (ctx : Context) (hctx : ctx.inParameters = false)

include hctx

theorem statementBody (position : Position) :
    FindsStatement q ctx (Grammar.statementBody g ctx position) := by
  unfold Grammar.statementBody
  refine .skip fun start => .skip fun token => .skip fun escaped => .guard tells_fail fun _ => ?_
  split
  case h_1 =>
    refine KeepsPlacement.known (hg.block ctx hctx .block rfl) fun found hbody => .pure fun _ => ?_
    exact ⟨.list rfl hbody rfl, rfl⟩
  case h_2 => exact .skip fun _ => .skip fun span => .pure fun _ => ⟨.leaf rfl rfl, rfl⟩
  case h_3 => exact hg.variableStatement ctx .varKind
  case h_4 => exact hg.ifStatement ctx hctx start
  case h_5 => exact hg.forStatement ctx hctx start
  case h_6 => exact hg.whileStatement ctx hctx start
  case h_7 => exact hg.doWhileStatement ctx hctx start
  case h_8 => exact jump ctx start true
  case h_9 => exact jump ctx start false
  case h_10 => exact hg.returnStatement ctx hctx start
  case h_11 => exact hg.withStatement ctx hctx start
  case h_12 => exact hg.switchStatement ctx hctx start
  case h_13 => exact hg.throwStatement ctx start
  case h_14 => exact hg.tryStatement ctx hctx start
  case h_15 =>
    exact .skip fun _ => .skip fun _ => .skip fun span => .pure fun _ => ⟨.leaf rfl rfl, rfl⟩
  case h_16 => exact hg.misplacedFunction ctx position
  case h_17 | h_18 | h_19 => exact keepsPlacement_fail
  case h_20 | h_21 | h_22 =>
    refine .skip fun refused => ?_
    split
    · exact keepsPlacement_fail
    · exact hg.expressionOrLabeled ctx hctx start position
  case h_23 => exact hg.expressionOrLabeled ctx hctx start position

theorem statement_body (position : Position) :
    FindsStatement q ctx (Grammar.statement g ctx position) :=
  .nested (hg.statementBody ctx hctx position)

theorem decoratedItem (start : Nat) : FindsStatement q ctx (Grammar.decoratedItem g ctx start) := by
  unfold Grammar.decoratedItem
  refine KeepsPlacement.known (hg.decorators ctx).quiet.always fun found hfound =>
    .skip fun token => ?_
  split
  · exact hg.classStatement ctx start found hfound
  · split
    · exact hg.exportStatement ctx start hctx found hfound
    · exact keepsPlacement_fail
  · exact keepsPlacement_fail

omit hg hctx in
theorem topLevelItem (word : String) {phrase : Parser Statement} (h : FindsStatement q ctx phrase) :
    FindsStatement q ctx (Grammar.topLevelItem ctx word phrase) := .guard tells_fail fun _ => h

theorem listItem_body : FindsStatement q ctx (Grammar.listItem g ctx) := by
  unfold Grammar.listItem
  refine .skip fun start => .skip fun atFunction => ?_
  split
  · exact functionStatement ctx (.nested (hg.functionDeclaration ctx false true))
  refine .skip fun atAsync => ?_
  split
  · exact functionStatement ctx (.nested (hg.functionDeclaration ctx true true))
  refine .skip fun atClass => ?_
  split
  · refine KeepsPlacement.known
      (KeepsPlacement.nested (hg.classDefinition ctx start (fun _ => rfl) [] false)).always
      fun c hc => .pure fun _ => ⟨.single rfl (hc nofun) rfl, rfl⟩
  refine .skip fun atSign => ?_
  split
  · exact hg.decoratedItem ctx hctx start
  refine .skip fun atConst => ?_
  split
  · exact hg.variableStatement ctx .constKind
  refine .skip fun atLet => ?_
  split
  · exact hg.variableStatement ctx .letKind
  refine .skip fun atImport => ?_
  split
  · exact topLevelItem ctx "import" (importDeclaration_finds ctx)
  refine .skip fun atExport => ?_
  split
  · exact topLevelItem ctx "export" (hg.exportStatement ctx start hctx [] nofun)
  exact hg.statement_body ctx hctx .listItem

end Items

end Phrases.KeepPlacement

end Modules

section

variable {version : Nat} [Unicode.IdentifierChars version]

section Start

/-- The context in which a program starts permits what its place does. -/
theorem coversPlace_program (options : Options) (span : Text.Span) (body : List Statement) :
    CoversPlace options True ((startContext options).grant.turn (startsStrict body))
      (Program.place ⟨span, options.module, body⟩ options.impliedStrict) where
  strict := id
  yields := nofun
  awaits _ _ h := .inr (.inr ⟨rfl, h⟩)
  returns _ _ h := .inr (.inr ⟨rfl, h⟩)
  hasSuper := nofun
  callsSuper := nofun
  newTarget := nofun
  arguments h := by rcases h with h | h <;> cases h

/-- What is asked about the reading of a program. -/
def programInquiry (options : Options) (text : String) : Inquiry where
  options := options
  text := text.toList
  Shows failure z := ∃ fuel list,
    RepeatsParameter (phrases options (text.toList.length + 2) fuel) text.toList list failure z

end Start

/-- All statements of a program may stand where they do. -/
def Fit (options : Options) (p : Program) : Prop :=
  ∀ x ∈ p.body, Suits options (p.place options.impliedStrict) (.statement x)

theorem Phrases.KeepPlacement.program {q : Inquiry} {g : Phrases} (hg : g.KeepPlacement q)
    (length : Nat) :
    KeepsPlacement q .declares (fun _ p => Fit q.options p) (Grammar.program g length) := by
  unfold Grammar.program
  rw [hg.options]
  refine .skip fun _ => ?_
  refine KeepsPlacement.known (hg.bodyStatements rfl true .endOfSource) fun found hfound => ?_
  refine .skip fun _ => .pure fun _ x hx => ?_
  exact hfound.allowed x hx _ (coversPlace_program q.options _ found.1)

theorem phrases_keepPlacement (options : Options) (text : String) (fuel : Nat) :
    (phrases options (text.toList.length + 2) fuel).KeepPlacement
    (programInquiry options text) := by
  induction fuel with
  | zero =>
    exact
      { options := rfl
        assignmentCover := fun _ => keepsPlacement_exhausted
        unary := fun _ => keepsPlacement_exhausted
        binary := fun _ _ _ _ => keepsPlacement_exhausted
        newCall := fun _ => keepsPlacement_exhausted
        leftHandSide := fun _ => keepsPlacement_exhausted
        markup := fun _ _ => keepsPlacement_exhausted
        bindingTarget := fun _ _ => keepsPlacement_exhausted
        targetNames := fun _ _ _ _ _ _ => trivial
        statement := fun _ _ _ => keepsPlacement_exhausted
        listItem := fun _ _ => keepsPlacement_exhausted
        shows := fun _ _ list h => ⟨0, list, h⟩ }
  | succ fuel ih =>
    exact
      { options := rfl
        assignmentCover := ih.assignmentCover_body
        unary := ih.unary_body
        binary := ih.binary_body
        newCall := ih.newCall_body
        leftHandSide := ih.leftHandSide_body
        markup := ih.markup_body
        bindingTarget := ih.bindingTarget_body
        targetNames := fun ctx kind => by
          have hnames := ih.bindingTarget_declares ctx kind
          rw [ih.options] at hnames
          exact hnames
        statement := fun ctx position hctx => ih.statement_body ctx hctx position
        listItem := ih.listItem_body
        shows := fun _ _ list h => ⟨fuel + 1, list, h⟩ }

/-- How the reading of a text ends: with a program whose nodes fit, or with a failure for
which there is evidence if it is about a repeated parameter. -/
theorem run_ends (options : Options) (text : String) :
    EndsIn (programInquiry options text).Blames
      (program (phrases options (text.toList.length + 2) (8 * (text.toList.length + 2)))
        (Text.byteLength text.toList)) (fun p _ => Fit options p)
      (State.initial options false text.toList) :=
  ((phrases_keepPlacement options text _).program _ _ (oriented_initial _ _ _)).mono fun _ _ h =>
    h.always

theorem exists_run {options : Options} {text : String} {p : Program}
    (h : parse options text = .ok p) : ∃ s, run options false text.toList = .ok p s := by
  unfold parse at h
  split at h
  · rename_i s hrun
    cases h
    exact ⟨s, hrun⟩
  · cases h

theorem parse_fits {options : Options} {text : String} {p : Program}
    (h : parse options text = .ok p) {place : Place} {n : Node}
    (hn : p.Places options.impliedStrict place n) : NodeFits options place n := by
  obtain ⟨s, hrun⟩ := exists_run h
  obtain ⟨x, hx, hholds⟩ := hn
  exact (run_ends options text).result hrun x hx _ hholds

/-- In a program, `yield` and `await` are operators only in the bodies of functions that have
them or, for `await`, at the top of a module. -/
theorem operators_in_bodies {options : Options} {text : String} {p : Program}
    (h : parse options text = .ok p) {place : Place} {n : Node}
    (hn : p.Places options.impliedStrict place n) :
    OperatorFits options.module place n ∧
      (n.isOperator = true → place.region ≠ some .arrowParameters) :=
  have hfits := (parse_fits h hn).operator
  ⟨hfits, region_ne_arrowParameters hfits⟩

/-- A function around a class whose method has a name computed by a `yield`. -/
def yieldsKey : Except Failure Program → Bool
  | .ok ⟨_, _, [.function ⟨_, _, _, _, [], _, [.classDeclaration ⟨_, _, none, _,
      [.method _ _ _ (.yield _ false none) _ _ _], _⟩]⟩]⟩ => true
  | _ => false

end

/-- The name of a method that a generator computes around the class. -/
theorem operators_in_bodies_key :
    ∃ p place span, parse Options.script "function* g() { class C { [yield]() { } } }" = .ok p ∧
      p.Places false place (.expression (.yield span false none)) ∧ place.Yields ∧
      place.region ≠ some .arrowParameters := by
  obtain ⟨found, hfound, hshape⟩ : ∃ found,
      parse Options.script "function* g() { class C { [yield]() { } } }" = found ∧
      yieldsKey found = true := ⟨_, rfl, by decide +kernel⟩
  unfold yieldsKey at hshape
  split at hshape
  · have hfits : ∀ {place n}, Program.Places _ false place n →
        Program.Places _ false place n ∧ OperatorFits false place n ∧
          (n.isOperator = true → place.region ≠ some .arrowParameters) := fun hplaces =>
      ⟨hplaces, operators_in_bodies hfound hplaces⟩
    obtain ⟨hplaces, hoperator, hregion⟩ := hfits (n := .expression (.yield _ false none))
      ⟨_, List.mem_singleton_self _, .head (List.mem_singleton_self _) <|
        .head (List.mem_singleton_self _) <| .head (List.mem_singleton_self _) <|
        .head List.mem_cons_self <| .single List.mem_cons_self⟩
    exact ⟨_, _, _, hfound, hplaces, hoperator, hregion rfl⟩
  · cases hshape

section

variable {version : Nat} [Unicode.IdentifierChars version]

/-- In a program, `super`, `new.target`, `return` and `arguments` stand only where they mean
something. -/
theorem references_fit {options : Options} {text : String} {p : Program}
    (h : parse options text = .ok p) {place : Place} {n : Node}
    (hn : p.Places options.impliedStrict place n) : ReferenceFits options.globalReturn place n :=
  (parse_fits h hn).reference

/-- A class with a field whose value is an arrow function to a member of `super`. -/
def hasSuperInField : Except Failure Program → Bool
  | .ok ⟨_, _, [.classDeclaration ⟨_, _, none, _, [.field _ _ _ _
      (some (.arrow _ _ _ (.member _ (.superKeyword _) _ _ _))) _], _⟩]⟩ => true
  | _ => false

end

/-- An arrow function has the `super` of the field around it. -/
theorem references_fit_field :
    ∃ p place span, parse Options.script "class A { x = () => super.y }" = .ok p ∧
      p.Places false place (.expression (.superKeyword span)) ∧
      (place.slot = .callee ∧ place.CallsSuper ∨ place.slot = .object ∧ place.HasSuper) := by
  obtain ⟨found, hfound, hshape⟩ : ∃ found,
      parse Options.script "class A { x = () => super.y }" = found ∧
      hasSuperInField found = true := ⟨_, rfl, by decide +kernel⟩
  unfold hasSuperInField at hshape
  split at hshape
  · have hfits : ∀ {place n}, Program.Places _ false place n →
        Program.Places _ false place n ∧ ReferenceFits false place n := fun hplaces =>
      ⟨hplaces, references_fit hfound hplaces⟩
    have hfound' := hfits (n := .expression (.superKeyword _)) ⟨_, List.mem_singleton_self _,
      .head (List.mem_singleton_self _) <| .head List.mem_cons_self <|
      .head (List.mem_cons_of_mem _ List.mem_cons_self) <| .head List.mem_cons_self <|
      .single List.mem_cons_self⟩
    exact ⟨_, _, _, hfound, hfound'⟩
  · cases hshape

section

variable {version : Nat} [Unicode.IdentifierChars version]

/-- Parameters that may not repeat a name do not, and a failure about a repeated parameter
is about the first one that repeats a name where that is not allowed. -/
theorem repeated_parameters (options : Options) (text : String) :
    (∀ p, parse options text = .ok p → ∀ place n, p.Places options.impliedStrict place n →
      ParametersFit place n) ∧
    ∀ failure, parse options text = .error failure → failure.cause = .duplicateParameter →
      ∃ z list fuel, run options false text.toList = .error failure z ∧
        RepeatsParameter (phrases options (text.toList.length + 2) fuel) text.toList
          list failure z := by
  constructor
  · exact fun p h place n hn => (parse_fits h hn).parameters
  · intro failure h hcause
    unfold parse at h
    split at h
    · cases h
    · rename_i found z hrun
      cases h
      obtain ⟨fuel, list, hrepeats⟩ := (run_ends options text).failure hrun hcause
      exact ⟨z, list, fuel, hrun, hrepeats⟩

/-- A function with two parameters of one name. -/
def repeatsName : Except Failure Program → Bool
  | .ok ⟨_, _, [.function f]⟩ => !decide ((parameterNames f.params).map Identifier.name).Nodup
  | _ => false

/-- A failure about a repeated parameter at an offset. -/
def isRepeatedAt (offset : Nat) : Except Failure Program → Bool
  | .error failure => failure.cause == .duplicateParameter && failure.offset == offset
  | _ => false

end

/-- A function may repeat a parameter, an arrow function may not. -/
theorem repeated_parameters_arrow :
    (∃ p f, parse Options.script "function f(a, a) { }" = .ok p ∧
      p.Places false (p.place false) (.function f) ∧ ¬ AreDistinct (parameterNames f.params) ∧
      ParametersFit (p.place false) (.function f)) ∧
    ∃ failure z list fuel, run Options.script false "(a, b, a) => 1".toList = .error failure z ∧
      failure.offset = 7 ∧
      RepeatsParameter (phrases Options.script 16 fuel) "(a, b, a) => 1".toList list failure z := by
  constructor
  · obtain ⟨found, hfound, hshape⟩ : ∃ found,
        parse Options.script "function f(a, a) { }" = found ∧
        repeatsName found = true := ⟨_, rfl, by decide +kernel⟩
    unfold repeatsName at hshape
    split at hshape
    · rename_i span isModule f
      have hplaces : Program.Places ⟨span, isModule, [.function f]⟩ false _ (.function f) :=
        ⟨_, List.mem_singleton_self _, .single (List.mem_singleton_self _)⟩
      exact ⟨_, f, hfound, hplaces, by simpa [AreDistinct] using hshape,
        (repeated_parameters _ _).1 _ hfound _ _ hplaces⟩
    · cases hshape
  · obtain ⟨found, hfound, hshape⟩ : ∃ found,
        parse Options.script "(a, b, a) => 1" = found ∧
        isRepeatedAt 7 found = true := ⟨_, rfl, by decide +kernel⟩
    unfold isRepeatedAt at hshape
    split at hshape
    · rename_i failure
      obtain ⟨hcause, hoffset⟩ := by simpa using hshape
      obtain ⟨z, list, fuel, hrun, hrepeats⟩ := (repeated_parameters _ _).2 failure hfound hcause
      exact ⟨failure, z, list, fuel, hrun, hoffset, hrepeats⟩
    · cases hshape

end EcmaSyntax.Grammar
