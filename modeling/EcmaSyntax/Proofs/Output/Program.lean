import EcmaSyntax.Grammar.Program
import EcmaSyntax.Proofs.Output.Statement

/-!
Imports, exports and programs where nobody observes. By induction on how deep phrases
are nested, every phrase reads the same tree but for the text of literals, so what is
written about a tree and what an observer is told cannot change what a text spells.
-/

namespace EcmaSyntax.Grammar

open EcmaSyntax.Diagnostic EcmaSyntax.Lexer EcmaSyntax.Scope EcmaSyntax.Text EcmaSyntax.Tree

variable {version : Nat} [Unicode.IdentifierChars version]

/-- The source of a module without the text of literals. -/
def ModuleSource.withoutRaw (found : ModuleSource) : ModuleSource :=
  ⟨found.source.withoutRaw, found.attributes.map ImportAttribute.withoutRaw⟩

/-- What is exported under a name, without the text of literals. -/
def ExportEntry.withoutRaw (entry : ExportEntry) : ExportEntry :=
  { entry with specifier := entry.specifier.withoutRaw }

section Names

theorem any_sameKey (earlier : List ImportAttribute) (key : ModuleName) :
    ((earlier.map ImportAttribute.withoutRaw).any fun other =>
      other.key.text == key.withoutRaw.text) =
        earlier.any fun other => other.key.text == key.text := by
  simp [ImportAttribute.withoutRaw, Function.comp_def]

instance {name : String} {offset : Nat} : Unwatched (addExport name offset) := by
  unfold addExport
  refine ⟨.look fun s => ?_⟩
  dsimp only [State.unobserved]
  split
  · exact .refuse
  · exact .modify fun _ => rfl

instance {ctx : Context} : Unwatched (localFault? ctx) := by
  unfold localFault?
  refine ⟨.skip fun start => .skip fun token => .ite (.pure rfl) (.skip fun atAwait => ?_)⟩
  exact .ite (.look fun s => .pure rfl) (.pure rfl)

theorem noteExport_withoutRaw (isLocal : Bool) (specifier : ExportSpecifier) :
    noteExport isLocal specifier.withoutRaw = noteExport isLocal specifier := by
  unfold noteExport
  simp only [ExportSpecifier.withoutRaw, ModuleName.text_withoutRaw, ModuleName.span_withoutRaw]

instance {isLocal : Bool} {specifier : ExportSpecifier} :
    Unwatched (noteExport isLocal specifier) := by
  unfold noteExport
  exact ⟨.skip fun _ => .ite (.modify fun _ => rfl) (.pure rfl)⟩

@[simp] theorem isDeclaration_withoutRaw (s : Statement) :
    isDeclaration s.withoutRaw = isDeclaration s := by
  cases s <;> rfl

end Names

namespace Phrases.Quieted

variable {g g' : Phrases} (h : g.Quieted g')

include h

theorem moduleName (ctx : Context) :
    Echoes ModuleName.withoutRaw (moduleName g ctx) (moduleName g' ctx) := by
  unfold Grammar.moduleName
  refine .skip fun token => .ite (.look fun s => .guard ?_) (.guard (.skip fun id => .pure rfl))
  exact (h.literal ctx).bind fun lit => .pure rfl

theorem expectString (ctx : Context) :
    Echoes Literal.withoutRaw (expectString g ctx) (expectString g' ctx) := by
  unfold Grammar.expectString
  exact .skip fun atString => .guard (h.literal ctx)

theorem attributeKey (ctx : Context) :
    Echoes ModuleName.withoutRaw (attributeKey g ctx) (attributeKey g' ctx) := by
  unfold Grammar.attributeKey
  refine .skip fun token => .ite ((h.literal ctx).bind fun lit => .pure rfl) ?_
  exact .ite (.skip fun id => .pure rfl) .refuse

theorem importAttribute (ctx : Context) (earlier : List ImportAttribute) :
    Echoes ImportAttribute.withoutRaw (importAttribute g ctx earlier)
      (importAttribute g' ctx (earlier.map ImportAttribute.withoutRaw)) := by
  unfold Grammar.importAttribute
  refine .skip fun start => (h.attributeKey ctx).bind fun key => ?_
  rw [any_sameKey, key.text_withoutRaw]
  refine .guard (.skip fun _ => (h.expectString ctx).bind fun value => ?_)
  exact .skip fun span => .pure rfl

theorem importAttributes (ctx : Context) :
    Echoes (List.map ImportAttribute.withoutRaw) (importAttributes g ctx)
      (importAttributes g' ctx) := by
  unfold Grammar.importAttributes
  refine .skip fun atWith => .ite (.skip fun _ => .skip fun _ => ?_) (.pure rfl)
  exact (h.listed .rightBrace (h.importAttribute ctx)).bind fun found => .skip fun _ => .pure rfl

theorem moduleSource (ctx : Context) :
    Echoes ModuleSource.withoutRaw (moduleSource g ctx) (moduleSource g' ctx) := by
  unfold Grammar.moduleSource
  refine (h.expectString ctx).bind fun source => ?_
  exact (h.importAttributes ctx).bind fun attributes => .pure rfl

theorem fromClause (ctx : Context) :
    Echoes ModuleSource.withoutRaw (fromClause g ctx) (fromClause g' ctx) := by
  unfold Grammar.fromClause
  exact .skip fun atFrom => .guard (.skip fun _ => h.moduleSource ctx)

theorem importBinding (ctx : Context) :
    Echoes id (importBinding g ctx) (importBinding g' ctx) := by
  unfold Grammar.importBinding
  rw [h.bindingIdentifier_eq]
  exact .skip fun token => .ite Blind.mirrors (.ite (.skip fun raw => .refuse) .refuse)

theorem sameBinding (ctx : Context) (isName : Bool) (name : ModuleName) :
    Echoes id (sameBinding g ctx isName name) (sameBinding g' ctx isName name.withoutRaw) := by
  cases name with
  | identifier id =>
    unfold Grammar.sameBinding
    rw [h.declare_eq]
    exact .guard (.skip fun _ => .skip fun _ => .pure rfl)
  | literal lit => exact .failing (fail _)

theorem importSpecifier (ctx : Context) :
    Echoes ImportSpecifier.withoutRaw (importSpecifier g ctx) (importSpecifier g' ctx) := by
  unfold Grammar.importSpecifier
  refine .skip fun start => .skip fun token => (h.moduleName ctx).bind fun imported => ?_
  refine .skip fun atAs => ?_
  extract_lets rest rest'
  have hrest : ∀ binding, Echoes ImportSpecifier.withoutRaw (rest binding) (rest' (id binding)) :=
    fun binding => .skip fun span => .pure rfl
  refine .ite (.skip fun _ => (h.importBinding ctx).bind hrest) ?_
  exact (h.sameBinding ctx _ imported).bind hrest

theorem importAll (ctx : Context) :
    Echoes ImportSpecifier.withoutRaw (importAll g ctx) (importAll g' ctx) := by
  unfold Grammar.importAll
  refine .skip fun start => .skip fun _ => .skip fun atAs => .guard (.skip fun _ => ?_)
  exact (h.importBinding ctx).bind fun binding => .skip fun span => .pure rfl

theorem importSpecifiers (ctx : Context) :
    Echoes (List.map ImportSpecifier.withoutRaw) (importSpecifiers g ctx)
      (importSpecifiers g' ctx) := by
  unfold Grammar.importSpecifiers
  refine .skip fun token => ?_
  split
  · exact (h.importAll ctx).bind fun specifier => .pure rfl
  · refine .skip fun _ => (h.listed .rightBrace fun _ => h.importSpecifier ctx).bind fun found => ?_
    exact .skip fun _ => .pure rfl
  · exact .refuse

theorem importClause (ctx : Context) :
    Echoes (List.map ImportSpecifier.withoutRaw) (importClause g ctx) (importClause g' ctx) := by
  unfold Grammar.importClause
  refine .skip fun token => .ite ?_ (h.importSpecifiers ctx)
  refine .skip fun start => (h.importBinding ctx).bind fun binding => .skip fun span => ?_
  refine .skip fun hasMore => .ite ?_ (.pure rfl)
  exact (h.importSpecifiers ctx).bind fun specifiers => .pure rfl

theorem importDeclaration (ctx : Context) :
    Echoes Statement.withoutRaw (importDeclaration g ctx) (importDeclaration g' ctx) := by
  unfold Grammar.importDeclaration
  refine .skip fun start => .skip fun _ => .skip fun atString => ?_
  extract_lets rest
  have hrest : ∀ r : List ImportSpecifier × ModuleSource, Echoes Statement.withoutRaw (rest r)
      (rest (r.1.map ImportSpecifier.withoutRaw, r.2.withoutRaw)) := fun r =>
    .skip fun _ => .skip fun span => .pure rfl
  have hfound : ∀ specifiers found, Echoes Statement.withoutRaw
      ((pure (specifiers, found) : Parser _) >>= rest)
      ((pure (specifiers.map ImportSpecifier.withoutRaw, found.withoutRaw) : Parser _) >>= rest) :=
    fun specifiers found => hrest (specifiers, found)
  refine .ite ?_ ?_
  · exact (h.moduleSource ctx).bind fun found => hfound [] found
  · refine (h.importClause ctx).bind fun specifiers => ?_
    exact (h.fromClause ctx).bind fun found => hfound specifiers found

theorem exportAll (ctx : Context) (start : Nat) :
    Echoes Statement.withoutRaw (exportAll g ctx start) (exportAll g' ctx start) := by
  unfold Grammar.exportAll
  refine .skip fun _ => .skip fun atAs => ?_
  extract_lets rest rest'
  have hrest : ∀ exported, Echoes Statement.withoutRaw (rest exported)
      (rest' (exported.map ModuleName.withoutRaw)) := fun exported =>
    (h.fromClause ctx).bind fun found => .skip fun _ => .skip fun span => .pure rfl
  refine .ite (.skip fun _ => .skip fun nameStart => (h.moduleName ctx).bind fun name => ?_) ?_
  · rw [name.text_withoutRaw]
    exact .skip fun _ => Mirrors.bind (k := Option.map ModuleName.withoutRaw) (.pure rfl) hrest
  · exact Mirrors.bind (k := Option.map ModuleName.withoutRaw) (.pure rfl) hrest

theorem exportDecorators (ctx : Context) (before : List Decorator) :
    Echoes (List.map Decorator.withoutRaw) (exportDecorators g ctx before)
      (exportDecorators g' ctx (before.map Decorator.withoutRaw)) := by
  unfold Grammar.exportDecorators
  rw [h.options, List.isEmpty_map]
  exact .skip fun atSign => .ite (.guard (h.decorators ctx)) (.pure rfl)

theorem exportDefault (ctx : Context) (start : Nat) (before : List Decorator) :
    Echoes Statement.withoutRaw (exportDefault g ctx start before)
      (exportDefault g' ctx start (before.map Decorator.withoutRaw)) := by
  unfold Grammar.exportDefault
  refine .skip fun keywordStart => .skip fun _ => ?_
  refine (h.exportDecorators ctx before).bind fun found => .skip fun _ => ?_
  rw [List.isEmpty_map]
  refine .skip fun valueStart => .skip fun atClass => .ite ?_ (.guard ?_)
  · refine (h.classDefinition ctx valueStart true found true).bind fun value => ?_
    exact .skip fun span => .pure rfl
  refine .skip fun atFunction => .ite ?_ (.skip fun atAsync => .ite ?_ ?_)
  · exact (h.functionDeclaration ctx false false).bind fun value => .skip fun span => .pure rfl
  · exact (h.functionDeclaration ctx true false).bind fun value => .skip fun span => .pure rfl
  · exact (h.assignment ctx).bind fun e => .skip fun _ => .skip fun span => .pure rfl

theorem exportEntry (ctx : Context) :
    Echoes ExportEntry.withoutRaw (exportEntry g ctx) (exportEntry g' ctx) := by
  unfold Grammar.exportEntry
  refine .skip fun start => .skip fun fault => (h.moduleName ctx).bind fun binding => ?_
  refine .skip fun atAs => ?_
  extract_lets rest rest'
  have hrest : ∀ exported, Echoes ExportEntry.withoutRaw (rest exported)
      (rest' exported.withoutRaw) := fun exported => .skip fun span => .pure rfl
  refine .ite (.skip fun _ => (h.moduleName ctx).bind hrest) ?_
  exact Mirrors.bind (k := ModuleName.withoutRaw) (.pure rfl) hrest

theorem exportNames (ctx : Context) (start : Nat) :
    Echoes Statement.withoutRaw (exportNames g ctx start) (exportNames g' ctx start) := by
  unfold Grammar.exportNames
  refine .skip fun _ => (h.listed .rightBrace fun _ => h.exportEntry ctx).bind fun entries => ?_
  have hfault : (entries.map ExportEntry.withoutRaw).findSome? ExportEntry.fault =
      entries.findSome? ExportEntry.fault := by
    rw [List.findSome?_map]
    rfl
  have hnoted : ∀ isLocal, ((entries.map ExportEntry.withoutRaw).forM fun entry =>
      noteExport isLocal entry.specifier) =
        entries.forM fun entry => noteExport isLocal entry.specifier := by
    intro isLocal
    simp [ExportEntry.withoutRaw, noteExport_withoutRaw]
  have hspecifiers : (entries.map ExportEntry.withoutRaw).map ExportEntry.specifier =
      (entries.map ExportEntry.specifier).map ExportSpecifier.withoutRaw := by
    simp [ExportEntry.withoutRaw, Function.comp_def]
  rw [hfault, hspecifiers]
  refine .skip fun _ => .skip fun atFrom => ?_
  extract_lets rest rest'
  have hrest : ∀ found, Echoes Statement.withoutRaw (rest found)
      (rest' (found.map ModuleSource.withoutRaw)) := by
    intro found
    dsimp -zeta only [rest, rest']
    rw [Option.isNone_map, hnoted]
    extract_lets noted noted'
    have hnoted : ∀ u, Echoes Statement.withoutRaw (noted u) (noted' u) := by
      refine fun u => .skip fun _ => .skip fun _ => .skip fun span => .pure ?_
      cases found <;> rfl
    exact .ite (.skip hnoted) (hnoted ())
  refine .ite (.skip fun _ => (h.moduleSource ctx).optional.bind hrest) ?_
  exact Mirrors.bind (k := Option.map ModuleSource.withoutRaw) (.pure rfl) hrest

theorem exportedDeclaration (ctx : Context) (found : List Decorator) :
    Echoes Statement.withoutRaw (exportedDeclaration g ctx found)
      (exportedDeclaration g' ctx (found.map Decorator.withoutRaw)) := by
  unfold Grammar.exportedDeclaration
  refine .skip fun start => .skip fun token => ?_
  split
  case h_1 | h_2 | h_3 => exact h.listItem ctx
  · exact .skip fun escaped => .ite .refuse (h.listItem ctx)
  · exact .skip fun atFunction => .ite (h.listItem ctx) .refuse
  · exact h.classStatement ctx start found
  · exact .refuse

theorem exportDeclaration (ctx : Context) (start : Nat) (found : List Decorator) :
    Echoes Statement.withoutRaw (exportDeclaration g ctx start found)
      (exportDeclaration g' ctx start (found.map Decorator.withoutRaw)) := by
  unfold Grammar.exportDeclaration
  refine .skip fun declarationStart => (h.exportedDeclaration ctx found).bind fun declaration => ?_
  rw [isDeclaration_withoutRaw, declaration.declaredNames_withoutRaw]
  exact .guard (.skip fun _ => .skip fun span => .pure rfl)

theorem exportStatement (ctx : Context) (start : Nat) (before : List Decorator) :
    Echoes Statement.withoutRaw (exportStatement g ctx start before)
      (exportStatement g' ctx start (before.map Decorator.withoutRaw)) := by
  unfold Grammar.exportStatement
  refine .skip fun _ => (h.exportDecorators ctx before).bind fun found => .skip fun token => ?_
  rw [List.isEmpty_map]
  refine .guard ?_
  split
  · exact h.exportAll ctx start
  · exact h.exportDefault ctx start found
  · exact h.exportNames ctx start
  · exact h.exportDeclaration ctx start found

theorem statementBody (ctx : Context) (position : Position) :
    Echoes Statement.withoutRaw (statementBody g ctx position)
      (statementBody g' ctx position) := by
  unfold Grammar.statementBody
  refine .skip fun start => .skip fun token => .skip fun escaped => .guard ?_
  split
  · exact (h.block ctx .block).bind fun found => .pure (by simp [Statement.withoutRaw])
  · exact .skip fun _ => .skip fun span => .pure rfl
  · exact h.variableStatement ctx .varKind
  · exact h.ifStatement ctx start
  · exact h.forStatement ctx start
  · exact h.whileStatement ctx start
  · exact h.doWhileStatement ctx start
  · exact jump ctx start true
  · exact jump ctx start false
  · exact h.returnStatement ctx start
  · exact h.withStatement ctx start
  · exact h.switchStatement ctx start
  · exact h.throwStatement ctx start
  · exact h.tryStatement ctx start
  · exact .skip fun _ => .skip fun _ => .skip fun span => .pure rfl
  · exact h.misplacedFunction ctx position
  case h_17 | h_18 | h_19 => exact .refuse
  case h_20 | h_21 | h_22 =>
    exact .skip fun refused => .ite .refuse (h.expressionOrLabeled ctx start position)
  · exact h.expressionOrLabeled ctx start position

theorem statement_body (ctx : Context) (position : Position) :
    Echoes Statement.withoutRaw (Grammar.statement g ctx position)
      (Grammar.statement g' ctx position) :=
  (h.statementBody ctx position).nested

theorem decoratedItem (ctx : Context) (start : Nat) :
    Echoes Statement.withoutRaw (decoratedItem g ctx start) (decoratedItem g' ctx start) := by
  unfold Grammar.decoratedItem
  refine (h.decorators ctx).bind fun found => .skip fun token => ?_
  split
  · exact h.classStatement ctx start found
  · exact .ite (h.exportStatement ctx start found) .refuse
  · exact .refuse

omit h in
theorem topLevelItem (ctx : Context) (word : String) {step image : Parser Statement}
    (hstep : Echoes Statement.withoutRaw step image) :
    Echoes Statement.withoutRaw (topLevelItem ctx word step) (topLevelItem ctx word image) :=
  .guard hstep

theorem listItem_body (ctx : Context) :
    Echoes Statement.withoutRaw (Grammar.listItem g ctx) (Grammar.listItem g' ctx) := by
  unfold Grammar.listItem
  rw [h.options]
  refine .skip fun start => .skip fun atFunction => .ite ?_ ?_
  · exact functionStatement (h.functionDeclaration ctx false true).nested
  refine .skip fun atAsync => .ite ?_ ?_
  · exact functionStatement (h.functionDeclaration ctx true true).nested
  refine .skip fun atClass => .ite ?_ ?_
  · exact (h.classDefinition ctx start true [] false).nested.bind fun c => .pure rfl
  refine .skip fun atSign => .ite (h.decoratedItem ctx start) ?_
  refine .skip fun atConst => .ite (h.variableStatement ctx .constKind) ?_
  refine .skip fun atLet => .ite (h.variableStatement ctx .letKind) ?_
  refine .skip fun atImport => .ite (topLevelItem ctx _ (h.importDeclaration ctx)) ?_
  refine .skip fun atExport => .ite (topLevelItem ctx _ (h.exportStatement ctx start [])) ?_
  exact h.statement_body ctx .listItem

theorem checkExports_eq : checkExports g'.options = checkExports g.options := by
  rw [h.options]
  rfl

omit h in
theorem unwatched_checkExports (options : Options) : Unwatched (checkExports options) := by
  unfold checkExports
  refine ⟨.ite (.look fun s => ?_) (.pure rfl)⟩
  dsimp only [State.unobserved]
  exact Blind.mirrors

theorem program (length : Nat) :
    Echoes Program.withoutRaw (program g length) (program g' length) := by
  have hchecks := unwatched_checkExports g.options
  unfold Grammar.program
  rw [h.checkExports_eq, h.options]
  refine .skip fun _ => (h.bodyStatements _ true .endOfSource).bind fun r => .skip fun _ => ?_
  exact .pure (by simp [Program.withoutRaw]; rfl)

end Phrases.Quieted

theorem phrases_quieted (options : Options) (size fuel : Nat) :
    (phrases options size fuel).Quieted (phrases options.quiet size fuel) := by
  induction fuel with
  | zero =>
    exact
      { options := rfl
        size := rfl
        assignmentCover := fun _ => .failing (fail .exhausted)
        unary := fun _ => .failing (fail .exhausted)
        binary := fun _ _ _ _ => .failing (fail .exhausted)
        newCall := fun _ => .failing (fail .exhausted)
        leftHandSide := fun _ => .failing (fail .exhausted)
        markup := fun _ _ => .failing (fail .exhausted)
        bindingTarget := fun _ _ => .failing (fail .exhausted)
        statement := fun _ _ => .failing (fail .exhausted)
        listItem := fun _ => .failing (fail .exhausted) }
  | succ fuel ih =>
    exact
      { options := rfl
        size := rfl
        assignmentCover := ih.assignmentCover_body
        unary := ih.unary_body
        binary := ih.binary_body
        newCall := ih.newCall_body
        leftHandSide := ih.leftHandSide_body
        markup := ih.markup_body
        bindingTarget := ih.bindingTarget_body
        statement := ih.statement_body
        listItem := ih.listItem_body }

/-- A run that nobody observes and that keeps no text of literals ends as any other
with the same settings otherwise. -/
theorem run_quiet (options : Options) (observing : Bool) (text : List Char) :
    run options.quiet false text =
      erased State.unobserved Program.withoutRaw (run options observing text) :=
  (phrases_quieted options _ _).program _ (State.initial options observing text)

/-- Two runs whose settings differ only in what is written about the tree, observed or
not, both read the same program but for the text of literals, or both fail with the same
cause at the same offset, from which the text gives the line and the column. -/
theorem output_settings_irrelevant (options : Options) (ranges loc raw : Bool)
    (observing observing' : Bool) (text : List Char) :
    (∃ p p' s s', run options observing text = .ok p s ∧
        run { options with ranges := ranges, loc := loc, raw := raw } observing' text = .ok p' s' ∧
          p.withoutRaw = p'.withoutRaw) ∨
      ∃ failure s s', run options observing text = .error failure s ∧
        run { options with ranges := ranges, loc := loc, raw := raw } observing' text =
          .error failure s' := by
  have hfirst := run_quiet options observing text
  have hsecond :=
    run_quiet { options with ranges := ranges, loc := loc, raw := raw } observing' text
  -- Both runs are compared with the one that nobody observes.
  have heq : erased State.unobserved Program.withoutRaw (run options observing text) =
      erased State.unobserved Program.withoutRaw
        (run { options with ranges := ranges, loc := loc, raw := raw } observing' text) :=
    hfirst.symm.trans hsecond
  cases h : run options observing text with
  | ok p s =>
    cases h' : run { options with ranges := ranges, loc := loc, raw := raw } observing' text with
    | ok p' s' =>
      rw [h, h'] at heq
      injection heq with hp
      exact .inl ⟨p, p', s, s', rfl, rfl, hp⟩
    | error failure s' =>
      rw [h, h'] at heq
      cases heq
  | error failure s =>
    cases h' : run { options with ranges := ranges, loc := loc, raw := raw } observing' text with
    | ok p' s' =>
      rw [h, h'] at heq
      cases heq
    | error failure' s' =>
      rw [h, h'] at heq
      injection heq with hfailure
      subst hfailure
      exact .inr ⟨failure, s, s', rfl, rfl⟩

end EcmaSyntax.Grammar
