import EcmaSyntax.Proofs.Jumps.Program
import EcmaSyntax.Proofs.Spans.Statement

/-!
What imports and exports lay out. The decorators of an exported class stand before it in the
export, on either side of the keyword. A list item that starts like a declaration of something
else is no class, so only an export that reads a class itself has decorators.
-/

namespace EcmaSyntax.Grammar

open EcmaSyntax.Diagnostic EcmaSyntax.Lexer EcmaSyntax.Scope EcmaSyntax.Text EcmaSyntax.Tree
open Plotted

variable {version : Nat} [Unicode.IdentifierChars version]

variable {ground : Ground} {lo start : Nat} {row : List Plot} {taken : Bool}
  {s : State} {g : Phrases}
  [h : g.Spans ground] {ctx : Context}

section Sources

instance : AddsToRow ground (moduleName g ctx) := by
  refine ⟨fun lo row taken => .look fun token => .ite (fun _ => .look fun s => ?_) fun _ => ?_⟩
  · exact .guard fun _ => .lay fun lit _ => .pure rfl
  · exact .guard fun _ => .lay fun id _ => .pure rfl

instance : AddsToRow ground (expectString g ctx) :=
  ⟨fun _ _ _ => .look fun _ => .guard fun _ => .last fun _ => rfl⟩

instance : AddsToRow ground (attributeKey g ctx) :=
  ⟨fun _ _ _ => .look fun _ => .ite (fun _ => .lay fun _ _ => .pure rfl) fun _ =>
    .ite (fun _ => .lay fun _ _ => .pure rfl) fun _ => .refuse⟩

instance {earlier : List ImportAttribute} : AddsToRow ground (importAttribute g ctx earlier) :=
  .fresh fun _ _ => .lay fun _ _ => .guard fun _ => .take fun _ => .lay fun _ _ => .frame fun _ =>
    .pure rfl

instance : MayAddToRow ground (importAttributes g ctx) := by
  refine .skip (h := fun atWith => ?_)
  split
  · exact AddsToRow.mayAddToRow ⟨fun _ _ _ => .take fun _ => .take fun _ =>
      .mayAddToRow fun attributes _ => .take fun _ => .pure rfl⟩
  · infer_instance

instance : Plotted ModuleSource := ⟨fun found => found.source.plot :: plots found.attributes⟩

theorem plots_source (found : ModuleSource) :
    plots found = found.source.plot :: plots found.attributes := rfl

instance : AddsToRow ground (moduleSource g ctx) :=
  ⟨fun _ _ _ => .lay fun source _ => .mayAddToRow fun attributes _ => .pure (by simp [plots])⟩

instance : AddsToRow ground (fromClause g ctx) :=
  ⟨fun _ _ _ => .look fun _ => .guard fun _ => .skip fun _ => .last fun _ => rfl⟩

end Sources

section Imports

instance : AddsToRow ground (importBinding g ctx) :=
  ⟨fun _ _ _ => .look fun _ => .ite (fun _ => .last fun _ => rfl) fun _ => .refuse⟩

theorem sameBinding_eq (isName : Bool) (imported : ModuleName) (s : State) :
    Yields (sameBinding g ctx isName imported) (fun id _ => imported = .identifier id) s := by
  unfold sameBinding
  split
  · exact (stops_failAt _ _).guard (.skip fun _ _ => .skip fun _ _ => .pure rfl)
  · exact (stops_fail _).yields

instance {isName : Bool} {imported : ModuleName} [himported : Lies ground imported] :
    Treads ground.text (sameBinding g ctx isName imported) := by
  unfold sameBinding
  split
  · rename_i id
    have : Bounds ground.text id.span.start := ⟨fits_name (himported.fits _ List.mem_cons_self)⟩
    infer_instance
  · infer_instance

instance : AddsToRow ground (importSpecifier g ctx) := by
  refine .fresh fun start _ => .look fun token => .lay fun imported _ => .look fun _ => ?_
  extract_lets rest
  have hrest : ∀ (binding : Identifier) row, (if imported = .identifier binding then [binding.plot]
      else [imported.plot, binding.plot]).Sublist row →
      ChangesRow ground start row (.reached true) (rest binding) plots (.reached true) :=
    fun binding row hsub => .drop hsub (.frame fun span => .pure rfl)
  clear_value rest
  refine .ite (fun _ => .skip fun _ => .lay fun binding _ => hrest binding _ ?_) fun _ => ?_
  · split <;> simp
  · refine .bindKnown (sameBinding_eq _ _) (fun _ hs => hs.treads) fun binding hbinding =>
      hrest binding _ ?_
    simp [hbinding, ModuleName.plot]

instance : AddsToRow ground (importAll g ctx) :=
  .fresh fun _ _ => .take fun _ => .look fun _ => .guard fun _ => .skip fun _ => .lay fun _ _ =>
    .frame fun _ => .pure rfl

instance : AddsToRow ground (importSpecifiers g ctx) := by
  refine ⟨fun lo row taken => .look fun token => ?_⟩
  split
  · exact .lay fun specifier _ => .pure (by simp)
  · exact .take fun _ => .mayAddToRow fun specifiers _ => .take fun _ => .pure rfl
  · exact .refuse

instance : AddsToRow ground (importClause g ctx) := by
  refine AddsToRow.skip (h := fun token => ?_)
  split
  · refine .fresh fun start _ => .lay fun binding _ => .frame fun span => .skip fun _ => ?_
    exact .ite (fun _ => .lay fun others _ => .pure rfl) fun _ => .pure rfl
  · infer_instance

instance : AddsToRow ground (importDeclaration g ctx) := by
  refine .fresh fun start _ => .take fun _ => .look fun _ => ?_
  extract_lets rest
  have hrest : ∀ specifiers found, ChangesRow ground start
    (plots (specifiers, found)) (.reached true)
      (rest (specifiers, found)) plots (.reached true) := fun specifiers found =>
    .skip fun _ => .frame fun span => .pure (by
      simp [plots_source, ImportDeclaration.plot, map_eq_plots (α := ImportSpecifier) fun _ => rfl,
        map_eq_plots (α := ImportAttribute) fun _ => rfl])
  clear_value rest
  refine .ite (fun _ => .lay fun found _ => .given ?_) fun _ => .lay fun specifiers _ =>
    .lay fun found _ => .given ?_
  · exact hrest [] found
  · exact hrest specifiers found

end Imports

section Exports

/-- The plots of a declaration in an export. -/
def exportedPlots : Statement → List Plot
  | .classDeclaration value => value.decoratorPlots ++ [.node value.span value.parts]
  | declaration => [declaration.plot]

theorem plot_exportDeclaration (span : Span) (declaration : Statement) :
    (Statement.exportDeclaration span declaration).plot =
      .node span (exportedPlots declaration) := by
  cases declaration <;> rfl

theorem fits_declaredNames {declaration : Statement}
    (h : ground.Holds (exportedPlots declaration)) :
    ∀ id ∈ declaration.declaredNames, id.plot.Fits ground := by
  intro id hid
  cases declaration with
  | «variables» span kind declarations =>
    obtain ⟨d, hd, hid⟩ := List.mem_flatMap.mp hid
    have hparts : ground.Holds (plotsOfDeclarators declarations) := fun p hp =>
      (h _ List.mem_cons_self).part hp
    rw [plotsOfDeclarators_eq] at hparts
    obtain ⟨span, target, init⟩ := d
    have hdeclarator := holds_plots_iff.mp hparts _ hd _ List.mem_cons_self
    exact Pattern.fits_boundNames target
      (fun p hp => hdeclarator.part (List.mem_append_left _ hp)) id hid
  | function f =>
    cases f
    exact (h _ List.mem_cons_self).part (List.mem_append_left _ (List.mem_map_of_mem hid))
  | classDeclaration c =>
    cases c
    have hnode := h _ (List.mem_append_right _ List.mem_cons_self)
    exact hnode.part (List.mem_append_left _ (List.mem_map_of_mem hid))
  | _ => cases hid

omit h in
theorem changesRow_exportAll : ChangesRow ground start [] (.reached taken)
    (exportAll g ctx start) plots
    (.reached true) := by
  refine .take fun _ => .look fun _ => ?_
  extract_lets rest
  have hrest : ∀ exported, ChangesRow ground start (plots exported) (.reached true)
      (rest exported) plots (.reached true) := by
    refine fun exported => .lay fun found _ => .skip fun _ => .frame fun span => .pure ?_
    simp [plots_source, ExportAll.plot, toList_map_eq_plots (α := ModuleName) fun _ => rfl,
      map_eq_plots (α := ImportAttribute) fun _ => rfl]
  clear_value rest
  refine .ite (fun _ => .skip fun _ => .here fun nameStart _ => .lay fun name _ => .skip fun _ =>
    ?_)
    fun _ => .given (hrest none)
  exact .given (hrest (some name))

theorem changesRow_exportDecorators {before : List Decorator} :
    ChangesRow ground lo (plots before) (.reached taken) (exportDecorators g ctx before) plots
      (.reached taken) := by
  refine .look fun _ => .ite (fun hnext => .guard fun hempty => ?_) fun _ => .pure rfl
  have := mayAddToRow_decorators (h := h) (c := ctx) (Bool.and_eq_true_iff.mp hnext).1
  exact .drop (List.nil_sublist _) (MayAddToRow.addsToRow lo [] taken)

/-- A class behind its decorators, with a part of the export between them perhaps. -/
theorem changesRow_exportedClass {decorators : List Decorator} {isDefaultExport : Bool} :
    ChangesRow ground lo (plots decorators ++ [.point start]) (.reached taken)
      (classDefinition g ctx start true decorators isDefaultExport)
      (fun c => c.decoratorPlots ++ [.node c.span c.parts]) (.reached true) := by
  intro s hs
  rw [← List.append_nil (_ ++ _)] at hs
  refine ((ChangesRow.within changesRow_classDefinition s hs).and
    (classDefinition_decorators s)).mono
    fun c s' hs' => ?_
  obtain ⟨hlaid, rfl⟩ := hs'
  cases c
  simpa [ClassDefinition.decoratorPlots] using hlaid

theorem changesRow_exportDefault {before : List Decorator} :
    ChangesRow ground start (plots before) (.reached taken) (exportDefault g ctx start before) plots
      (.reached true) := by
  refine .here fun keywordStart _ => .take fun _ => changesRow_exportDecorators.bind fun found => ?_
  refine .skip fun _ => .mark fun valueStart _ => .look fun _ => .ite (fun _ => ?_) fun _ => ?_
  · exact changesRow_exportedClass.bind fun value => .frame fun span => .pure rfl
  · refine .drop (List.nil_sublist _)
      (.guard fun _ => .look fun _ => .ite (fun _ => ?_) fun _ => ?_)
    · exact .lay fun value _ => .frame fun span => .pure rfl
    · refine .skip fun _ => .ite (fun _ => ?_) fun _ => ?_
      · exact .lay fun value _ => .frame fun span => .pure rfl
      · exact .lay fun e _ => .skip fun _ => .frame fun span => .pure rfl

/-- Where a fault that may be reported later stands. -/
def faultPlots (fault : Option Failure) : List Plot :=
  fault.toList.map fun failure => .point failure.offset

/-- Why an entry is no local binding is reported where the entry starts. -/
instance : Plotted ExportEntry := ⟨fun entry => faultPlots entry.fault ++ [entry.specifier.plot]⟩

theorem row_faultPlots {fault : Option Failure} (hstart : IsBoundary ground.text start)
    (hfault : ∀ failure ∈ fault, failure.offset = start) :
    Row ground start (faultPlots fault ++ [.point start]) start := by
  have hpoint : (Plot.point start).Fits ground := .of_leaf hstart hstart (Nat.le_refl _)
  refine Row.append ?_ (Row.single hpoint)
  cases fault with
  | none => exact .nil (Nat.le_refl _)
  | some failure =>
    obtain rfl := hfault failure rfl
    exact .single hpoint

theorem localFault_start (s : State) : Yields (localFault? ctx)
    (fun fault s' => s' = s ∧ ∀ failure ∈ fault, failure.offset = s.start) s := by
  unfold localFault?
  refine .run rfl (.run rfl ?_)
  split
  · exact .pure ⟨rfl, by rintro _ ⟨⟩; rfl⟩
  · refine .run rfl ?_
    split
    · exact .run rfl (.pure ⟨rfl, by rintro _ ⟨⟩; rfl⟩)
    · exact .pure ⟨rfl, nofun⟩

instance {text : List Char} : Treads text (localFault? ctx) := by unfold localFault?; infer_instance

instance : AddsToRow ground (exportEntry g ctx) := by
  refine .intro fun s hs => .run rfl ((hs.treads.and (localFault_start s)).bind fun fault s' hs' =>
    ?_)
  obtain ⟨hs, rfl, hfault⟩ := hs'
  have hrow := row_faultPlots hs.isBoundary hfault
  refine hs.changesRow (.reshape (fun _ hnil => hrow.mono (Nat.le_refl _) hnil.le)
    (.lay fun binding _ =>
    .look fun _ => ?_))
  extract_lets rest
  have hrest : ∀ (exported : ModuleName) parts, (if exported = binding then [binding.plot]
      else [binding.plot, exported.plot]).Sublist parts →
      ChangesRow ground s'.start (faultPlots fault ++ [.point s'.start] ++ parts) (.reached true)
        (rest exported) plots
        (.reached true) := fun exported parts hsub =>
    .drop (hsub.append_left _) (.fold fun span => .pure rfl)
  clear_value rest
  refine .ite (fun _ => .skip fun _ => .lay fun exported _ => ?_) fun _ =>
    .given (hrest binding _ ?_)
  · rw [List.append_assoc]
    refine hrest exported _ ?_
    split <;> simp
  · simp

theorem fits_moduleName {name : ModuleName} (hname : name.plot.Fits ground) :
    IsBoundary ground.text name.span.start := by
  cases name <;> exact hname.isBoundary_start

instance {specifier : ExportSpecifier} [hspecifier : Lies ground specifier] {isLocal : Bool} :
    Treads ground.text (noteExport isLocal specifier) := by
  have hparts : ground.Holds (if specifier.exported = specifier.binding then
    [specifier.binding.plot]
      else [specifier.binding.plot, specifier.exported.plot]) := fun p hp =>
    (hspecifier.fits _ List.mem_cons_self).part hp
  have hnames : specifier.exported.plot.Fits ground ∧ specifier.binding.plot.Fits ground := by
    split at hparts
    · rename_i heq
      rw [heq]
      exact ⟨hparts _ List.mem_cons_self, hparts _ List.mem_cons_self⟩
    · exact ⟨hparts _ (List.mem_cons_of_mem _ List.mem_cons_self), hparts _ List.mem_cons_self⟩
  have : Bounds ground.text specifier.exported.span.start := ⟨fits_moduleName hnames.1⟩
  have : Bounds ground.text specifier.binding.span.start := ⟨fits_moduleName hnames.2⟩
  unfold noteExport
  infer_instance

variable {entries : List ExportEntry}

instance [Lies ground entries] {isLocal : Bool} :
    Treads ground.text (entries.forM fun entry => noteExport isLocal entry.specifier) := by
  refine treads_forM fun entry hentry => ?_
  have hlies : Lies ground entry := Lies.item hentry
  have : Lies ground entry.specifier := ⟨fun p hp => hlies.fits p (List.mem_append_right _ hp)⟩
  infer_instance

instance [hentries : Lies ground entries] : Treads ground.text
    ((entries.findSome? ExportEntry.fault).forM fun failure => throw failure : Parser PUnit) := by
  cases hfound : entries.findSome? ExportEntry.fault with
  | none => exact inferInstanceAs (Treads ground.text (pure PUnit.unit))
  | some failure =>
    obtain ⟨entry, hentry, hfault⟩ := List.exists_of_findSome?_eq_some hfound
    have hpoint : (Plot.point failure.offset).Fits ground :=
      (hentries.item hentry).fits _ (by simp [plots, faultPlots, hfault])
    exact treads_throw hpoint.isBoundary_start

omit h in
theorem sublist_specifiers (entries : List ExportEntry) :
    (plots (entries.map ExportEntry.specifier)).Sublist (plots entries) := by
  induction entries with
  | nil => exact List.Sublist.refl _
  | cons entry rest ih => exact (List.sublist_append_right _ _).append ih

omit h in
theorem changesRow_exportNames : ChangesRow ground start [] (.reached taken)
    (exportNames g ctx start) plots
    (.reached true) := by
  refine .take fun _ => .mayAddToRow fun entries _ => .take fun _ => .look fun _ => ?_
  extract_lets rest
  have hrest : ∀ found, ChangesRow ground start (plots entries ++ plots found)
    (.reached true) (rest found)
      plots (.reached true) := by
    refine fun found => .maybe (.skip fun _ => .skip fun _ => ?_)
    refine .drop ((sublist_specifiers entries).append_right _) (.frame fun span => .pure ?_)
    cases found <;> simp [plots_source, ExportNames.plot,
      map_eq_plots (α := ExportSpecifier) fun _ => rfl,
      map_eq_plots (α := ImportAttribute) fun _ => rfl]
  clear_value rest
  refine .ite (fun _ => .skip fun _ => .lay fun found _ => hrest found) fun _ => ?_
  exact .mayAddToRow fun found _ => hrest found

theorem exportedPlots_of_ne {declaration : Statement}
    (hne : ∀ c, declaration ≠ .classDeclaration c) :
    exportedPlots declaration = [declaration.plot] := by
  cases declaration with
  | classDeclaration c => exact absurd rfl (hne c)
  | _ => rfl

/-- What is no class stands in its export as it stands in a list. -/
theorem HasRow.listed (hs : HasRow ground lo row (.reached taken) s)
    (htoken : s.token ∈ listedKeywords) :
    Meets (AtBoundary ground.text) (g.listItem ctx)
      (fun x s' => HasRow ground lo (exportedPlots x) (.reached true) s') s := by
  have hitem : ChangesRow ground lo row (.reached taken) (g.listItem ctx) plots (.reached true) :=
    .drop (List.nil_sublist _) (.last fun _ => rfl)
  refine ((hs.changesRow hitem).and (h.listed ctx s htoken)).mono fun x s' hs' => ?_
  rw [exportedPlots_of_ne hs'.2]
  exact hs'.1

theorem changesRow_exportedDeclaration {decorators : List Decorator} :
    ChangesRow ground lo (plots decorators) (.reached taken) (exportedDeclaration g ctx decorators)
      exportedPlots (.reached true) := by
  refine fun s hs => .run rfl (.run rfl ?_)
  split
  · rename_i htoken
    exact hs.listed (htoken ▸ by decide)
  · rename_i htoken
    exact hs.listed (htoken ▸ by decide)
  · rename_i htoken
    exact hs.listed (htoken ▸ by decide)
  · rename_i htoken
    refine .run rfl ?_
    split
    · exact hs.changesRow .refuse
    · exact hs.listed (htoken ▸ by decide)
  · rename_i htoken
    have hasync := (inferInstance : Glances atAsyncFunction).yields s
    refine (hs.treads.and hasync).bind fun isFunction s' hs' => ?_
    obtain ⟨hs', -, htoken', -⟩ := hs'
    split
    · exact hs'.listed (htoken'.trans htoken ▸ by decide)
    · exact hs'.changesRow .refuse
  · exact hs.mark.changesRow (changesRow_exportedClass.bind fun c => .pure rfl)
  · exact hs.changesRow .refuse

theorem changesRow_exportDeclaration {decorators : List Decorator} :
    ChangesRow ground start (plots decorators) (.reached taken)
      (exportDeclaration g ctx start decorators)
      plots (.reached true) := by
  refine .here fun declarationStart _ => changesRow_exportedDeclaration.bind fun declaration => ?_
  refine .guard fun _ => fun s hs => ?_
  have hnames : Treads ground.text
      (declaration.declaredNames.forM fun id => addExport id.name id.span.start) :=
    treads_forM fun id hid => by
      have : Bounds ground.text id.span.start := ⟨fits_name (fits_declaredNames hs.row.fits id hid)⟩
      infer_instance
  exact hs.changesRow (.skip fun _ => .frame fun span =>
    .pure (by simp only [plots_statement, plot_exportDeclaration]))

theorem changesRow_exportStatement {before : List Decorator} :
    ChangesRow ground start (plots before) (.reached taken)
      (exportStatement g ctx start before) plots
      (.reached true) := by
  refine .take fun _ => changesRow_exportDecorators.bind fun found => .look fun token =>
    .guard fun _ => ?_
  split
  · exact changesRow_exportAll.drop (List.nil_sublist _)
  · exact changesRow_exportDefault
  · exact changesRow_exportNames.drop (List.nil_sublist _)
  · exact changesRow_exportDeclaration

end Exports

end EcmaSyntax.Grammar
