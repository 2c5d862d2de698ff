import EcmaSyntax.Proofs.Spans.Phrases

/-!
What binding patterns, functions and classes lay out. A class is laid out behind whatever stands
between its start and its keyword, which are its decorators unless it is exported.
-/

namespace EcmaSyntax.Grammar

open EcmaSyntax.Diagnostic EcmaSyntax.Lexer EcmaSyntax.Scope EcmaSyntax.Text EcmaSyntax.Tree
open Plotted

variable {version : Nat} [Unicode.IdentifierChars version]

variable {α : Type} {ground : Ground} {lo : Nat} {row : List Plot} {taken : Bool} {s : State}
  {g : Phrases} [h : g.Spans ground] {ctx : Context}

section Bindings

variable {kind : BindingKind}

instance : AddsToRow ground (bindingElement g ctx kind) := .fresh fun _ _ => .lay fun _ _ =>
  .skip fun _ => .ite (fun _ => .lay fun _ _ => .frame fun _ => .pure rfl) fun _ => .pure rfl

instance {close : Token} : AddsToRow ground (bindingRest g ctx kind close) := by
  have hname : AddsToRow ground (Pattern.identifier <$> bindingIdentifier g.options ctx kind) :=
    .map fun _ => rfl
  refine .fresh fun start _ => .take fun _ => .branch fun argument _ => ?_
  refine .look fun _ => .guard fun _ => .look fun _ => .ite (fun _ => ?_) fun _ => ?_
  · exact .here fun comma _ => .skip fun _ => .look fun _ => .refuse
  · exact .frame fun _ => .pure rfl

instance {earlier : List Pattern} : MayAddToRow ground (Round.arrayBinding g ctx kind earlier) := by
  refine .skip (h := fun token => ?_)
  split
  · infer_instance
  · exact .skip (h := fun _ => .nothing rfl)
  · exact AddsToRow.mayAddToRow ⟨fun _ _ _ => .lay fun ⟨_, _⟩ _ => .pure rfl⟩
  · exact AddsToRow.mayAddToRow ⟨fun _ _ _ => .lay fun _ _ => .skip fun _ => .pure rfl⟩

instance : AddsToRow ground (arrayBinding g ctx kind) :=
  .fresh fun _ _ => .take fun _ => .mayAddToRow fun elements _ => .take fun _ => .frame fun span =>
    .pure (by simp)

/-- The name of a property that is also the name it binds. -/
theorem shorthandName_eq (token : Token) (escaped : Bool) (start : Nat)
    (key : Expression) (s : State) :
    Yields (shorthandName token escaped start key) (fun id _ => key = .identifier id) s := by
  unfold shorthandName
  split
  · split
    · exact .pure rfl
    · split
      · exact (stops_failAt _ _).yields
      · exact stops_unexpected.yields
  · exact stops_unexpected.yields

instance {token : Token} {escaped : Bool} {start : Nat} [Bounds ground.text start]
    {key : Expression} :
    Treads ground.text (shorthandName token escaped start key) := by
  unfold shorthandName
  split <;> infer_instance

/-- The value of a shorthand property is its key, or is made of it. -/
theorem shorthandBinding_reuses (start : Nat) (id : Identifier) (s : State) :
    Yields (shorthandBinding g ctx kind start id)
      (fun value _ => value.reuses (.identifier id) = true) s := by
  unfold shorthandBinding
  refine .skip fun _ _ => .skip fun _ _ => .skip fun _ _ => ?_
  split
  · exact .skip fun _ _ => .skip fun _ _ => .pure (beq_self_eq_true id)
  · exact .pure (beq_self_eq_true id)

theorem changesRow_shorthandBinding {start : Nat} {id : Identifier} [Bounds ground.text start] :
    ChangesRow ground start [id.plot] (.reached true)
      (shorthandBinding g ctx kind start id) Pattern.plots
      (.reached true) :=
  .skip fun _ => .skip fun _ => .skip fun _ =>
    .ite (fun _ => .lay fun _ _ => .frame fun _ => .pure rfl) fun _ => .pure rfl

instance {unique : Bool} {keys : List String} {key : Expression} [hkey : Lies ground key] :
    Treads ground.text (ofExcept (noteKey unique keys key)) := by
  have hkeys : Settled ground.text (fun _ => True) (noteKey unique keys key) :=
    settled_noteKey (hkey.fits _ List.mem_cons_self)
  cases hfound : noteKey unique keys key with
  | ok found => exact inferInstanceAs (Treads ground.text (pure found))
  | error failure =>
    rw [hfound] at hkeys
    exact treads_throw hkeys

instance {keys : List String} : AddsToRow ground (propertyBinding g ctx kind keys) := by
  refine .fresh fun start _ => .look fun token => .look fun escaped =>
    .lay fun ⟨key, computed⟩ hkey => ?_
  have : Lies ground key := ⟨fun p hp => hkey.fits p (List.mem_append_left _ hp)⟩
  refine .either fun keys => .skip fun _ =>
    .ite (fun _ => .lay fun value _ => .frame fun span => .pure rfl) fun _ => ?_
  refine .bindKnown (shorthandName_eq token escaped start key) (fun _ hs => hs.treads) fun id hid =>
    ?_
  subst hid
  refine .bindKnown (shorthandBinding_reuses start id) changesRow_shorthandBinding
    fun value hreuse => ?_
  refine .frame fun span => .pure ?_
  simp [hreuse]

instance {earlier : List (PatternProperty × List String)} :
    MayAddToRow ground (Round.objectBinding g ctx kind earlier) := by
  refine .skip (h := fun token => ?_)
  split
  · infer_instance
  · exact AddsToRow.mayAddToRow ⟨fun _ _ _ => .lay fun ⟨_, _⟩ _ => .pure rfl⟩
  · exact AddsToRow.mayAddToRow ⟨fun _ _ _ => .lay fun _ _ => .skip fun _ => .pure rfl⟩

instance : AddsToRow ground (objectBinding g ctx kind) :=
  .fresh fun _ _ => .take fun _ => .mayAddToRow fun properties _ => .take fun _ =>
    .frame fun span => .pure (by simp [plots_map_fst properties fun _ _ => rfl])

instance : AddsToRow ground (bindingTarget g ctx kind) := by
  unfold bindingTarget
  refine ⟨fun lo row taken => .nested (.skip fun token => ?_)⟩
  split
  · exact .last fun _ => rfl
  · exact .last fun _ => rfl
  · exact .lay fun _ _ => .pure rfl

end Bindings

section Bodies

/-- The octal escape that a prologue remembers stands at a boundary. -/
def Prologue.Recalls (text : List Char) (prologue : Prologue) : Prop :=
  ∀ offset ∈ prologue.octalEscape, IsBoundary text offset

theorem Prologue.Recalls.add {prologue : Prologue} (hprologue : prologue.Recalls ground.text)
    {simpleParams : Bool} {directive : String} {start : Nat} {hasOctalEscape : Bool}
    [hstart : Bounds ground.text start] (hs : HasRow ground lo row (.reached taken) s) :
    Meets (AtBoundary ground.text) (prologue.add simpleParams directive start hasOctalEscape)
      (fun after s' => after.Recalls ground.text ∧ HasRow ground lo row (.reached taken) s') s := by
  have hnew : ∀ offset ∈ (if hasOctalEscape then some start else none),
    IsBoundary ground.text offset := by
    intro offset hoffset
    split at hoffset
    · obtain rfl := Option.some.inj hoffset
      exact hstart.isBoundary
    · cases hoffset
  have hescape := forall_mem_orElse hprologue hnew
  unfold Prologue.add
  generalize (prologue.octalEscape <|> if hasOctalEscape then some start else none) =
    octalEscape at hescape ⊢
  dsimp only
  split
  · split
    · exact hstart.isBoundary
    · cases octalEscape with
      | none => exact .pure ⟨nofun, hs⟩
      | some offset => exact hescape offset rfl
  · exact .pure ⟨hescape, hs⟩

instance : AddsToRow ground (directive g ctx) := by
  refine ⟨fun lo row taken => .look fun s => .lay fun statement _ => ?_⟩
  split
  · exact .ite (fun _ => .pure rfl) fun _ => .pure rfl
  · exact .pure rfl

theorem HasRow.directiveRound (hs : HasRow ground lo row (.reached taken) s) (simpleParams : Bool)
    {earlier : List (Statement × Prologue)}
    (hearlier : ∀ entry ∈ earlier, entry.2.Recalls ground.text) :
    Meets (AtBoundary ground.text) (Round.directive g ctx simpleParams earlier) (fun r s' =>
      (∀ item, r = .more item → ∀ entry ∈ item :: earlier, entry.2.Recalls ground.text) ∧
        HasRow ground lo (row ++ plots r) (.reached taken) s') s := by
  have hbefore : ((earlier.head?.map Prod.snd).getD ⟨ctx, none⟩).Recalls ground.text := by
    cases earlier with
    | nil => exact nofun
    | cons entry others => exact hearlier entry List.mem_cons_self
  have : Bounds ground.text s.start := ⟨hs.anchored.isBoundary_start⟩
  refine .run rfl ?_
  split
  · exact .pure ⟨by rintro _ ⟨⟩, by simpa using hs⟩
  · refine .run rfl ((AddsToRow.addsToRow lo row taken s hs).bind
      fun ⟨statement, isDirective⟩ s₁ hs₁ => ?_)
    dsimp only
    split
    · refine (hbefore.add hs₁.loosen).bind fun after s₂ ⟨hafter, hs₂⟩ => .pure ⟨?_, hs₂⟩
      rintro _ ⟨⟩
      exact List.forall_mem_cons.mpr ⟨hafter, hearlier⟩
    · exact .pure ⟨by rintro _ ⟨⟩, hs₁.loosen⟩

instance {simpleParams : Bool} : MayAddToRow ground (prologue g ctx simpleParams) := by
  refine ⟨fun lo row taken => ?_⟩
  have hloop : ChangesRow ground lo row (.reached taken)
    (g.collect (Round.directive g ctx simpleParams))
      (fun found => row ++ plots found) (.reached taken) :=
    ChangesRow.collectAfter (I := fun earlier =>
      ∀ entry ∈ earlier, Prologue.Recalls ground.text entry.2)
      (fun _ _ _ hearlier hs => hs.directiveRound simpleParams hearlier) g.size
      (List.forall_mem_nil _)
  exact hloop.bind fun found => .pure (by simp [plots_map_fst found fun _ _ => rfl])

instance {simpleParams : Bool} {close : Token} :
    MayAddToRow ground (bodyStatements g ctx simpleParams close) :=
  ⟨fun _ _ _ => .mayAddToRow fun ⟨directives, ctx⟩ _ => .mayAddToRow fun statements _ =>
    .pure (by simp)⟩

end Bodies

section Functions

instance {earlier : List Pattern} : MayAddToRow ground (Round.parameter g ctx earlier) := by
  refine .skip (h := fun token => ?_)
  split
  · infer_instance
  · exact AddsToRow.mayAddToRow ⟨fun _ _ _ => .lay fun ⟨_, _⟩ _ => .pure rfl⟩
  · exact AddsToRow.mayAddToRow ⟨fun _ _ _ => .lay fun _ _ => .skip fun _ => .pure rfl⟩

instance : AddsToRow ground (formalParameters g ctx) :=
  ⟨fun _ _ _ => .take fun _ => .mayAddToRow fun _ _ => .take fun _ => .pure rfl⟩

instance {shape : FunctionShape} {params : List Pattern} {start : Nat} [Bounds ground.text start]
    [hparams : Lies ground params] : Treads ground.text
    (checkParameterCount shape params start) := by
  unfold checkParameterCount
  split
  · infer_instance
  · infer_instance
  · rename_i span argument
    have : Bounds ground.text span.start := ⟨(hparams.fits _ List.mem_cons_self).isBoundary_start⟩
    infer_instance
  all_goals infer_instance

instance : Plotted FunctionParts := ⟨fun parts => plots parts.params ++
  [.node parts.bodySpan (plots parts.body)]⟩

instance {params : List Pattern} [hparams : Lies ground params] {kind : BindingKind} :
    Treads ground.text (params.forM (checkBoundNames ctx kind)) := by
  refine treads_forM fun p hp => ?_
  have : Lies ground p := .item hp
  infer_instance

instance {name : Option Identifier} [hname : Lies ground name] {kind : BindingKind} :
    Treads ground.text (name.forM fun id => checkBinding ctx kind id.name id.span.start) := by
  cases name with
  | none => exact inferInstanceAs (Treads ground.text (pure PUnit.unit))
  | some id =>
    have : Bounds ground.text id.span.start := ⟨fits_name (hname.fits _ List.mem_cons_self)⟩
    exact inferInstanceAs (Treads ground.text (checkBinding ctx kind id.name id.span.start))

/-- Parameters and body of a function. -/
instance {shape : FunctionShape} {name : Option Identifier} [Lies ground name] :
    AddsToRow ground (functionParts g ctx shape name) := by
  refine ⟨fun lo row taken => .asFunction (.inScope ?_)⟩
  refine .look fun _ => .here fun paramsStart _ => .lay fun params _ => .skip fun _ => ?_
  refine .mark fun bodyStart _ => .take fun _ => .lay fun ⟨body, bodyCtx⟩ _ => .skip fun _ => ?_
  refine .ite (fun _ => .skip fun _ => .skip fun _ => ?_) fun _ => ?_
  · exact .fold fun _ => .pure (by simp [plots])
  · exact .fold fun _ => .pure (by simp [plots])

instance {text : List Char} : Treads text (functionBindingKind ctx) := by
  unfold functionBindingKind; infer_instance

instance {text : List Char} {isAsync : Bool} : Treads text (functionStart isAsync) := by
  unfold functionStart; infer_instance

theorem plot_function {span : Span} {id : Option Identifier} {generator isAsync : Bool}
    {parts : FunctionParts} :
    (Function.mk span id generator isAsync parts.params parts.bodySpan parts.body).plot =
      .node span (plots id ++ plots parts) := by
  rw [Function.plot, toList_map_eq_plots fun _ => rfl, plotsOfPatterns_eq, plotsOfStatements_eq]
  rfl

instance {isAsync nameRequired : Bool} :
    AddsToRow ground (functionDeclaration g ctx isAsync nameRequired) := by
  refine .fresh fun start _ => .skip fun generator => .look fun token => ?_
  extract_lets rest
  have hrest : ∀ id, Lies ground id →
      ChangesRow ground start (plots id) (.reached false) (rest id) plots (.reached true) :=
    fun id _ => .lay fun parts _ => .frame fun span => .pure (congrArg (fun p => [p]) plot_function)
  clear_value rest
  refine .ite (fun _ => ?_) fun _ => .ite (fun _ => .refuse) fun _ => .mayAddToRow hrest
  exact .here fun nameStart _ => .look fun _ => .skip fun _ => .skip fun _ => .skip fun _ =>
    .mayAddToRow hrest

theorem changesRow_functionExpression {start : Nat} {isAsync : Bool} :
    ChangesRow ground start [] (.reached false) (functionExpression g ctx start isAsync) plots
      (.reached true) := by
  refine .skip fun generator => .look fun token => ?_
  extract_lets rest
  have hrest : ∀ id, Lies ground id →
      ChangesRow ground start (plots id) (.reached false) (rest id) plots (.reached true) :=
    fun id _ => .lay fun parts _ => .skip fun _ => .frame fun span =>
      .pure (congrArg (fun p => [p]) plot_function)
  clear_value rest
  refine .ite (fun _ => ?_) fun _ => .mayAddToRow hrest
  exact .look fun _ => .here fun nameStart _ => .skip fun _ => .mayAddToRow hrest

instance {isAsync generator : Bool} {shape : FunctionShape} :
    AddsToRow ground (methodFunction g ctx isAsync generator shape) := by
  have : Lies ground (none : Option Identifier) := ⟨nofun⟩
  exact .fresh fun start _ => .lay fun parts _ => .frame fun span =>
    .pure (congrArg (fun p => [p]) plot_function)

end Functions

section Decorators

theorem changesRow_path {start : Nat} (object : Expression) :
    ChangesRow ground start (plots object) (.reached true) (Round.path start object)
      (fun found => plots (found.getD object)) (.reached true) :=
  .skip fun _ => .ite (fun _ => .lay fun _ _ => .frame fun _ => .pure rfl) fun _ => .pure rfl

instance : AddsToRow ground (decoratorExpression g ctx) := by
  refine .fresh fun start _ => .skip fun _ => .ite (fun _ => ?_) fun _ => ?_
  · exact .lay fun _ _ => .skip fun _ => .pure rfl
  · refine .look fun _ => .guard fun _ => .look fun _ => .skip fun _ => .lay fun name _ => ?_
    refine .bind (ChangesRow.iterate (fun object _ => changesRow_path object) g.size
      (Expression.identifier name))
      fun path => .look fun _ => .ite (fun _ => ?_) fun _ => .pure rfl
    exact .lay fun args _ => .frame fun span => .pure (by simp)

theorem mayAddToRow_decorators (hnext : g.options.next = true) {c : Context} :
    MayAddToRow ground (decorators g c) := by
  refine MayAddToRow.collect (h := fun earlier => ⟨fun lo row taken s hs => .run rfl ?_⟩)
  unfold accept
  simp only [bind_assoc]
  refine .run rfl ?_
  split
  · simp only [bind_assoc, pure_bind, if_true]
    refine (hs.append (ChangesRow.take (fun _ => ?_) s)).mono fun _ _ => HasRow.loosen
    exact .lay fun e _ => .frameDecorator (h.decorated hnext) fun span => .pure (by simp)
  · exact .pure (by simpa using hs)

end Decorators

section Elements

instance {text : List Char} {token : Token} : Treads text (atModifier token) := by
  unfold atModifier; infer_instance

instance {text : List Char} {isStatic : Bool} : Treads text (modifiers isStatic) := by
  unfold modifiers
  refine .skip fun isAsync => ?_
  extract_lets rest
  have hrest : ∀ u, Treads text (rest u) := fun u => .skip fun generator => inferInstance
  clear_value rest
  infer_instance

theorem changesRow_staticBlock {start : Nat} :
    ChangesRow ground start [] (.reached taken) (staticBlock g ctx start) plots (.reached true) :=
  .take fun _ => .look fun _ => .skip fun _ => .lay fun body _ => .skip fun _ => .frame fun span =>
    .pure (by simp)

variable {derived : Bool} {decorators : List Decorator} {start keyStart : Nat} {m : Modifiers}
  {key : Expression} {computed : Bool} [Bounds ground.text keyStart]

theorem changesRow_classMethod {earlier : List ClassElement} :
    ChangesRow ground start (plots decorators ++ [key.plot]) (.reached true)
      (classMethod g ctx derived earlier decorators start m key computed keyStart) plots
      (.reached true) := by
  unfold classMethod
  extract_lets name isConstructing kind shape rest others
  have hrest : ChangesRow ground start (plots decorators ++ [key.plot])
    (.reached true) (rest ()) plots
      (.reached true) :=
    .skip fun _ => .lay fun value _ => .frame fun span => .pure (by simp)
  exact .ite (fun _ => .guard fun _ => .guard fun _ => hrest) fun _ => hrest

theorem changesRow_classField :
    ChangesRow ground start (plots decorators ++ [key.plot]) (.reached true)
      (classField g ctx decorators start m key computed keyStart) plots (.reached true) := by
  unfold classField
  refine .guard fun _ => .guard fun _ => .skip fun _ => .skip fun _ => .mayBranch fun value _ => ?_
  exact .skip fun _ => .frame fun span => .pure (by simp)

/-- The decorators of an element stand before it, and there are none unless they are allowed. -/
instance {earlier : List ClassElement} : AddsToRow ground (classElement g ctx derived earlier) := by
  refine .fresh fun start _ => .look fun isAt => ?_
  extract_lets block rest
  have hrest : ∀ found, ChangesRow ground start (plots found) (.reached false) (rest found) plots
      (.reached true) := by
    refine fun found => .skip fun isStatic => ?_
    extract_lets element
    have helement : ChangesRow ground start (plots found) (.reached false) (element ()) plots
        (.reached true) := by
      refine .skip fun m => .here fun keyStart _ => .lay fun ⟨key, computed⟩ _ => .guard fun _ => ?_
      refine .look fun _ => .ite (fun _ => ?_) fun _ => ?_
      · exact changesRow_classMethod.drop (by simp)
      · exact changesRow_classField.drop (by simp)
    clear_value element
    refine .ite (fun _ => ?_) fun _ => helement
    refine .skip fun _ => .look fun _ => .ite (fun _ => .guard fun _ => ?_) fun _ => helement
    exact changesRow_staticBlock.drop (List.nil_sublist _)
  clear_value rest
  refine .ite (fun hat => ?_) fun _ => .mayAddToRow fun found _ => hrest found
  have := mayAddToRow_decorators (h := h) (c := ctx) (Bool.and_eq_true_iff.mp hat).1
  exact .mayAddToRow fun found _ => hrest found

end Elements

section Definitions

variable {derived : Bool} {decorators : List Decorator} {start : Nat}

instance {earlier : List (Option ClassElement)} :
    MayAddToRow ground (Round.classElement g ctx derived earlier) := by
  refine .skip (h := fun atEnd => ?_)
  split
  · infer_instance
  · refine .skip (h := fun atSemicolon => ?_)
    split
    · exact .nothing rfl
    · refine AddsToRow.mayAddToRow ⟨fun lo row taken => .look fun _ => .guard fun _ =>
        .lay fun element _ => ?_⟩
      exact .pure rfl

/-- Private names that the class leaves open are handed out, or reported where they were used. -/
theorem changesRow_exitClass {α : Type} {row' : α → List Plot} {edge' : Edge} {rest : Parser α}
    (hrest : ChangesRow ground lo row (.reached taken) rest row' edge') :
    ChangesRow ground lo row (.reached taken) (do
      let (found, names) := (← get).privateNames.exitClass
      modify fun s => { s with privateNames := names }
      ofScope found
      rest) row' edge' := by
  intro s hs
  obtain ⟨hfound, hnames⟩ := hs.anchored.privateNames.exitClass
  have hanchored := hs.anchored.setPrivateNames hnames
  have hclosed := hs.onward (.of_anchored hanchored rfl rfl)
  have htreads := treads_ofScope hfound
  exact .run rfl (.run rfl ((hclosed.treads (h := htreads)).bind fun _ => hrest))

instance : AddsToRow ground (classBody g ctx derived) := by
  refine .fresh fun start _ => .take fun _ => .skip fun _ => ?_
  have hread : ChangesRow ground start [] (.reached true) (inScope [.classScope] do
      let elements ← g.collect (Round.classElement g ctx derived)
      next
      return elements.filterMap id) plots (.reached true) :=
    .inScope (.mayAddToRow fun elements _ => .take fun _ => .pure (plots_filterMap elements))
  exact hread.bind fun elements => changesRow_exitClass (.frame fun span => .pure rfl)

/-- A class after its decorators, in a row that starts where it does. -/
theorem changesRow_classDefinition {isDeclaration isDefaultExport : Bool} :
    ChangesRow ground lo row (.reached taken)
      (classDefinition g ctx lo isDeclaration decorators isDefaultExport)
      (fun c => [.node c.span (row ++ c.parts)]) (.reached true) := by
  refine .bounds fun hlo => .take fun _ => .look fun token => ?_
  extract_lets rest name
  have hrest : ∀ id : Option Identifier,
    ChangesRow ground lo (row ++ plots id) (.reached true) (rest id)
      (fun c => [.node c.span (row ++ c.parts)]) (.reached true) := by
    refine fun id => .skip fun _ => ?_
    extract_lets body
    have hbody : ∀ superClass : Option Expression, ChangesRow ground lo
        (row ++ plots id ++ plots superClass) (.reached true) (body superClass)
        (fun c => [.node c.span (row ++ c.parts)]) (.reached true) :=
      fun superClass => .lay fun ⟨bodySpan, elements⟩ _ => .skip fun _ => .frame fun span =>
        .pure (by simp [ClassDefinition.parts, toList_map_eq_plots (α := Identifier) fun _ => rfl])
    clear_value body
    refine .ite (fun _ => .lay fun heritage _ => ?_) fun _ => .mayAddToRow fun superClass _ =>
      hbody superClass
    exact .skip fun _ => hbody (some heritage)
  have hname : ChangesRow ground lo row (.reached true) (name ())
    (fun c => [.node c.span (row ++ c.parts)])
      (.reached true) := .lay fun id _ => hrest id
  clear_value name rest
  refine .ite (fun _ => ?_) fun _ => .ite (fun _ => .refuse) fun _ => .mayAddToRow fun id _ =>
    hrest id
  exact .here fun nameStart _ => .look fun _ => .skip fun _ => .ite (fun _ => .skip fun _ => hname)
    fun _ => hname

theorem classDefinition_decorators {isDeclaration isDefaultExport : Bool} (s : State) :
    Yields (classDefinition g ctx start isDeclaration decorators isDefaultExport)
      (fun c _ => c.decorators = decorators) s := by
  refine .skip fun _ _ => .skip fun token _ => ?_
  extract_lets rest name
  have hrest : ∀ id s, Yields (rest id) (fun c _ => c.decorators = decorators) s := by
    refine fun id s => .skip fun _ _ => ?_
    split
    · exact .skip fun _ _ => .skip fun _ _ => .skip fun _ _ => .skip fun _ _ => .skip fun _ _ =>
        .skip fun _ _ => .pure rfl
    · exact .skip fun _ _ => .skip fun _ _ => .skip fun _ _ => .skip fun _ _ => .pure rfl
  have hname : ∀ s, Yields (name ()) (fun c _ => c.decorators = decorators) s :=
    fun s => .skip fun _ _ => hrest _ _
  clear_value name rest
  split
  · refine .skip fun _ _ => .skip fun _ _ => .skip fun _ _ => ?_
    split
    · exact .skip fun _ _ => hname _
    · exact hname _
  · split
    · exact .skip fun _ _ => hrest _ _
    · exact .skip fun _ _ => hrest _ _

/-- A class with its decorators before it, if it has any. -/
theorem changesRow_decoratedClass {isDeclaration isDefaultExport : Bool} :
    ChangesRow ground lo (plots decorators) (.reached taken)
      (classDefinition g ctx lo isDeclaration decorators isDefaultExport) plots
        (.reached true) := by
  intro s hs
  refine ((changesRow_classDefinition s hs).and (classDefinition_decorators s)).mono fun c s' hs' =>
    ?_
  obtain ⟨hlaid, rfl⟩ := hs'
  rw [plots_class, ClassDefinition.plot_eq]
  cases c
  simpa [ClassDefinition.decoratorPlots] using hlaid

theorem changesRow_bareClass {isDeclaration isDefaultExport : Bool} :
    ChangesRow ground lo [] (.reached taken)
    (classDefinition g ctx lo isDeclaration [] isDefaultExport) plots (.reached true) := by
  have hrow : plots ([] : List Decorator) = [] := rfl
  exact hrow ▸ changesRow_decoratedClass

end Definitions

end EcmaSyntax.Grammar
