import EcmaSyntax.Proofs.Spans.Conversion

/-!
What the phrases of the grammar lay out: sequences, names, literals, templates, property names
and arguments.
-/

namespace EcmaSyntax.Lexer

/-- A closing brace is read as the start of another chunk. -/
theorem rescanTemplate_isTemplate (s : State) :
    Yields rescanTemplate (fun _ s' => s'.token.isTemplate = true) s := by
  unfold rescanTemplate
  refine .run rfl ((ofReading_yields _ _ s).bind fun lexeme _ h => .run rfl (.pure ?_))
  exact readChunkLexeme_isTemplate h.1

end EcmaSyntax.Lexer

namespace EcmaSyntax.Grammar

open EcmaSyntax.Diagnostic EcmaSyntax.Lexer EcmaSyntax.Scope EcmaSyntax.Text EcmaSyntax.Tree
open Plotted

variable {version : Nat} [Unicode.IdentifierChars version]

variable {α : Type} {ground : Ground} {lo : Nat} {row : List Plot} {taken : Bool} {s : State}

/-- The keywords of the declarations that are exported as they stand in lists. -/
def listedKeywords : List Token :=
  [.varKeyword, .constKeyword, .functionKeyword, .letKeyword, .asyncKeyword]

/-- The phrases that contain each other lay out what they read, and read decorators only where
there may be some. -/
class Phrases.Spans (g : Phrases) (ground : Ground) : Prop where
  assignmentCover : ∀ ctx, AddsToRow ground (g.assignmentCover ctx)
  unary : ∀ ctx, AddsToRow ground (g.unary ctx)
  binary : ∀ ctx start left minimum, ChangesRow ground start [left.plot] (.reached true)
    (g.binary ctx start left minimum) (fun found => [found.1.plot]) (.reached true)
  newCall : ∀ ctx, AddsToRow ground (g.newCall ctx)
  leftHandSide : ∀ ctx, AddsToRow ground (g.leftHandSide ctx)
  markup : ∀ ctx exit, AddsToRow ground (g.markup ctx exit)
  bindingTarget : ∀ ctx kind, AddsToRow ground (g.bindingTarget ctx kind)
  statement : ∀ ctx position, AddsToRow ground (g.statement ctx position)
  listItem : ∀ ctx, AddsToRow ground (g.listItem ctx)
  listed : ∀ ctx (s : State), s.token ∈ listedKeywords →
    Yields (g.listItem ctx) (fun x _ => ∀ c, x ≠ .classDeclaration c) s
  decorated : g.options.next = true → ground.decorated

section Expressions

variable {g : Phrases} [h : g.Spans ground] {ctx : Context}

instance : AddsToRow ground (g.assignmentCover ctx) := h.assignmentCover ctx
instance : AddsToRow ground (g.unary ctx) := h.unary ctx
instance : AddsToRow ground (g.newCall ctx) := h.newCall ctx
instance : AddsToRow ground (g.leftHandSide ctx) := h.leftHandSide ctx
instance {exit : MarkupExit} : AddsToRow ground (g.markup ctx exit) := h.markup ctx exit
instance {kind : BindingKind} : AddsToRow ground (g.bindingTarget ctx kind) :=
    h.bindingTarget ctx kind
instance {position : Position} : AddsToRow ground (g.statement ctx position) :=
    h.statement ctx position
instance : AddsToRow ground (g.listItem ctx) := h.listItem ctx

instance : AddsToRow ground (g.assignment ctx) :=
  ⟨fun _ _ _ => .lay fun _ _ => .skip fun _ => .pure rfl⟩

instance : AddsToRow ground (g.covered ctx) :=
  ⟨fun _ _ _ => .lay fun _ _ => .skip fun _ => .pure rfl⟩

instance {earlier : List Expression} : MayAddToRow ground (Round.sequence g ctx earlier) := by
  refine .skip (h := fun found => ?_)
  split
  · exact AddsToRow.mayAddToRow (.give fun _ => rfl)
  · infer_instance

theorem changesRow_sequenceAfter {start : Nat} {first : Expression} :
    ChangesRow ground start [first.plot] (.reached true) (g.sequenceAfter ctx start first) plots
      (.reached true) := by
  unfold Phrases.sequenceAfter
  refine .look fun atComma => .ite (fun _ => ?_) fun _ => .pure rfl
  refine .mayAddToRow fun rest _ => .skip fun _ => .frame fun span => .pure ?_
  simp

instance : AddsToRow ground (g.expression ctx) := .fresh fun _ _ => .lay fun _ _ =>
    changesRow_sequenceAfter

end Expressions

section Names

instance : AddsToRow ground identifier :=
  .fresh fun _ _ => .look fun _ => .take fun _ => .frame fun _ => .pure rfl

instance : AddsToRow ground privateName :=
  .fresh fun _ _ => .look fun _ => .take fun _ => .frame fun _ => .pure rfl

instance {ctx : Context} {name : String} {offset : Nat} [Bounds ground.text offset] :
    Treads ground.text (checkReference ctx name offset) := by
  unfold checkReference; infer_instance

instance {ctx : Context} {kind : BindingKind} {name : String} {offset : Nat}
    [Bounds ground.text offset] : Treads ground.text (checkBinding ctx kind name offset) := by
  unfold checkBinding; infer_instance

instance {options : Options} {ctx : Context} {kind : BindingKind} :
    AddsToRow ground (bindingIdentifier options ctx kind) :=
  ⟨fun _ _ _ => .look fun _ => .ite (fun _ => .refuse) fun _ => .here fun _ _ => .look fun _ =>
    .skip fun _ => .skip fun _ => .last fun _ => rfl⟩

/-- A use of a private name is remembered with its place until the class ends. -/
instance : AddsToRow ground privateReference := by
  refine ⟨fun lo row taken s hs => .run rfl (.run rfl (.run rfl ?_))⟩
  have hstart := hs.anchored.isBoundary_start
  split
  · rename_i error herror
    exact PrivateNames.failsOnlyAt_reference hstart error herror
  · rename_i names hnames
    have hanchored := hs.anchored.setPrivateNames (hs.anchored.privateNames.reference hstart hnames)
    refine .run rfl (AddsToRow.addsToRow lo row taken _ ⟨hanchored, hs.isBoundary, ?_⟩)
    cases taken <;> exact hs.row

end Names

section Literals

variable {g : Phrases} {ctx : Context} {options : Options}

instance : Treads ground.text (literalValue ctx) := by
  unfold literalValue
  refine .skip fun flags => .skip fun token => ?_
  split <;> infer_instance

instance : AddsToRow ground (literal options ctx) := .fresh fun _ _ => .look fun _ => .skip fun _ =>
  .take fun _ => .frame fun _ => .pure rfl

instance : AddsToRow ground (regexLiteral options) :=
  .fresh fun _ _ => .skip fun _ => .look fun _ => .look fun _ => .look fun _ => .take fun _ =>
    .frame fun _ => .pure rfl

instance [g.Spans ground] {allowPrivate : Bool} :
    AddsToRow ground (propertyKey g ctx allowPrivate) := by
  refine AddsToRow.skip (h := fun token => ?_)
  split
  · exact ⟨fun _ _ _ => .take fun _ => .lay fun _ _ => .take fun _ => .pure rfl⟩
  · exact .give fun _ => rfl
  · exact .give fun _ => rfl
  · exact .give fun _ => rfl
  · split
    · exact .give fun _ => rfl
    · infer_instance
  · split
    · exact .give fun _ => rfl
    · infer_instance

instance : AddsToRow ground memberName := by
  refine AddsToRow.skip (h := fun token => ?_)
  split
  · exact .give fun _ => rfl
  · split
    · exact .give fun _ => rfl
    · infer_instance

end Literals

section Templates

variable {g : Phrases} [g.Spans ground] {ctx : Context}

instance : Plotted TemplateParts := ⟨fun parts => [.node parts.span
  (Plot.weave (parts.quasis.map TemplateElement.plot) (plotsOfExpressions parts.expressions))]⟩

/-- A chunk of a template stands between its delimiters. -/
theorem HasRow.templateElement (hs : HasRow ground lo row (.reached taken) s)
    (htoken : s.token.isTemplate = true) (tagged : Bool) :
    Meets (AtBoundary ground.text)
      (templateElement tagged (s.token == .noSubstitutionTemplate || s.token == .templateTail))
      (fun quasi s' => s' = s ∧ HasRow ground lo (row ++ plots quasi) .beyond s') s := by
  have hwidth : (if (s.token == .noSubstitutionTemplate || s.token == .templateTail) = true then 1
      else 2) = closingWidth s.token := by
    revert htoken
    generalize s.token = token
    cases token <;> first | exact fun _ => rfl | exact nofun
  obtain ⟨body, hbody, -⟩ := hs.anchored.situated.sound.isSafe.template htoken
  obtain ⟨hle, hstart, hstop⟩ := isBoundary_of_slice? hbody
  have hlaid : HasRow ground lo (row ++ [.leaf ⟨s.lexer.span.start + 1,
      max (s.lexer.span.stop - closingWidth s.token) (s.lexer.span.start + 1)⟩]) .beyond s := by
    have hmax : max (s.lexer.span.stop - closingWidth s.token) (s.lexer.span.start + 1) =
        s.lexer.cursor.offset - closingWidth s.token := Nat.max_eq_left hle
    rw [hmax]
    refine ⟨hs.anchored, hs.isBoundary, ?_⟩
    have hleaf : (Plot.leaf ⟨s.lexer.span.start + 1,
        s.lexer.cursor.offset - closingWidth s.token⟩).Fits ground := .of_leaf hstart hstop hle
    exact (hs.row.mono (Nat.le_refl _) hs.anchored.edge_le).append
      ((Row.single hleaf).mono (Nat.le_succ _) (Nat.sub_le _ _))
  unfold Grammar.templateElement
  refine .run rfl ?_
  dsimp only
  rw [hwidth]
  split
  · split
    · exact .pure ⟨rfl, hlaid⟩
    · exact hs.anchored.recalls
  · exact .pure ⟨rfl, hlaid⟩

/-- A chunk of a template, and the expression behind it unless it is the last. -/
theorem HasRow.templateRound (hs : HasRow ground lo row (.reached taken) s)
    (htoken : s.token.isTemplate = true) (tagged : Bool)
    (earlier : List (TemplateElement × Option Expression)) :
    Meets (AtBoundary ground.text) (Round.template g ctx tagged earlier) (fun r s' =>
      match r with
      | .stop => False
      | .last item => item.2 = none ∧ HasRow ground lo (row ++ plots item) (.reached true) s'
      | .more item => item.2.isSome = true ∧ s'.token.isTemplate = true ∧
        HasRow ground lo (row ++ plots item) (.reached true) s') s := by
  refine .run rfl ((hs.templateElement htoken tagged).bind fun quasi s₁ h₁ => ?_)
  obtain ⟨rfl, hquasi⟩ := h₁
  refine hquasi.surpasses.bind fun _ s₂ hs₂ => ?_
  split
  · exact .pure ⟨rfl, hs₂⟩
  · refine (AddsToRow.addsToRow lo _ true s₂ hs₂).bind fun e s₃ hs₃ => .run rfl ?_
    split
    · exact (Refuses.refuses s₃ hs₃.anchored).mono fun _ _ => False.elim
    · rename_i hbrace
      have htoken₃ : s₃.token = .rightBrace := by simpa using hbrace
      have htemplate := (rescanTemplate_isTemplate s₃.lexer).withLexer
      refine ((hs₃.anchored.rescanTemplate htoken₃).and htemplate).bind fun _ s₄ hs₄ => .pure ?_
      obtain ⟨honward, lexer, htoken₄, rfl⟩ := hs₄
      exact ⟨rfl, htoken₄, List.append_assoc _ _ _ ▸ hs₃.onward honward⟩

theorem plots_chunks {items : List (TemplateElement × Option Expression)}
    (h : ∀ item ∈ items, item.2.isSome = true) (last : TemplateElement) :
    plots (items ++ [(last, none)]) =
      Plot.weave (((items ++ [(last, none)]).map Prod.fst).map TemplateElement.plot)
        (plotsOfExpressions ((items ++ [(last, none)]).filterMap Prod.snd)) := by
  induction items with
  | nil => rfl
  | cons item rest ih =>
    obtain ⟨hitem, hrest⟩ := List.forall_mem_cons.mp h
    obtain ⟨quasi, e⟩ := item
    obtain ⟨e, rfl⟩ := Option.isSome_iff_exists.mp hitem
    exact congrArg (fun row => quasi.plot :: e.plot :: row) (ih hrest)

/-- A template from its first chunk on. -/
theorem HasRow.template (hs : HasRow ground lo row (.reached taken) s)
    (htoken : s.token.isTemplate = true) (tagged : Bool) :
    Meets (AtBoundary ground.text) (template g ctx tagged)
      (fun parts s' => HasRow ground lo (row ++ plots parts) (.reached true) s') s := by
  refine hs.append fun hs => .run rfl ?_
  refine (meets_collectAfter
    (I := fun earlier s' => (∀ item ∈ earlier, item.2.isSome = true) ∧ s'.token.isTemplate = true ∧
      HasRow ground s.start (plots earlier.reverse) (.reached false) s')
    (Q := fun items s' => HasRow ground s.start
      (Plot.weave ((items.map Prod.fst).map TemplateElement.plot)
      (plotsOfExpressions (items.filterMap Prod.snd))) (.reached true) s')
    (fun _ _ h => h.2.2.anchored) (fun earlier s' h => ?_) g.size [] s ⟨nofun, htoken, hs⟩).bind
    fun items s' hs' => .run rfl (.pure ⟨hs'.anchored, hs'.isBoundary,
      hs'.row.node hs'.isBoundary hs'.anchored.isBoundary_previousEnd⟩)
  obtain ⟨hsome, htoken', hlaid⟩ := h
  refine (hlaid.templateRound htoken' tagged earlier).mono fun r s'' hr => ?_
  cases r with
  | stop => exact hr.elim
  | last item =>
    obtain ⟨quasi, e⟩ := item
    obtain ⟨rfl, hlast⟩ := hr
    have hall : ∀ item ∈ earlier.reverse, item.2.isSome = true :=
      fun item hitem => hsome item (List.mem_reverse.mp hitem)
    dsimp only
    rw [← plots_chunks hall]
    simpa using hlast
  | more item =>
    obtain ⟨hitem, htoken'', hmore⟩ := hr
    refine ⟨List.forall_mem_cons.mpr ⟨hitem, hsome⟩, htoken'', ?_⟩
    simpa using hmore.loosen

end Templates

section Arguments

variable {g : Phrases} [g.Spans ground] {ctx : Context}

instance {text : List Char} {start : Nat} : Treads text (noteSpread start) := by
  unfold noteSpread; infer_instance

theorem changesRow_elementFrom {start : Nat} {isSpread : Bool} {e : Expression} :
    ChangesRow ground start [e.plot] (.reached true) (elementFrom start isSpread e) Element.plots
      (.reached true) := by
  unfold elementFrom
  exact .ite (fun _ => .skip fun _ => .frame fun _ => .pure rfl) fun _ => .pure rfl

instance {earlier : List (Element × Cover)} :
    AddsToRow ground (Round.coveredArgument g ctx earlier) :=
  .fresh fun _ _ => .skip fun _ => .lay fun _ _ => changesRow_elementFrom.bind fun _ =>
    .pure (List.append_nil _)

instance {earlier : List Element} : AddsToRow ground (Round.argument g ctx earlier) :=
  .fresh fun _ _ => .skip fun _ => .lay fun _ _ => changesRow_elementFrom

instance : AddsToRow ground (coveredArguments g ctx) :=
  ⟨fun _ _ _ => .take fun _ => .mayAddToRow fun _ _ => .take fun _ => .pure rfl⟩

instance : AddsToRow ground (arguments g ctx) :=
  ⟨fun _ _ _ => .take fun _ => .mayAddToRow fun _ _ => .take fun _ => .pure rfl⟩

end Arguments

end EcmaSyntax.Grammar
