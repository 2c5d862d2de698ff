import EcmaSyntax.Grammar.Function
import EcmaSyntax.Proofs.Cover.Phrases
import EcmaSyntax.Grammar.Class

/-!
Binding patterns, functions and classes leave only what is settled: the expressions in them are
read by phrases that check the cover state.
-/

namespace EcmaSyntax.Grammar

open EcmaSyntax.Scope EcmaSyntax.Tree

variable {version : Nat} [Unicode.IdentifierChars version]

theorem asFunction_yields {α : Type} {phrase : Parser α} {P : α → Prop}
    (h : ∀ s, Yields phrase (fun a _ => P a) s) (s : State) :
    Yields (asFunction phrase) (fun a _ => P a) s := by
  unfold asFunction
  exact .skip fun saved s => .skip fun _ s => (h s).bind fun a s ha => .skip fun _ s => .pure ha

/-- The parameters and the body are settled. -/
def FunctionParts.Settled (parts : FunctionParts) : Prop :=
  (∀ p ∈ parts.params, Checked false (.pattern p)) ∧
    ∀ x ∈ parts.body, Checked false (.statement x)

theorem FunctionParts.Settled.checked {parts : FunctionParts} (h : parts.Settled)
    (span : Text.Span) (id : Option Identifier) (generator isAsync : Bool) :
    Checked false (.function
      ⟨span, id, generator, isAsync, parts.params, parts.bodySpan, parts.body⟩) := by
  refine .node trivial fun c hc => ?_
  rcases List.mem_append.mp hc with hc | hc
  · obtain ⟨p, hp, rfl⟩ := List.mem_map.mp hc
    exact h.1 p hp
  · obtain ⟨x, hx, rfl⟩ := List.mem_map.mp hc
    exact h.2 x hx

theorem checked_name (id : Identifier) : Checked false (.expression (.identifier id)) :=
  .node trivial (by simp [Node.children, Node.ofExpression])

theorem checked_memberExpression {object property : Expression}
    (hobject : Checked false (.expression object))
    (hproperty : Checked false (.expression property)) (span : Text.Span)
    (computed optional : Bool) :
    Checked false (.expression (.member span object property computed optional)) :=
  .node trivial (by simpa [Node.children, Node.ofExpression] using ⟨hobject, hproperty⟩)

theorem checked_call {callee : Expression} {arguments : List Element}
    (hcallee : Checked false (.expression callee))
    (harguments : ∀ x ∈ arguments, Checked false (.element x)) (span : Text.Span)
    (optional : Bool) : Checked false (.expression (.call span callee arguments optional)) :=
  .node trivial (by simpa [Node.children, Node.ofExpression] using ⟨hcallee, harguments⟩)

namespace Phrases.Checks

variable {g : Phrases} (hg : g.Checks)

include hg

theorem bindingElement (ctx : Context) (kind : BindingKind) :
    Reads .pattern (bindingElement g ctx kind) := by
  intro s
  refine .skip fun start s => (hg.bindingTarget ctx kind s).bind fun target s htarget => ?_
  refine .skip fun found s => ?_
  split
  · refine (hg.assignment ctx.withIn s).bind fun right s hright => ?_
    refine .skip fun span s => .pure (.node trivial ?_)
    simpa [Node.children, Node.ofPattern] using ⟨htarget, hright⟩
  · exact .pure htarget

theorem bindingRest (ctx : Context) (kind : BindingKind) (close : Token) (s : State) :
    Yields (bindingRest g ctx kind close) (fun r _ => Checked false (.pattern r.2)) s := by
  unfold Grammar.bindingRest
  refine .skip fun start s => .skip fun _ s => ?_
  extract_lets rest
  have hrest : ∀ argument s, Checked false (.pattern argument) →
      Yields (rest argument) (fun r _ => Checked false (.pattern r.2)) s := by
    intro argument s hargument
    refine .skip fun atAssign s => (stops_fail _).guard (.skip fun atComma s => ?_)
    dsimp only
    split
    · refine .skip fun comma s => .skip fun _ s => .skip fun atClose s => ?_
      split
      · exact (stops_failAt _ _).bind
      · exact (stops_failAt _ _).bind
    · exact .skip fun span s => .pure hargument
  split
  · refine .bind (.map (.of_results fun id s => checked_identifier id)) hrest
  · exact (hg.bindingTarget ctx kind s).bind hrest

theorem arrayBinding (ctx : Context) (kind : BindingKind) :
    Reads .pattern (arrayBinding g ctx kind) := by
  intro s
  unfold Grammar.arrayBinding
  refine .skip fun start s => .skip fun _ s => ?_
  refine (collect_yields (P := fun p => Checked false (.pattern p))
    (fun earlier s _ => ?_) s).bind fun elements s helements => ?_
  · refine .skip fun token s => ?_
    split
    · exact .pure trivial
    · exact .skip fun _ s => .pure (.node trivial (by simp [Node.children, Node.ofPattern]))
    · refine (hg.bindingRest ctx kind .rightBracket s).bind fun r s hr => .pure ?_
      exact .node trivial (by simpa [Node.children, Node.ofPattern] using hr)
    · refine (hg.bindingElement ctx kind s).bind fun element s helement => ?_
      exact .skip fun _ s => .pure helement
  · refine .skip fun _ s => .skip fun span s => .pure (.node trivial ?_)
    simpa [Node.children, Node.ofPattern] using helements

theorem shorthandBinding (ctx : Context) (kind : BindingKind) (start : Nat) (id : Identifier) :
    Reads .pattern (shorthandBinding g ctx kind start id) := by
  intro s
  refine .skip fun _ s => .skip fun _ s => .skip fun found s => ?_
  split
  · refine (hg.assignment ctx.withIn s).bind fun right s hright => ?_
    refine .skip fun span s => .pure (.node trivial ?_)
    simpa [Node.children, Node.ofPattern] using ⟨checked_identifier id, hright⟩
  · exact .pure (checked_identifier id)

theorem propertyBinding (ctx : Context) (kind : BindingKind) (keys : List String) (s : State) :
    Yields (propertyBinding g ctx kind keys)
      (fun r _ => Checked false (.patternProperty r.1)) s := by
  unfold Grammar.propertyBinding
  refine .skip fun start s => .skip fun token s => .skip fun escaped s => ?_
  refine (hg.propertyKey ctx false s).bind fun r s hkey => ?_
  obtain ⟨key, computed⟩ := r
  dsimp -zeta only
  extract_lets rest
  have hrest : ∀ keys s,
      Yields (rest keys) (fun r _ => Checked false (.patternProperty r.1)) s := by
    intro keys s
    refine .skip fun found s => ?_
    split
    · refine (hg.bindingElement ctx kind s).bind fun value s hvalue => ?_
      refine .skip fun span s => .pure (.node trivial ?_)
      simpa [Node.children] using ⟨hkey, hvalue⟩
    · refine .skip fun id s => (hg.shorthandBinding ctx kind start id s).bind
        fun value s hvalue => ?_
      refine .skip fun span s => .pure (.node trivial ?_)
      simpa [Node.children] using ⟨hkey, hvalue⟩
  split
  · exact .skip hrest
  · exact .skip hrest

theorem objectBinding (ctx : Context) (kind : BindingKind) :
    Reads .pattern (objectBinding g ctx kind) := by
  intro s
  unfold Grammar.objectBinding
  refine .skip fun start s => .skip fun _ s => ?_
  refine (collect_yields (P := fun r : PatternProperty × List String =>
    Checked false (.patternProperty r.1)) (fun earlier s _ => ?_) s).bind
    fun properties s hproperties => ?_
  · refine .skip fun token s => ?_
    split
    · exact .pure trivial
    · refine (hg.bindingRest ctx kind .rightBrace s).bind fun r s hr => .pure ?_
      exact .node trivial (by simpa [Node.children] using hr)
    · refine (hg.propertyBinding ctx kind _ s).bind fun property s hproperty => ?_
      exact .skip fun _ s => .pure hproperty
  · refine .skip fun _ s => .skip fun span s => .pure (.node trivial fun c hc => ?_)
    simp only [Node.children, Node.ofPattern, List.map_map, List.mem_map] at hc
    obtain ⟨r, hr, rfl⟩ := hc
    exact hproperties r hr

theorem bindingTarget_body (ctx : Context) (kind : BindingKind) :
    Reads .pattern (Grammar.bindingTarget g ctx kind) := by
  refine nested_reads fun s => .skip fun token s => ?_
  split
  · exact hg.arrayBinding ctx kind s
  · exact hg.objectBinding ctx kind s
  · exact .skip fun id s => .pure (checked_identifier id)

theorem directive (ctx : Context) (s : State) :
    Yields (directive g ctx) (fun r _ => Checked false (.statement r.1)) s := by
  unfold Grammar.directive
  refine .skip fun saved s => (hg.listItem ctx s).bind fun statement s hstatement => ?_
  split
  · split
    · refine .pure (.node trivial ?_)
      exact hstatement.children_checked (by simp)
    · exact .pure hstatement
  · exact .pure hstatement

theorem prologue (ctx : Context) (simpleParams : Bool) (s : State) :
    Yields (prologue g ctx simpleParams)
      (fun r _ => ∀ x ∈ r.1, Checked false (.statement x)) s := by
  unfold Grammar.prologue
  refine (collect_yields (P := fun r : Statement × Prologue => Checked false (.statement r.1))
    (fun earlier s _ => ?_) s).bind fun found s hfound => .pure fun x hx => ?_
  · refine .skip fun atString s => ?_
    split
    · exact .pure trivial
    · refine .skip fun saved s => (hg.directive _ s).bind fun r s hr => ?_
      obtain ⟨statement, isDirective⟩ := r
      dsimp only
      split
      · exact .skip fun after s => .pure hr
      · exact .pure hr
  · obtain ⟨r, hr, rfl⟩ := List.mem_map.mp hx
    exact hfound r hr

theorem bodyStatements (ctx : Context) (simpleParams : Bool) (close : Token) (s : State) :
    Yields (bodyStatements g ctx simpleParams close)
      (fun r _ => ∀ x ∈ r.1, Checked false (.statement x)) s := by
  unfold Grammar.bodyStatements
  refine (hg.prologue ctx simpleParams s).bind fun r s hdirectives => ?_
  refine (itemsUpTo_yields (P := fun x => Checked false (.statement x)) close
    (hg.listItem r.2) s).bind fun statements s hstatements => .pure fun x hx => ?_
  rcases List.mem_append.mp hx with hx | hx
  · exact hdirectives x hx
  · exact hstatements x hx

theorem formalParameters (ctx : Context) : ReadsAll .pattern (formalParameters g ctx) := by
  intro s
  unfold Grammar.formalParameters
  refine .skip fun _ s => ?_
  refine (collect_yields (P := fun p => Checked false (.pattern p))
    (fun earlier s _ => ?_) s).bind fun params s hparams => .skip fun _ s => .pure hparams
  refine .skip fun token s => ?_
  split
  · exact .pure trivial
  · refine (hg.bindingRest ctx .parameter .rightParen s).bind fun r s hr => .pure ?_
    exact .node trivial (by simpa [Node.children, Node.ofPattern] using hr)
  · refine (hg.bindingElement ctx .parameter s).bind fun param s hparam => ?_
    exact .skip fun _ s => .pure hparam

theorem functionParts (ctx : Context) (shape : FunctionShape) (name : Option Identifier)
    (s : State) : Yields (functionParts g ctx shape name) (fun parts _ => parts.Settled) s := by
  unfold Grammar.functionParts
  refine asFunction_yields (inScope_reads _ fun s => ?_) s
  refine .skip fun saved s => .skip fun paramsStart s => ?_
  refine (hg.formalParameters _ s).bind fun params s hparams => ?_
  refine .skip fun _ s => .skip fun bodyStart s => .skip fun _ s => ?_
  refine (inScope_reads (Q := fun r : List Statement × Context =>
    ∀ x ∈ r.1, Checked false (.statement x)) [.functionBody] (fun s => ?_) s).bind
    fun r s hbody => ?_
  · refine (hg.bodyStatements ctx _ .rightBrace s).bind fun r s hr => ?_
    exact .skip fun _ s => .pure hr
  · refine .skip fun _ s => ?_
    dsimp only
    split
    · exact .skip fun _ s => .skip fun _ s => .skip fun span s => .pure ⟨hparams, hbody⟩
    · exact .skip fun span s => .pure ⟨hparams, hbody⟩

theorem functionDeclaration (ctx : Context) (isAsync nameRequired : Bool) :
    Reads .function (functionDeclaration g ctx isAsync nameRequired) := by
  intro s
  unfold Grammar.functionDeclaration
  refine .skip fun start s => .skip fun generator s => .skip fun token s => ?_
  extract_lets rest
  have hrest : ∀ id s, Yields (rest id) (fun f _ => Checked false (.function f)) s := by
    intro id s
    refine (hg.functionParts _ .plain id s).bind fun parts s hparts => ?_
    exact .skip fun span s => .pure (hparts.checked span id generator isAsync)
  split
  · refine .skip fun nameStart s => .skip fun name s => .skip fun kind s => ?_
    exact .skip fun _ s => .skip fun _ s => .skip hrest
  · split
    · refine .skip fun escaped s => ?_
      split
      · exact .skip fun raw s => .skip hrest
      · exact .skip hrest
    · exact .skip hrest

theorem functionExpression (ctx : Context) (start : Nat) (isAsync : Bool) :
    Reads .expression (functionExpression g ctx start isAsync) := by
  intro s
  unfold Grammar.functionExpression
  refine .skip fun generator s => .skip fun token s => ?_
  extract_lets rest
  have hrest : ∀ id s, Yields (rest id) (fun e _ => Checked false (.expression e)) s := by
    intro id s
    refine (hg.functionParts _ .plain id s).bind fun parts s hparts => ?_
    refine .skip fun _ s => .skip fun span s => .pure (.node trivial ?_)
    simpa [Node.children, Node.ofExpression] using hparts.checked span id generator isAsync
  split
  · exact .skip fun value s => .skip fun start s => .skip fun _ s => .skip hrest
  · exact .skip hrest

theorem methodFunction (ctx : Context) (isAsync generator : Bool) (shape : FunctionShape) :
    Reads .function (methodFunction g ctx isAsync generator shape) := by
  intro s
  unfold Grammar.methodFunction
  refine .skip fun start s => (hg.functionParts _ shape none s).bind fun parts s hparts => ?_
  exact .skip fun span s => .pure (hparts.checked span none generator isAsync)

theorem staticBlock (ctx : Context) (start : Nat) :
    Reads .classElement (staticBlock g ctx start) := by
  intro s
  unfold Grammar.staticBlock
  refine .skip fun _ s => .skip fun saved s => .skip fun _ s => ?_
  refine (inScope_reads (Q := fun body => ∀ x ∈ body, Checked false (.statement x))
    [.staticBlock] (fun s => ?_) s).bind fun body s hbody => ?_
  · refine (itemsUpTo_yields (P := fun x => Checked false (.statement x)) .rightBrace
      (hg.listItem _) s).bind fun body s hbody => ?_
    exact .skip fun _ s => .pure hbody
  · refine .skip fun _ s => .skip fun span s => .pure (.node trivial ?_)
    simpa [Node.children] using hbody

theorem decoratorExpression (ctx : Context) :
    Reads .expression (decoratorExpression g ctx) := by
  intro s
  unfold Grammar.decoratorExpression
  refine .skip fun start s => .skip fun found s => ?_
  split
  · refine (hg.expression ctx.withIn s).bind fun e s he => ?_
    exact .skip fun _ s => .pure he
  · refine .skip fun token s => stops_unexpected.guard ?_
    refine .skip fun value s => .skip fun _ s => .skip fun name s => ?_
    refine (Yields.iterate (I := fun e _ => Checked false (.expression e))
      (fun object s hobject => ?_) g.size _ s (checked_name name)).bind fun path s hpath => ?_
    · refine .skip fun atDot s => ?_
      split
      · refine (memberName_reads s).bind fun property s hproperty => .skip fun span s => .pure ?_
        exact checked_memberExpression hobject hproperty span false false
      · exact .pure hobject
    · refine .skip fun atParen s => ?_
      split
      · refine (hg.arguments ctx s).bind fun args s hargs => .skip fun span s => .pure ?_
        exact checked_call hpath hargs.1 span false
      · exact .pure hpath

theorem decorators (ctx : Context) : ReadsAll .decorator (decorators g ctx) := by
  intro s
  refine collect_yields (fun earlier s _ => ?_) s
  refine .skip fun start s => .skip fun found s => ?_
  split
  · refine (hg.decoratorExpression ctx s).bind fun e s he => .skip fun span s => .pure ?_
    exact .node trivial (by simpa [Node.children] using he)
  · exact .pure trivial

theorem classMethod (ctx : Context) (derived : Bool) (earlier : List ClassElement)
    {found : List Decorator} (hfound : ∀ d ∈ found, Checked false (.decorator d)) (start : Nat)
    (m : Modifiers) {key : Expression} (hkey : Checked false (.expression key))
    (computed : Bool) (keyStart : Nat) :
    Reads .classElement
      (classMethod g ctx derived earlier found start m key computed keyStart) := by
  intro s
  unfold Grammar.classMethod
  extract_lets name isConstructing kind shape rest second
  have hrest : ∀ s, Yields (rest ()) (fun x _ => Checked false (.classElement x)) s := by
    intro s
    refine .skip fun _ s => (hg.methodFunction ctx m.isAsync m.generator _ s).bind
      fun value s hvalue => ?_
    refine .skip fun span s => .pure (.node trivial ?_)
    simpa [Node.children] using ⟨hkey, hvalue, hfound⟩
  split
  · exact (stops_failAt _ _).guard ((stops_failAt _ _).guard (hrest s))
  · exact hrest s

theorem classField (ctx : Context) {found : List Decorator}
    (hfound : ∀ d ∈ found, Checked false (.decorator d)) (start : Nat) (m : Modifiers)
    {key : Expression} (hkey : Checked false (.expression key)) (computed : Bool)
    (keyStart : Nat) :
    Reads .classElement (classField g ctx found start m key computed keyStart) := by
  intro s
  unfold Grammar.classField
  refine stops_unexpected.guard ((stops_failAt _ _).guard ?_)
  refine .skip fun _ s => .skip fun hasValue s => ?_
  extract_lets rest
  have hrest : ∀ value s, (∀ e, value = some e → Checked false (.expression e)) →
      Yields (rest value) (fun x _ => Checked false (.classElement x)) s := by
    intro value s hvalue
    refine .skip fun _ s => .skip fun span s => .pure (.node trivial fun c hc => ?_)
    rcases List.mem_cons.mp hc with rfl | hc
    · exact hkey
    · rcases List.mem_append.mp hc with hc | hc
      · exact ofOption_checked hvalue c hc
      · obtain ⟨d, hd, rfl⟩ := List.mem_map.mp hc
        exact hfound d hd
  split
  · exact ((hg.assignment (initializerContext ctx)).optional s).bind hrest
  · exact .run rfl (hrest none s (by simp))

theorem classElement (ctx : Context) (derived : Bool) (earlier : List ClassElement) :
    Reads .classElement (classElement g ctx derived earlier) := by
  intro s
  unfold Grammar.classElement
  refine .skip fun start s => .skip fun atSign s => ?_
  extract_lets blockRest rest
  have hrest : ∀ found s, (∀ d ∈ found, Checked false (.decorator d)) →
      Yields (rest found) (fun x _ => Checked false (.classElement x)) s := by
    intro found s hfound
    refine .skip fun isStatic s => ?_
    extract_lets last
    have hlast : ∀ s, Yields (last ()) (fun x _ => Checked false (.classElement x)) s := by
      intro s
      refine .skip fun m s => .skip fun keyStart s => ?_
      refine (hg.propertyKey ctx true s).bind fun r s hkey => ?_
      obtain ⟨key, computed⟩ := r
      refine (stops_failAt _ _).guard (.skip fun atParen s => ?_)
      split
      · exact hg.classMethod ctx derived earlier hfound start m hkey computed keyStart s
      · exact hg.classField ctx hfound start m hkey computed keyStart s
    split
    · refine .skip fun _ s => .skip fun atBrace s => ?_
      split
      · exact (stops_failAt _ _).guard (hg.staticBlock ctx start s)
      · exact hlast s
    · exact hlast s
  split
  · exact (hg.decorators ctx s).bind hrest
  · exact .run rfl (hrest [] s (by simp))

theorem classBody (ctx : Context) (derived : Bool) (s : State) :
    Yields (classBody g ctx derived)
      (fun r _ => ∀ x ∈ r.2, Checked false (.classElement x)) s := by
  unfold Grammar.classBody
  refine .skip fun start s => .skip fun _ s => .skip fun _ s => ?_
  refine (inScope_reads (Q := fun elements => ∀ x ∈ elements, Checked false (.classElement x))
    [.classScope] (fun s => ?_) s).bind fun elements s helements => ?_
  · refine (collect_yields (P := fun found : Option ClassElement =>
      ∀ x, found = some x → Checked false (.classElement x)) (fun earlier s _ => ?_) s).bind
      fun found s hfound => .skip fun _ s => .pure fun x hx => ?_
    · refine .skip fun atBrace s => ?_
      split
      · exact .pure trivial
      · refine .skip fun atSemicolon s => ?_
        split
        · exact .pure (by simp [Round.Adds])
        · refine .skip fun atEnd s => stops_unexpected.guard ?_
          refine (hg.classElement ctx derived _ s).bind fun x s hx => .pure ?_
          simpa [Round.Adds] using hx
    · obtain ⟨y, hy, heq⟩ := List.mem_filterMap.mp hx
      exact hfound y hy x heq
  · refine .skip fun names s => ?_
    exact .skip fun _ s => .skip fun _ s => .skip fun span s => .pure helements

theorem classDefinition (ctx : Context) (start : Nat) (isDeclaration : Bool)
    {found : List Decorator} (hfound : ∀ d ∈ found, Checked false (.decorator d))
    (isDefaultExport : Bool) :
    Reads .classDefinition
      (classDefinition g ctx start isDeclaration found isDefaultExport) := by
  intro s
  unfold Grammar.classDefinition
  refine .skip fun _ s => .skip fun token s => ?_
  extract_lets rest
  have hrest : ∀ id s, Yields (rest id) (fun c _ => Checked false (.classDefinition c)) s := by
    intro id s
    refine .skip fun hasHeritage s => ?_
    extract_lets last
    have hlast : ∀ heritage s, (∀ e, heritage = some e → Checked false (.expression e)) →
        Yields (last heritage) (fun c _ => Checked false (.classDefinition c)) s := by
      intro heritage s hheritage
      refine (hg.classBody _ _ s).bind fun r s helements => ?_
      refine .skip fun _ s => .skip fun span s => .pure (.node trivial fun c hc => ?_)
      rcases List.mem_append.mp hc with hc | hc
      · exact ofOption_checked hheritage c hc
      · rcases List.mem_append.mp hc with hc | hc
        · obtain ⟨x, hx, rfl⟩ := List.mem_map.mp hc
          exact helements x hx
        · obtain ⟨d, hd, rfl⟩ := List.mem_map.mp hc
          exact hfound d hd
    split
    · refine (hg.leftHandSide _ s).bind fun heritage s hheritage => ?_
      refine (checkCover_yields hheritage).bind fun _ s hchecked => ?_
      exact .run rfl (hlast (some heritage) s (by simpa using hchecked))
    · exact .run rfl (hlast none s (by simp))
  split
  · refine .skip fun nameStart s => .skip fun name s => .skip fun _ s => ?_
    split
    · exact .skip fun _ s => .skip hrest
    · exact .skip hrest
  · split
    · exact .skip hrest
    · exact .skip hrest

end Phrases.Checks

end EcmaSyntax.Grammar
