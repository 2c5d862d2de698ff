import EcmaSyntax.Proofs.Jumps.Phrases

/-!
Classes, markup and primary expressions. A static block is a body that no jump leaves, and so is the
body of an arrow function; the other elements of a class are functions and expressions. A literal
that becomes a pattern keeps the functions in it.
-/

namespace EcmaSyntax.Grammar

open EcmaSyntax.Diagnostic EcmaSyntax.Lexer EcmaSyntax.Scope EcmaSyntax.Tree

variable {version : Nat} [Unicode.IdentifierChars version]

variable {o : Outline}

theorem Context.isClosed_initializer (ctx : Context) : (initializerContext ctx).IsClosed :=
  have h := ctx.isClosed_reset
  ⟨h.iteration, h.switch⟩

/-- No jump leaves the body of an arrow function. -/
def ArrowBody.IsEnclosed : ArrowBody → Prop
  | .concise e => Enclosed (.expression e)
  | .block _ body _ => ∀ x ∈ body, Resolved [] (.statement x)

theorem groupExpression_enclosed {first : Expression} {rest : List Expression}
    (hfirst : Enclosed (.expression first)) (hrest : ∀ e ∈ rest, Enclosed (.expression e)) :
    Enclosed (.expression (groupExpression first rest)) := by
  unfold groupExpression
  split
  · exact hfirst
  · exact .list trivial (List.forall_mem_cons.mpr ⟨hfirst, hrest⟩) rfl

namespace Phrases.Targets

variable {g : Phrases} (hg : g.Targets)

include hg

theorem staticBlock (ctx : Context) (start : Nat) :
    Confines o .classElement (staticBlock g ctx start) := by
  have hclosed := ctx.isClosed_initializer
  have hbody : ∀ {inner : Outline}, inner.labelChain = none → inner.labels = [] →
      Balances inner (fun body => ∀ x ∈ body, Resolved [] (.statement x)) (do
        let body ← g.itemsUpTo .rightBrace
          (g.listItem { initializerContext ctx with inStaticBlock := true })
        next
        return body) := by
    intro inner hchain hlabels
    refine (itemsUpTo_preserves .rightBrace (hg.listItem _ hchain)).bind fun body hbody => ?_
    refine .skip fun _ => .pure fun x hx => ?_
    rw [hlabels] at hbody
    exact (hbody x hx).resolved hclosed.iteration hclosed.switch
  unfold Grammar.staticBlock
  refine .skip fun _ s hs => .run rfl (.run rfl ?_)
  subst hs
  refine ((hbody rfl rfl).inScope _ rfl).bind fun body s' hs' => ?_
  refine .run rfl (.run rfl (.pure ⟨?_, ?_⟩))
  · change { s'.outline with labels := s.labels, labelChain := s.labelChain } = s.outline
    rw [hs'.1]
    rfl
  · exact .list hs'.2 (fun x hx => (hs'.2 x hx).enclosed) rfl

theorem decoratorExpression (ctx : Context) :
    Confines o .expression (decoratorExpression g ctx) := by
  unfold Grammar.decoratorExpression
  refine .skip fun start => .skip fun inParens => ?_
  split
  · exact (hg.expression ctx.withIn).bind fun e he => .skip fun _ => .pure he
  · refine .skip fun token => stops_unexpected.preserves_guard ?_
    refine .skip fun value => .skip fun _ => .skip fun name => ?_
    refine Preserves.bind (Preserves.iterate (P := fun e => Enclosed (.expression e))
      (fun object hobject => ?_) g.size (.leaf trivial rfl))
      fun path hpath => .skip fun atParen => ?_
    · refine .skip fun atDot => ?_
      split
      · refine confines_memberName.bind fun property hproperty => .skip fun span => .pure ?_
        rintro _ ⟨⟩
        exact .pair trivial hobject hproperty rfl
      · exact .pure nofun
    · split
      · refine (hg.arguments ctx).bind fun args hargs => .skip fun span => .pure ?_
        exact .consList trivial hpath hargs rfl
      · exact .pure hpath

theorem decorators (ctx : Context) : ConfinesAll o .decorator (decorators g ctx) := by
  refine collect_preserves fun earlier _ => .skip fun start => .skip fun atSign => ?_
  split
  · refine (hg.decoratorExpression ctx).bind fun e he => .skip fun span => .pure ?_
    exact Node.Every.single trivial he rfl
  · exact .pure trivial

theorem classMethod (ctx : Context) (derived : Bool) (earlier : List ClassElement)
    {found : List Decorator} (hfound : ∀ d ∈ found, Enclosed (.decorator d)) (start : Nat)
    (m : Modifiers) {key : Expression} (hkey : Enclosed (.expression key)) (computed : Bool)
    (keyStart : Nat) :
    Confines o .classElement
      (classMethod g ctx derived earlier found start m key computed keyStart) := by
  unfold Grammar.classMethod
  extract_lets name isConstructing kind shape rest
  have hrest : ∀ u, Confines o .classElement (rest u) := by
    intro u
    refine .skip fun _ => (hg.methodFunction ctx _ _ _).bind fun value hvalue => ?_
    refine .skip fun span => .pure (.node trivial ?_)
    exact List.forall_mem_cons.mpr ⟨hkey, List.forall_mem_cons.mpr
      ⟨hvalue, List.forall_mem_map.mpr hfound⟩⟩
  split
  · exact (stops_failAt _ _).preserves_guard ((stops_failAt _ _).preserves_guard (hrest ()))
  · exact hrest ()

theorem classField (ctx : Context) {found : List Decorator}
    (hfound : ∀ d ∈ found, Enclosed (.decorator d)) (start : Nat) (m : Modifiers)
    {key : Expression} (hkey : Enclosed (.expression key)) (computed : Bool) (keyStart : Nat) :
    Confines o .classElement (classField g ctx found start m key computed keyStart) := by
  unfold Grammar.classField
  refine stops_unexpected.preserves_guard ((stops_failAt _ _).preserves_guard ?_)
  refine .skip fun _ => .skip fun hasValue => ?_
  extract_lets rest
  have hrest : ∀ value, (∀ e ∈ value, Enclosed (.expression e)) →
      Confines o .classElement (rest value) := by
    intro value hvalue
    refine .skip fun _ => .skip fun span => .pure (.node trivial ?_)
    exact List.forall_mem_cons.mpr ⟨hkey, List.forall_mem_append.mpr
      ⟨Node.every_ofOption hvalue, List.forall_mem_map.mpr hfound⟩⟩
  split
  · exact (hg.assignment _).optional.bind hrest
  · exact Preserves.bind (.pure nofun) hrest

theorem classElement (ctx : Context) (derived : Bool) (earlier : List ClassElement) :
    Confines o .classElement (classElement g ctx derived earlier) := by
  unfold Grammar.classElement
  refine .skip fun start => .skip fun atSign => ?_
  extract_lets blockRest rest
  have hrest : ∀ found, (∀ d ∈ found, Enclosed (.decorator d)) →
      Confines o .classElement (rest found) := by
    intro found hfound
    refine .skip fun isStatic => ?_
    extract_lets last
    have hlast : Confines o .classElement (last ()) := by
      refine .skip fun m => .skip fun keyStart => (hg.propertyKey ctx true).bind fun r hkey => ?_
      obtain ⟨key, computed⟩ := r
      refine (stops_failAt _ _).preserves_guard (.skip fun atParen => ?_)
      split
      · exact hg.classMethod ctx derived earlier hfound start m hkey computed keyStart
      · exact hg.classField ctx hfound start m hkey computed keyStart
    split
    · refine .skip fun _ => .skip fun atBrace => ?_
      split
      · exact (stops_failAt _ _).preserves_guard (hg.staticBlock ctx start)
      · exact hlast
    · exact hlast
  split
  · exact (hg.decorators ctx).bind hrest
  · exact Preserves.bind (.pure nofun) hrest

theorem classBody (ctx : Context) (derived : Bool) :
    Balances o (fun found => ∀ x ∈ found.2, Enclosed (.classElement x))
      (classBody g ctx derived) := by
  have helements : ∀ {inner : Outline},
      Balances inner (fun elements => ∀ x ∈ elements, Enclosed (.classElement x)) (do
        let elements ← g.collect fun (earlier : List (Option ClassElement)) => do
          if ← atToken .rightBrace then return .stop
          if ← accept .semicolon then return .more none
          if ← atToken .endOfSource then unexpected
          return .more (some (← Grammar.classElement g ctx derived (earlier.filterMap id)))
        next
        return elements.filterMap id) := by
    intro inner
    refine Preserves.bind (collect_preserves (P := fun found : Option ClassElement =>
      ∀ x ∈ found, Enclosed (.classElement x)) fun earlier _ => .skip fun atBrace => ?_)
      fun found hfound => .skip fun _ => .pure fun x hx => ?_
    · split
      · exact .pure trivial
      · refine .skip fun atSemicolon => ?_
        split
        · exact .pure nofun
        · refine .skip fun atEnd => stops_unexpected.preserves_guard ?_
          refine (hg.classElement ctx derived _).bind fun x hx => .pure ?_
          rintro _ ⟨⟩
          exact hx
    · obtain ⟨y, hy, heq⟩ := List.mem_filterMap.mp hx
      exact hfound y hy x heq
  unfold Grammar.classBody
  refine .skip fun start => .skip fun _ s hs => .run rfl ?_
  subst hs
  refine (helements.inScope _ rfl).bind fun elements s₁ hs₁ => .run rfl (.run rfl ?_)
  have hclasses : s₁.privateNames.length = s.privateNames.length + 1 :=
    congrArg Outline.classes hs₁.1
  have hs' : State.outline { s₁ with privateNames := s₁.privateNames.exitClass.2 } = s.outline := by
    change { s₁.outline with classes := s₁.privateNames.exitClass.2.length } = s.outline
    rw [hs₁.1, PrivateNames.length_exitClass, hclasses]
    rfl
  have hrest : Balances s.outline (fun found : Text.Span × List ClassElement =>
      ∀ x ∈ found.2, Enclosed (.classElement x)) (do
        ofScope s₁.privateNames.exitClass.1
        return (← spanFrom start, elements)) :=
    .skip fun _ => .skip fun span => .pure hs₁.2
  exact hrest _ hs'

theorem classDefinition (ctx : Context) (start : Nat) (isDeclaration : Bool)
    {found : List Decorator} (hfound : ∀ d ∈ found, Enclosed (.decorator d))
    (isDefaultExport : Bool) :
    Confines o .classDefinition
      (classDefinition g ctx start isDeclaration found isDefaultExport) := by
  unfold Grammar.classDefinition
  refine .skip fun _ => .skip fun token => ?_
  extract_lets rest
  have hrest : ∀ id, Confines o .classDefinition (rest id) := by
    intro id
    refine .skip fun hasHeritage => ?_
    extract_lets last
    have hlast : ∀ heritage, (∀ e ∈ heritage, Enclosed (.expression e)) →
        Confines o .classDefinition (last heritage) := by
      intro heritage hheritage
      refine (hg.classBody _ _).bind fun r helements => .skip fun _ => .skip fun span => ?_
      refine .pure (.node trivial ?_)
      refine List.forall_mem_append.mpr ⟨Node.every_ofOption hheritage, ?_⟩
      exact List.forall_mem_append.mpr
        ⟨List.forall_mem_map.mpr helements, List.forall_mem_map.mpr hfound⟩
    split
    · refine (hg.leftHandSide _).bind fun heritage hheritage => .skip fun _ => ?_
      exact Preserves.bind (.pure (by simpa using hheritage)) hlast
    · exact Preserves.bind (.pure nofun) hlast
  split
  · refine .skip fun nameStart => .skip fun name => .skip fun _ => ?_
    split
    · exact .skip fun _ => .skip hrest
    · exact .skip hrest
  · split
    · exact .skip hrest
    · exact .skip hrest

theorem attributeValue (ctx : Context) : Confines o .markupValue (attributeValue g ctx) := by
  unfold Grammar.attributeValue
  refine .skip fun start => .skip fun token => ?_
  split
  · refine .skip fun s => .skip fun value => .skip fun raw => .skip fun _ => ?_
    exact .pure (.leaf trivial rfl)
  · refine .skip fun _ => .skip fun atBrace => (stops_failAt _ _).preserves_guard ?_
    refine (hg.assignment ctx.withIn).bind fun e he => .skip fun _ => .skip fun span => ?_
    exact .skip fun _ => .pure (.single trivial he rfl)
  · exact (hg.markup ctx .attribute).bind fun m hm => .pure (.single trivial hm rfl)
  · exact stops_unexpected.preserves

theorem namedAttribute (ctx : Context) : Confines o .markupAttribute (namedAttribute g ctx) := by
  unfold Grammar.namedAttribute
  refine .skip fun start => .skip fun first => .skip fun atColon => ?_
  extract_lets rest
  have hrest : ∀ name, Confines o .markupAttribute (rest name) := by
    intro name
    refine .skip fun atAssign => ?_
    extract_lets last
    have hlast : ∀ value, Enclosed (.markupValue value) →
        Confines o .markupAttribute (last value) :=
      fun value hvalue => .skip fun span => .pure (.single trivial hvalue rfl)
    split
    · exact .skip fun _ => (hg.attributeValue ctx).bind hlast
    · exact Preserves.bind (.pure (.leaf trivial rfl)) hlast
  split
  · exact .skip fun _ => .skip fun name => .skip fun span => .skip hrest
  · exact .skip hrest

theorem spreadAttribute (ctx : Context) : Confines o .markupAttribute (spreadAttribute g ctx) := by
  unfold Grammar.spreadAttribute
  refine .skip fun start => .skip fun _ => .skip fun _ => ?_
  refine (hg.assignment ctx.withIn).bind fun e he => .skip fun _ => .skip fun span => ?_
  exact .skip fun _ => .pure (.single trivial he rfl)

theorem attributes (ctx : Context) : ConfinesAll o .markupAttribute (attributes g ctx) := by
  refine collect_preserves fun earlier _ => .skip fun token => ?_
  split
  · exact .pure trivial
  · exact .pure trivial
  · exact (hg.spreadAttribute ctx).bind fun a ha => .pure ha
  · exact (stops_fail _).preserves
  · split
    · exact (hg.namedAttribute ctx).bind fun a ha => .pure ha
    · exact stops_unexpected.preserves

theorem childExpression (ctx : Context) : Confines o .markupChild (childExpression g ctx) := by
  unfold Grammar.childExpression
  refine .skip fun s => .skip fun _ => .skip fun isSpread => ?_
  split
  · refine (hg.expression ctx.withIn).bind fun e he => .skip fun _ => .skip fun whole => ?_
    exact .skip fun _ => .pure (.single trivial he rfl)
  · refine .skip fun atBrace => ?_
    split
    · refine .skip fun stop => .skip fun whole => .skip fun _ => ?_
      exact .pure (.leaf trivial rfl)
    · refine (hg.expression ctx.withIn).bind fun e he => .skip fun _ => .skip fun whole => ?_
      exact .skip fun _ => .pure (.single trivial he rfl)

theorem children (ctx : Context) : ConfinesAll o .markupChild (children g ctx) := by
  refine collect_preserves fun earlier _ => .skip fun token => ?_
  split
  · refine .skip fun s => .skip fun value => .skip fun raw => .skip fun _ => ?_
    exact .pure (Node.Every.leaf trivial rfl)
  · exact (hg.childExpression ctx).bind fun c hc => .pure hc
  · refine .skip fun following => ?_
    split
    · exact .pure trivial
    · exact (hg.markup ctx .child).bind fun m hm => .pure (Node.Every.single trivial hm rfl)
  · exact (stops_fail _).preserves
  · exact stops_unexpected.preserves

theorem fragmentFrom (ctx : Context) (exit : MarkupExit) (start : Nat) :
    Confines o .markup (fragmentFrom g ctx exit start) := by
  unfold Grammar.fragmentFrom
  refine .skip fun openingSpan => .skip fun _ => (hg.children ctx).bind fun found hfound => ?_
  refine .skip fun closingStart => .skip fun _ => .skip fun _ => .skip fun atEnd => ?_
  refine (stops_fail _).preserves_guard (.skip fun closingSpan => .skip fun _ => ?_)
  exact .skip fun span => .pure (.list trivial hfound rfl)

theorem markupElement (ctx : Context) (exit : MarkupExit) (start : Nat) :
    Confines o .markup (markupElement g ctx exit start) := by
  unfold Grammar.markupElement
  refine .skip fun name => (hg.attributes ctx).bind fun found hfound => .skip fun selfClosing => ?_
  extract_lets inner rest
  have hrest : ∀ u, Confines o .markup (rest u) := by
    intro u
    refine .skip fun atEnd => stops_unexpected.preserves_guard (.skip fun openingSpan => ?_)
    split
    · have hnone : ∀ c ∈ ([] : List MarkupChild), Enclosed (.markupChild c) := nofun
      exact .skip fun _ => .skip fun span => .pure (.lists trivial hfound hnone rfl)
    · refine .skip fun _ => (hg.children ctx).bind fun children hchildren => ?_
      refine .skip fun closing => .skip fun _ => .skip fun span => ?_
      exact .pure (.lists trivial hfound hchildren rfl)
  split
  · exact .skip hrest
  · exact hrest ()

theorem markup_body (ctx : Context) (exit : MarkupExit) :
    Confines o .markup (Grammar.markup g ctx exit) := by
  refine Balances.nested (.skip fun start => .skip fun _ => .skip fun atEnd => ?_)
  split
  · exact hg.fragmentFrom ctx exit start
  · exact hg.markupElement ctx exit start

theorem arrayLiteral (ctx : Context) : Confines o .expression (arrayLiteral g ctx) := by
  unfold Grammar.arrayLiteral
  refine .skip fun start => .skip fun _ => Preserves.bind (collect_preserves
    (P := fun x : Element × Cover => Enclosed (.element x.1)) fun earlier _ => ?_)
    fun found hfound => ?_
  · refine .skip fun atClose => ?_
    split
    · exact .pure trivial
    · refine .skip fun isHole => ?_
      split
      · exact .pure (.leaf trivial rfl)
      · refine .skip fun start => .skip fun isSpread => (hg.covered ctx.withIn).bind fun r hr => ?_
        refine (confines_elementFrom start isSpread hr).bind fun x hx => ?_
        exact .skip fun _ => .pure hx
  · refine .skip fun _ => .skip fun _ => .skip fun _ => .skip fun span => .pure ?_
    exact .list trivial (List.forall_mem_map.mpr hfound) rfl

theorem shorthandProperty (ctx : Context) (start keyStart : Nat) (id : Identifier) :
    Balances o (fun found => Enclosed (.member found.1))
      (shorthandProperty g ctx start keyStart id) := by
  have hname : Enclosed (.expression (.identifier id)) := .leaf trivial rfl
  have htarget : Enclosed (.pattern (.identifier id)) := .leaf trivial rfl
  unfold Grammar.shorthandProperty
  refine .skip fun _ => .skip fun _ => .skip fun hasValue => ?_
  split
  · refine (hg.assignment ctx).bind fun right hright => .skip fun valueSpan => .skip fun span => ?_
    have hvalue : Enclosed (.expression (.assignment valueSpan .assign (.identifier id) right)) :=
      .pair trivial htarget hright rfl
    exact .pure (.pair trivial hname hvalue rfl)
  · exact .skip fun span => .pure (.pair trivial hname hname rfl)

theorem objectProperty (ctx : Context) :
    Balances o (fun found => Enclosed (.member found.1)) (objectProperty g ctx) := by
  unfold Grammar.objectProperty
  refine .skip fun start => .skip fun head => .skip fun keyToken => .skip fun keyStart => ?_
  refine (hg.propertyKey ctx false).bind fun r hkey => ?_
  obtain ⟨key, computed⟩ := r
  refine .skip fun atParen => ?_
  split
  · refine (hg.methodFunction ctx _ _ _).bind fun value hvalue => .skip fun span => ?_
    have hfunction : Enclosed (.expression (.function value)) := .single trivial hvalue rfl
    exact .pure (.pair trivial hkey hfunction rfl)
  · refine .skip fun hasValue => ?_
    split
    · refine (hg.covered ctx).bind fun r hvalue => .skip fun span => ?_
      exact .pure (.pair trivial hkey hvalue rfl)
    · split
      · split
        · exact hg.shorthandProperty ctx start keyStart _
        · exact stops_unexpected.preserves
      · exact stops_unexpected.preserves

theorem objectMember (ctx : Context) :
    Balances o (fun found => Enclosed (.member found.1)) (objectMember g ctx) := by
  unfold Grammar.objectMember
  refine .skip fun start => .skip fun isSpread => ?_
  split
  · refine (hg.covered ctx).bind fun r he => .skip fun _ => .skip fun span => ?_
    exact .pure (.single trivial he rfl)
  · exact hg.objectProperty ctx

theorem objectLiteral (ctx : Context) : Confines o .expression (objectLiteral g ctx) := by
  unfold Grammar.objectLiteral
  refine .skip fun start => .skip fun _ => ?_
  refine Preserves.bind (listed_preserves .rightBrace fun _ => hg.objectMember ctx.withIn)
    fun found hfound => ?_
  refine .skip fun _ => .skip fun _ => .skip fun _ => .skip fun span => .pure ?_
  exact .list trivial (List.forall_mem_map.mpr hfound) rfl

theorem arrowBody (ctx : Context) {inner : Context} (hinner : inner.IsClosed) (simple : Bool)
    (ho : o.labelChain = none) (hlabels : o.labels = []) :
    Balances o ArrowBody.IsEnclosed (arrowBody g ctx inner simple) := by
  unfold Grammar.arrowBody
  refine .skip fun start => .skip fun isBlock => ?_
  split
  · have hbody := hg.closedBody inner hinner simple .rightBrace (o := { o with
      scopes := [.functionBody] :: o.scopes }) ho hlabels
    exact hbody.inScope.bind fun r hr => .skip fun span => .pure hr
  · exact (hg.assignment _).bind fun e he => .pure he

/-- What follows the parameters makes them an arrow function. -/
theorem arrowFunction (ctx : Context) (start : Nat) {params : List Pattern}
    (hparams : ∀ p ∈ params, Enclosed (.pattern p)) (isAsync : Bool) :
    Confines o .expression (arrowFunction g ctx start params isAsync) := by
  have hclosed := ctx.isClosed_enterArrow isAsync
  unfold Grammar.arrowFunction
  refine .skip fun _ => Preserves.bind (P := ArrowBody.IsEnclosed) (Balances.inScope ?_)
    fun body hbody => ?_
  · refine .skip fun _ => .skip fun state => .skip fun _ => ?_
    refine Preserves.bind (hg.arrowBody ctx hclosed _ rfl rfl).asFunction fun body hbody => ?_
    extract_lets strict
    split
    · exact .skip fun _ => .pure hbody
    · exact .pure hbody
  · refine .skip fun _ => .skip fun span => ?_
    cases body with
    | concise e => exact .pure (.consList trivial hbody hparams rfl)
    | block bodySpan body strict =>
      exact .pure (.lists hbody hparams (fun x hx => (hbody x hx).enclosed) rfl)

theorem groupItem (ctx : Context) :
    Balances o (Round.Adds fun item => Enclosed (.expression item.expression))
      (groupItem g ctx) := by
  unfold Grammar.groupItem
  refine .skip fun atClose => ?_
  split
  · exact .pure trivial
  · refine .skip fun start => .skip fun isRest => ?_
    split
    · refine (hg.covered ctx).bind fun r hr => .skip fun atComma => ?_
      split
      · refine .skip fun comma => .skip fun _ => .skip fun atParen => ?_
        split
        · exact fun _ _ => (stops_failAt _ _).bind
        · exact fun _ _ => (stops_failAt _ _).bind
      · exact .pure hr
    · refine (hg.covered ctx).bind fun r hr => .skip fun atClose => ?_
      split
      · exact .pure hr
      · exact .skip fun _ => .pure hr

theorem groupArrow (ctx : Context) (start : Nat) {items : List GroupItem}
    (hitems : ∀ item ∈ items, Enclosed (.expression item.expression)) :
    Confines o .expression (groupArrow g ctx start items) := by
  unfold Grammar.groupArrow
  refine .skip fun _ => .skip fun state => .skip fun _ => .skip fun state => ?_
  refine .skip fun _ => .skip fun c => (preserves_ofExcept _).bind fun params hok => ?_
  have hparams := (groupParameters_allIn (G := Enclosed) hok fun item hitem =>
    ⟨hitems item hitem⟩).all
  exact hg.arrowFunction ctx start hparams false

omit hg in
theorem groupValue (start close : Nat) {items : List GroupItem}
    (hitems : ∀ item ∈ items, Enclosed (.expression item.expression)) :
    Confines o .expression (groupValue g start close items) := by
  unfold Grammar.groupValue
  extract_lets rest
  have hrest : ∀ u, Confines o .expression (rest u) := by
    intro u
    cases items with
    | nil => exact (stops_failAt _ _).preserves
    | cons first others =>
      rw [List.forall_mem_cons] at hitems
      have he := groupExpression_enclosed hitems.1 (List.forall_mem_map.mpr hitems.2)
      refine (stops_failAt _ _).preserves_guard (.skip fun _ => .skip fun _ => ?_)
      split
      · exact .skip fun span => .pure (.single trivial he rfl)
      · exact .skip fun _ => .pure he
  split
  · exact fun _ _ => (stops_failAt _ _).bind
  · exact hrest ()

theorem parenGroup (ctx : Context) (start : Nat) (canArrow : Bool) :
    Confines o .expression (parenGroup g ctx start canArrow) := by
  unfold Grammar.parenGroup
  refine .skip fun _ => Preserves.bind (collect_preserves fun earlier _ => hg.groupItem ctx.withIn)
    fun items hitems => .skip fun close => .skip fun _ => .skip fun atArrow => ?_
  split
  · exact hg.groupArrow ctx start hitems
  · exact groupValue start close hitems

theorem asyncNameArrow (ctx : Context) (start : Nat) :
    Confines o .expression (asyncNameArrow g ctx start) := by
  unfold Grammar.asyncNameArrow
  refine .skip fun _ => .skip fun id => .skip fun atArrow => stops_unexpected.preserves_guard ?_
  have hid : Enclosed (.pattern (.identifier id)) := .leaf trivial rfl
  refine .skip fun _ => .skip fun _ => ?_
  exact hg.arrowFunction ctx start (List.forall_mem_singleton.mpr hid) true

theorem asyncCallOrArrow (ctx : Context) (start : Nat) (canArrow : Bool) :
    Confines o .expression (asyncCallOrArrow g ctx start canArrow) := by
  unfold Grammar.asyncCallOrArrow
  refine .skip fun callee => .skip fun lineBreak => ?_
  refine (hg.coveredArguments ctx).bind fun found hfound => ?_
  have helements : ∀ x ∈ found.map Prod.fst, Enclosed (.element x) :=
    List.forall_mem_map.mpr hfound
  refine .skip fun atArrow => ?_
  split
  · refine .skip fun _ => .skip fun state => .skip fun _ => .skip fun state => ?_
    refine .skip fun _ => .skip fun state => .skip fun _ => .skip fun c => ?_
    refine (preserves_ofExcept _).bind fun params hok => ?_
    have hparams := (toPatterns_allIn (G := Enclosed) _ hok fun x hx => ⟨helements x hx⟩).all
    exact hg.arrowFunction ctx start hparams true
  · have hcallee : Enclosed (.expression (.identifier callee)) := .leaf trivial rfl
    refine .skip fun _ => .skip fun _ => .skip fun span => .pure ?_
    exact .consList trivial hcallee helements rfl

theorem plainName (ctx : Context) (start : Nat) (canArrow : Bool) :
    Confines o .expression (plainName g ctx start canArrow) := by
  unfold Grammar.plainName
  refine .skip fun id => .skip fun atArrow => ?_
  split
  · have hid : Enclosed (.pattern (.identifier id)) := .leaf trivial rfl
    refine .skip fun _ => .skip fun _ => ?_
    exact hg.arrowFunction ctx start (List.forall_mem_singleton.mpr hid) false
  · exact .skip fun _ => .skip fun _ => .skip fun _ => .pure (.leaf trivial rfl)

theorem namePrimary (ctx : Context) (start : Nat) (canArrow : Bool) :
    Confines o .expression (namePrimary g ctx start canArrow) := by
  unfold Grammar.namePrimary
  refine .skip fun isAsync => ?_
  split
  · refine .skip fun following => ?_
    obtain ⟨token, flags⟩ := following
    dsimp only
    split
    · exact hg.functionExpression ctx start true
    · refine .skip fun isLoop => ?_
      split
      · exact hg.asyncNameArrow ctx start
      · split
        · exact hg.asyncCallOrArrow ctx start canArrow
        · exact hg.plainName ctx start canArrow
  · exact hg.plainName ctx start canArrow

theorem markupExpression (ctx : Context) : Confines o .expression (markupExpression g ctx) := by
  unfold Grammar.markupExpression
  refine (hg.markup_body ctx .expression).bind fun value hvalue => .skip fun adjacent => ?_
  refine (stops_fail _).preserves_guard (.skip fun _ => .pure (.single trivial hvalue rfl))

theorem classOperand (ctx : Context) (start : Nat) {found : List Decorator}
    (hfound : ∀ d ∈ found, Enclosed (.decorator d)) : Confines o .expression (do
      return .classExpression (← Grammar.classDefinition g ctx start false found false)) :=
  (hg.classDefinition ctx start false hfound false).bind fun _ hc =>
    .pure (.single trivial hc rfl)

theorem templateOperand (ctx : Context) : Confines o .expression (do
    let parts ← Grammar.template g ctx false
    return .template parts.span parts.quasis parts.expressions) :=
  (hg.template ctx false).bind fun _ hparts => .pure (.list trivial hparts rfl)

theorem otherPrimary (ctx : Context) (start : Nat) (canArrow : Bool) :
    Confines o .expression (otherPrimary g ctx start canArrow) := by
  have hliteral : ∀ lit, Enclosed (.expression (.literal lit)) := fun _ => .leaf trivial rfl
  unfold Grammar.otherPrimary
  refine .skip fun token => ?_
  split
  case h_9 => exact .skip fun _ => .skip fun span => .pure (.leaf trivial rfl)
  case h_10 | h_11 => exact hg.templateOperand ctx
  case h_12 => exact hg.arrayLiteral ctx
  case h_13 => exact hg.objectLiteral ctx
  case h_14 => exact hg.parenGroup ctx start canArrow
  case h_15 => exact hg.functionExpression ctx start false
  case h_16 => exact hg.classOperand ctx start nofun
  case h_17 =>
    split
    · refine (hg.decorators ctx).bind fun found hfound => .skip fun atClass => ?_
      exact (stops_fail _).preserves_guard (hg.classOperand ctx start hfound)
    · exact stops_unexpected.preserves
  case h_18 =>
    split
    · exact hg.markupExpression ctx
    · exact stops_unexpected.preserves
  case h_19 =>
    refine .skip fun following => ?_
    split
    · exact .skip fun id => .pure (.leaf trivial rfl)
    · exact (stops_fail _).preserves
  case h_20 => exact stops_unexpected.preserves
  all_goals exact .skip fun lit => .pure (hliteral lit)

theorem primary (ctx : Context) : Confines o .expression (primary g ctx) := by
  unfold Grammar.primary
  refine .skip fun start => .skip fun state => .skip fun _ => .skip fun token => ?_
  split
  · exact hg.namePrimary ctx start _
  · refine .skip fun escaped => ?_
    split
    · exact (stops_fail _).preserves
    · exact hg.otherPrimary ctx start _

end Phrases.Targets

end EcmaSyntax.Grammar
