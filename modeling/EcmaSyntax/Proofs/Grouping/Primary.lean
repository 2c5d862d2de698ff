import EcmaSyntax.Proofs.Grouping.Phrases

/-!
Primary expressions are operands: they stand in brackets of their own, or are single tokens. Only an
arrow function is not, and it is read where an assignment expression starts and nowhere else. A
group keeps its parentheses, so no expression is marked. In classes, decorators and markup the
expressions are read by other phrases.
-/

namespace EcmaSyntax.Grammar

open EcmaSyntax.Diagnostic EcmaSyntax.Lexer EcmaSyntax.Scope EcmaSyntax.Tree

variable {version : Nat} [Unicode.IdentifierChars version]

/-- The operators in the body of an arrow function are grouped. -/
def ArrowBody.IsGrouped : ArrowBody → Prop
  | .concise e => AllGrouped (.expression e)
  | .block _ body _ => ∀ x ∈ body, AllGrouped (.statement x)

theorem groupExpression_grouped {first : Expression} {rest : List Expression}
    (hfirst : AllGrouped (.expression first)) (hrest : ∀ e ∈ rest, AllGrouped (.expression e)) :
    AllGrouped (.expression (groupExpression first rest)) := by
  unfold groupExpression
  split
  · exact hfirst
  · exact .list trivial (List.forall_mem_cons.mpr ⟨hfirst, hrest⟩) rfl

namespace Phrases.Groups

variable {g : Phrases} (hg : g.Groups) {mayArrow : Prop}

include hg

theorem staticBlock (ctx : Context) (start : Nat) :
    Builds .classElement (staticBlock g ctx start) := by
  unfold Grammar.staticBlock
  have hbody : ∀ inner, BuildsAll .statement (do
      let body ← g.itemsUpTo .rightBrace (g.listItem inner)
      next
      return body) := fun inner =>
    (itemsUpTo_preserves .rightBrace (hg.listItem inner)).bind fun _ hbody =>
      .skip fun _ => .pure hbody
  refine .skip fun _ => .skip fun saved => .skip fun _ => ?_
  refine ((hbody _).inScope _).bind fun body hbody => .skip fun _ => ?_
  exact .skip fun span => .pure (.list trivial hbody rfl)

theorem decoratorExpression (ctx : Context) :
    Builds .expression (decoratorExpression g ctx) := by
  unfold Grammar.decoratorExpression
  refine .skip fun start => .skip fun inParens => ?_
  split
  · exact (hg.expression ctx.withIn).bind fun e he => .skip fun _ => .pure he
  · refine .skip fun token => stops_unexpected.preserves_guard ?_
    refine .skip fun value => .skip fun _ => .skip fun name => ?_
    refine Preserves.bind (Preserves.iterate (P := fun e => AllGrouped (.expression e))
      (fun object hobject => ?_) g.size (.leaf trivial rfl)) fun path hpath =>
        .skip fun atParen => ?_
    · refine .skip fun atDot => ?_
      split
      · refine builds_memberName.bind fun property hproperty => .skip fun span => .pure ?_
        rintro _ ⟨⟩
        exact .pair trivial hobject hproperty rfl
      · exact .pure nofun
    · split
      · refine (hg.arguments ctx).bind fun args hargs => .skip fun span => .pure ?_
        exact .consList trivial hpath hargs rfl
      · exact .pure hpath

theorem decorators (ctx : Context) : BuildsAll .decorator (decorators g ctx) := by
  refine collect_preserves fun earlier _ => .skip fun start => .skip fun atSign => ?_
  split
  · refine (hg.decoratorExpression ctx).bind fun e he => .skip fun span => .pure ?_
    exact Node.Every.single trivial he rfl
  · exact .pure trivial

theorem classMethod (ctx : Context) (derived : Bool) (earlier : List ClassElement)
    {found : List Decorator} (hfound : ∀ d ∈ found, AllGrouped (.decorator d)) (start : Nat)
    (m : Modifiers) {key : Expression} (hkey : AllGrouped (.expression key)) (computed : Bool)
    (keyStart : Nat) :
    Builds .classElement
      (classMethod g ctx derived earlier found start m key computed keyStart) := by
  unfold Grammar.classMethod
  extract_lets name isConstructing kind shape rest
  have hrest : ∀ u, Builds .classElement (rest u) := by
    intro u
    refine .skip fun _ => (hg.methodFunction ctx _ _ _).bind fun value hvalue => ?_
    refine .skip fun span => .pure (.node trivial ?_)
    exact List.forall_mem_cons.mpr ⟨hkey, List.forall_mem_cons.mpr
      ⟨hvalue, List.forall_mem_map.mpr hfound⟩⟩
  split
  · exact (stops_failAt _ _).preserves_guard ((stops_failAt _ _).preserves_guard (hrest ()))
  · exact hrest ()

theorem classField (ctx : Context) {found : List Decorator}
    (hfound : ∀ d ∈ found, AllGrouped (.decorator d)) (start : Nat) (m : Modifiers)
    {key : Expression} (hkey : AllGrouped (.expression key)) (computed : Bool) (keyStart : Nat) :
    Builds .classElement (classField g ctx found start m key computed keyStart) := by
  unfold Grammar.classField
  refine stops_unexpected.preserves_guard ((stops_failAt _ _).preserves_guard ?_)
  refine .skip fun _ => .skip fun hasValue => ?_
  extract_lets rest
  have hrest : ∀ value, (∀ e ∈ value, AllGrouped (.expression e)) →
      Builds .classElement (rest value) := by
    intro value hvalue
    refine .skip fun _ => .skip fun span => .pure (.node trivial ?_)
    exact List.forall_mem_cons.mpr ⟨hkey, List.forall_mem_append.mpr
      ⟨Node.every_ofOption hvalue, List.forall_mem_map.mpr hfound⟩⟩
  split
  · exact (hg.assignment _).optional.bind hrest
  · exact Preserves.bind (.pure nofun) hrest

theorem classElement (ctx : Context) (derived : Bool) (earlier : List ClassElement) :
    Builds .classElement (classElement g ctx derived earlier) := by
  unfold Grammar.classElement
  refine .skip fun start => .skip fun atSign => ?_
  extract_lets blockRest rest
  have hrest : ∀ found, (∀ d ∈ found, AllGrouped (.decorator d)) →
      Builds .classElement (rest found) := by
    intro found hfound
    refine .skip fun isStatic => ?_
    extract_lets last
    have hlast : Builds .classElement (last ()) := by
      refine .skip fun m => .skip fun keyStart => (hg.propertyKey ctx true).bind fun r hkey => ?_
      obtain ⟨key, computed⟩ := r
      refine (stops_failAt _ _).preserves_guard (.skip fun atParen => ?_)
      split
      · exact hg.classMethod ctx derived earlier hfound start m hkey computed keyStart
      · exact hg.classField ctx hfound start m hkey computed keyStart
    split
    · refine .skip fun _ => .skip fun atBrace => ?_
      split
      · exact (stops_failAt _ _).preserves_guard (hg.staticBlock ctx start)
      · exact hlast
    · exact hlast
  split
  · exact (hg.decorators ctx).bind hrest
  · exact Preserves.bind (.pure nofun) hrest

theorem classBody (ctx : Context) (derived : Bool) :
    Keeps (fun found => ∀ x ∈ found.2, AllGrouped (.classElement x))
      (classBody g ctx derived) := by
  unfold Grammar.classBody
  refine .skip fun start => .skip fun _ => .skip fun _ => ?_
  refine Preserves.bind (Keeps.inScope
    (Q := fun elements => ∀ x ∈ elements, AllGrouped (.classElement x)) ?_ _)
    fun elements helements => ?_
  · refine Preserves.bind (collect_preserves (P := fun found : Option ClassElement =>
      ∀ x ∈ found, AllGrouped (.classElement x)) fun earlier _ => .skip fun atBrace => ?_)
      fun found hfound => .skip fun _ => .pure fun x hx => ?_
    · split
      · exact .pure trivial
      · refine .skip fun atSemicolon => ?_
        split
        · exact .pure nofun
        · refine .skip fun atEnd => stops_unexpected.preserves_guard ?_
          refine (hg.classElement ctx derived _).bind fun x hx => .pure ?_
          rintro _ ⟨⟩
          exact hx
    · obtain ⟨y, hy, heq⟩ := List.mem_filterMap.mp hx
      exact hfound y hy x heq
  · refine .skip fun names => ?_
    exact .skip fun _ => .skip fun _ => .skip fun span => .pure helements

theorem classDefinition (ctx : Context) (start : Nat) (isDeclaration : Bool)
    {found : List Decorator} (hfound : ∀ d ∈ found, AllGrouped (.decorator d))
    (isDefaultExport : Bool) :
    Builds .classDefinition
      (classDefinition g ctx start isDeclaration found isDefaultExport) := by
  unfold Grammar.classDefinition
  refine .skip fun _ => .skip fun token => ?_
  extract_lets rest
  have hrest : ∀ id, Builds .classDefinition (rest id) := by
    intro id
    refine .skip fun hasHeritage => ?_
    extract_lets last
    have hlast : ∀ heritage, (∀ e ∈ heritage, AllGrouped (.expression e)) →
        Builds .classDefinition (last heritage) := by
      intro heritage hheritage
      refine (hg.classBody _ _).bind fun r helements => .skip fun _ => .skip fun span => ?_
      refine .pure (.node trivial ?_)
      refine List.forall_mem_append.mpr ⟨Node.every_ofOption hheritage, ?_⟩
      exact List.forall_mem_append.mpr
        ⟨List.forall_mem_map.mpr helements, List.forall_mem_map.mpr hfound⟩
    split
    · refine (hg.leftHandSide _).bind fun heritage hheritage => .skip fun _ => ?_
      exact Preserves.bind (.pure (by simpa using hheritage)) hlast
    · exact Preserves.bind (.pure nofun) hlast
  split
  · refine .skip fun nameStart => .skip fun name => .skip fun _ => ?_
    split
    · exact .skip fun _ => .skip hrest
    · exact .skip hrest
  · split
    · exact .skip hrest
    · exact .skip hrest

theorem attributeValue (ctx : Context) : Builds .markupValue (attributeValue g ctx) := by
  unfold Grammar.attributeValue
  refine .skip fun start => .skip fun token => ?_
  split
  · refine .skip fun s => .skip fun value => .skip fun raw => .skip fun _ => ?_
    exact .pure (.leaf trivial rfl)
  · refine .skip fun _ => .skip fun atBrace => (stops_failAt _ _).preserves_guard ?_
    refine (hg.assignment ctx.withIn).bind fun e he => .skip fun _ => .skip fun span => ?_
    exact .skip fun _ => .pure (.single trivial he rfl)
  · exact (hg.markup ctx .attribute).bind fun m hm => .pure (.single trivial hm rfl)
  · exact stops_unexpected.preserves

theorem namedAttribute (ctx : Context) : Builds .markupAttribute (namedAttribute g ctx) := by
  unfold Grammar.namedAttribute
  refine .skip fun start => .skip fun first => .skip fun atColon => ?_
  extract_lets rest
  have hrest : ∀ name, Builds .markupAttribute (rest name) := by
    intro name
    refine .skip fun atAssign => ?_
    extract_lets last
    have hlast : ∀ value, AllGrouped (.markupValue value) →
        Builds .markupAttribute (last value) :=
      fun value hvalue => .skip fun span => .pure (.single trivial hvalue rfl)
    split
    · exact .skip fun _ => (hg.attributeValue ctx).bind hlast
    · exact Preserves.bind (.pure (.leaf trivial rfl)) hlast
  split
  · exact .skip fun _ => .skip fun name => .skip fun span => .skip hrest
  · exact .skip hrest

theorem spreadAttribute (ctx : Context) : Builds .markupAttribute (spreadAttribute g ctx) := by
  unfold Grammar.spreadAttribute
  refine .skip fun start => .skip fun _ => .skip fun _ => ?_
  refine (hg.assignment ctx.withIn).bind fun e he => .skip fun _ => .skip fun span => ?_
  exact .skip fun _ => .pure (.single trivial he rfl)

theorem attributes (ctx : Context) : BuildsAll .markupAttribute (attributes g ctx) := by
  refine collect_preserves fun earlier _ => .skip fun token => ?_
  split
  · exact .pure trivial
  · exact .pure trivial
  · exact (hg.spreadAttribute ctx).bind fun a ha => .pure ha
  · exact (stops_fail _).preserves
  · split
    · exact (hg.namedAttribute ctx).bind fun a ha => .pure ha
    · exact stops_unexpected.preserves

theorem childExpression (ctx : Context) : Builds .markupChild (childExpression g ctx) := by
  unfold Grammar.childExpression
  refine .skip fun s => .skip fun _ => .skip fun isSpread => ?_
  split
  · refine (hg.expression ctx.withIn).bind fun e he => .skip fun _ => .skip fun whole => ?_
    exact .skip fun _ => .pure (.single trivial he rfl)
  · refine .skip fun atBrace => ?_
    split
    · refine .skip fun stop => .skip fun whole => .skip fun _ => ?_
      exact .pure (.leaf trivial rfl)
    · refine (hg.expression ctx.withIn).bind fun e he => .skip fun _ => .skip fun whole => ?_
      exact .skip fun _ => .pure (.single trivial he rfl)

theorem children (ctx : Context) : BuildsAll .markupChild (children g ctx) := by
  refine collect_preserves fun earlier _ => .skip fun token => ?_
  split
  · refine .skip fun s => .skip fun value => .skip fun raw => .skip fun _ => ?_
    exact .pure (Node.Every.leaf trivial rfl)
  · exact (hg.childExpression ctx).bind fun c hc => .pure hc
  · refine .skip fun following => ?_
    split
    · exact .pure trivial
    · exact (hg.markup ctx .child).bind fun m hm => .pure (Node.Every.single trivial hm rfl)
  · exact (stops_fail _).preserves
  · exact stops_unexpected.preserves

theorem fragmentFrom (ctx : Context) (exit : MarkupExit) (start : Nat) :
    Builds .markup (fragmentFrom g ctx exit start) := by
  unfold Grammar.fragmentFrom
  refine .skip fun openingSpan => .skip fun _ => (hg.children ctx).bind fun found hfound => ?_
  refine .skip fun closingStart => .skip fun _ => .skip fun _ => .skip fun atEnd => ?_
  refine (stops_fail _).preserves_guard
    (.skip fun closingSpan => .skip fun _ => .skip fun span => ?_)
  exact .pure (.list trivial hfound rfl)

theorem markupElement (ctx : Context) (exit : MarkupExit) (start : Nat) :
    Builds .markup (markupElement g ctx exit start) := by
  unfold Grammar.markupElement
  refine .skip fun name => (hg.attributes ctx).bind fun found hfound => .skip fun selfClosing => ?_
  extract_lets inner rest
  have hrest : ∀ u, Builds .markup (rest u) := by
    intro u
    refine .skip fun atEnd => stops_unexpected.preserves_guard (.skip fun openingSpan => ?_)
    split
    · have hnone : ∀ c ∈ ([] : List MarkupChild), AllGrouped (.markupChild c) := nofun
      exact .skip fun _ => .skip fun span => .pure (.lists trivial hfound hnone rfl)
    · refine .skip fun _ => (hg.children ctx).bind fun children hchildren => ?_
      refine .skip fun closing => .skip fun _ => .skip fun span => ?_
      exact .pure (.lists trivial hfound hchildren rfl)
  split
  · exact .skip hrest
  · exact hrest ()

theorem markup_body (ctx : Context) (exit : MarkupExit) :
    Builds .markup (Grammar.markup g ctx exit) := by
  refine Keeps.nested (.skip fun start => .skip fun _ => .skip fun atEnd => ?_)
  split
  · exact hg.fragmentFrom ctx exit start
  · exact hg.markupElement ctx exit start

theorem arrayLiteral (ctx : Context) : Keeps (Operand mayArrow) (arrayLiteral g ctx) := by
  unfold Grammar.arrayLiteral
  refine .skip fun start => .skip fun _ => Preserves.bind (collect_preserves
    (P := fun x : Element × Cover => AllGrouped (.element x.1)) fun earlier _ => ?_)
    fun found hfound => ?_
  · refine .skip fun atClose => ?_
    split
    · exact .pure trivial
    · refine .skip fun isHole => ?_
      split
      · exact .pure (.leaf trivial rfl)
      · refine .skip fun start => .skip fun isSpread => (hg.covered ctx.withIn).bind fun r hr => ?_
        refine (builds_elementFrom start isSpread hr).bind fun x hx => ?_
        exact .skip fun _ => .pure hx
  · refine .skip fun _ => .skip fun _ => .skip fun _ => .skip fun span => .pure (.tight ?_ rfl rfl)
    exact .list trivial (List.forall_mem_map.mpr hfound) rfl

theorem shorthandProperty (ctx : Context) (start keyStart : Nat) (id : Identifier) :
    Keeps (fun found => AllGrouped (.member found.1))
      (shorthandProperty g ctx start keyStart id) := by
  have hname : AllGrouped (.expression (.identifier id)) := .leaf trivial rfl
  have htarget : AllGrouped (.pattern (.identifier id)) := .leaf trivial rfl
  unfold Grammar.shorthandProperty
  refine .skip fun _ => .skip fun _ => .skip fun hasValue => ?_
  split
  · refine (hg.assignment ctx).bind fun right hright => .skip fun valueSpan => .skip fun span => ?_
    have hvalue : AllGrouped (.expression (.assignment valueSpan .assign (.identifier id) right)) :=
      .pair trivial htarget hright rfl
    exact .pure (.pair trivial hname hvalue rfl)
  · exact .skip fun span => .pure (.pair trivial hname hname rfl)

theorem objectProperty (ctx : Context) :
    Keeps (fun found => AllGrouped (.member found.1)) (objectProperty g ctx) := by
  unfold Grammar.objectProperty
  refine .skip fun start => .skip fun head => .skip fun keyToken => .skip fun keyStart => ?_
  refine (hg.propertyKey ctx false).bind fun r hkey => ?_
  obtain ⟨key, computed⟩ := r
  refine .skip fun atParen => ?_
  split
  · refine (hg.methodFunction ctx _ _ _).bind fun value hvalue => .skip fun span => ?_
    have hfunction : AllGrouped (.expression (.function value)) := .single trivial hvalue rfl
    exact .pure (.pair trivial hkey hfunction rfl)
  · refine .skip fun hasValue => ?_
    split
    · refine (hg.covered ctx).bind fun r hvalue => .skip fun span => ?_
      exact .pure (.pair trivial hkey hvalue rfl)
    · split
      · split
        · exact hg.shorthandProperty ctx start keyStart _
        · exact stops_unexpected.preserves
      · exact stops_unexpected.preserves

theorem objectMember (ctx : Context) :
    Keeps (fun found => AllGrouped (.member found.1)) (objectMember g ctx) := by
  unfold Grammar.objectMember
  refine .skip fun start => .skip fun isSpread => ?_
  split
  · refine (hg.covered ctx).bind fun r he => .skip fun _ => .skip fun span => ?_
    exact .pure (.single trivial he rfl)
  · exact hg.objectProperty ctx

theorem objectLiteral (ctx : Context) : Keeps (Operand mayArrow) (objectLiteral g ctx) := by
  unfold Grammar.objectLiteral
  refine .skip fun start => .skip fun _ => ?_
  refine Preserves.bind (listed_preserves .rightBrace fun _ => hg.objectMember ctx.withIn)
    fun found hfound => ?_
  refine .skip fun _ => .skip fun _ => .skip fun _ => .skip fun span => .pure (.tight ?_ rfl rfl)
  exact .list trivial (List.forall_mem_map.mpr hfound) rfl

theorem arrowBody (ctx inner : Context) (simple : Bool) :
    Keeps ArrowBody.IsGrouped (arrowBody g ctx inner simple) := by
  unfold Grammar.arrowBody
  have hblock : Keeps (fun found => ∀ x ∈ found.1, AllGrouped (.statement x)) (do
      let found ← Grammar.bodyStatements g inner simple .rightBrace
      expect .rightBrace
      return found) :=
    (hg.bodyStatements inner simple .rightBrace).bind fun _ hfound => .skip fun _ => .pure hfound
  refine .skip fun start => .skip fun isBlock => ?_
  split
  · exact (hblock.inScope _).bind fun r hr => .skip fun span => .pure hr
  · exact (hg.assignment _).bind fun e he => .pure he

/-- What follows the parameters makes them an arrow function. -/
theorem arrowFunction (ctx : Context) (start : Nat) {params : List Pattern}
    (hparams : ∀ p ∈ params, AllGrouped (.pattern p)) (isAsync : Bool) (hmay : mayArrow) :
    Keeps (Operand mayArrow) (arrowFunction g ctx start params isAsync) := by
  unfold Grammar.arrowFunction
  refine .skip fun _ => Preserves.bind (Keeps.inScope (Q := ArrowBody.IsGrouped) ?_ _)
    fun body hbody => ?_
  · refine .skip fun _ => .skip fun state => .skip fun _ => ?_
    refine (hg.arrowBody ctx _ _).asFunction.bind fun body hbody => ?_
    extract_lets strict
    split
    · exact .skip fun _ => .pure hbody
    · exact .pure hbody
  · refine .skip fun _ => .skip fun span => ?_
    cases body with
    | concise e => exact .pure (.arrow (.consList trivial hbody hparams rfl) rfl hmay)
    | block bodySpan body strict => exact .pure (.arrow (.lists trivial hparams hbody rfl) rfl hmay)

theorem groupItem (ctx : Context) :
    Keeps (Round.Adds fun item => AllGrouped (.expression item.expression))
      (groupItem g ctx) := by
  unfold Grammar.groupItem
  refine .skip fun atClose => ?_
  split
  · exact .pure trivial
  · refine .skip fun start => .skip fun isRest => ?_
    split
    · refine (hg.covered ctx).bind fun r hr => .skip fun atComma => ?_
      split
      · refine .skip fun comma => .skip fun _ => .skip fun atParen => ?_
        split
        · exact fun _ _ => (stops_failAt _ _).bind
        · exact fun _ _ => (stops_failAt _ _).bind
      · exact .pure hr
    · refine (hg.covered ctx).bind fun r hr => .skip fun atClose => ?_
      split
      · exact .pure hr
      · exact .skip fun _ => .pure hr

theorem groupArrow (ctx : Context) (start : Nat) {items : List GroupItem}
    (hitems : ∀ item ∈ items, AllGrouped (.expression item.expression)) (hmay : mayArrow) :
    Keeps (Operand mayArrow) (groupArrow g ctx start items) := by
  unfold Grammar.groupArrow
  refine .skip fun _ => .skip fun state => .skip fun _ => .skip fun state => ?_
  refine .skip fun _ => .skip fun c => (preserves_ofExcept _).bind fun params hok => ?_
  have hparams := (groupParameters_allIn (G := AllGrouped) hok fun item hitem =>
    ⟨hitems item hitem⟩).all
  exact hg.arrowFunction ctx start hparams false hmay

/-- A group in parentheses is a node of its own. -/
theorem groupValue (start close : Nat) {items : List GroupItem}
    (hitems : ∀ item ∈ items, AllGrouped (.expression item.expression)) :
    Keeps (Operand mayArrow) (groupValue g start close items) := by
  unfold Grammar.groupValue
  extract_lets rest
  have hrest : ∀ u, Keeps (Operand mayArrow) (rest u) := by
    intro u
    cases items with
    | nil => exact (stops_failAt _ _).preserves
    | cons first others =>
      rw [List.forall_mem_cons] at hitems
      have he := groupExpression_grouped hitems.1 (List.forall_mem_map.mpr hitems.2)
      refine (stops_failAt _ _).preserves_guard (.skip fun _ => .skip fun _ => ?_)
      rw [if_pos hg.parens]
      exact .skip fun span => .pure (.tight (.single trivial he rfl) rfl rfl)
  split
  · exact fun _ _ => (stops_failAt _ _).bind
  · exact hrest ()

theorem parenGroup (ctx : Context) (start : Nat) (canArrow : Bool) :
    Keeps (Operand (canArrow = true)) (parenGroup g ctx start canArrow) := by
  unfold Grammar.parenGroup
  refine .skip fun _ => Preserves.bind (collect_preserves fun earlier _ => hg.groupItem ctx.withIn)
    fun items hitems => .skip fun close => .skip fun _ => .skip fun atArrow => ?_
  split
  · rename_i hcan
    rw [Bool.and_eq_true] at hcan
    exact hg.groupArrow ctx start hitems hcan.1
  · exact hg.groupValue start close hitems

theorem asyncNameArrow (ctx : Context) (start : Nat) (hmay : mayArrow) :
    Keeps (Operand mayArrow) (asyncNameArrow g ctx start) := by
  unfold Grammar.asyncNameArrow
  refine .skip fun _ => .skip fun id => .skip fun atArrow => stops_unexpected.preserves_guard ?_
  have hid : AllGrouped (.pattern (.identifier id)) := .leaf trivial rfl
  refine .skip fun _ => .skip fun _ => ?_
  exact hg.arrowFunction ctx start (List.forall_mem_singleton.mpr hid) true hmay

theorem asyncCallOrArrow (ctx : Context) (start : Nat) (canArrow : Bool) :
    Keeps (Operand (canArrow = true)) (asyncCallOrArrow g ctx start canArrow) := by
  unfold Grammar.asyncCallOrArrow
  refine .skip fun callee => .skip fun lineBreak =>
    (hg.coveredArguments ctx).bind fun found hfound => ?_
  have helements : ∀ x ∈ found.map Prod.fst, AllGrouped (.element x) :=
    List.forall_mem_map.mpr hfound
  refine .skip fun atArrow => ?_
  split
  · rename_i hcan
    have hmay : canArrow = true := by simp_all
    refine .skip fun _ => .skip fun state => .skip fun _ => .skip fun state => ?_
    refine .skip fun _ => .skip fun state => .skip fun _ => .skip fun c => ?_
    refine (preserves_ofExcept _).bind fun params hok => ?_
    have hparams := (toPatterns_allIn (G := AllGrouped) _ hok fun x hx => ⟨helements x hx⟩).all
    exact hg.arrowFunction ctx start hparams true hmay
  · have hcallee : AllGrouped (.expression (.identifier callee)) := .leaf trivial rfl
    refine .skip fun _ => .skip fun _ => .skip fun span => .pure (.tight ?_ rfl rfl)
    exact .consList trivial hcallee helements rfl

theorem plainName (ctx : Context) (start : Nat) (canArrow : Bool) :
    Keeps (Operand (canArrow = true)) (plainName g ctx start canArrow) := by
  unfold Grammar.plainName
  refine .skip fun id => .skip fun atArrow => ?_
  split
  · rename_i hcan
    rw [Bool.and_eq_true] at hcan
    have hid : AllGrouped (.pattern (.identifier id)) := .leaf trivial rfl
    refine .skip fun _ => .skip fun _ => ?_
    exact hg.arrowFunction ctx start (List.forall_mem_singleton.mpr hid) false hcan.1
  · exact .skip fun _ => .skip fun _ => .skip fun _ => .pure (.tight (.leaf trivial rfl) rfl rfl)

theorem functionOperand (ctx : Context) (start : Nat) (isAsync : Bool) :
    Keeps (Operand mayArrow) (Grammar.functionExpression g ctx start isAsync) := by
  refine (hg.functionExpression ctx start isAsync).mono fun e he => ?_
  obtain ⟨f, rfl, hf⟩ := he
  exact .tight (.single trivial hf rfl) rfl rfl

theorem namePrimary (ctx : Context) (start : Nat) (canArrow : Bool) :
    Keeps (Operand (canArrow = true)) (namePrimary g ctx start canArrow) := by
  unfold Grammar.namePrimary
  refine .skip fun isAsync => ?_
  split
  · refine .skip fun following => ?_
    obtain ⟨token, flags⟩ := following
    dsimp only
    split
    · exact hg.functionOperand ctx start true
    · refine .skip fun isLoop => ?_
      split
      · rename_i hcan
        have hmay : canArrow = true := by simp_all
        exact hg.asyncNameArrow ctx start hmay
      · split
        · exact hg.asyncCallOrArrow ctx start canArrow
        · exact hg.plainName ctx start canArrow
  · exact hg.plainName ctx start canArrow

theorem markupExpression (ctx : Context) : Keeps (Operand mayArrow) (markupExpression g ctx) := by
  unfold Grammar.markupExpression
  refine (hg.markup_body ctx .expression).bind fun value hvalue => .skip fun adjacent => ?_
  refine (stops_fail _).preserves_guard
    (.skip fun _ => .pure (.tight (.single trivial hvalue rfl) rfl rfl))

theorem classOperand (ctx : Context) (start : Nat) {found : List Decorator}
    (hfound : ∀ d ∈ found, AllGrouped (.decorator d)) : Keeps (Operand mayArrow) (do
      return .classExpression (← Grammar.classDefinition g ctx start false found false)) :=
  (hg.classDefinition ctx start false hfound false).bind fun _ hc =>
    .pure (.tight (.single trivial hc rfl) rfl rfl)

theorem templateOperand (ctx : Context) : Keeps (Operand mayArrow) (do
    let parts ← Grammar.template g ctx false
    return .template parts.span parts.quasis parts.expressions) :=
  (hg.template ctx false).bind fun _ hparts => .pure (.tight (.list trivial hparts rfl) rfl rfl)

theorem otherPrimary (ctx : Context) (start : Nat) (canArrow : Bool) :
    Keeps (Operand (canArrow = true)) (otherPrimary g ctx start canArrow) := by
  have hliteral : ∀ lit, Operand (canArrow = true) (.literal lit) :=
    fun _ => .tight (.leaf trivial rfl) rfl rfl
  unfold Grammar.otherPrimary
  refine .skip fun token => ?_
  split
  case h_9 => exact .skip fun _ => .skip fun span => .pure (.tight (.leaf trivial rfl) rfl rfl)
  case h_10 | h_11 => exact hg.templateOperand ctx
  case h_12 => exact hg.arrayLiteral ctx
  case h_13 => exact hg.objectLiteral ctx
  case h_14 => exact hg.parenGroup ctx start canArrow
  case h_15 => exact hg.functionOperand ctx start false
  case h_16 => exact hg.classOperand ctx start nofun
  case h_17 =>
    split
    · refine (hg.decorators ctx).bind fun found hfound => .skip fun atClass => ?_
      exact (stops_fail _).preserves_guard (hg.classOperand ctx start hfound)
    · exact stops_unexpected.preserves
  case h_18 =>
    split
    · exact hg.markupExpression ctx
    · exact stops_unexpected.preserves
  case h_19 =>
    refine .skip fun following => ?_
    split
    · exact .skip fun id => .pure (.tight (.leaf trivial rfl) rfl rfl)
    · exact (stops_fail _).preserves
  case h_20 => exact stops_unexpected.preserves
  all_goals exact .skip fun lit => .pure (hliteral lit)

/-- An arrow function begins only where the assignment expression around it does. -/
theorem primary (ctx : Context) {s : State} (hs : Ready s) :
    Yields (primary g ctx)
      (fun e s' => Ready s' ∧ Operand (s.assignmentStart = some s.start) e) s := by
  have hmay : ∀ e, Operand ((s.assignmentStart == some s.start) = true) e →
      Operand (s.assignmentStart = some s.start) e :=
    fun _ he => he.mono fun hcan => by simpa using hcan
  unfold Grammar.primary
  refine .run rfl (.run rfl ?_)
  refine Preserves.mono (.skip fun _ => .skip fun token => ?_) hmay s hs
  split
  · exact hg.namePrimary ctx s.start _
  · refine .skip fun escaped => ?_
    split
    · exact (stops_fail _).preserves
    · exact hg.otherPrimary ctx s.start _

end Phrases.Groups

end EcmaSyntax.Grammar
