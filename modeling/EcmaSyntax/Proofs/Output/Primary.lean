import EcmaSyntax.Grammar.Class
import EcmaSyntax.Proofs.Output.Phrases
import EcmaSyntax.Grammar.Primary

/-!
Classes, markup and primary expressions where nobody observes. The names of elements and tags that
the grammar compares are no text of literals, and the registers that tell a group from the
parameters of an arrow function hold offsets, which are those of the tree.
-/

namespace EcmaSyntax.Grammar

open EcmaSyntax.Diagnostic EcmaSyntax.Lexer EcmaSyntax.Scope EcmaSyntax.Text EcmaSyntax.Tree

variable {version : Nat} [Unicode.IdentifierChars version]

section Classes

instance {token : Token} : Unwatched (atModifier token) := by unfold atModifier; infer_instance

instance {isStatic : Bool} : Unwatched (modifiers isStatic) := by
  unfold modifiers
  refine ⟨.skip fun isAsync => ?_⟩
  extract_lets rest
  have hrest : ∀ u, Echoes id (rest u) (rest u) := fun u => .skip fun generator => Blind.mirrors
  exact .ite (.skip hrest) (hrest ())

@[simp] theorem declarePrivate_withoutRaw (key : Expression) (kind : PrivateKind)
    (isStatic : Bool) (offset : Nat) :
    declarePrivate key.withoutRaw kind isStatic offset =
      declarePrivate key kind isStatic offset := by
  cases key <;> rfl

instance {key : Expression} {kind : PrivateKind} {isStatic : Bool} {offset : Nat} :
    Unwatched (declarePrivate key kind isStatic offset) := by
  unfold declarePrivate
  split
  · refine ⟨.look fun s => ?_⟩
    dsimp only [State.unobserved]
    split
    · exact .refuse
    · exact .modify fun _ => rfl
  · infer_instance

@[simp] theorem isConstructor_withoutRaw (x : ClassElement) :
    isConstructor x.withoutRaw = isConstructor x := by
  cases x <;> rfl

theorem any_isConstructor (elements : List ClassElement) :
    (elements.map ClassElement.withoutRaw).any isConstructor = elements.any isConstructor := by
  simp [Function.comp_def]

end Classes

section Markup

instance {exit : MarkupExit} : Unwatched (leaveTag exit) := by
  unfold leaveTag
  split <;> infer_instance

instance : Unwatched markupIdentifier := by
  unfold markupIdentifier
  refine ⟨.skip fun token => .guard (.skip fun _ => .look fun s => .skip fun name => ?_)⟩
  exact .skip fun _ => .pure rfl

instance {g : Phrases} : Unwatched (markupName g) := by
  unfold markupName
  exact ⟨.skip fun start => .skip fun first => .skip fun atColon =>
    .ite Blind.mirrors Blind.mirrors⟩

instance : Unwatched expectClosingBrace := by unfold expectClosingBrace; infer_instance

instance {g : Phrases} {name : MarkupName} : Unwatched (closingTag g name) := by
  unfold closingTag
  refine ⟨.skip fun start => .skip fun _ => .skip fun _ => .skip fun isFragment => ?_⟩
  extract_lets rest
  have hrest : ∀ closing, Echoes id (rest closing) (rest closing) := by
    intro closing
    cases closing with
    | none => exact .refuse
    | some found => exact .guard (.skip fun atEnd => .guard (.skip fun span => .pure rfl))
  exact .ite (.skip hrest) (.skip hrest)

end Markup

section Groups

instance : Unwatched propertyHead := by
  unfold propertyHead
  refine ⟨.skip fun isAsync => ?_⟩
  extract_lets rest
  have hrest : ∀ u, Echoes id (rest u) (rest u) := fun u => .skip fun generator =>
    .ite (.pure rfl) (.skip fun token => Blind.mirrors)
  exact .ite (.skip hrest) (hrest ())

instance {name : String} {offset : Nat} : Unwatched (noteAwaitName name offset) := by
  unfold noteAwaitName
  exact ⟨.ite (.modify fun _ => rfl) (.pure rfl)⟩

instance {noted : Option Nat} {start : Nat} {cause : Cause} :
    Unwatched (checkNone noted start cause) := by
  unfold checkNone
  split <;> infer_instance

instance : Unwatched checkArrow := by unfold checkArrow; infer_instance

/-- The body of an arrow function without the text of literals. -/
def ArrowBody.withoutRaw : ArrowBody → ArrowBody
  | .concise e => .concise e.withoutRaw
  | .block span body strict => .block span (body.map Statement.withoutRaw) strict

/-- An item of a group without the text of literals. -/
def GroupItem.withoutRaw (item : GroupItem) : GroupItem :=
  { item with expression := item.expression.withoutRaw }

theorem groupParameter_withoutRaw (c : Conversion) (item : GroupItem) :
    groupParameter c item.withoutRaw = (groupParameter c item).map Pattern.withoutRaw := by
  unfold groupParameter
  change (if item.isRest then toRestPattern c item.start item.expression.withoutRaw
    else toPattern c item.expression.withoutRaw) = _
  split
  · exact toRestPattern_withoutRaw item.start item.expression
  · exact toPattern_withoutRaw item.expression

theorem groupParameters_withoutRaw (c : Conversion) (items : List GroupItem) :
    (items.map GroupItem.withoutRaw).mapM (groupParameter c) =
      (items.mapM (groupParameter c)).map (List.map Pattern.withoutRaw) := by
  induction items with
  | nil => rfl
  | cons item rest ih =>
    rw [List.map_cons, List.mapM_cons, List.mapM_cons, ih, groupParameter_withoutRaw]
    cases groupParameter c item with
    | error failure => rfl
    | ok p => cases rest.mapM (groupParameter c) <;> rfl

theorem groupExpression_withoutRaw (first : Expression) (rest : List Expression) :
    groupExpression first.withoutRaw (rest.map Expression.withoutRaw) =
      (groupExpression first rest).withoutRaw := by
  unfold groupExpression
  rw [List.getLast?_map]
  cases rest.getLast? with
  | none => rfl
  | some last => simp [Expression.withoutRaw, expressionsWithoutRaw]

theorem expressions_withoutRaw (items : List GroupItem) :
    (items.map GroupItem.withoutRaw).map GroupItem.expression =
      (items.map GroupItem.expression).map Expression.withoutRaw := by
  simp [GroupItem.withoutRaw, Function.comp_def]

end Groups

namespace Phrases.Quieted

variable {g g' : Phrases} (h : g.Quieted g')

include h

theorem staticBlock (ctx : Context) (start : Nat) :
    Echoes ClassElement.withoutRaw (staticBlock g ctx start) (staticBlock g' ctx start) := by
  have hbody : ∀ inner, Echoes (List.map Statement.withoutRaw)
      (do
        let body ← g.itemsUpTo .rightBrace (g.listItem inner)
        next
        return body)
      (do
        let body ← g'.itemsUpTo .rightBrace (g'.listItem inner)
        next
        return body) := fun inner =>
    (h.itemsUpTo .rightBrace (h.listItem inner)).bind fun body => .skip fun _ => .pure rfl
  unfold Grammar.staticBlock
  refine .skip fun _ => .look fun saved => .change (fun _ => rfl) fun _ => ?_
  refine ((hbody _).inScope _).bind fun body => .change (fun _ => rfl) fun _ => ?_
  exact .skip fun span => .pure (by simp [ClassElement.withoutRaw])

theorem decoratorExpression (ctx : Context) :
    Echoes Expression.withoutRaw (decoratorExpression g ctx) (decoratorExpression g' ctx) := by
  unfold Grammar.decoratorExpression
  rw [h.size]
  refine .skip fun start => .skip fun atParen => .ite ?_ ?_
  · exact (h.expression ctx.withIn).bind fun e => .skip fun _ => .pure rfl
  refine .skip fun token => .guard (.skip fun value => .skip fun _ => .skip fun name => ?_)
  refine (Mirrors.iterate (k := Expression.withoutRaw) (fun object => ?_) g.size
    (Expression.identifier name)).bind fun path => .skip fun hasArguments => .ite ?_ (.pure rfl)
  · refine .skip fun atDot => .ite ?_ (.pure rfl)
    exact echoes_memberName.bind fun property => .skip fun span => .pure rfl
  · refine (h.arguments ctx).bind fun args => .skip fun span => .pure ?_
    simp [Expression.withoutRaw]

theorem decorators (ctx : Context) :
    Echoes (List.map Decorator.withoutRaw) (decorators g ctx) (decorators g' ctx) := by
  refine h.collect fun earlier => .skip fun start => .skip fun atSign => .ite ?_ (.pure rfl)
  exact (h.decoratorExpression ctx).bind fun e => .skip fun span => .pure rfl

theorem classMethod (ctx : Context) (derived : Bool) (earlier : List ClassElement)
    (found : List Decorator) (start : Nat) (m : Modifiers) (key : Expression) (computed : Bool)
    (keyStart : Nat) :
    Echoes ClassElement.withoutRaw
      (classMethod g ctx derived earlier found start m key computed keyStart)
      (classMethod g' ctx derived (earlier.map ClassElement.withoutRaw)
        (found.map Decorator.withoutRaw) start m key.withoutRaw computed keyStart) := by
  unfold Grammar.classMethod
  rw [key.staticKey?_withoutRaw, any_isConstructor, declarePrivate_withoutRaw]
  extract_lets name isConstructing kind shape rest guarded rest' guarded'
  have hrest : ∀ u, Echoes ClassElement.withoutRaw (rest u) (rest' u) := by
    intro u
    refine .skip fun _ => (h.methodFunction ctx _ _ _).bind fun value => ?_
    exact .skip fun span => .pure (by simp [ClassElement.withoutRaw])
  exact .ite (.guard (.guard (hrest ()))) (hrest ())

theorem classField (ctx : Context) (found : List Decorator) (start : Nat) (m : Modifiers)
    (key : Expression) (computed : Bool) (keyStart : Nat) :
    Echoes ClassElement.withoutRaw (classField g ctx found start m key computed keyStart)
      (classField g' ctx (found.map Decorator.withoutRaw) start m key.withoutRaw computed
        keyStart) := by
  unfold Grammar.classField
  rw [key.staticKey?_withoutRaw, declarePrivate_withoutRaw]
  refine .guard (.guard (.skip fun _ => .skip fun hasValue => ?_))
  extract_lets rest rest'
  have hrest : ∀ value, Echoes ClassElement.withoutRaw (rest value)
      (rest' (value.map Expression.withoutRaw)) := by
    intro value
    exact .skip fun _ => .skip fun span => .pure (by simp [ClassElement.withoutRaw])
  refine .ite ?_ ?_
  · exact (h.assignment _).optional.bind hrest
  · exact Mirrors.bind (.pure rfl) hrest

theorem classElement (ctx : Context) (derived : Bool) (earlier : List ClassElement) :
    Echoes ClassElement.withoutRaw (classElement g ctx derived earlier)
      (classElement g' ctx derived (earlier.map ClassElement.withoutRaw)) := by
  unfold Grammar.classElement
  rw [h.options]
  refine .skip fun start => .skip fun atSign => ?_
  extract_lets block rest block' rest'
  have hrest : ∀ found, Echoes ClassElement.withoutRaw (rest found)
      (rest' (found.map Decorator.withoutRaw)) := by
    intro found
    refine .skip fun isStatic => ?_
    extract_lets last last'
    have hlast : ∀ u, Echoes ClassElement.withoutRaw (last u) (last' u) := by
      intro u
      refine .skip fun m => .skip fun keyStart => (h.propertyKey ctx true).bind fun r => ?_
      obtain ⟨key, computed⟩ := r
      dsimp only
      rw [key.staticKey?_withoutRaw]
      refine .guard (.skip fun atParen => .ite ?_ ?_)
      · exact h.classMethod ctx derived earlier found start m key computed keyStart
      · exact h.classField ctx found start m key computed keyStart
    refine .ite (.skip fun _ => .skip fun atBrace => .ite ?_ (hlast ())) (hlast ())
    rw [List.isEmpty_map]
    exact .guard (h.staticBlock ctx start)
  refine .ite ?_ ?_
  · exact (h.decorators ctx).bind hrest
  · exact Mirrors.bind (k := List.map Decorator.withoutRaw) (.pure rfl) hrest

theorem classBody (ctx : Context) (derived : Bool) :
    Echoes (fun found => (found.1, found.2.map ClassElement.withoutRaw)) (classBody g ctx derived)
      (classBody g' ctx derived) := by
  have hkept : ∀ found : List (Option ClassElement),
      (found.map (Option.map ClassElement.withoutRaw)).filterMap id =
        (found.filterMap id).map ClassElement.withoutRaw := by
    intro found
    simp [List.filterMap_map, List.map_filterMap]
  have helements : Echoes (List.map ClassElement.withoutRaw)
      (do
        let elements ← g.collect fun (earlier : List (Option ClassElement)) => do
          if ← atToken .rightBrace then return .stop
          if ← accept .semicolon then return .more none
          if ← atToken .endOfSource then unexpected
          return .more (some (← Grammar.classElement g ctx derived (earlier.filterMap id)))
        next
        return elements.filterMap id)
      (do
        let elements ← g'.collect fun (earlier : List (Option ClassElement)) => do
          if ← atToken .rightBrace then return .stop
          if ← accept .semicolon then return .more none
          if ← atToken .endOfSource then unexpected
          return .more (some (← Grammar.classElement g' ctx derived (earlier.filterMap id)))
        next
        return elements.filterMap id) := by
    refine (h.collect (k := Option.map ClassElement.withoutRaw) fun earlier => ?_).bind
      fun found => .skip fun _ => .pure (hkept found)
    rw [hkept]
    refine .skip fun atClose => .ite (.pure rfl) (.skip fun atSemicolon => .ite (.pure rfl) ?_)
    refine .skip fun atEnd => .guard ?_
    exact (h.classElement ctx derived (earlier.filterMap id)).bind fun x => .pure rfl
  unfold Grammar.classBody
  refine .skip fun start => .skip fun _ => .change (fun _ => rfl) fun _ => ?_
  refine (helements.inScope _).bind fun elements => .look fun s => ?_
  dsimp only [State.unobserved]
  exact .change (fun _ => rfl) fun _ => .skip fun _ => .skip fun span => .pure rfl

theorem classDefinition (ctx : Context) (start : Nat) (isDeclaration : Bool)
    (found : List Decorator) (isDefaultExport : Bool) :
    Echoes ClassDefinition.withoutRaw
      (classDefinition g ctx start isDeclaration found isDefaultExport)
      (classDefinition g' ctx start isDeclaration (found.map Decorator.withoutRaw)
        isDefaultExport) := by
  unfold Grammar.classDefinition
  rw [h.declare_eq]
  refine .skip fun _ => .skip fun token => ?_
  extract_lets rest named rest' named'
  have hrest : ∀ id, Echoes ClassDefinition.withoutRaw (rest id) (rest' id) := by
    intro id
    refine .skip fun hasSuper => ?_
    extract_lets last last'
    have hlast : ∀ superClass, Echoes ClassDefinition.withoutRaw (last superClass)
        (last' (superClass.map Expression.withoutRaw)) := by
      intro superClass
      dsimp only [last, last']
      rw [Option.isSome_map]
      refine (h.classBody _ superClass.isSome).bind fun r => .skip fun _ => ?_
      exact .skip fun span => .pure (by simp [ClassDefinition.withoutRaw])
    refine .ite ((h.leftHandSide _).bind fun heritage => ?_) ?_
    · rw [checkCover_withoutRaw]
      exact .skip fun _ => Mirrors.bind (.pure rfl) hlast
    · exact Mirrors.bind (.pure rfl) hlast
  refine .ite (.skip fun nameStart => .skip fun name => .skip fun _ => ?_) (.ite .halt ?_)
  · exact .ite (.skip fun _ => .skip hrest) (.skip hrest)
  · exact .skip hrest

theorem markupName_eq : markupName g' = markupName g := by
  unfold markupName
  rw [h.size]

theorem closingTag_eq : closingTag g' = closingTag g := by
  funext name
  unfold closingTag
  rw [h.markupName_eq]

theorem keptRaw : Echoes (fun _ => none) (keptRaw g.options) (keptRaw g'.options) := by
  rw [h.options]
  exact echoes_keptRaw g.options

theorem attributeValue (ctx : Context) :
    Echoes MarkupAttributeValue.withoutRaw (attributeValue g ctx) (attributeValue g' ctx) := by
  unfold Grammar.attributeValue
  refine .skip fun start => .skip fun token => ?_
  split
  · refine .look fun s => .skip fun value => h.keptRaw.bind fun raw => ?_
    exact .skip fun _ => .pure rfl
  · refine .skip fun _ => .skip fun isEmpty => .guard ?_
    refine (h.assignment ctx.withIn).bind fun e => .skip fun _ => .skip fun span => ?_
    exact .skip fun _ => .pure rfl
  · exact (h.markup ctx .attribute).bind fun value => .pure rfl
  · exact .refuse

theorem namedAttribute (ctx : Context) :
    Echoes MarkupAttribute.withoutRaw (namedAttribute g ctx) (namedAttribute g' ctx) := by
  unfold Grammar.namedAttribute
  refine .skip fun start => .skip fun first => .skip fun atColon => ?_
  extract_lets rest rest'
  have hrest : ∀ name, Echoes MarkupAttribute.withoutRaw (rest name) (rest' name) := by
    intro name
    refine .skip fun hasValue => ?_
    extract_lets last
    have hlast : ∀ value, Echoes MarkupAttribute.withoutRaw (last value)
        (last value.withoutRaw) := fun value => .skip fun span => .pure rfl
    refine .ite (.skip fun _ => (h.attributeValue ctx).bind hlast) ?_
    exact Mirrors.bind (.pure rfl) hlast
  refine .ite (.skip fun _ => .skip fun name => .skip fun span => .skip hrest) (.skip hrest)

theorem spreadAttribute (ctx : Context) :
    Echoes MarkupAttribute.withoutRaw (spreadAttribute g ctx) (spreadAttribute g' ctx) := by
  unfold Grammar.spreadAttribute
  refine .skip fun start => .skip fun _ => .skip fun _ => (h.assignment ctx.withIn).bind fun e => ?_
  exact .skip fun _ => .skip fun span => .skip fun _ => .pure rfl

theorem attributes (ctx : Context) :
    Echoes (List.map MarkupAttribute.withoutRaw) (attributes g ctx) (attributes g' ctx) := by
  refine h.collect fun earlier => .skip fun token => ?_
  split
  · exact .pure rfl
  · exact .pure rfl
  · exact (h.spreadAttribute ctx).bind fun a => .pure rfl
  · exact .refuse
  · exact .ite ((h.namedAttribute ctx).bind fun a => .pure rfl) .refuse

theorem childExpression (ctx : Context) :
    Echoes MarkupChild.withoutRaw (childExpression g ctx) (childExpression g' ctx) := by
  have hcontainer : ∀ start (node : Span → Expression → MarkupChild),
      (∀ span e, node span e.withoutRaw = (node span e).withoutRaw) →
        Echoes MarkupChild.withoutRaw
          (do
            let e ← g.expression ctx.withIn
            expectClosingBrace
            let whole ← spanThrough start
            nextChild
            return node whole e)
          (do
            let e ← g'.expression ctx.withIn
            expectClosingBrace
            let whole ← spanThrough start
            nextChild
            return node whole e) := by
    intro start node hnode
    refine (h.expression ctx.withIn).bind fun e => .skip fun _ => .skip fun whole => ?_
    exact .skip fun _ => .pure (hnode whole e)
  unfold Grammar.childExpression
  refine .look fun s => .skip fun _ => .skip fun isSpread => .ite ?_ ?_
  · exact hcontainer _ .spread fun _ _ => rfl
  refine .skip fun isEmpty => .ite ?_ ?_
  · exact .skip fun stop => .skip fun whole => .skip fun _ => .pure rfl
  · exact hcontainer _ .container fun _ _ => rfl

theorem children (ctx : Context) :
    Echoes (List.map MarkupChild.withoutRaw) (children g ctx) (children g' ctx) := by
  refine h.collect fun earlier => .skip fun token => ?_
  split
  · exact .look fun s => .skip fun value => .skip fun raw => .skip fun _ => .pure rfl
  · exact (h.childExpression ctx).bind fun child => .pure rfl
  · refine .skip fun following => .ite (.pure rfl) ?_
    exact (h.markup ctx .child).bind fun value => .pure rfl
  · exact .refuse
  · exact .refuse

theorem fragmentFrom (ctx : Context) (exit : MarkupExit) (start : Nat) :
    Echoes Markup.withoutRaw (fragmentFrom g ctx exit start) (fragmentFrom g' ctx exit start) := by
  unfold Grammar.fragmentFrom
  refine .skip fun openingSpan => .skip fun _ => (h.children ctx).bind fun found => ?_
  refine .skip fun closingStart => .skip fun _ => .skip fun _ => .skip fun atEnd => .guard ?_
  refine .skip fun closingSpan => .skip fun _ => .skip fun span => ?_
  exact .pure (by simp [Markup.withoutRaw])

theorem markupElement (ctx : Context) (exit : MarkupExit) (start : Nat) :
    Echoes Markup.withoutRaw (markupElement g ctx exit start)
      (markupElement g' ctx exit start) := by
  unfold Grammar.markupElement
  rw [h.markupName_eq, h.closingTag_eq]
  refine .skip fun name => (h.attributes ctx).bind fun found => .skip fun selfClosing => ?_
  extract_lets opened rest opened' rest'
  have hrest : ∀ u, Echoes Markup.withoutRaw (rest u) (rest' u) := by
    intro u
    refine .skip fun atEnd => .guard (.skip fun openingSpan => ?_)
    refine .ite ?_ ?_
    · exact .skip fun _ => .skip fun span =>
        .pure (by simp [Markup.withoutRaw, childrenWithoutRaw])
    · refine .skip fun _ => (h.children ctx).bind fun contents => .skip fun closing => ?_
      exact .skip fun _ => .skip fun span => .pure (by simp [Markup.withoutRaw])
  exact .ite (.skip hrest) (hrest ())

theorem markup_body (ctx : Context) (exit : MarkupExit) :
    Echoes Markup.withoutRaw (Grammar.markup g ctx exit) (Grammar.markup g' ctx exit) := by
  refine .nested (.skip fun start => .skip fun _ => .skip fun isFragment => .ite ?_ ?_)
  · exact h.fragmentFrom ctx exit start
  · exact h.markupElement ctx exit start

theorem markupExpression (ctx : Context) :
    Echoes Expression.withoutRaw (markupExpression g ctx) (markupExpression g' ctx) := by
  unfold Grammar.markupExpression
  refine (h.markup_body ctx .expression).bind fun value => .skip fun isAdjacent => .guard ?_
  exact .skip fun _ => .pure rfl

theorem arrayLiteral (ctx : Context) :
    Echoes Expression.withoutRaw (arrayLiteral g ctx) (arrayLiteral g' ctx) := by
  unfold Grammar.arrayLiteral
  refine .skip fun start => .skip fun _ => (h.collect
    (k := fun found => (found.1.withoutRaw, found.2)) fun earlier => ?_).bind fun found => ?_
  · refine .skip fun atClose => .ite (.pure rfl) (.skip fun atComma => .ite (.pure rfl) ?_)
    refine .skip fun elementStart => .skip fun isSpread => (h.covered ctx.withIn).bind fun r => ?_
    refine (echoes_elementFrom elementStart isSpread r.1).bind fun element => ?_
    exact .skip fun _ => .pure rfl
  · rw [List.map_map, List.map_map]
    refine .skip fun _ => .skip fun _ => .skip fun _ => .skip fun span => .pure ?_
    simp [Expression.withoutRaw, Function.comp_def]

theorem shorthandProperty (ctx : Context) (start keyStart : Nat) (id : Identifier) :
    Echoes (fun found => (found.1.withoutRaw, found.2)) (shorthandProperty g ctx start keyStart id)
      (shorthandProperty g' ctx start keyStart id) := by
  unfold Grammar.shorthandProperty
  refine .skip fun _ => .skip fun _ => .skip fun hasValue => .ite ?_ ?_
  · refine (h.assignment ctx).bind fun right => .skip fun valueSpan => .skip fun span => ?_
    exact .pure rfl
  · exact .skip fun span => .pure rfl

theorem objectProperty (ctx : Context) :
    Echoes (fun found => (found.1.withoutRaw, found.2)) (objectProperty g ctx)
      (objectProperty g' ctx) := by
  unfold Grammar.objectProperty
  refine .skip fun start => .skip fun head => .skip fun keyToken => .skip fun keyStart => ?_
  refine (h.propertyKey ctx false).bind fun r => ?_
  obtain ⟨key, computed⟩ := r
  refine .skip fun atParen => .ite ?_ (.skip fun atColon => .ite ?_ ?_)
  · exact (h.methodFunction ctx _ _ _).bind fun value => .skip fun span => .pure rfl
  · exact (h.covered ctx).bind fun r => .skip fun span => .pure rfl
  · cases key with
    | identifier id => exact .ite (h.shorthandProperty ctx start keyStart id) .refuse
    | _ => exact .refuse

theorem objectMember (ctx : Context) :
    Echoes (fun found => (found.1.withoutRaw, found.2)) (objectMember g ctx)
      (objectMember g' ctx) := by
  unfold Grammar.objectMember
  refine .skip fun start => .skip fun isSpread => .ite ?_ (h.objectProperty ctx)
  exact (h.covered ctx).bind fun r => .skip fun _ => .skip fun span => .pure rfl

theorem objectLiteral (ctx : Context) :
    Echoes Expression.withoutRaw (objectLiteral g ctx) (objectLiteral g' ctx) := by
  unfold Grammar.objectLiteral
  refine .skip fun start => .skip fun _ =>
    (h.listed .rightBrace fun _ => h.objectMember ctx.withIn).bind fun found => ?_
  have hmembers : (found.map fun found => (found.1.withoutRaw, found.2)).map Prod.fst =
      (found.map Prod.fst).map ObjectMember.withoutRaw := by simp
  have hcovers : (found.map fun found => (found.1.withoutRaw, found.2)).map Prod.snd =
      found.map Prod.snd := by simp
  rw [hmembers, hcovers]
  dsimp only
  rw [filter_setsProto, List.length_map]
  refine .skip fun _ => .skip fun _ => .skip fun _ => .skip fun span => .pure ?_
  simp [Expression.withoutRaw]

theorem arrowBody (ctx inner : Context) (simple : Bool) :
    Echoes ArrowBody.withoutRaw (arrowBody g ctx inner simple) (arrowBody g' ctx inner simple) := by
  unfold Grammar.arrowBody
  refine .skip fun start => .skip fun isBlock => .ite ?_ ?_
  · exact ((h.bracedBody inner simple).inScope _).bind fun r => .skip fun span => .pure rfl
  · exact (h.assignment _).bind fun e => .pure rfl

theorem arrowFunction (ctx : Context) (start : Nat) (params : List Pattern) (isAsync : Bool) :
    Echoes Expression.withoutRaw (arrowFunction g ctx start params isAsync)
      (arrowFunction g' ctx start (params.map Pattern.withoutRaw) isAsync) := by
  have hsimple : (params.map Pattern.withoutRaw).all Pattern.isSimple =
      params.all Pattern.isSimple := by simp [Function.comp_def]
  have hnames : ∀ ctx, (params.map Pattern.withoutRaw).forM (checkBoundNames ctx .parameter) =
      params.forM (checkBoundNames ctx .parameter) := by
    intro ctx
    simp [List.forM_map]
  have hdeclared : (params.map Pattern.withoutRaw).forM (declarePattern g'.options ctx .parameter) =
      params.forM (declarePattern g.options ctx .parameter) := by
    have heq : declarePattern g'.options ctx .parameter =
        declarePattern g.options ctx .parameter := by
      rw [h.options]
      rfl
    rw [heq]
    simp [List.forM_map]
  unfold Grammar.arrowFunction
  rw [hdeclared, hsimple, hnames]
  refine .skip fun _ => ?_
  extract_lets inner
  refine Mirrors.bind (k := ArrowBody.withoutRaw) (.inScope ?_ _) fun body => ?_
  · refine .skip fun _ => .look fun s => (echoes_settleParameters _ _).bind fun _ => ?_
    refine (echoes_asFunction (h.arrowBody ctx inner _)).bind fun body => ?_
    cases body with
    | concise e => exact .ite (.skip fun _ => .pure rfl) (.pure rfl)
    | block span body strict => exact .ite (.skip fun _ => .pure rfl) (.pure rfl)
  · refine .skip fun _ => .skip fun span => ?_
    cases body with
    | concise e => exact .pure (by simp [Expression.withoutRaw])
    | block bodySpan statements strict => exact .pure (by simp [Expression.withoutRaw])

theorem groupItem (ctx : Context) :
    Echoes (Round.map GroupItem.withoutRaw) (groupItem g ctx) (groupItem g' ctx) := by
  unfold Grammar.groupItem
  refine .skip fun atClose => .ite (.pure rfl) (.skip fun start => .skip fun isRest => .ite ?_ ?_)
  · refine (h.covered ctx).bind fun r => .skip fun atComma => .ite ?_ (.pure rfl)
    exact .skip fun comma => .skip fun _ => .skip fun atClose => .ite .halt .halt
  · refine (h.covered ctx).bind fun r => .skip fun atClose => .ite (.pure rfl) ?_
    exact .skip fun _ => .pure rfl

theorem conversion_eq : conversion g'.options = conversion g.options := by rw [h.options]; rfl

theorem groupArrow (ctx : Context) (start : Nat) (items : List GroupItem) :
    Echoes Expression.withoutRaw (groupArrow g ctx start items)
      (groupArrow g' ctx start (items.map GroupItem.withoutRaw)) := by
  unfold Grammar.groupArrow
  rw [h.conversion_eq]
  refine .skip fun _ => .look fun s => .skip fun _ => .look fun s => .skip fun _ => ?_
  refine .skip fun c => (echoes_ofExcept (groupParameters_withoutRaw c items)).bind fun params => ?_
  exact h.arrowFunction ctx start params false

theorem groupValue (start close : Nat) (items : List GroupItem) :
    Echoes Expression.withoutRaw (groupValue g start close items)
      (groupValue g' start close (items.map GroupItem.withoutRaw)) := by
  have hrest : (items.map GroupItem.withoutRaw).find? GroupItem.isRest =
      (items.find? GroupItem.isRest).map GroupItem.withoutRaw := by
    rw [List.find?_map]
    rfl
  have hlast : (items.map GroupItem.withoutRaw).getLast?.any GroupItem.comma =
      items.getLast?.any GroupItem.comma := by
    rw [List.getLast?_map, Option.any_map]
    rfl
  have hcovers : (items.map GroupItem.withoutRaw).map GroupItem.cover =
      items.map GroupItem.cover := by
    simp [GroupItem.withoutRaw, Function.comp_def]
  unfold Grammar.groupValue
  rw [hrest, hlast, hcovers, expressions_withoutRaw, checkCovers_withoutRaw, h.options]
  extract_lets rest rest'
  have hrest : Echoes Expression.withoutRaw (rest ()) (rest' ()) := by
    cases items with
    | nil => exact .refuse
    | cons first others =>
      have he : groupExpression first.withoutRaw.expression
          ((others.map GroupItem.withoutRaw).map GroupItem.expression) =
            (groupExpression first.expression (others.map GroupItem.expression)).withoutRaw := by
        rw [expressions_withoutRaw]
        exact groupExpression_withoutRaw _ _
      dsimp only [rest, rest']
      simp only [List.map_cons, he, List.isEmpty_map, Expression.start_withoutRaw]
      refine .guard (.skip fun _ => .change (fun _ => rfl) fun _ => .ite ?_ ?_)
      · exact .skip fun span => .pure rfl
      · exact .change (fun _ => rfl) fun _ => .pure rfl
  cases items.find? GroupItem.isRest with
  | none => exact hrest
  | some item => exact .halt

theorem parenGroup (ctx : Context) (start : Nat) (canArrow : Bool) :
    Echoes Expression.withoutRaw (parenGroup g ctx start canArrow)
      (parenGroup g' ctx start canArrow) := by
  unfold Grammar.parenGroup
  refine .skip fun _ => (h.collect fun _ => h.groupItem ctx.withIn).bind fun items => ?_
  refine .skip fun close => .skip fun _ => .skip fun atArrow => .ite ?_ ?_
  · exact h.groupArrow ctx start items
  · exact h.groupValue start close items

theorem asyncNameArrow (ctx : Context) (start : Nat) :
    Echoes Expression.withoutRaw (asyncNameArrow g ctx start) (asyncNameArrow g' ctx start) := by
  unfold Grammar.asyncNameArrow
  refine .skip fun _ => .skip fun id => .skip fun atArrow =>
    .guard (.skip fun _ => .skip fun _ => ?_)
  exact h.arrowFunction ctx start [.identifier id] true

theorem asyncCallOrArrow (ctx : Context) (start : Nat) (canArrow : Bool) :
    Echoes Expression.withoutRaw (asyncCallOrArrow g ctx start canArrow)
      (asyncCallOrArrow g' ctx start canArrow) := by
  unfold Grammar.asyncCallOrArrow
  rw [h.conversion_eq]
  refine .skip fun callee => .skip fun lineBreak => (h.coveredArguments ctx).bind fun found => ?_
  have helements : (found.map fun found => (found.1.withoutRaw, found.2)).map Prod.fst =
      (found.map Prod.fst).map Element.withoutRaw := by simp
  have hcovers : (found.map fun found => (found.1.withoutRaw, found.2)).map Prod.snd =
      found.map Prod.snd := by simp
  have hexpressions : ((found.map Prod.fst).map Element.withoutRaw).filterMap Element.expression? =
      ((found.map Prod.fst).filterMap Element.expression?).map Expression.withoutRaw := by
    simp [List.filterMap_map, List.map_filterMap, Function.comp_def]
  rw [helements, hcovers]
  dsimp only
  rw [hexpressions, checkCovers_withoutRaw]
  refine .skip fun atArrow => .ite ?_ ?_
  · refine .skip fun _ => .look fun s => .skip fun _ => .look fun s => .skip fun _ => ?_
    refine .look fun s => .skip fun _ => .skip fun c => ?_
    refine (echoes_ofExcept (toPatterns_map (c := c) (found.map Prod.fst))).bind fun params => ?_
    exact h.arrowFunction ctx start params true
  · exact .skip fun _ => .skip fun _ => .skip fun span => .pure (by simp [Expression.withoutRaw])

theorem plainName (ctx : Context) (start : Nat) (canArrow : Bool) :
    Echoes Expression.withoutRaw (plainName g ctx start canArrow)
      (plainName g' ctx start canArrow) := by
  unfold Grammar.plainName
  refine .skip fun id => .skip fun atArrow => .ite (.skip fun _ => .skip fun _ => ?_) ?_
  · exact h.arrowFunction ctx start [.identifier id] false
  · exact .skip fun _ => .skip fun _ => .skip fun _ => .pure rfl

theorem namePrimary (ctx : Context) (start : Nat) (canArrow : Bool) :
    Echoes Expression.withoutRaw (namePrimary g ctx start canArrow)
      (namePrimary g' ctx start canArrow) := by
  have hplain := h.plainName ctx start canArrow
  unfold Grammar.namePrimary
  refine .skip fun atAsync => .ite (.skip fun r => ?_) hplain
  obtain ⟨token, flags⟩ := r
  refine .ite (h.functionExpression ctx start true) (.skip fun isLoop => .ite ?_ ?_)
  · exact h.asyncNameArrow ctx start
  · exact .ite (h.asyncCallOrArrow ctx start canArrow) hplain

theorem otherPrimary (ctx : Context) (start : Nat) (canArrow : Bool) :
    Echoes Expression.withoutRaw (otherPrimary g ctx start canArrow)
      (otherPrimary g' ctx start canArrow) := by
  unfold Grammar.otherPrimary
  refine .skip fun token => ?_
  split
  case h_1 | h_2 | h_3 | h_4 | h_5 | h_6 => exact (h.literal ctx).bind fun lit => .pure rfl
  case h_7 | h_8 =>
    rw [h.options]
    exact (echoes_regexLiteral g.options).bind fun lit => .pure rfl
  · exact .skip fun _ => .skip fun span => .pure rfl
  case h_10 | h_11 =>
    refine (h.template ctx false).bind fun parts => .pure ?_
    simp [Expression.withoutRaw, TemplateParts.withoutRaw]
  · exact h.arrayLiteral ctx
  · exact h.objectLiteral ctx
  · exact h.parenGroup ctx start canArrow
  · exact h.functionExpression ctx start false
  · exact (h.classDefinition ctx start false [] false).bind fun value => .pure rfl
  · rw [h.options]
    refine .ite ((h.decorators ctx).bind fun found => .skip fun atClass => .guard ?_) .refuse
    exact (h.classDefinition ctx start false found false).bind fun value => .pure rfl
  · rw [h.options]
    exact .ite (h.markupExpression ctx) .refuse
  · refine .skip fun following => .ite (.skip fun id => .pure rfl) .refuse
  · exact .refuse

theorem primary (ctx : Context) :
    Echoes Expression.withoutRaw (primary g ctx) (primary g' ctx) := by
  unfold Grammar.primary
  refine .skip fun start => .look fun s => .skip fun _ => .skip fun token => .ite ?_ ?_
  · exact h.namePrimary ctx start _
  · exact .skip fun escaped => .ite .refuse (h.otherPrimary ctx start _)

end Phrases.Quieted

end EcmaSyntax.Grammar
