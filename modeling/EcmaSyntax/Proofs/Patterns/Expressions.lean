import EcmaSyntax.Proofs.Patterns.Phrases

/-!
Expressions. A literal that becomes the target of an assignment or the parameters of an arrow
function becomes patterns that are put together as they should be, since the conversion compares
names if the parse does. All other expressions are made of any parts.
-/

set_option synthInstance.maxSize 4000

namespace EcmaSyntax.Grammar

open EcmaSyntax.Diagnostic EcmaSyntax.Scope EcmaSyntax.Tree EcmaSyntax.Tree.Node

variable {version : Nat} [Unicode.IdentifierChars version]

variable {unique : Bool} {g : Phrases} [hg : g.Tidies unique] {ctx : Context}
  {start : Nat}

section Conversions

variable {c : {c : Conversion // unique = true → c.uniqueKeys = true}}

/-- A conversion compares names if the parse does. -/
instance (priority := high) {β : Type} [Forest β] {use : PatternUse} {rest : Conversion → Parser β}
    [h : ∀ c : {c : Conversion // unique = true → c.uniqueKeys = true},
      Makes (Tidy unique) (rest c.1)] :
    Makes (Tidy unique) (conversion g.options use ctx >>= rest) := by
  have hconversion : Returns (fun c => unique = true → c.uniqueKeys = true)
      (conversion g.options use ctx) := .skip fun s => .pure fun hu => hg.uniqueKeys.trans hu
  exact ⟨hconversion.bind fun c hc => (h ⟨c, hc⟩).makes⟩

omit hg in
instance : Converts c.1 (Tidy unique) := converts_tidy c.2

end Conversions

section Classes

instance : Makes (Tidy unique) (staticBlock g ctx start) := by
  unfold staticBlock
  infer_instance

instance : Makes (Tidy unique) (decoratorExpression g ctx) := by
  unfold decoratorExpression
  infer_instance

instance : Makes (Tidy unique) (decorators g ctx) := by
  unfold decorators
  infer_instance

instance {derived computed : Bool} {earlier : List ClassElement} {found : List Decorator}
    {keyStart : Nat} {m : Modifiers} {key : Expression} [AllIn (Tidy unique) found]
    [AllIn (Tidy unique) key] : Makes (Tidy unique)
      (classMethod g ctx derived earlier found start m key computed keyStart) := by
  unfold classMethod
  infer_instance

instance {computed : Bool} {found : List Decorator} {keyStart : Nat} {m : Modifiers}
    {key : Expression} [AllIn (Tidy unique) found] [AllIn (Tidy unique) key] :
    Makes (Tidy unique) (classField g ctx found start m key computed keyStart) := by
  unfold classField
  infer_instance

instance {derived : Bool} {earlier : List ClassElement} :
    Makes (Tidy unique) (classElement g ctx derived earlier) := by
  unfold classElement
  infer_instance

instance {derived : Bool} : Makes (Tidy unique) (classBody g ctx derived) := by
  unfold classBody
  infer_instance

instance {isDeclaration isDefaultExport : Bool} {found : List Decorator}
    [AllIn (Tidy unique) found] : Makes (Tidy unique)
      (classDefinition g ctx start isDeclaration found isDefaultExport) := by
  unfold classDefinition
  infer_instance

end Classes

section Markup

instance : Makes (Tidy unique) (attributeValue g ctx) := by
  unfold attributeValue
  refine .skip fun start => .skip fun token => ?_
  split <;> infer_instance

instance : Makes (Tidy unique) (namedAttribute g ctx) := by
  unfold namedAttribute
  infer_instance

instance : Makes (Tidy unique) (spreadAttribute g ctx) := by
  unfold spreadAttribute
  infer_instance

instance : Makes (Tidy unique) (attributes g ctx) := by
  have : ∀ earlier, Makes (Tidy unique) (Round.markupAttribute g ctx earlier) :=
    fun earlier => by
      refine .skip fun token => ?_
      split <;> infer_instance
  unfold attributes
  infer_instance

instance : Makes (Tidy unique) (childExpression g ctx) := by
  unfold childExpression
  infer_instance

instance : Makes (Tidy unique) (children g ctx) := by
  have : ∀ earlier, Makes (Tidy unique) (Round.child g ctx earlier) := fun earlier => by
    refine .skip fun token => ?_
    split <;> infer_instance
  unfold children
  infer_instance

instance {exit : MarkupExit} : Makes (Tidy unique) (markup g ctx exit) := by
  unfold markup fragmentFrom markupElement
  infer_instance

instance : Makes (Tidy unique) (markupExpression g ctx) := by
  unfold markupExpression
  infer_instance

end Markup

section Primary

instance {earlier : List (Element × Cover)} :
    Makes (Tidy unique) (Round.arrayElement g ctx earlier) := inferInstance

instance : Makes (Tidy unique) (arrayLiteral g ctx) := by
  unfold arrayLiteral
  infer_instance

instance {keyStart : Nat} {id : Identifier} :
    Makes (Tidy unique) (shorthandProperty g ctx start keyStart id) := by
  unfold shorthandProperty
  infer_instance

instance : Makes (Tidy unique) (objectProperty g ctx) := by
  unfold objectProperty
  refine .skip fun start => .skip fun head => .skip fun keyToken => .skip fun keyStart => ?_
  refine Makes.bind (P := Tidy unique) inferInstance fun found hfound => ?_
  obtain ⟨key, computed⟩ := found
  have hkey : AllIn (Tidy unique) key := ⟨hfound.all.1⟩
  refine .skip fun atParen => ?_
  split
  · infer_instance
  · refine .skip fun hasValue => ?_
    split
    · infer_instance
    · split <;> infer_instance

instance : Makes (Tidy unique) (objectMember g ctx) := by
  unfold objectMember
  infer_instance

instance : Makes (Tidy unique) (objectLiteral g ctx) := by
  unfold objectLiteral
  infer_instance

instance {inner : Context} {simple : Bool} :
    Makes (Tidy unique) (arrowBody g ctx inner simple) := by
  unfold arrowBody
  infer_instance

instance {params : List Pattern} {isAsync : Bool} [AllIn (Tidy unique) params] :
    Makes (Tidy unique) (arrowFunction g ctx start params isAsync) := by
  unfold arrowFunction
  refine .skip fun _ => Makes.bind (P := Tidy unique) inferInstance fun body hbody => ?_
  refine .skip fun _ => .skip fun span => ?_
  cases body with
  | concise e =>
    have he : AllIn (Tidy unique) e := ⟨hbody.all⟩
    infer_instance
  | block bodySpan statements strict =>
    have hstatements : AllIn (Tidy unique) statements := ⟨hbody.all⟩
    infer_instance

instance : Makes (Tidy unique) (groupItem g ctx) := by
  unfold groupItem
  infer_instance

instance {items : List GroupItem} [AllIn (Tidy unique) items] :
    Makes (Tidy unique) (groupArrow g ctx start items) := by
  unfold groupArrow
  infer_instance

omit hg in
theorem groupExpression_tidy {first : GroupItem} {rest : List GroupItem}
    (h : AllIn (Tidy unique) (first :: rest)) : AllIn (Tidy unique)
      (groupExpression first.expression (rest.map GroupItem.expression)) := by
  have hall := List.forall_mem_cons.mp h.all
  have hfirst : AllIn (Tidy unique) first.expression := ⟨hall.1⟩
  have hrest : AllIn (Tidy unique) (rest.map GroupItem.expression) :=
    ⟨List.forall_mem_map.mpr hall.2⟩
  unfold groupExpression
  split <;> infer_instance

instance {close : Nat} {items : List GroupItem} [h : AllIn (Tidy unique) items] :
    Makes (Tidy unique) (groupValue g start close items) := by
  unfold groupValue
  extract_lets value
  have hvalue : ∀ u, Makes (Tidy unique) (value u) := by
    intro u
    dsimp -zeta only [value]
    split
    · infer_instance
    · extract_lets e check
      have hcheck : ∀ u, Makes (Tidy unique) (check u) := by
        refine fun u => .skip fun _ => .skip fun _ => ?_
        have he : AllIn (Tidy unique) e := groupExpression_tidy h
        clear_value e
        split <;> infer_instance
      clear_value e check
      infer_instance
  clear_value value
  split <;> infer_instance

instance {canArrow : Bool} : Makes (Tidy unique) (parenGroup g ctx start canArrow) := by
  unfold parenGroup
  infer_instance

instance : Makes (Tidy unique) (asyncNameArrow g ctx start) := by
  unfold asyncNameArrow
  infer_instance

instance {canArrow : Bool} : Makes (Tidy unique) (asyncCallOrArrow g ctx start canArrow) := by
  unfold asyncCallOrArrow
  infer_instance

instance {canArrow : Bool} : Makes (Tidy unique) (plainName g ctx start canArrow) := by
  unfold plainName
  infer_instance

instance {canArrow : Bool} : Makes (Tidy unique) (namePrimary g ctx start canArrow) := by
  unfold namePrimary
  infer_instance

instance {canArrow : Bool} : Makes (Tidy unique) (otherPrimary g ctx start canArrow) := by
  unfold otherPrimary
  refine .skip fun token => ?_
  split <;> infer_instance

instance : Makes (Tidy unique) (primary g ctx) := by
  unfold primary
  infer_instance

end Primary

section Calls

instance : Makes (Tidy unique) (computedProperty g ctx) := by
  unfold computedProperty
  infer_instance

instance : Forest Chain := ⟨fun P chain => Forest.all P chain.expression⟩

instance {chain : Chain} [h : AllIn (Tidy unique) chain] : AllIn (Tidy unique) chain.expression :=
  ⟨h.all⟩

instance {e : Expression} {isOptional : Bool} [h : AllIn (Tidy unique) e] :
    AllIn (Tidy unique) (Chain.mk e isOptional) := ⟨h.all⟩

instance {object : Expression} [AllIn (Tidy unique) object] :
    Makes (Tidy unique) (optionalLink g ctx start object) := by
  unfold optionalLink
  refine .skip fun token => ?_
  split <;> infer_instance

instance {allowCalls : Bool} {chain : Chain} [AllIn (Tidy unique) chain] :
    Makes (Tidy unique) (chainLink g ctx start allowCalls chain) := by
  unfold chainLink
  refine .skip fun token => ?_
  split <;> infer_instance

instance {allowCalls : Bool} {e : Expression} [AllIn (Tidy unique) e] :
    Makes (Tidy unique) (callTail g ctx start e allowCalls) := by
  unfold callTail
  infer_instance

instance {allowCall : Bool} : Makes (Tidy unique) (superExpression ctx allowCall) := by
  unfold superExpression
  infer_instance

instance : Makes (Tidy unique) (importCall g ctx start) := by
  unfold importCall
  refine .skip fun _ => .skip fun atParen => .skip fun atSpread => ?_
  extract_lets rest
  have hrest : ∀ u, Makes (Tidy unique) (rest u) := fun u => inferInstance
  clear_value rest
  infer_instance

instance : Makes (Tidy unique) (importExpression g ctx) := by
  unfold importExpression
  refine .skip fun s => .skip fun _ => .skip fun _ => .skip fun token => ?_
  split <;> infer_instance

instance : Makes (Tidy unique) (newCallee g ctx) := by
  unfold newCallee
  have himport : ∀ start, Makes (Tidy unique) (do
      match ← importExpression g ctx with
      | .importCall _ _ _ => failAt (.unexpectedToken "import") start
      | e => return e) := fun start => by
    refine Makes.bind (P := Tidy unique) inferInstance fun e he => ?_
    split <;> infer_instance
  infer_instance

instance : Makes (Tidy unique) (newCall g ctx) := by
  unfold newCall
  infer_instance

instance : Makes (Tidy unique) (leftHandSide g ctx) := by
  unfold leftHandSide
  infer_instance

end Calls

section Operators

instance {token : Token} : Makes (Tidy unique) (unaryOperation g ctx start token) := by
  unfold unaryOperation
  refine Makes.bind (P := Tidy unique) inferInstance fun argument hargument => ?_
  refine .skip fun _ => ?_
  split <;> infer_instance

instance {token : Token} : Makes (Tidy unique) (updateBefore g ctx start token) := by
  unfold updateBefore
  infer_instance

instance : Makes (Tidy unique) (awaitOperation g ctx start) := by
  unfold awaitOperation
  infer_instance

instance : Makes (Tidy unique) (updateAfter g ctx) := by
  unfold updateAfter
  infer_instance

instance : Makes (Tidy unique) (unary g ctx) := by
  unfold unary
  infer_instance

omit hg in
theorem binaryNode_tidy {span : Text.Span} {token : Token} {left right e : Expression}
    [AllIn (Tidy unique) left] [AllIn (Tidy unique) right]
    (h : binaryNode span token left right = some e) : AllIn (Tidy unique) e := by
  unfold binaryNode at h
  split at h
  · cases h
    infer_instance
  · obtain ⟨operator, -, rfl⟩ := Option.map_eq_some_iff.mp h
    infer_instance

instance {minimum : Nat} {left : Expression × Option Token} [AllIn (Tidy unique) left] :
    Makes (Tidy unique) (binaryLink g ctx start minimum left) := by
  have hnode : ∀ (span : Text.Span) (token : Token) (right : {e // AllIn (Tidy unique) e}),
      Makes (Tidy unique) (match binaryNode span token left.1 right.1 with
        | none => failAt (.unexpectedToken token.text) start
        | some e => do
          setAssignable false
          return some (e, some token)) := by
    intro span token right
    split
    · infer_instance
    · rename_i e he
      have : AllIn (Tidy unique) e := binaryNode_tidy he
      infer_instance
  unfold binaryLink
  infer_instance

instance {minimum : Nat} {left : Expression} [AllIn (Tidy unique) left] :
    Makes (Tidy unique) (binary g ctx start left minimum) := by
  unfold binary
  infer_instance

instance : Makes (Tidy unique) (binaryExpression g ctx) := by
  unfold binaryExpression
  infer_instance

instance : Makes (Tidy unique) (conditional g ctx) := by
  unfold conditional
  infer_instance

instance : Makes (Tidy unique) (yieldExpression g ctx) := by
  unfold yieldExpression
  infer_instance

omit hg in
instance {left : Expression} {cause : Cause} [h : AllIn (Tidy unique) left] :
    Makes (Tidy unique) (simpleTarget ctx left cause) := by
  have hinner := withoutParens_allIn h
  unfold simpleTarget
  refine .skip fun s => ?_
  split
  · infer_instance
  · rename_i span object property computed optional heq
    rw [heq] at hinner
    have htarget : AllIn (Tidy unique) (Pattern.member span object property computed optional) :=
      ⟨HoldsBelow.target (G := Tidy unique) hinner.all⟩
    infer_instance
  · infer_instance

instance {left : Expression} {cause : Cause} [AllIn (Tidy unique) left] :
    Makes (Tidy unique) (patternTarget g ctx left cause) := by
  unfold patternTarget
  infer_instance

instance {token : Token} {left : Expression} [AllIn (Tidy unique) left] :
    Makes (Tidy unique) (assignmentTarget g ctx token left) := by
  unfold assignmentTarget
  infer_instance

instance : Makes (Tidy unique) (assignmentCover g ctx) := by
  refine .nested (.skip fun atYield => ?_)
  split
  · infer_instance
  · refine .skip fun start => .skip fun _ => ?_
    refine Makes.bind (P := Tidy unique) inferInstance fun left hleft => ?_
    refine .skip fun token => .skip fun isBare => ?_
    split
    · infer_instance
    · split <;> infer_instance

end Operators

end EcmaSyntax.Grammar
