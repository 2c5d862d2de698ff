import EcmaSyntax.Proofs.Chains.Phrases

/-!
Expressions may stand anywhere: a loop over links ends what is optional with a chain, and what
comes after is applied to the chain. A literal that becomes a pattern has members in it that are no
part of a chain.
-/

set_option synthInstance.maxSize 4000

namespace EcmaSyntax.Grammar

open EcmaSyntax.Diagnostic EcmaSyntax.Scope EcmaSyntax.Tree EcmaSyntax.Tree.Node

variable {version : Nat} [Unicode.IdentifierChars version]

variable {keepsParens : Bool} {g : Phrases} [hg : g.Chains keepsParens] {ctx : Context}
  {start : Nat}

section Classes

instance : Makes (Proper keepsParens) (staticBlock g ctx start) := by
  unfold staticBlock
  infer_instance

instance : Makes (Proper keepsParens) (decoratorExpression g ctx) := by
  have hpath : ∀ start name, Makes (Head keepsParens)
      (iterate (Round.path start) g.size (.identifier name)) := fun start name => inferInstance
  unfold decoratorExpression
  refine .skip fun start => .skip fun isGroup => ?_
  split
  · infer_instance
  · refine .skip fun token => ?_
    extract_lets rest
    have hrest : ∀ u, Makes (Proper keepsParens) (rest u) := fun u =>
      .skip fun value => .skip fun _ => .skip fun name => (hpath start name).bind fun path _ =>
        inferInstance
    clear_value rest
    infer_instance

instance : Makes (Proper keepsParens) (decorators g ctx) := by
  unfold decorators
  infer_instance

instance {derived computed : Bool} {earlier : List ClassElement} {found : List Decorator}
    {keyStart : Nat} {m : Modifiers} {key : Expression} [AllIn (Proper keepsParens) found]
    [AllIn (Proper keepsParens) key] : Makes (Proper keepsParens)
      (classMethod g ctx derived earlier found start m key computed keyStart) := by
  unfold classMethod
  infer_instance

instance {computed : Bool} {found : List Decorator} {keyStart : Nat} {m : Modifiers}
    {key : Expression} [AllIn (Proper keepsParens) found] [AllIn (Proper keepsParens) key] :
    Makes (Proper keepsParens) (classField g ctx found start m key computed keyStart) := by
  unfold classField
  infer_instance

instance {derived : Bool} {earlier : List ClassElement} :
    Makes (Proper keepsParens) (classElement g ctx derived earlier) := by
  unfold classElement
  infer_instance

instance {derived : Bool} : Makes (Proper keepsParens) (classBody g ctx derived) := by
  unfold classBody
  infer_instance

instance {isDeclaration isDefaultExport : Bool} {found : List Decorator}
    [AllIn (Proper keepsParens) found] : Makes (Proper keepsParens)
      (classDefinition g ctx start isDeclaration found isDefaultExport) := by
  unfold classDefinition
  infer_instance

end Classes

section Markup

instance : Makes (Proper keepsParens) (attributeValue g ctx) := by
  unfold attributeValue
  refine .skip fun start => .skip fun token => ?_
  split <;> infer_instance

instance : Makes (Proper keepsParens) (namedAttribute g ctx) := by
  unfold namedAttribute
  infer_instance

instance : Makes (Proper keepsParens) (spreadAttribute g ctx) := by
  unfold spreadAttribute
  infer_instance

instance : Makes (Proper keepsParens) (attributes g ctx) := by
  have : ∀ earlier, Makes (Proper keepsParens) (Round.markupAttribute g ctx earlier) :=
    fun earlier => by
      refine .skip fun token => ?_
      split <;> infer_instance
  unfold attributes
  infer_instance

instance : Makes (Proper keepsParens) (childExpression g ctx) := by
  unfold childExpression
  infer_instance

instance : Makes (Proper keepsParens) (children g ctx) := by
  have : ∀ earlier, Makes (Proper keepsParens) (Round.child g ctx earlier) := fun earlier => by
    refine .skip fun token => ?_
    split <;> infer_instance
  unfold children
  infer_instance

instance {exit : MarkupExit} : Makes (Proper keepsParens) (markup g ctx exit) := by
  unfold markup fragmentFrom markupElement
  infer_instance

instance : Makes (Head keepsParens) (markupExpression g ctx) := by
  unfold markupExpression
  infer_instance

end Markup

section Primary

instance {earlier : List (Element × Cover)} :
    Makes (Proper keepsParens) (Round.arrayElement g ctx earlier) := by
  infer_instance

instance : Makes (Head keepsParens) (arrayLiteral g ctx) := by
  unfold arrayLiteral
  infer_instance

instance {keyStart : Nat} {id : Identifier} :
    Makes (Proper keepsParens) (shorthandProperty g ctx start keyStart id) := by
  unfold shorthandProperty
  infer_instance

instance : Makes (Proper keepsParens) (objectProperty g ctx) := by
  unfold objectProperty
  refine .skip fun start => .skip fun head => .skip fun keyToken => .skip fun keyStart => ?_
  refine Makes.bind (P := Proper keepsParens) inferInstance fun found hfound => ?_
  obtain ⟨key, computed⟩ := found
  have hkey : AllIn (Proper keepsParens) key := ⟨hfound.all.1⟩
  refine .skip fun atParen => ?_
  split
  · infer_instance
  · refine .skip fun hasValue => ?_
    split
    · infer_instance
    · split <;> infer_instance

instance : Makes (Proper keepsParens) (objectMember g ctx) := by
  unfold objectMember
  infer_instance

instance : Makes (Head keepsParens) (objectLiteral g ctx) := by
  unfold objectLiteral
  infer_instance

instance {inner : Context} {simple : Bool} [inner.Inner] :
    Makes (Proper keepsParens) (arrowBody g ctx inner simple) := by
  unfold arrowBody
  infer_instance

instance {params : List Pattern} {isAsync : Bool} [AllIn (Proper keepsParens) params] :
    Makes (Head keepsParens) (arrowFunction g ctx start params isAsync) := by
  unfold arrowFunction
  refine .skip fun _ => Makes.bind (P := Proper keepsParens) inferInstance fun body hbody => ?_
  refine .skip fun _ => .skip fun span => ?_
  cases body with
  | concise e =>
    have he : AllIn (Proper keepsParens) e := ⟨hbody.all⟩
    infer_instance
  | block bodySpan statements strict =>
    have hstatements : AllIn (Proper keepsParens) statements := ⟨hbody.all⟩
    infer_instance

instance : Makes (Proper keepsParens) (groupItem g ctx) := by
  unfold groupItem
  infer_instance

instance {items : List GroupItem} [h : AllIn (Proper keepsParens) items] :
    Makes (Head keepsParens) (groupArrow g ctx start items) := by
  unfold groupArrow
  infer_instance

omit hg in
theorem groupExpression_allIn {first : GroupItem} {rest : List GroupItem}
    (h : AllIn (Proper keepsParens) (first :: rest)) : AllIn (Proper keepsParens)
      (groupExpression first.expression (rest.map GroupItem.expression)) := by
  have hall := List.forall_mem_cons.mp h.all
  have hfirst : AllIn (Proper keepsParens) first.expression := ⟨hall.1⟩
  have hrest : AllIn (Proper keepsParens) (rest.map GroupItem.expression) :=
    ⟨List.forall_mem_map.mpr hall.2⟩
  unfold groupExpression
  split <;> infer_instance

instance {close : Nat} {items : List GroupItem} [h : AllIn (Proper keepsParens) items] :
    Makes (Head keepsParens) (groupValue g start close items) := by
  unfold groupValue
  extract_lets value
  have hvalue : ∀ u, Makes (Head keepsParens) (value u) := by
    intro u
    dsimp -zeta only [value]
    split
    · infer_instance
    · extract_lets e check
      have hcheck : ∀ u, Makes (Head keepsParens) (check u) := by
        refine fun u => .skip fun _ => .skip fun _ => ?_
        have he : AllIn (Proper keepsParens) e := groupExpression_allIn h
        clear_value e
        split
        · infer_instance
        · rename_i hdrops
          have hhead : AllIn (Head keepsParens) e :=
            ⟨⟨he.all, fun hkeeps => absurd (hg.preserveParens.trans hkeeps) hdrops⟩⟩
          infer_instance
      clear_value e check
      infer_instance
  clear_value value
  split <;> infer_instance

instance {canArrow : Bool} : Makes (Head keepsParens) (parenGroup g ctx start canArrow) := by
  unfold parenGroup
  infer_instance

instance : Makes (Head keepsParens) (asyncNameArrow g ctx start) := by
  unfold asyncNameArrow
  infer_instance

instance {canArrow : Bool} : Makes (Head keepsParens) (asyncCallOrArrow g ctx start canArrow) := by
  unfold asyncCallOrArrow
  refine .skip fun callee => .skip fun lineBreak => ?_
  refine Makes.bind (P := Proper keepsParens) inferInstance fun found hfound => ?_
  have helements : AllIn (Proper keepsParens) (found.map Prod.fst) := inferInstance
  have hcallee : AllIn (Head keepsParens) (Expression.identifier callee) := inferInstance
  infer_instance

instance {canArrow : Bool} : Makes (Head keepsParens) (plainName g ctx start canArrow) := by
  unfold plainName
  infer_instance

instance {canArrow : Bool} : Makes (Head keepsParens) (namePrimary g ctx start canArrow) := by
  unfold namePrimary
  infer_instance

instance {canArrow : Bool} : Makes (Head keepsParens) (otherPrimary g ctx start canArrow) := by
  unfold otherPrimary
  refine .skip fun token => ?_
  split <;> infer_instance

instance : Makes (Head keepsParens) (primary g ctx) := by
  unfold primary
  infer_instance

end Primary

section Calls

instance : Makes (Proper keepsParens) (computedProperty g ctx) := by
  unfold computedProperty
  infer_instance

/-- An expression with what has been applied to it so far. It is open if a part is optional, and
only what may be called has optional parts. -/
structure Chain.Linked (keepsParens allowCalls : Bool) (chain : Chain) : Prop where
  applicable : chain.expression.Applicable keepsParens
  isOpen : chain.expression.isOpen = chain.isOptional
  required : allowCalls = false → chain.isOptional = false

theorem returns_optionalLink {object : Expression} (h : object.Applicable keepsParens) :
    Returns (fun e => e.Applicable keepsParens ∧ e.isOpen = true)
      (optionalLink g ctx start object) := by
  unfold optionalLink
  refine .skip fun token => ?_
  split
  · refine returns_after keepsParens fun args hargs => .skip fun span => ?_
    exact .pure ⟨h.call hargs.all true, rfl⟩
  · refine returns_after keepsParens fun property hproperty => .skip fun span => ?_
    exact .pure ⟨h.member hproperty.all true true, rfl⟩
  · exact (stops_fail _).preserves
  · exact (stops_fail _).preserves
  · refine returns_after keepsParens fun property hproperty => .skip fun span => ?_
    exact .pure ⟨h.member hproperty.all false true, rfl⟩

/-- One more link keeps what is known of those before. -/
theorem returns_chainLink {allowCalls : Bool} {chain : Chain}
    (h : chain.Linked keepsParens allowCalls) :
    Returns (fun found => ∀ longer ∈ found, longer.Linked keepsParens allowCalls)
      (chainLink g ctx start allowCalls chain) := by
  have hlonger : ∀ {e : Expression}, e.Applicable keepsParens →
      e.isOpen = chain.expression.isOpen →
      ∀ longer ∈ some { chain with expression := e }, longer.Linked keepsParens allowCalls := by
    rintro e he hopen _ ⟨⟩
    exact ⟨he, hopen.trans h.isOpen, h.required⟩
  unfold chainLink
  refine .skip fun token => ?_
  split
  · refine .skip fun _ => .skip fun _ => returns_after keepsParens fun property hproperty => ?_
    refine .skip fun _ => .skip fun span => .pure ?_
    exact hlonger (h.applicable.member hproperty.all false false) (Bool.false_or _)
  · refine .skip fun _ => returns_after keepsParens fun property hproperty => ?_
    refine .skip fun _ => .skip fun span => .pure ?_
    exact hlonger (h.applicable.member hproperty.all true false) (Bool.false_or _)
  · split
    · refine .skip fun _ => returns_after keepsParens fun args hargs => ?_
      refine .skip fun _ => .skip fun span => .pure ?_
      exact hlonger (h.applicable.call hargs.all false) (Bool.false_or _)
    · exact .pure nofun
  · split
    · exact fun _ _ => (stops_fail _).bind
    · rename_i hcalls
      refine .skip fun _ => .skip fun _ => ?_
      refine Preserves.bind (returns_optionalLink h.applicable) fun e he => .skip fun _ => .pure ?_
      rintro _ ⟨⟩
      exact ⟨he.1, he.2, fun hno => absurd hno (by simpa using hcalls)⟩
  iterate 2
    split
    · exact fun _ _ => (stops_fail _).bind
    · rename_i hrequired
      have hclosed := h.isOpen.trans (Bool.eq_false_iff.mpr hrequired)
      refine .skip fun _ => returns_after keepsParens fun parts hparts => .skip fun _ => ?_
      refine .skip fun span => .pure (hlonger (.of_head ?_) hclosed.symm)
      exact (h.applicable.head hclosed).taggedTemplate hparts.all
  · exact .pure nofun

theorem linked_iterate {allowCalls : Bool} {e : Expression} (h : AllIn (Head keepsParens) e) :
    Returns (Chain.Linked keepsParens allowCalls)
      (iterate (chainLink g ctx start allowCalls) g.size ⟨e, false⟩) :=
  .iterate (fun _ hchain => returns_chainLink hchain) g.size
    ⟨.of_head h.all, h.all.free, fun _ => rfl⟩

instance {allowCalls : Bool} {e : Expression} [h : AllIn (Head keepsParens) e] :
    Makes (Proper keepsParens) (callTail g ctx start e allowCalls) := by
  refine ⟨(linked_iterate h).bind fun chain hchain => ?_⟩
  split
  · rename_i hoptional
    refine .skip fun _ => .skip fun span => .pure ⟨?_⟩
    exact Proper.chain hchain.applicable (hchain.isOpen.trans hoptional)
  · rename_i hrequired
    have hclosed := hchain.isOpen.trans (Bool.eq_false_iff.mpr hrequired)
    exact .pure ⟨(hchain.applicable.head hclosed).toProper⟩

instance {e : Expression} [h : AllIn (Head keepsParens) e] :
    Makes (Head keepsParens) (callTail g ctx start e false) := by
  refine ⟨(linked_iterate h).bind fun chain hchain => ?_⟩
  have hrequired := hchain.required rfl
  rw [hrequired]
  exact .pure ⟨hchain.applicable.head (hchain.isOpen.trans hrequired)⟩

instance {allowCall : Bool} : Makes (Head keepsParens) (superExpression ctx allowCall) := by
  unfold superExpression
  infer_instance

instance : Makes (Head keepsParens) (importCall g ctx start) := by
  unfold importCall
  refine .skip fun _ => .skip fun atParen => .skip fun atSpread => ?_
  extract_lets rest
  have hrest : ∀ u, Makes (Head keepsParens) (rest u) := by
    refine fun u => Makes.bind (P := Proper keepsParens) inferInstance fun source hsource => ?_
    refine .skip fun hasOptions => ?_
    extract_lets last
    have hlast : ∀ options : {options // AllIn (Proper keepsParens) options},
        Makes (Head keepsParens) (last options.1) := fun options => inferInstance
    clear_value last
    infer_instance
  clear_value rest
  infer_instance

instance : Makes (Head keepsParens) (importExpression g ctx) := by
  unfold importExpression
  refine .skip fun s => .skip fun _ => .skip fun _ => .skip fun token => ?_
  split <;> infer_instance

instance : Makes (Head keepsParens) (newCallee g ctx) := by
  unfold newCallee
  have himport : ∀ start, Makes (Head keepsParens) (do
      match ← importExpression g ctx with
      | .importCall _ _ _ => failAt (.unexpectedToken "import") start
      | e => return e) := fun start => by
    refine Makes.bind (P := Head keepsParens) inferInstance fun e he => ?_
    split <;> infer_instance
  infer_instance

instance : Makes (Head keepsParens) (newCall g ctx) := by
  refine .nested (.skip fun s => .skip fun _ => .skip fun atDot => ?_)
  split
  · infer_instance
  · refine .skip fun calleeStart => ?_
    refine Makes.bind (P := Head keepsParens) inferInstance fun inner hinner => ?_
    refine Makes.bind (P := Head keepsParens) inferInstance fun callee hcallee => ?_
    infer_instance

instance : Makes (Proper keepsParens) (leftHandSide g ctx) := by
  unfold leftHandSide
  refine .skip fun start => .skip fun atNew => ?_
  extract_lets rest
  have hrest : ∀ e, AllIn (Head keepsParens) e → Makes (Proper keepsParens) (rest e) :=
    fun e he => inferInstance
  have hafter : ∀ step : Parser Expression, Makes (Head keepsParens) step →
      Makes (Proper keepsParens) (step >>= rest) := fun _ h => h.bind hrest
  clear_value rest
  split
  · exact hafter _ inferInstance
  · refine .skip fun atSuper => ?_
    split
    · exact hafter _ inferInstance
    · refine .skip fun atImport => ?_
      split
      · exact hafter _ inferInstance
      · exact hafter _ inferInstance

end Calls

section Operators

instance {token : Token} : Makes (Proper keepsParens) (unaryOperation g ctx start token) := by
  unfold unaryOperation
  refine Makes.bind (P := Proper keepsParens) inferInstance fun argument hargument => ?_
  refine .skip fun _ => ?_
  split <;> infer_instance

omit hg in
theorem returns_checkUpdateTarget {target : Expression} {position : String} :
    Returns (fun _ => target.withoutParens.isChain = false)
      (checkUpdateTarget ctx target position) := by
  have hrefused : Returns (fun _ : Unit => target.withoutParens.isChain = false)
      (failAt (.invalidUpdateTarget position) target.start) := (stops_failAt _ _).preserves
  unfold checkUpdateTarget
  refine .skip fun s => ?_
  split
  · exact hrefused
  · split
    · rename_i heq
      exact Steady.keeps.mono fun _ _ => congrArg Expression.isChain heq
    · rename_i heq
      exact .pure (congrArg Expression.isChain heq)
    · exact hrefused

instance {token : Token} : Makes (Proper keepsParens) (updateBefore g ctx start token) := by
  refine ⟨returns_after keepsParens fun argument hargument => ?_⟩
  refine Preserves.bind returns_checkUpdateTarget fun _ htarget => .skip fun _ => ?_
  exact .skip fun span => .pure ⟨hargument.all.update htarget⟩

instance : Makes (Proper keepsParens) (awaitOperation g ctx start) := by
  unfold awaitOperation
  infer_instance

instance : Makes (Proper keepsParens) (updateAfter g ctx) := by
  refine ⟨.skip fun start => returns_after keepsParens fun e he => .skip fun token => ?_⟩
  refine .skip fun lineBreak => .skip fun isBare => ?_
  split
  · exact .pure he
  · refine .skip fun _ => Preserves.bind returns_checkUpdateTarget fun _ htarget => ?_
    exact .skip fun _ => .skip fun _ => .skip fun span => .pure ⟨he.all.update htarget⟩

instance : Makes (Proper keepsParens) (unary g ctx) := by
  unfold unary
  infer_instance

omit hg in
theorem binaryNode_allIn {span : Text.Span} {token : Token} {left right e : Expression}
    [AllIn (Proper keepsParens) left] [AllIn (Proper keepsParens) right]
    (h : binaryNode span token left right = some e) : AllIn (Proper keepsParens) e := by
  unfold binaryNode at h
  split at h
  · cases h
    infer_instance
  · obtain ⟨operator, -, rfl⟩ := Option.map_eq_some_iff.mp h
    infer_instance

instance {minimum : Nat} {left : Expression × Option Token} [AllIn (Proper keepsParens) left] :
    Makes (Proper keepsParens) (binaryLink g ctx start minimum left) := by
  have hnode : ∀ (span : Text.Span) (token : Token) (right : {e // AllIn (Proper keepsParens) e}),
      Makes (Proper keepsParens) (match binaryNode span token left.1 right.1 with
        | none => failAt (.unexpectedToken token.text) start
        | some e => do
          setAssignable false
          return some (e, some token)) := by
    intro span token right
    split
    · infer_instance
    · rename_i e he
      have : AllIn (Proper keepsParens) e := binaryNode_allIn he
      infer_instance
  unfold binaryLink
  infer_instance

instance {minimum : Nat} {left : Expression} [AllIn (Proper keepsParens) left] :
    Makes (Proper keepsParens) (binary g ctx start left minimum) := by
  unfold binary
  infer_instance

instance : Makes (Proper keepsParens) (binaryExpression g ctx) := by
  unfold binaryExpression
  infer_instance

instance : Makes (Proper keepsParens) (conditional g ctx) := by
  unfold conditional
  infer_instance

instance : Makes (Proper keepsParens) (yieldExpression g ctx) := by
  unfold yieldExpression
  infer_instance

omit hg in
instance {left : Expression} {cause : Cause} [h : AllIn (Proper keepsParens) left] :
    Makes (Proper keepsParens) (simpleTarget ctx left cause) := by
  have hinner := withoutParens_allIn h
  unfold simpleTarget
  refine .skip fun s => ?_
  split
  · infer_instance
  · rename_i span object property computed optional heq
    rw [heq] at hinner
    have htarget : AllIn (Proper keepsParens)
        (Pattern.member span object property computed optional) := ⟨HoldsBelow.target hinner.all⟩
    infer_instance
  · infer_instance

instance {left : Expression} {cause : Cause} [h : AllIn (Proper keepsParens) left] :
    Makes (Proper keepsParens) (patternTarget g ctx left cause) := by
  unfold patternTarget
  infer_instance

instance {token : Token} {left : Expression} [AllIn (Proper keepsParens) left] :
    Makes (Proper keepsParens) (assignmentTarget g ctx token left) := by
  unfold assignmentTarget
  infer_instance

instance : Makes (Proper keepsParens) (assignmentCover g ctx) := by
  refine .nested (.skip fun atYield => ?_)
  split
  · infer_instance
  · refine .skip fun start => .skip fun _ => ?_
    refine Makes.bind (P := Proper keepsParens) inferInstance fun left hleft => ?_
    refine .skip fun token => .skip fun isBare => ?_
    split
    · infer_instance
    · split <;> infer_instance

end Operators

end EcmaSyntax.Grammar
