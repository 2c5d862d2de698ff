import EcmaSyntax.Proofs.Progress.Phrases

/-!
Primary expressions and markup get on. A primary expression takes a token, and which one it is
decides how it goes on, so the token is known until it is taken. An element takes a token with its
name, a fragment with the bracket that ends its opening tag.
-/

namespace EcmaSyntax.Grammar

open EcmaSyntax.Diagnostic EcmaSyntax.Lexer EcmaSyntax.Scope EcmaSyntax.Tree

variable {version : Nat} [Unicode.IdentifierChars version]

variable {c : Course} {more : Nat} {s : State} {g : Phrases} [hg : g.Progresses c] {ctx : Context}
  {exit : MarkupExit} {start : Nat} {canArrow : Bool}

section Names

theorem scanMarkupName_token (h : s.token.isWord = true) :
    Yields (withLexer scanMarkupName) (fun _ s' => s'.token ≠ .endOfSource) s := by
  refine .ok rfl ?_
  change Lexer.State.token (ite (s.token.isWord = true) _ _) ≠ _
  rw [if_pos h]
  split
  · exact State.ne_of_isWord h
  · nofun

theorem passes_markupIdentifier : Passes c more (fun _ => True) markupIdentifier s := by
  unfold markupIdentifier
  refine .look rfl (.guard tells_fail fun hword hs => ?_)
  have hnamed := scanMarkupName_token (s := s) (by simpa using hword)
  refine ((passes_scanMarkupName hs).and hnamed).bind fun _ s₁ hs₁ => ?_
  obtain ⟨⟨hgoes, -⟩, hend⟩ := hs₁
  refine hgoes.passes hs ?_
  exact .look rfl (.look rfl (.taken (passes_nextInTag hend) fun _ => inferInstance))

instance : Takes c markupIdentifier := ⟨fun _ => passes_markupIdentifier⟩

theorem passes_markupPath {object : MarkupPath} :
    Passes c more (·.isSome = true) (Round.markupPath start object) s := by
  refine .look rfl ?_
  split
  · rename_i hdot
    exact .taken (passes_nextInTag (State.ne_of_beq hdot)) fun _ => inferInstance
  · exact .pure nofun

theorem passes_markupName : Passes c more (fun _ => True) (markupName g) s := by
  unfold markupName
  refine .look rfl (.taken passes_markupIdentifier fun first => .skip fun atColon => ?_)
  split
  · infer_instance
  · have hpath : Proceeds c (iterate (Round.markupPath s.start) g.size (.identifier first)) :=
      proceeds_iterate (fun _ _ => passes_markupPath) _
    infer_instance

instance : Takes c (markupName g) := ⟨fun _ => passes_markupName⟩

end Names

section Attributes

instance : Proceeds c (attributeValue g ctx) := by
  unfold attributeValue
  refine .skip fun start => .skip fun token => ?_
  split
  · infer_instance
  · refine .skip fun _ => .skip fun isEmpty => .guard tells_failAt (.skip fun e => ?_)
    infer_instance
  · infer_instance
  · infer_instance

instance : Takes c (namedAttribute g ctx) := by
  unfold namedAttribute
  refine .later fun start => .first fun first => .skip fun atColon => ?_
  extract_lets rest
  have hrest : ∀ name, Proceeds c (rest name) := by
    intro name
    refine .skip fun atAssign => ?_
    extract_lets last
    have hlast : ∀ value, Proceeds c (last value) := fun value => inferInstance
    clear_value last
    infer_instance
  clear_value rest
  infer_instance

theorem passes_spreadAttribute (hend : s.token ≠ .endOfSource) :
    Passes c more (fun _ => True) (spreadAttribute g ctx) s :=
  .look rfl (.taken (passes_next hend) fun _ => inferInstance)

instance : Advances c (Round.markupAttribute g ctx) := by
  refine ⟨fun earlier s => .look rfl ?_⟩
  split
  · exact .pure id
  · exact .pure id
  · rename_i htoken
    exact .taken (passes_spreadAttribute (State.ne_of_eq htoken)) fun _ => inferInstance
  · exact .failed tells_fail
  · split
    · exact .taken (Takes.passes s) fun _ => inferInstance
    · exact .failed tells_unexpected

instance : Proceeds c (attributes g ctx) := by unfold attributes; infer_instance

end Attributes

section Elements

theorem passes_childExpression (hend : s.token ≠ .endOfSource) :
    Passes c more (fun _ => True) (childExpression g ctx) s := by
  refine .look rfl (.taken (passes_next hend) fun _ => .skip fun isSpread => ?_)
  split
  · infer_instance
  · exact .skip fun atBrace => inferInstance

instance : Advances c (Round.child g ctx) := by
  refine ⟨fun earlier s => .look rfl ?_⟩
  split
  · rename_i htoken
    refine .look rfl (.look rfl (.look rfl ?_))
    exact .taken (passes_nextChild (State.ne_of_eq htoken)) fun _ => inferInstance
  · rename_i htoken
    exact .taken (passes_childExpression (State.ne_of_eq htoken)) fun _ => inferInstance
  · refine .skip fun token s₁ _ => ?_
    split
    · exact .pure id
    · exact .taken (Takes.passes s₁) fun _ => inferInstance
  · exact .failed tells_fail
  · exact .failed tells_unexpected

instance : Proceeds c (children g ctx) := by unfold children; infer_instance

theorem passes_fragmentFrom (hend : s.token ≠ .endOfSource) :
    Passes c more (fun _ => True) (fragmentFrom g ctx exit start) s := by
  refine .look rfl (.taken (passes_nextChild hend) fun _ => .skip fun found => ?_)
  refine .skip fun closingStart => .skip fun _ => .skip fun _ => .skip fun atEnd => ?_
  exact .guard tells_fail (.skip fun span => inferInstance)

instance {name : MarkupName} : Proceeds c (closingTag g name) := by
  unfold closingTag
  refine .skip fun start => .skip fun _ => .skip fun _ => .skip fun atEnd => ?_
  extract_lets rest
  have hrest : ∀ closing, Proceeds c (rest closing) := by
    intro closing
    cases closing with
    | none => exact inferInstanceAs (Proceeds c (failAt _ _))
    | some found => exact inferInstanceAs (Proceeds c (ite _ _ _))
  clear_value rest
  infer_instance

theorem passes_markupElement :
    Passes c more (fun _ => True) (markupElement g ctx exit start) s := by
  unfold markupElement
  refine .taken passes_markupName fun name => .skip fun found => .skip fun selfClosing => ?_
  extract_lets rest checked
  have hrest : ∀ u, Proceeds c (rest u) := fun u => inferInstance
  clear_value rest
  have hchecked : ∀ u, Proceeds c (checked u) := fun u => inferInstance
  clear_value checked
  infer_instance

theorem passes_markup : Passes c more (fun _ => True) (markup g ctx exit) s := by
  refine .nested fun depth => .look rfl (.skip fun _ s₁ _ => .look rfl ?_)
  split
  · rename_i hat
    exact passes_fragmentFrom (State.ne_of_beq hat)
  · exact passes_markupElement

theorem passes_markupExpression :
    Passes c more (fun _ => True) (markupExpression g ctx) s :=
  .taken passes_markup fun _ => inferInstance

end Elements

set_option synthInstance.maxSize 1000

section Literals

instance : Advances c (Round.arrayElement g ctx) := by
  refine ⟨fun earlier s => .look rfl ?_⟩
  split
  · exact .pure id
  · refine passes_accept.cases (fun found hfound => ?_) fun found s' hnot _ => ?_
    · rw [if_pos hfound]
      infer_instance
    · rw [if_neg hnot]
      refine .look rfl (.skip fun isSpread s₁ _ => .taken (Takes.passes s₁) fun found => ?_)
      infer_instance

theorem passes_arrayLiteral (hend : s.token ≠ .endOfSource) :
    Passes c more (fun _ => True) (arrayLiteral g ctx) s :=
  .look rfl (.taken (passes_next hend) fun _ => inferInstance)

instance {keyStart : Nat} {id : Identifier} :
    Proceeds c (shorthandProperty g ctx start keyStart id) := by
  unfold shorthandProperty; infer_instance

instance : Takes c (objectProperty g ctx) := by
  unfold objectProperty
  refine .later fun start => .later fun head => .later fun token => .later fun keyStart => ?_
  refine .first fun found => ?_
  split
  refine .skip fun isMethod => ?_
  split
  · infer_instance
  · refine .skip fun isNamed => ?_
    split
    · infer_instance
    · split
      · split <;> infer_instance
      · infer_instance

instance : Takes c (objectMember g ctx) := by
  unfold objectMember
  infer_instance

theorem passes_objectLiteral (hend : s.token ≠ .endOfSource) :
    Passes c more (fun _ => True) (objectLiteral g ctx) s :=
  .look rfl (.taken (passes_next hend) fun _ => inferInstance)

end Literals

section Arrows

variable {isAsync : Bool} {params : List Pattern}

instance {inner : Context} {simple : Bool} [c.Permits inner] :
    Proceeds c (arrowBody g ctx inner simple) := by
  unfold arrowBody
  infer_instance

instance {options : Options} {kind : BindingKind} {pattern : Pattern} :
    Proceeds c (declarePattern options ctx kind pattern) := by
  unfold declarePattern; infer_instance

instance : Proceeds c (arrowFunction g ctx start params isAsync) := by
  unfold arrowFunction
  refine .skip fun _ => ?_
  extract_lets inner
  have hinner : c.Permits inner := inferInstance
  clear_value inner
  refine .bind (.inScope (.skip fun _ => .skip fun s => .skip fun _ => ?_))
    fun body => .skip fun _ => .skip fun span => ?_
  · refine .bind (.asFunction inferInstance) fun body => ?_
    dsimp only
    infer_instance
  · split <;> infer_instance

end Arrows

section Groups

variable {items : List GroupItem}

instance : Advances c (fun _ => groupItem g ctx) := by
  refine ⟨fun earlier s => .look rfl ?_⟩
  split
  · exact .pure id
  · refine .look rfl (passes_accept.cases (fun found hfound => ?_) fun found s' hnot _ => ?_)
    · rw [if_pos hfound]
      infer_instance
    · rw [if_neg hnot]
      refine .taken (Takes.passes s') fun e => ?_
      infer_instance

instance {options : Options} {use : PatternUse} : Light (conversion options use ctx) :=
  light_of_reads fun _ => ⟨_, rfl⟩

/-- What is wrong with a pattern is found when an expression is converted to it. -/
theorem light_groupParameters (options : Options) (conversion : Conversion) :
    Light (ofExcept (items.mapM (groupParameter conversion))) := by
  have h : Gives (fun ps =>
      (∀ item ∈ items, Allowed options True conversion.ctx.grant (.expression item.expression)) →
        ∀ p ∈ ps, Allowed options True conversion.ctx.grant (.pattern p))
      (items.mapM (groupParameter conversion)) := gives_groupParameters id items
  exact h.tells.light

theorem light_toPatterns (options : Options) (conversion : Conversion) (elements : List Element) :
    Light (ofExcept (toPatterns conversion elements)) := by
  have h : Gives (fun ps =>
      (∀ x ∈ elements, Allowed options True conversion.ctx.grant (.element x)) →
        ∀ p ∈ ps, Allowed options True conversion.ctx.grant (.pattern p))
      (toPatterns conversion elements) := gives_toPatterns_allowed id elements
  exact h.tells.light

instance : Proceeds c (groupArrow g ctx start items) := by
  have hparameters : ∀ conversion, Light (ofExcept (items.mapM (groupParameter conversion))) :=
    light_groupParameters g.options
  unfold groupArrow
  infer_instance

instance {close : Nat} : Proceeds c (groupValue g start close items) := by
  unfold groupValue
  extract_lets value
  have hvalue : ∀ u, Proceeds c (value u) := by
    intro u
    dsimp only [value]
    split
    · infer_instance
    · infer_instance
  clear_value value
  split <;> infer_instance

theorem passes_parenGroup (hend : s.token ≠ .endOfSource) :
    Passes c more (fun _ => True) (parenGroup g ctx start canArrow) s := by
  refine .taken (passes_next hend) fun _ => ?_
  infer_instance

end Groups

section Names

theorem passes_asyncNameArrow (hend : s.token ≠ .endOfSource) :
    Passes c more (fun _ => True) (asyncNameArrow g ctx start) s := by
  refine .taken (passes_next hend) fun _ => ?_
  infer_instance

theorem passes_asyncCallOrArrow (hend : s.token ≠ .endOfSource) :
    Passes c more (fun _ => True) (asyncCallOrArrow g ctx start canArrow) s := by
  refine .taken (passes_identifier hend) fun callee => .skip fun lineBreak => .skip fun found => ?_
  have hparameters := fun conversion => light_toPatterns g.options conversion (found.map Prod.fst)
  refine .skip fun atArrow => ?_
  split <;> infer_instance

theorem passes_plainName (hend : s.token ≠ .endOfSource) :
    Passes c more (fun _ => True) (plainName g ctx start canArrow) s :=
  .taken (passes_identifier hend) fun _ => inferInstance

theorem passes_namePrimary (hend : s.token ≠ .endOfSource) :
    Passes c more (fun _ => True) (namePrimary g ctx start canArrow) s := by
  unfold namePrimary
  refine .look rfl ?_
  split
  · refine .peeks peeks_peekNext fun found s₁ h₁ _ => ?_
    rw [← h₁] at hend
    split
    extract_lets sameLine
    split
    · exact passes_functionExpression
    · refine .peeks (.and (peeks_peekSecond.result _) _) fun isLoop s₂ h₂ _ => ?_
      rw [← h₂] at hend
      split
      · exact passes_asyncNameArrow hend
      · split
        · exact passes_asyncCallOrArrow hend
        · exact passes_plainName hend
  · exact passes_plainName hend

end Names

section Primary

theorem passes_otherPrimary :
    Passes c more (fun _ => True) (otherPrimary g ctx start canArrow) s := by
  unfold otherPrimary
  refine .look rfl ?_
  split
  case _ h => exact .taken (passes_literal (State.ne_of_eq h)) fun _ => inferInstance
  case _ h => exact .taken (passes_literal (State.ne_of_eq h)) fun _ => inferInstance
  case _ h => exact .taken (passes_literal (State.ne_of_eq h)) fun _ => inferInstance
  case _ h => exact .taken (passes_literal (State.ne_of_eq h)) fun _ => inferInstance
  case _ h => exact .taken (passes_literal (State.ne_of_eq h)) fun _ => inferInstance
  case _ h => exact .taken (passes_literal (State.ne_of_eq h)) fun _ => inferInstance
  case _ h => exact .taken (passes_regexLiteral (State.ne_of_eq h)) fun _ => inferInstance
  case _ h => exact .taken (passes_regexLiteral (State.ne_of_eq h)) fun _ => inferInstance
  case _ h => exact .taken (passes_next (State.ne_of_eq h)) fun _ => inferInstance
  case _ h => exact .taken (passes_template (State.ne_of_eq h)) fun _ => inferInstance
  case _ h => exact .taken (passes_template (State.ne_of_eq h)) fun _ => inferInstance
  case _ h => exact passes_arrayLiteral (State.ne_of_eq h)
  case _ h => exact passes_objectLiteral (State.ne_of_eq h)
  case _ h => exact passes_parenGroup (State.ne_of_eq h)
  case _ h => exact passes_functionExpression
  case _ h => exact .taken passes_classDefinition fun _ => inferInstance
  case _ h =>
    split
    · refine .taken (passes_decorators h) fun found => .skip fun atClass => ?_
      exact .guard tells_fail inferInstance
    · exact .failed tells_unexpected
  case _ h =>
    split
    · exact passes_markupExpression
    · exact .failed tells_unexpected
  case _ h =>
    refine .peeks peeks_peekToken fun token s₁ h₁ _ => ?_
    split
    · refine .taken (passes_privateReference ?_) fun _ => inferInstance
      rw [h₁]
      exact State.ne_of_eq h
    · exact .failed tells_fail
  case _ => exact .failed tells_unexpected

theorem passes_primary : Passes c more (fun _ => True) (primary g ctx) s := by
  unfold primary
  refine .look rfl (.look rfl ?_)
  extract_lets canArrow
  refine .change rfl rfl rfl (fun _ => rfl) (.look rfl ?_)
  split
  · rename_i hname
    exact passes_namePrimary (State.ne_of_isIdentifier hname)
  · refine .look rfl ?_
    split
    · exact .failed tells_fail
    · exact passes_otherPrimary

instance : Takes c (primary g ctx) := ⟨fun _ => passes_primary⟩

end Primary

end EcmaSyntax.Grammar
