import EcmaSyntax.Proofs.Formula.Operations

/-!
Conditionals and assignments, and with them the recovery of every formula. A formula
can be read at its own level and at all weaker ones; in parentheses it can be read
at every level. Both follow from the same for its parts.
-/

namespace EcmaSyntax.Grammar

open EcmaSyntax.Diagnostic EcmaSyntax.Lexer EcmaSyntax.Print EcmaSyntax.Text EcmaSyntax.Tree

variable {version : Nat} [Unicode.IdentifierChars version]

section Assignments

variable {size fuel : Nat} {s : State} {t : Word} {ts ws : List Word}

/-- What is no conditional ends before anything but a question mark. -/
theorem conditional_of_binaryExpression {isEnclosed : Bool} {e : Expression}
    (hformula : Formula e) (h : Recovers 3 binaryExpression isEnclosed e) :
    Recovers 2 conditional isEnclosed e := by
  intro size fuel s t ts hahead ht hroom
  have hquestion : t.token ≠ .question := ne_of_hold ht (by decide)
  unfold conditional
  refine .run rfl ((h size fuel s t ts hahead (by omega) hroom).bind fun e' s₁ he' => ?_)
  refine .run (he'.ahead.atToken _) (.run (he'.isBareArrow (.base hformula)) ?_)
  exact .yes (by simp [hquestion]) (.pure he')

theorem conditional_recovers {test consequent alternate : Expression} (hformula : Formula test)
    (htest : Recovers 3 binaryExpression (bindsBelow .coalesce test) test)
    (hconsequent : IsItem consequent) (halternate : IsItem alternate) (span : Span) :
    Recovers 1 conditional false (.conditional span test consequent alternate) := by
  intro size fuel s t ts hahead ht hroom
  have hwords : wordsOf false (.conditional span test consequent alternate) ++ t :: ts =
      wordsOf (bindsBelow .coalesce test) test ++ .sign .question ::
        (itemWords consequent ++ .sign .colon :: (itemWords alternate ++ t :: ts)) := by
    simp [wordsOf, formulaWords]
  rw [hwords] at hahead hroom
  unfold conditional
  refine .run rfl ((htest size fuel s _ _ hahead (by decide) hroom).bind fun test' s₁ htest' => ?_)
  have hs₁ := htest'.ahead
  refine .run (hs₁.atToken _) (.run (htest'.isBareArrow (.base hformula)) (.no rfl ?_))
  refine .run (hs₁.checkCover test') (.next hs₁ fun s₂ _ hs₂ => ?_)
  refine (hconsequent.assignment hs₂ (by decide) hroom ?_).bind fun consequent' s₃ hconsequent' =>
    ?_
  · simp only [List.length_append, List.length_cons]
    omega
  refine .expect hconsequent'.ahead rfl fun s₄ _ hs₄ => ?_
  refine (halternate.assignment hs₄ ht hroom ?_).bind fun alternate' s₅ halternate' => ?_
  · simp only [List.length_append, List.length_cons]
    omega
  refine .run rfl (.run rfl (.pure ?_))
  refine .of_not_isReference ?_ (halternate'.ahead.setAssignable false) rfl
  simp only [Expression.withoutSpans, htest'.same, hconsequent'.same, halternate'.same]

/-- The start of an assignment expression, which is no `yield`. -/
theorem assignmentCover_meets {g : Phrases} {Q : Expression → State → Prop}
    (hahead : Ahead s (t :: ts))
    (h : ∀ s', Ahead s' (t :: ts) → Meets IsTooDeep (do
      let left ← conditional g .none
      let token ← currentToken
      if (← isBareArrow left) || !token.isAssignment then return left
      match AssignmentOperator.ofToken? token with
      | none => unexpected
      | some operator =>
        let target ← assignmentTarget g .none token left
        next
        let right ← g.assignment .none
        plainExpression
        return .assignment (← spanFrom s'.start) operator target right)
        (fun e s'' => ∀ depth, Q e { s'' with depth := depth }) s') :
    Meets IsTooDeep (assignmentCover g .none) Q s := by
  unfold assignmentCover
  refine .nested fun depth => ?_
  refine .run ((hahead.setDepth depth).atWord _) (.no rfl (.run rfl (.run rfl ?_)))
  refine (h { s with depth := depth, assignmentStart := some s.start } ?_).mono fun e s' he => he _
  exact ⟨hahead.observing, hahead.cover, hahead.lexer⟩

theorem exists_first_word {e : Expression} (h : Formula e) (isEnclosed : Bool)
    (after : List Word) : ∃ w words, wordsOf isEnclosed e ++ after = w :: words := by
  obtain ⟨w, words, hwords, -⟩ := ((opens_formulaWords (.base h)).enclose isEnclosed).exists_head
  exact ⟨w, words ++ after, by rw [wordsOf, hwords]; rfl⟩

/-- What is no assignment ends before anything but an assignment operator. -/
theorem assignmentCover_of_conditional {isEnclosed : Bool} {e : Expression} (hformula : Formula e)
    (h : Recovers 1 conditional isEnclosed e) : Recovers 1 assignmentCover isEnclosed e := by
  intro size fuel s t ts hahead ht hroom
  obtain ⟨w, words, hwords⟩ := exists_first_word hformula isEnclosed (t :: ts)
  have hassignment : t.token.isAssignment = false := by
    refine Bool.eq_false_iff.mpr fun hassignment => ?_
    have hhold := hold_of_isAssignment hassignment
    omega
  rw [hwords] at hahead
  refine assignmentCover_meets hahead fun s₁ hs₁ => ?_
  rw [← hwords] at hs₁
  refine (h size fuel s₁ t ts hs₁ ht hroom).bind fun e' s₂ he' => ?_
  refine .run he'.ahead.currentToken (.run (he'.isBareArrow (.base hformula)) ?_)
  exact .yes (by simp [hassignment]) (.pure fun depth => he'.setDepth depth)

/-- A target that was read is turned into the same target. -/
theorem assignmentTarget_meets {g : Phrases} {left : Pattern} {target target' : Expression}
    (htarget : left.asExpression? = some target)
    (h : Recovered false false target ws target' s) (token : Token) :
    Meets IsTooDeep (assignmentTarget g .none token target') (fun p s' =>
      p.withoutSpans = left.withoutSpans ∧ Ahead s' ws) s := by
  have hreference : isReference target = true := by
    obtain ⟨_, -, rfl⟩ | ⟨_, _, _, _, _, -, rfl⟩ := Pattern.asExpression?_cases htarget
    · rfl
    · rfl
  have hassignable := h.target rfl hreference
  have hsimple (cause : Cause) : Meets IsTooDeep (simpleTarget .none target' cause) (fun p s' =>
      p.withoutSpans = left.withoutSpans ∧ Ahead s' ws) s := by
    have hsame := h.same
    unfold simpleTarget
    refine .run rfl (.no (by simp [hassignable]) ?_)
    obtain ⟨id, rfl, rfl⟩ | ⟨span, object, property, computed, optional, rfl, rfl⟩ :=
      Pattern.asExpression?_cases htarget
    · obtain ⟨id', rfl⟩ | ⟨_, _, _, _, _, rfl⟩ := exists_reference hreference h.same
      · refine .run rfl (.pure ⟨?_, h.ahead⟩)
        simpa [Expression.withoutSpans, Pattern.withoutSpans] using hsame
      · cases hsame
    · obtain ⟨id', rfl⟩ | ⟨_, _, _, _, _, rfl⟩ := exists_reference hreference h.same
      · cases hsame
      · refine .pure ⟨?_, h.ahead⟩
        simpa [Expression.withoutSpans, Pattern.withoutSpans] using hsame
  have hliteral : isArrayOrObject target' = false := by
    obtain ⟨id', rfl⟩ | ⟨_, _, _, _, _, rfl⟩ := exists_reference hreference h.same
    · rfl
    · rfl
  unfold assignmentTarget
  split
  · unfold patternTarget
    refine .run rfl (.no (by simp [hliteral]) ?_)
    exact .run (h.ahead.checkCover target') (hsimple _)
  · exact .run (h.ahead.checkCover target') (hsimple _)

theorem assignment_recovers {left : Pattern} {target right : Expression}
    (htarget : left.asExpression? = some target) (hformula : Formula target)
    (hleft : Recovers 2 conditional false target) (hright : IsItem right) (span : Span)
    (operator : AssignmentOperator) :
    Recovers 1 assignmentCover false (.assignment span operator left right) := by
  intro size fuel s t ts hahead ht hroom
  have hwords : wordsOf false (.assignment span operator left right) ++ t :: ts =
      wordsOf false target ++ operatorWord operator.token :: (itemWords right ++ t :: ts) := by
    simp [wordsOf, formulaWords, targetWords_eq htarget]
  have hassignment : operator.token.isAssignment = true := by
    cases operator <;> rfl
  have hhold : hold operator.token = 2 := hold_of_isAssignment hassignment
  obtain ⟨w, words, hfirst⟩ := exists_first_word hformula false
    (operatorWord operator.token :: (itemWords right ++ t :: ts))
  rw [hwords] at hahead hroom
  rw [hfirst] at hahead
  refine assignmentCover_meets hahead fun s₁ hs₁ => ?_
  rw [← hfirst] at hs₁
  refine (hleft size fuel s₁ _ _ hs₁ (Nat.le_of_eq hhold) hroom).bind fun target' s₂ htarget' => ?_
  refine .run htarget'.ahead.currentToken (.run (htarget'.isBareArrow (.base hformula)) ?_)
  refine .no (by rw [Bool.false_or, Bool.not_eq_false']; exact hassignment) ?_
  change Meets IsTooDeep (match AssignmentOperator.ofToken? operator.token with
    | none => _
    | some _ => _) _ s₂
  rw [AssignmentOperator.ofToken?_token]
  refine (assignmentTarget_meets htarget htarget' operator.token).bind fun p s₃ hp => ?_
  refine .next hp.2 fun s₄ _ hs₄ => ?_
  refine (hright.assignment hs₄ ht hroom ?_).bind fun right' s₅ hright' => ?_
  · simp only [List.length_append, List.length_cons]
    omega
  refine .run rfl (.run rfl (.pure fun depth => ?_))
  refine .of_not_isReference ?_ ⟨hright'.ahead.observing, rfl, hright'.ahead.lexer⟩ rfl
  simp only [Expression.withoutSpans, hp.1, hright'.same]

end Assignments

section Levels

/-- A formula can be read: without parentheses where its level is asked for, and with
them anywhere. -/
structure Readable (e : Expression) : Prop where
  formula : Formula e
  items : ∀ x ∈ parts e, IsItem x
  linked : enclosesCallee e = false → ∃ isBaseEnclosed base tail,
    Linked false false e isBaseEnclosed base tail
  unary : bindsBelow .unary e = false → Recovers 15 unary false e
  operated : bindsBelow .coalesce e = false → ∃ isBaseEnclosed base tail,
    Operated false e isBaseEnclosed base tail
  item : IsItem e

namespace Readable

variable {e : Expression}

theorem group (h : Readable e) : IsHead true e := isHead_group h.formula h.items

/-- What something is applied to. -/
theorem callee (h : Readable e) : ∃ isBaseEnclosed base tail,
    Linked (enclosesCallee e) false e isBaseEnclosed base tail := by
  cases henclosed : enclosesCallee e with
  | true => exact ⟨true, e, [], .of_head h.group⟩
  | false => exact h.linked henclosed

/-- The callee of `new`. -/
theorem constructor (h : Readable e) : ∃ isBaseEnclosed base tail,
    Linked (enclosesConstructor e) false e isBaseEnclosed base tail := by
  cases henclosed : enclosesConstructor e with
  | true => exact ⟨true, e, [], .of_head h.group⟩
  | false =>
    obtain ⟨hcall, hbinds⟩ := Bool.or_eq_false_iff.mp henclosed
    refine h.linked (Bool.or_eq_false_iff.mpr ⟨?_, ?_⟩)
    · cases e <;> first | rfl | cases hcall
    · have hnot : ¬ (precedence e).rank < Precedence.member.rank := of_decide_eq_false hbinds
      have hlt : Precedence.leftHandSide.rank < Precedence.member.rank := by decide
      exact decide_eq_false fun hless : (precedence e).rank < Precedence.leftHandSide.rank =>
        hnot (by omega)

/-- In parentheses a formula is an operand. -/
theorem unary_group (h : Readable e) : Recovers 15 Grammar.unary true e :=
  unary_of_leftHandSide (leftHandSide_recovers (.of_head h.group)) h.formula
    h.group.startsPlainly

theorem unaryOperand (h : Readable e) : Recovers 15 Grammar.unary (bindsBelow .unary e) e := by
  cases henclosed : bindsBelow .unary e with
  | true => exact h.unary_group
  | false => exact h.unary henclosed

/-- An operand of a binary operator that asks for some level. -/
theorem operand (h : Readable e) {isEnclosed : Bool}
    (hlevel : isEnclosed = false → bindsBelow .coalesce e = false) :
    ∃ isBaseEnclosed base tail, Operated isEnclosed e isBaseEnclosed base tail := by
  cases isEnclosed with
  | true => exact ⟨true, e, [], .of_unary h.formula h.unary_group rfl⟩
  | false => exact h.operated (hlevel rfl)

theorem binaryExpression (h : Readable e) :
    Recovers 3 Grammar.binaryExpression (bindsBelow .coalesce e) e := by
  obtain ⟨isBaseEnclosed, base, tail, hoperated⟩ :=
    h.operand fun henclosed : bindsBelow .coalesce e = false => henclosed
  exact binaryExpression_recovers hoperated

end Readable

variable {e : Expression}

/-- What binds at least as tightly as some level also does for a weaker one. -/
theorem not_bindsBelow_of_le {least least' : Precedence} (h : bindsBelow least e = false)
    (hle : least'.rank ≤ least.rank) : bindsBelow least' e = false := by
  have hnot : ¬ (precedence e).rank < least.rank := of_decide_eq_false h
  exact decide_eq_false fun hless : (precedence e).rank < least'.rank => hnot (by omega)

theorem Recovers.mono {rank rank' : Nat} {phrase : Phrases → Context → Parser Expression}
    {isEnclosed : Bool} (h : Recovers rank phrase isEnclosed e) (hle : rank' ≤ rank) :
    Recovers rank' phrase isEnclosed e :=
  fun size fuel s t ts hahead ht hroom => h size fuel s t ts hahead (by omega) hroom

theorem Operated.assignmentCover {isEnclosed isBaseEnclosed : Bool} {base : Expression}
    {tail : List Word} (h : Operated isEnclosed e isBaseEnclosed base tail) :
    Recovers 1 assignmentCover isEnclosed e := by
  have hconditional := conditional_of_binaryExpression h.formula (binaryExpression_recovers h)
  exact assignmentCover_of_conditional h.formula (hconditional.mono (by omega))

theorem Linked.unary {isEnclosed isBaseEnclosed : Bool} {base : Expression} {tail : List Word}
    (hformula : Formula e) (h : Linked isEnclosed false e isBaseEnclosed base tail) :
    Recovers 15 Grammar.unary isEnclosed e := by
  refine unary_of_leftHandSide (leftHandSide_recovers h) hformula fun after => ?_
  rw [h.words, List.append_assoc]
  exact h.head.startsPlainly _

/-- A formula other than a sequence stands for itself between commas. -/
theorem readable_of_item (hformula : Formula e) (hlevel : bindsBelow .assignment e = false)
    (hlinked : enclosesCallee e = false → ∃ isBaseEnclosed base tail,
      Linked false false e isBaseEnclosed base tail)
    (hunary : bindsBelow .unary e = false → Recovers 15 unary false e)
    (hoperated : bindsBelow .coalesce e = false → ∃ isBaseEnclosed base tail,
      Operated false e isBaseEnclosed base tail)
    (hitem : Recovers 1 assignmentCover false e) : Readable e := by
  have hself : IsItem e := ⟨hformula, by rw [hlevel]; exact hitem⟩
  have hparts : parts e = [e] := by
    cases e <;> first | rfl | cases hlevel
  refine ⟨hformula, ?_, hlinked, hunary, hoperated, hself⟩
  rw [hparts]
  exact List.forall_mem_singleton.mpr hself

theorem readable_of_operated (hformula : Formula e) (hlevel : bindsBelow .assignment e = false)
    (hlinked : enclosesCallee e = false → ∃ isBaseEnclosed base tail,
      Linked false false e isBaseEnclosed base tail)
    (hunary : bindsBelow .unary e = false → Recovers 15 unary false e)
    {isBaseEnclosed : Bool} {base : Expression} {tail : List Word}
    (h : Operated false e isBaseEnclosed base tail) : Readable e :=
  readable_of_item hformula hlevel hlinked hunary (fun _ => ⟨_, _, _, h⟩) h.assignmentCover

theorem readable_of_unary (hformula : Formula e) (hlevel : bindsBelow .assignment e = false)
    (hlinked : enclosesCallee e = false → ∃ isBaseEnclosed base tail,
      Linked false false e isBaseEnclosed base tail)
    (hoperator : operatorToken? e = none) (h : Recovers 15 unary false e) : Readable e :=
  readable_of_operated hformula hlevel hlinked (fun _ => h) (.of_unary hformula h hoperator)

theorem readable_of_linked (hformula : Formula e) (hlevel : bindsBelow .assignment e = false)
    (hoperator : operatorToken? e = none) {isBaseEnclosed : Bool} {base : Expression}
    {tail : List Word} (h : Linked false false e isBaseEnclosed base tail) : Readable e :=
  readable_of_unary hformula hlevel (fun _ => ⟨_, _, _, h⟩) hoperator (h.unary hformula)

/-- A sequence is read in parentheses only. -/
theorem readable_of_sequence {span : Span} {expressions : List Expression}
    (hformula : Formula (.sequence span expressions)) (hitems : ∀ x ∈ expressions, IsItem x) :
    Readable (.sequence span expressions) := by
  have hhead : IsHead true (.sequence span expressions) := isHead_group hformula hitems
  have hunary := (Linked.of_head hhead).unary hformula
  refine ⟨hformula, hitems, (nomatch ·), (nomatch ·), (nomatch ·), ?_⟩
  exact ⟨hformula, (Operated.of_unary hformula hunary rfl).assignmentCover⟩

theorem areArguments_of_readable {args : List Element}
    (h : ∀ x ∈ args, ∀ e, elementExpression? x = some e → Readable e) (hholes : .hole ∉ args) :
    AreArguments args :=
  ⟨fun x hx e he => (h x hx e he).item, hholes⟩

theorem isProperty_of_readable {computed : Bool} {property : Expression}
    (hproperty : FormulaProperty computed property) (h : Formula property → Readable property) :
    IsProperty computed property := by
  refine ⟨hproperty, ?_⟩
  rintro rfl
  exact (h hproperty.formula).items

/-- Members and calls along a chain, down to the formula that they are applied to. -/
theorem linked_of_links {found : Bool} {e : Expression} (h : Links found e) {n : Nat}
    (hsize : sizeOf e < n)
    (hsmaller : ∀ e', sizeOf e' < n → Formula e' → Readable e') :
    ∃ isBaseEnclosed base tail, Linked (enclosesCallee e) found e isBaseEnclosed base tail := by
  cases h with
  | @member found span object property computed optional hobject hproperty =>
    simp only [Expression.member.sizeOf_spec] at hsize
    obtain ⟨_, _, _, hlinked⟩ := linked_of_links hobject (n := n) (by omega) hsmaller
    have hname := isProperty_of_readable hproperty (hsmaller property (by omega))
    exact ⟨_, _, _, linked_member hlinked hname span optional⟩
  | @call found span callee arguments optional hcallee harguments hholes =>
    simp only [Expression.call.sizeOf_spec] at hsize
    obtain ⟨_, _, _, hlinked⟩ := linked_of_links hcallee (n := n) (by omega) hsmaller
    have hargs : AreArguments arguments := by
      refine areArguments_of_readable (fun x hx e' he' => ?_) hholes
      have hlt := sizeOf_lt_of_element hx he'
      exact hsmaller e' (by omega) ((harguments x hx).formula he')
    exact ⟨_, _, _, linked_call hlinked hargs span optional⟩
  | base h => exact (hsmaller e hsize h).callee

/-- A chain with an optional part ends in a member or a call. -/
theorem enclosesCallee_of_optional {found : Bool} (h : Links found e) (hfound : found = true) :
    enclosesCallee e = false := by
  cases h with
  | base h => cases hfound
  | member hobject hproperty => rfl
  | call hcallee harguments hholes => rfl

/-- With what is smaller, a formula can be read. -/
theorem readable_of_smaller (h : Formula e)
    (hsmaller : ∀ e', sizeOf e' < sizeOf e → Formula e' → Readable e') : Readable e := by
  have hself := h
  have helements (elements : List Element) (hsize : sizeOf elements < sizeOf e)
      (helements : ∀ x ∈ elements, FormulaElement x) :
      ∀ x ∈ elements, ∀ e', elementExpression? x = some e' → Readable e' := by
    intro x hx e' he'
    have hlt := sizeOf_lt_of_element hx he'
    exact hsmaller e' (by omega) ((helements x hx).formula he')
  cases h with
  | identifier h =>
    refine readable_of_linked hself rfl rfl (.of_head ⟨hself, _, _, rfl, .inr ⟨.inl ?_, ?_⟩⟩)
    · rw [nameWord, ← (h.isName rfl).token_eq]
    · exact name_recovers h
  | this =>
    refine readable_of_linked hself rfl rfl (.of_head ⟨hself, _, _, rfl, .inr ⟨?_, ?_⟩⟩)
    · exact .inr (.inl rfl)
    · exact this_recovers _
  | @array span elements h =>
    have hitems := helements elements (by simp +arith) h
    refine readable_of_linked hself rfl rfl (.of_head ⟨hself, _, _, rfl, .inr ⟨?_, ?_⟩⟩)
    · exact .inr (.inr (.inl rfl))
    · exact array_recovers fun x hx e' he' => (hitems x hx e' he').item
  | @member span object property computed hobject hproperty =>
    obtain ⟨_, _, _, hlinked⟩ := (hsmaller object (by simp +arith) hobject).callee
    have hname := isProperty_of_readable hproperty (hsmaller property (by simp +arith))
    exact readable_of_linked hself rfl rfl (linked_member hlinked hname span false)
  | @call span callee arguments hcallee harguments hholes =>
    obtain ⟨_, _, _, hlinked⟩ := (hsmaller callee (by simp +arith) hcallee).callee
    have hargs := areArguments_of_readable (helements arguments (by simp +arith) harguments) hholes
    exact readable_of_linked hself rfl rfl (linked_call hlinked hargs span false)
  | @newCall span callee arguments hcallee harguments hholes =>
    obtain ⟨_, _, _, hlinked⟩ := (hsmaller callee (by simp +arith) hcallee).constructor
    have hargs := areArguments_of_readable (helements arguments (by simp +arith) harguments) hholes
    refine readable_of_linked hself rfl rfl (.of_head ⟨hself, _, _, rfl, .inl ⟨rfl, ?_⟩⟩)
    exact newCall_recovers hlinked hargs span 19
  | @chain span inner h =>
    obtain ⟨_, _, _, hlinked⟩ := linked_of_links h (n := sizeOf (Expression.chain span inner))
      (by simp +arith) hsmaller
    rw [enclosesCallee_of_optional h rfl] at hlinked
    refine readable_of_unary hself rfl (by rintro ⟨⟩) rfl ?_
    refine unary_of_leftHandSide (chain_recovers hlinked span) hself fun after => ?_
    have hwords : wordsOf false (.chain span inner) = wordsOf false inner := by
      rw [wordsOf, wordsOf, formulaWords]
    rw [hwords, hlinked.words, List.append_assoc]
    exact hlinked.head.startsPlainly _
  | @update span operator isBefore argument h hreference =>
    have hargument := hsmaller argument (by simp) h
    have hopen : enclosesCallee argument = false := by
      cases argument <;> first | rfl | cases hreference
    obtain ⟨_, _, _, hlinked⟩ := hargument.linked hopen
    cases isBefore with
    | true =>
      refine readable_of_unary hself rfl (by rintro ⟨⟩) rfl ?_
      exact updateBefore_recovers (hlinked.unary h) hreference span operator
    | false =>
      refine readable_of_unary hself rfl (by rintro ⟨⟩) rfl ?_
      refine updateAfter_recovers (leftHandSide_recovers hlinked) h hreference (fun after => ?_)
        span operator
      rw [hlinked.words, List.append_assoc]
      exact hlinked.head.startsPlainly _
  | @unary span operator argument h =>
    have hargument := hsmaller argument (by simp +arith) h
    refine readable_of_unary hself rfl (by rintro ⟨⟩) rfl ?_
    exact unaryOperation_recovers hargument.unaryOperand h span operator
  | @binary span left operator right hleft hright =>
    have hlevels : Precedence.coalesce.rank ≤ (binaryLevels span left operator right).1.rank ∧
        Precedence.coalesce.rank ≤ (binaryLevels span left operator right).2.rank := by
      cases operator <;> exact ⟨Nat.le_of_ble_eq_true rfl, Nat.le_of_ble_eq_true rfl⟩
    obtain ⟨_, _, _, hleft'⟩ := (hsmaller left (by simp +arith) hleft).operand
      fun h => not_bindsBelow_of_le h hlevels.1
    obtain ⟨_, _, _, hright'⟩ := (hsmaller right (by simp +arith) hright).operand
      fun h => not_bindsBelow_of_le h hlevels.2
    have hoperated := Operated.step hself
      (isOperation_binary span left operator right) hleft' hright'
    refine readable_of_operated hself ?_ ?_ ?_ hoperated
    · cases operator <;> rfl
    · intro h
      cases operator <;> cases h
    · intro h
      cases operator <;> cases h
  | @logical span left operator right hleft hright =>
    have hlevels : Precedence.coalesce.rank ≤
      (precedence (.logical span left operator right)).rank ∧
        Precedence.coalesce.rank ≤
          (precedence (.logical span left operator right)).tighter.rank := by
      cases operator <;> exact ⟨Nat.le_of_ble_eq_true rfl, Nat.le_of_ble_eq_true rfl⟩
    obtain ⟨_, _, _, hleft'⟩ := (hsmaller left (by simp +arith) hleft).operand
      fun h => not_bindsBelow_of_le (Bool.or_eq_false_iff.mp h).2 hlevels.1
    obtain ⟨_, _, _, hright'⟩ := (hsmaller right (by simp +arith) hright).operand
      fun h => not_bindsBelow_of_le (Bool.or_eq_false_iff.mp h).2 hlevels.2
    have hoperated := Operated.step hself
      (isOperation_logical span left operator right) hleft' hright'
    refine readable_of_operated hself ?_ ?_ ?_ hoperated
    · cases operator <;> rfl
    · intro h
      cases operator <;> cases h
    · intro h
      cases operator <;> cases h
  | @conditional span test consequent alternate htest hconsequent halternate =>
    have htest' := (hsmaller test (by simp +arith) htest).binaryExpression
    have hconsequent' := (hsmaller consequent (by simp +arith) hconsequent).item
    have halternate' := (hsmaller alternate (by simp +arith) halternate).item
    refine readable_of_item hself rfl (by rintro ⟨⟩) (by rintro ⟨⟩) (by rintro ⟨⟩) ?_
    exact assignmentCover_of_conditional hself
      (conditional_recovers htest htest' hconsequent' halternate' span)
  | @assignment span operator left target right htarget hleft hright =>
    have hsize := sizeOf_lt_of_target htarget span operator right
    have hopen : bindsBelow .coalesce target = false := by
      obtain ⟨_, -, rfl⟩ | ⟨_, _, _, _, _, -, rfl⟩ := Pattern.asExpression?_cases htarget
      · rfl
      · rfl
    have htarget' := (hsmaller target hsize hleft).binaryExpression
    rw [hopen] at htarget'
    have hright' := (hsmaller right (by simp +arith) hright).item
    refine readable_of_item hself rfl (by rintro ⟨⟩) (by rintro ⟨⟩) (by rintro ⟨⟩) ?_
    exact assignment_recovers htarget hleft (conditional_of_binaryExpression hleft htarget') hright'
      span operator
  | @sequence span expressions h hlength =>
    refine readable_of_sequence hself fun e' he' => ?_
    have hlt := List.sizeOf_lt_of_mem he'
    exact (hsmaller e' (by simp; omega) (h e' he')).item

theorem readable {e : Expression} (h : Formula e) : Readable e :=
  readable_of_smaller h fun _ _ h' => readable h'
termination_by sizeOf e

end Levels

end EcmaSyntax.Grammar
