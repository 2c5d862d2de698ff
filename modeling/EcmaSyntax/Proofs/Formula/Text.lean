import EcmaSyntax.Proofs.Formula.Form

/-!
The text of a formula spells its words. What stands between two words keeps them
apart: a space, a punctuator that no other character extends, or a check of what
the next part starts with.
-/

namespace EcmaSyntax.Print

open EcmaSyntax.Lexer EcmaSyntax.Text EcmaSyntax.Tree EcmaSyntax.Unicode

variable {version : Nat} [Unicode.IdentifierChars version]

/-- In front of other words, and apart from them, the text spells these. -/
def Spelled (text : List Char) (words : List Word) : Prop :=
  ∀ rest ws, ws ≠ [] → Apart rest → Spells rest ws → Spells (text ++ rest) (words ++ ws)

/-- The characters that a formula can start with. -/
def isOpener (c : Char) : Bool := isIdentifierStart c || "([+-!~".toList.contains c

structure Written (text : List Char) (words : List Word) : Prop where
  opens : ∃ c tail, text = c :: tail ∧ isOpener c = true
  nonempty : words ≠ []
  spelled : Spelled text words

section Signs

variable {text : List Char} {ws : List Word}

/-- A punctuator of one character that nothing extends. -/
theorem spells_sign {c : Char} {token : Token} (hstarts : startsToken (c :: text) = true)
    (hsign : signAt? (c :: text) = some (token, text)) (h : Spells text ws) :
    Spells (c :: text) (.sign token :: ws) :=
  .cons (readsWord_sign hstarts hsign) h

theorem spells_leftParen (h : Spells text ws) : Spells ('(' :: text) (.sign .leftParen :: ws) :=
  spells_sign rfl rfl h

theorem spells_rightParen (h : Spells text ws) :
    Spells (')' :: text) (.sign .rightParen :: ws) :=
  spells_sign rfl rfl h

theorem spells_leftBracket (h : Spells text ws) :
    Spells ('[' :: text) (.sign .leftBracket :: ws) :=
  spells_sign rfl rfl h

theorem spells_rightBracket (h : Spells text ws) :
    Spells (']' :: text) (.sign .rightBracket :: ws) :=
  spells_sign rfl rfl h

theorem spells_comma (h : Spells text ws) : Spells (',' :: text) (.sign .comma :: ws) :=
  spells_sign rfl rfl h

theorem spells_ellipsis (h : Spells text ws) :
    Spells ('.' :: '.' :: '.' :: text) (.sign .ellipsis :: ws) :=
  .cons (readsWord_sign rfl rfl) h

theorem spells_update (operator : UpdateOperator) (h : Spells text ws) :
    Spells (operator.text.toList ++ text) (.sign (updateToken operator) :: ws) := by
  cases operator with
  | increment => exact .cons (readsWord_sign rfl rfl) h
  | decrement => exact .cons (readsWord_sign rfl rfl) h

/-- A point before a name. -/
theorem spells_dot {c : Char} (hc : isIdentifierStart c = true)
    (h : Spells (c :: text) ws) : Spells ('.' :: c :: text) (.sign .dot :: ws) := by
  have hdot : c ≠ '.' := ne_of_start hc rfl
  have hread : readPunctuator? ('.' :: c :: text) = some (.dot, 1) := by
    simp [readPunctuator?, hdot, not_isAsciiDigit_of_start hc]
  have hsign : signAt? ('.' :: c :: text) = some (.dot, c :: text) := by
    rw [signAt?, hread]
    rfl
  exact .cons (readsWord_sign rfl hsign) h

/-- The sign of an optional part before what is no digit. -/
theorem spells_questionDot {c : Char} (hc : isAsciiDigit c = false)
    (h : Spells (c :: text) ws) : Spells ('?' :: '.' :: c :: text) (.sign .questionDot :: ws) := by
  have hread : readPunctuator? ('?' :: '.' :: c :: text) =
      if isAsciiDigit c then some (.question, 1) else some (.questionDot, 2) := rfl
  have hsign : signAt? ('?' :: '.' :: c :: text) = some (.questionDot, c :: text) := by
    rw [signAt?, hread, hc]
    rfl
  exact .cons (readsWord_sign rfl hsign) h

/-- A name before a text that does not continue it. -/
theorem spells_name [LawfulIdentifierChars version] {token : Token} {name : String}
    (hname : IsName token name) (hrest : Apart text) (h : Spells text ws) :
    Spells (name.toList ++ text) (⟨token, name⟩ :: ws) :=
  .cons (hname.readsWord hrest) h

/-- An operator between spaces. -/
theorem spells_operator [LawfulIdentifierChars version] {token : Token}
    (htoken : isSpaced token = true ∨ token = .inKeyword ∨ token = .instanceOfKeyword)
    (h : Spells text ws) (hne : ws ≠ []) :
    Spells (' ' :: (token.text.toList ++ ' ' :: text)) (operatorWord token :: ws) := by
  have hspace := h.space hne
  rcases htoken with hspaced | rfl | rfl
  · have hword : token.isWord = false := by
      unfold isSpaced at hspaced
      simp at hspaced
      exact hspaced.2
    have hoperator : operatorWord token = .sign token := by simp [operatorWord, hword, Word.sign]
    rw [hoperator]
    exact (Spells.cons (readsWord_operator hspaced text) hspace).space (by simp)
  · have hname : IsSpelling .inKeyword "in" := ⟨_, rfl, rfl, rfl, rfl⟩
    exact (spells_name (hname.isName rfl) (apart_sign (by decide) text) hspace).space (by simp)
  · have hname : IsSpelling .instanceOfKeyword "instanceof" := ⟨_, rfl, rfl, rfl, rfl⟩
    exact (spells_name (hname.isName rfl) (apart_sign (by decide) text) hspace).space (by simp)

theorem isSpaced_binary (operator : BinaryOperator) :
    isSpaced operator.token = true ∨ operator.token = .inKeyword ∨
      operator.token = .instanceOfKeyword := by
  cases operator <;> decide

theorem isSpaced_logical (operator : LogicalOperator) : isSpaced operator.token = true := by
  cases operator <;> decide

theorem isSpaced_assignment (operator : AssignmentOperator) :
    isSpaced operator.token = true := by
  cases operator <;> decide

end Signs

section Parts

variable {text : List Char} {words : List Word}

theorem Written.enclose {body : String} (h : Written body.toList words) (isEnclosed : Bool) :
    Written (parens isEnclosed body).toList (inParentheses isEnclosed words) := by
  cases isEnclosed with
  | false => exact h
  | true =>
    refine ⟨⟨'(', body.toList ++ [')'], by simp [parens], rfl⟩, by simp [inParentheses], ?_⟩
    intro rest ws hne hrest hspells
    have hclose := spells_rightParen hspells
    have hbody := h.spelled _ _ (by simp) (apart_sign (by decide) _) hclose
    simpa [parens, inParentheses] using spells_leftParen hbody

theorem written_name [LawfulIdentifierChars version] {token : Token} {name : String}
    (h : IsName token name) :
    Written name.toList [⟨token, name⟩] := by
  obtain ⟨c, tail, htext, hc⟩ := h.exists_start
  refine ⟨⟨c, tail, htext, by simp [isOpener, hc]⟩, by simp, ?_⟩
  exact fun rest ws _ hrest hspells => spells_name h hrest hspells

/-- Items with commas between them. -/
inductive Items : List String → List (List Word) → Prop
  | nil : Items [] []
  | cons {item words items wordss} (h : Spelled item.toList words) (hrest : Items items wordss) :
      Items (item :: items) (words :: wordss)

theorem Items.spelled {items : List String} {wordss : List (List Word)} (h : Items items wordss) :
    Spelled (commaSeparated items).toList (withCommas wordss) := by
  induction h with
  | nil =>
    intro rest ws _ _ hspells
    simpa [commaSeparated, withCommas] using hspells
  | @cons item words items wordss h hitems ih =>
    cases hitems with
    | nil =>
      intro rest ws hne hrest hspells
      simpa [commaSeparated, withCommas] using h rest ws hne hrest hspells
    | @cons item' words' items' wordss' h' hitems' =>
      intro rest ws hne hrest hspells
      have htail := (ih rest ws hne hrest hspells).space (by simp [hne])
      have hitem := h _ _ (by simp) (apart_sign (by decide) _) (spells_comma htail)
      simpa [commaSeparated, withCommas, String.intercalate_cons_cons] using hitem

theorem written_list {item : String} {items : List String} {wordss : List (List Word)}
    (h : Written item.toList words) (hitems : Items items wordss) :
    Written (commaSeparated (item :: items)).toList (withCommas (words :: wordss)) := by
  have hlist := (Items.cons h.spelled hitems).spelled
  obtain ⟨c, tail, htext, hc⟩ := h.opens
  cases hitems with
  | nil => exact ⟨⟨c, tail, by simpa [commaSeparated] using htext, hc⟩, h.nonempty, hlist⟩
  | @cons item' words' items' wordss' h' hitems' =>
    refine ⟨⟨c, tail ++ (", ".toList ++ (commaSeparated (item' :: items')).toList), ?_, hc⟩,
      by simp [withCommas], hlist⟩
    simp [commaSeparated, String.intercalate_cons_cons, htext]

/-- Arguments in parentheses. -/
theorem spelled_inParens {items : List String} {wordss : List (List Word)}
    (h : Items items wordss) : Spelled (inParens items).toList (argumentWords wordss) := by
  intro rest ws hne hrest hspells
  have hclose := spells_rightParen hspells
  have hitems := h.spelled _ _ (by simp) (apart_sign (by decide) _) hclose
  simpa [inParens, argumentWords] using spells_leftParen hitems

/-- A member of something, by a name or an expression in brackets. -/
theorem written_member {object property : String} {objectWords propertyWords : List Word}
    (hobject : Written object.toList objectWords)
    (hproperty : Written property.toList propertyWords) (computed optional : Bool)
    (hname : computed = false → ∃ c tail, property.toList = c :: tail ∧
      isIdentifierStart c = true) :
    Written (memberText object property computed optional).toList
      (memberWords objectWords propertyWords computed optional) := by
  obtain ⟨c, tail, htext, hc⟩ := hobject.opens
  refine ⟨⟨c, _, by simp only [memberText, String.toList_append, htext]; rfl, hc⟩, ?_, ?_⟩
  · simp [memberWords, hobject.nonempty]
  · intro rest ws hne hrest hspells
    cases computed with
    | true =>
      have hclose := spells_rightBracket hspells
      have hinner := hproperty.spelled _ _ (by simp) (apart_sign (by decide) _) hclose
      have hopen := spells_leftBracket hinner
      cases optional with
      | true =>
        have hsign := spells_questionDot (by decide) hopen
        have hall := hobject.spelled _ _ (by simp) (apart_sign (by decide) _) hsign
        simpa [memberText, memberWords] using hall
      | false =>
        have hall := hobject.spelled _ _ (by simp) (apart_sign (by decide) _) hopen
        simpa [memberText, memberWords] using hall
    | false =>
      obtain ⟨d, tail', htext', hd⟩ := hname rfl
      have hinner := hproperty.spelled _ _ hne hrest hspells
      rw [htext', List.cons_append] at hinner
      cases optional with
      | true =>
        have hsign := spells_questionDot (not_isAsciiDigit_of_start hd) hinner
        have hall := hobject.spelled _ _ (by simp) (apart_sign (by decide) _) hsign
        simpa [memberText, memberWords, htext'] using hall
      | false =>
        have hsign := spells_dot hd hinner
        have hall := hobject.spelled _ _ (by simp) (apart_sign (by decide) _) hsign
        simpa [memberText, memberWords, htext'] using hall

/-- Two parts with an operator between them. -/
theorem written_operation [LawfulIdentifierChars version] {left right : String}
    {leftWords rightWords : List Word}
    (hleft : Written left.toList leftWords) (hright : Written right.toList rightWords)
    (token : Token)
    (htoken : isSpaced token = true ∨ token = .inKeyword ∨ token = .instanceOfKeyword) :
    Written (left ++ " " ++ token.text ++ " " ++ right).toList
      (leftWords ++ operatorWord token :: rightWords) := by
  obtain ⟨c, tail, htext, hc⟩ := hleft.opens
  refine ⟨⟨c, _, by simp only [String.toList_append, htext, List.cons_append]; rfl, hc⟩, ?_, ?_⟩
  · simp
  · intro rest ws hne hrest hspells
    have hoperand := hright.spelled rest ws hne hrest hspells
    have hoperator := spells_operator htoken hoperand (by simp [hne])
    have hall := hleft.spelled _ _ (by simp) (apart_sign (by decide) _) hoperator
    simpa using hall

theorem written_conditional [LawfulIdentifierChars version] {test consequent alternate : String}
    {testWords consequentWords alternateWords : List Word}
    (htest : Written test.toList testWords)
    (hconsequent : Written consequent.toList consequentWords)
    (halternate : Written alternate.toList alternateWords) :
    Written (test ++ " ? " ++ consequent ++ " : " ++ alternate).toList
      (testWords ++ .sign .question ::
        (consequentWords ++ .sign .colon :: alternateWords)) := by
  have hbranches := written_operation hconsequent halternate .colon (.inl rfl)
  have hall := written_operation htest hbranches .question (.inl rfl)
  have hquestion : operatorWord .question = .sign .question := rfl
  have hcolon : operatorWord .colon = .sign .colon := rfl
  have hmark : Token.question.text = "?" := rfl
  have hpoints : Token.colon.text = ":" := rfl
  rw [hquestion, hcolon, hmark, hpoints] at hall
  simpa using hall

/-- A keyword before an operand. -/
theorem spelled_keyword [LawfulIdentifierChars version] {token : Token} {name argument : String}
    (hname : IsName token name) (h : Written argument.toList words) :
    Spelled (name ++ " " ++ argument).toList (⟨token, name⟩ :: words) := by
  intro rest ws hne hrest hspells
  have hargument := (h.spelled rest ws hne hrest hspells).space (by simp [hne])
  simpa using spells_name hname (apart_sign (by decide) _) hargument

/-- A sign is read alone before what does not make it longer. -/
theorem signAt?_unary {operator : UnaryOperator} (hkeyword : operator.isKeyword = false) {c : Char}
    (hequal : c ≠ '=') (hplus : operator = .plus → c ≠ '+') (hminus : operator = .minus → c ≠ '-')
    (text : List Char) :
    signAt? (operator.text.toList ++ c :: text) = some (operator.token, c :: text) := by
  cases operator with
  | plus =>
    have hread : readPunctuator? ('+' :: c :: text) = some (.add, 1) := by
      simp [readPunctuator?, hplus rfl, hequal]
    change signAt? ('+' :: c :: text) = _
    rw [signAt?, hread]
    rfl
  | minus =>
    have hread : readPunctuator? ('-' :: c :: text) = some (.subtract, 1) := by
      simp [readPunctuator?, hminus rfl, hequal]
    change signAt? ('-' :: c :: text) = _
    rw [signAt?, hread]
    rfl
  | not =>
    have hread : readPunctuator? ('!' :: c :: text) = some (.negate, 1) := by
      simp [readPunctuator?, hequal]
    change signAt? ('!' :: c :: text) = _
    rw [signAt?, hread]
    rfl
  | bitwiseNot => rfl
  | typeof | void | delete => cases hkeyword

theorem spells_unary {operator : UnaryOperator} (hkeyword : operator.isKeyword = false) {c : Char}
    {ws : List Word} (hequal : c ≠ '=') (hplus : operator = .plus → c ≠ '+')
    (hminus : operator = .minus → c ≠ '-') (h : Spells (c :: text) ws) :
    Spells (operator.text.toList ++ c :: text) (operatorWord operator.token :: ws) := by
  have hsign := signAt?_unary hkeyword hequal hplus hminus text
  have hword : operatorWord operator.token = .sign operator.token := by
    cases operator <;> first | rfl | cases hkeyword
  have hstarts : startsToken (operator.text.toList ++ c :: text) = true := by
    cases operator <;> rfl
  rw [hword]
  exact .cons (readsWord_sign hstarts hsign) h

theorem ne_equal_of_isOpener {c : Char} (h : isOpener c = true) : c ≠ '=' := by
  rintro rfl
  exact absurd h Bool.false_ne_true

/-- A sign or keyword before its operand. -/
theorem written_unary [LawfulIdentifierChars version] (operator : UnaryOperator) {argument : String}
    (h : Written argument.toList words) :
    Written (signedText operator argument).toList (operatorWord operator.token :: words) := by
  refine ⟨?_, by simp, ?_⟩
  · unfold signedText
    cases operator <;> split <;> try split
    all_goals exact ⟨_, _, by simp only [String.toList_append]; rfl, by rfl⟩
  · unfold signedText
    split
    · rename_i hkeyword
      cases operator with
      | typeof =>
        have hname : IsSpelling .typeofKeyword "typeof" := ⟨_, rfl, rfl, rfl, rfl⟩
        exact spelled_keyword (hname.isName rfl) h
      | void =>
        have hname : IsSpelling .voidKeyword "void" := ⟨_, rfl, rfl, rfl, rfl⟩
        exact spelled_keyword (hname.isName rfl) h
      | delete =>
        have hname : IsSpelling .deleteKeyword "delete" := ⟨_, rfl, rfl, rfl, rfl⟩
        exact spelled_keyword (hname.isName rfl) h
      | plus | minus | not | bitwiseNot => cases hkeyword
    · rename_i hkeyword
      have hkeyword : operator.isKeyword = false := by simpa using hkeyword
      intro rest ws hne hrest hspells
      have hargument := h.spelled rest ws hne hrest hspells
      split
      · have hspaced := hargument.space (by simp [hne])
        have hall := spells_unary hkeyword (by decide) (by simp) (by simp) hspaced
        simpa using hall
      · rename_i hapart
        obtain ⟨c, tail, htext, hc⟩ := h.opens
        have hstart (d : Char) (sign : String) (hsign : sign.toList = [d]) (hd : c = d) :
            argument.startsWith sign = true := by
          rw [String.startsWith_string_iff, hsign, htext, hd]
          simp
        have hplus : operator = .plus → c ≠ '+' := by
          rintro rfl hplus
          exact hapart (hstart '+' "+" rfl hplus)
        have hminus : operator = .minus → c ≠ '-' := by
          rintro rfl hminus
          exact hapart (hstart '-' "-" rfl hminus)
        rw [htext, List.cons_append] at hargument
        have hall := spells_unary hkeyword (ne_equal_of_isOpener hc) hplus hminus hargument
        simpa [htext] using hall

theorem written_update {argument : String} (h : Written argument.toList words)
    (operator : UpdateOperator) :
    Written (operator.text ++ argument).toList (.sign (updateToken operator) :: words) := by
  refine ⟨?_, by simp, ?_⟩
  · cases operator <;> exact ⟨_, _, by simp only [String.toList_append]; rfl, by rfl⟩
  · intro rest ws hne hrest hspells
    simpa using spells_update operator (h.spelled rest ws hne hrest hspells)

theorem written_updateAfter {argument : String} (h : Written argument.toList words)
    (operator : UpdateOperator) :
    Written (argument ++ operator.text).toList (words ++ [.sign (updateToken operator)]) := by
  obtain ⟨c, tail, htext, hc⟩ := h.opens
  refine ⟨⟨c, _, by simp only [String.toList_append, htext, List.cons_append]; rfl, hc⟩,
    by simp, ?_⟩
  intro rest ws hne hrest hspells
  have hsign := spells_update operator hspells
  have hapart : Apart (operator.text.toList ++ rest) := by
    cases operator <;> exact apart_sign (by decide) _
  simpa using h.spelled _ _ (by simp) hapart hsign

end Parts

section Places

variable {found : Bool} {e : Expression}

/-- No formula looks like the start of something else. -/
theorem not_refuses (h : Links found e) (guard : Guard) : guard.refuses e = false := by
  have hlet : isLetName e = false := by
    cases h with
    | base h =>
      cases h with
      | identifier h =>
        obtain ⟨lexeme, hread, htoken, -⟩ := h
        refine beq_eq_false_iff_ne.mpr fun hname => ?_
        rw [hname] at hread
        cases hread
        cases htoken
      | _ => rfl
    | _ => rfl
  have hpattern : assignsObject e = false := by
    cases h with
    | base h =>
      cases h with
      | @assignment _ _ left _ _ htarget _ _ => cases left <;> first | rfl | cases htarget
      | _ => rfl
    | _ => rfl
  have hobject : isObject e = false := by
    cases h with
    | base h => cases h <;> rfl
    | _ => rfl
  have hfunction : isFunctionOrClass e = false := by
    cases h with
    | base h => cases h <;> rfl
    | _ => rfl
  cases guard <;> simp [Guard.refuses, hlet, hpattern, hobject, hfunction]

theorem encloses_eq (h : Links found e) {p : Place} (hp : p.noIn = false) :
    p.encloses e = (p.forced || bindsBelow p.least e) := by
  simp [Place.encloses, not_refuses h, hp, bindsBelow]

theorem within_noIn {p : Place} (hp : p.noIn = false) (isEnclosed : Bool) :
    (p.within isEnclosed).noIn = false := by
  cases isEnclosed with
  | true => rfl
  | false => exact hp

theorem callee_noIn {p : Place} (hp : p.noIn = false) (e : Expression) :
    (p.callee e).noIn = false := by
  cases e <;> exact hp

theorem callee_encloses (p : Place) (e : Expression) :
    ((p.callee e).forced || bindsBelow (p.callee e).least e) = enclosesCallee e := by
  cases e <;> rfl

theorem object_eq_callee (h : Links found e) (p : Place) (computed : Bool) :
    p.object computed e = p.callee e := by
  cases h with
  | base h => cases h <;> rfl
  | _ => rfl

theorem constructor_noIn {p : Place} (hp : p.noIn = false) (e : Expression) :
    (p.constructor e).noIn = false := by
  unfold Place.constructor
  split
  · exact hp
  · exact hp

theorem constructor_encloses (p : Place) (e : Expression) :
    ((p.constructor e).forced || bindsBelow (p.constructor e).least e) = enclosesConstructor e := by
  unfold Place.constructor enclosesConstructor
  split
  · simp_all [Place.enclosed]
  · simp_all [Place.inner]

theorem operand_noIn {p : Place} (hp : p.noIn = false) (operator : LogicalOperator)
    (e : Expression) : (p.operand operator e).noIn = false := by
  unfold Place.operand
  split
  · exact hp
  · exact hp

theorem operand_encloses {p : Place} (hp : p.forced = false) (operator : LogicalOperator)
    (e : Expression) :
    ((p.operand operator e).forced || bindsBelow (p.operand operator e).least e) =
      enclosesOperand operator p.least e := by
  unfold Place.operand enclosesOperand
  split
  · simp_all
  · simp_all

end Places

section Texts

variable (style : Style)

/-- Wherever the expression is written, its words stand there. -/
def IsWritten (e : Expression) : Prop :=
  ∀ p : Place, p.noIn = false → Written (expressionText style p e).toList
    (inParentheses (p.forced || bindsBelow p.least e) (formulaWords e))

variable {style}

theorem IsWritten.callee {e : Expression} (h : IsWritten style e) {p : Place}
    (hp : p.noIn = false) : Written (expressionText style (p.callee e) e).toList
      (inParentheses (enclosesCallee e) (formulaWords e)) := by
  rw [← callee_encloses p e]
  exact h _ (callee_noIn hp e)

theorem IsWritten.first {e : Expression} (h : IsWritten style e) {p : Place}
    (hp : p.noIn = false) (least : Precedence) :
    Written (expressionText style (p.first least) e).toList
      (inParentheses (bindsBelow least e) (formulaWords e)) :=
  h (p.first least) hp

theorem IsWritten.inner {e : Expression} (h : IsWritten style e) {p : Place}
    (hp : p.noIn = false) (least : Precedence) :
    Written (expressionText style (p.inner least) e).toList
      (inParentheses (bindsBelow least e) (formulaWords e)) :=
  h (p.inner least) hp

theorem IsWritten.operand {e : Expression} (h : IsWritten style e) {p : Place}
    (hp : p.noIn = false) (hforced : p.forced = false) (operator : LogicalOperator) :
    Written (expressionText style (p.operand operator e) e).toList
      (inParentheses (enclosesOperand operator p.least e) (formulaWords e)) := by
  rw [← operand_encloses hforced]
  exact h _ (operand_noIn hp operator e)

theorem items_sequence {es : List Expression} (h : ∀ e ∈ es, IsWritten style e) :
    ∀ p : Place, p.noIn = false → Items (sequenceTexts style p es) (sequenceWords es) := by
  induction es with
  | nil => exact fun _ _ => .nil
  | cons e es ih =>
    intro p hp
    rw [sequenceTexts, sequenceWords]
    have hfirst := (h e List.mem_cons_self).first hp .assignment
    exact .cons hfirst.spelled (ih (fun e' he' => h e' (List.mem_cons_of_mem _ he')) _ hp)

theorem items_elements {p : Place} (hp : p.noIn = false) {elements : List Element}
    (h : ∀ x ∈ elements, ∀ e, elementExpression? x = some e → IsWritten style e) :
    Items (elementTexts style p elements) (elementWords elements) := by
  induction elements with
  | nil => exact .nil
  | cons x elements ih =>
    have hx := h x List.mem_cons_self
    have hrest := ih fun x' hx' => h x' (List.mem_cons_of_mem _ hx')
    cases x with
    | item e => exact .cons ((hx e rfl).inner hp .assignment).spelled hrest
    | spread span e =>
      have he := (hx e rfl).inner hp .assignment
      refine .cons ?_ hrest
      intro rest ws hne hapart hspells
      simpa using spells_ellipsis (he.spelled rest ws hne hapart hspells)
    | hole => exact .cons (fun _ _ _ _ hspells => hspells) hrest

theorem written_array {p : Place} (hp : p.noIn = false) {elements : List Element}
    (h : ∀ x ∈ elements, ∀ e, elementExpression? x = some e → IsWritten style e) (span : Span) :
    Written (bracketed (elementTexts style p elements) (endsInHole elements)).toList
      (formulaWords (.array span elements)) := by
  refine ⟨⟨'[', _, by simp only [bracketed, String.toList_append]; rfl, by rfl⟩,
    by simp [formulaWords], ?_⟩
  intro rest ws hne hapart hspells
  have hitems := (items_elements hp h).spelled
  have hclose := spells_rightBracket hspells
  cases hhole : endsInHole elements with
  | true =>
    have hcomma := hitems _ _ (by simp) (apart_sign (by decide) _) (spells_comma hclose)
    simpa [bracketed, formulaWords, hhole] using spells_leftBracket hcomma
  | false =>
    have hall := hitems _ _ (by simp) (apart_sign (by decide) _) hclose
    simpa [bracketed, formulaWords, hhole] using spells_leftBracket hall

/-- Arguments after what they are given to. -/
theorem written_arguments {p : Place} (hp : p.noIn = false) {callee : String} {words : List Word}
    (hcallee : Written callee.toList words) {arguments : List Element}
    (h : ∀ x ∈ arguments, ∀ e, elementExpression? x = some e → IsWritten style e)
    (optional : Bool) :
    Written (callee ++ (if optional then "?." else "") ++
        inParens (elementTexts style p arguments)).toList
      (words ++ ((if optional then [.sign .questionDot] else []) ++
        argumentWords (elementWords arguments))) := by
  obtain ⟨c, tail, htext, hc⟩ := hcallee.opens
  refine ⟨⟨c, _, by simp only [String.toList_append, htext, List.cons_append]; rfl, hc⟩, ?_, ?_⟩
  · simp [hcallee.nonempty]
  · intro rest ws hne hapart hspells
    have hitems := spelled_inParens (items_elements hp h) rest ws hne hapart hspells
    have hopen : ∀ items : List String, ∃ tail, (inParens items).toList = '(' :: tail :=
      fun items => ⟨_, by simp only [inParens, String.toList_append]; rfl⟩
    obtain ⟨tail', htail⟩ := hopen (elementTexts style p arguments)
    rw [htail, List.cons_append] at hitems
    cases optional with
    | true =>
      have hsign := spells_questionDot (by decide) hitems
      have hall := hcallee.spelled _ _ (by simp) (apart_sign (by decide) _) hsign
      simpa [htail] using hall
    | false =>
      have hall := hcallee.spelled _ _ (by simp [argumentWords]) (apart_sign (by decide) _) hitems
      simpa [htail] using hall

/-- The text of a property that is a name. -/
theorem nameText_eq (style : Style) (p : Place) (id : Identifier) :
    expressionText style (p.inner .primary) (.identifier id) = id.name := by
  have hlevel : ¬ precedence (.identifier id) < .primary := Nat.lt_irrefl _
  have hencloses : (p.inner .primary).encloses (.identifier id) = false := by
    simp [Place.encloses, Place.inner, Guard.refuses, Place.isInOperation, hlevel]
  rw [expressionText, hencloses]
  rfl

theorem formulaWords_of_isName {token : Token} {id : Identifier} (h : IsName token id.name) :
    formulaWords (.identifier id) = [⟨token, id.name⟩] := by
  rw [formulaWords, nameWord, ← h.token_eq]

theorem written_memberOf [LawfulIdentifierChars version] {p : Place} (hp : p.noIn = false)
    {found : Bool}
    {object property : Expression} (hlinks : Links found object) (hobject : IsWritten style object)
    {computed : Bool} (hname : FormulaProperty computed property)
    (hproperty : computed = true → IsWritten style property) (optional : Bool) :
    Written (memberText (expressionText style (p.object computed object) object)
        (expressionText style (p.inner (if computed then .comma else .primary)) property)
        computed optional).toList
      (memberWords (inParentheses (enclosesCallee object) (formulaWords object))
        (formulaWords property) computed optional) := by
  rw [object_eq_callee hlinks]
  cases hname with
  | computed h =>
    have hinner := (hproperty rfl).inner hp .comma
    rw [bindsBelow_comma] at hinner
    exact written_member (hobject.callee hp) hinner _ _ (by simp)
  | @name id token hword h =>
    have hname := h.isName hword
    have htext := nameText_eq style p id
    simp only [Bool.false_eq_true, if_false, htext, formulaWords_of_isName hname]
    exact written_member (hobject.callee hp) (written_name hname) _ _ fun _ => hname.exists_start

theorem written_new [LawfulIdentifierChars version] {p : Place} (hp : p.noIn = false)
    {callee : Expression} (hcallee : IsWritten style callee) {arguments : List Element}
    (h : ∀ x ∈ arguments, ∀ e, elementExpression? x = some e → IsWritten style e) (span : Span) :
    Written ("new " ++ expressionText style (p.constructor callee) callee ++
      inParens (elementTexts style p arguments)).toList
        (formulaWords (.newCall span callee arguments)) := by
  have hname : IsSpelling .newKeyword "new" := ⟨_, rfl, rfl, rfl, rfl⟩
  have htarget := hcallee _ (constructor_noIn hp callee)
  rw [constructor_encloses] at htarget
  have harguments := written_arguments hp htarget h false
  refine ⟨⟨'n', _, by simp only [String.toList_append]; rfl, by rfl⟩,
    by simp [formulaWords], ?_⟩
  have hall := spelled_keyword (hname.isName rfl) harguments
  simpa [formulaWords] using hall

section Operations

-- Every theorem below needs the equations of the printer.
attribute [local simp] expressionText

variable {span : Span}

theorem isWritten_update {argument : Expression} {operator : UpdateOperator} {isBefore : Bool}
    (h : Formula (.update span operator isBefore argument)) (hargument : IsWritten style argument) :
    IsWritten style (.update span operator isBefore argument) := by
  intro p hp
  have hq := within_noIn hp
  rw [expressionText, encloses_eq (.base h) hp, formulaWords]
  refine Written.enclose ?_ _
  cases isBefore with
  | true => exact written_update (hargument.inner (hq _) .leftHandSide) operator
  | false => exact written_updateAfter (hargument.first (hq _) .leftHandSide) operator

theorem isWritten_unary [LawfulIdentifierChars version] {argument : Expression}
    {operator : UnaryOperator}
    (h : Formula (.unary span operator argument)) (hargument : IsWritten style argument) :
    IsWritten style (.unary span operator argument) := by
  intro p hp
  have hq := within_noIn hp
  rw [expressionText, encloses_eq (.base h) hp, formulaWords]
  exact (written_unary operator (hargument.inner (hq _) .unary)).enclose _

theorem isWritten_binary [LawfulIdentifierChars version] {left right : Expression}
    {operator : BinaryOperator}
    (h : Formula (.binary span left operator right)) (hleft : IsWritten style left)
    (hright : IsWritten style right) : IsWritten style (.binary span left operator right) := by
  intro p hp
  have hq := within_noIn hp
  rw [expressionText, encloses_eq (.base h) hp, formulaWords]
  exact (written_operation (hleft.first (hq _) _) (hright.inner (hq _) _)
    operator.token (isSpaced_binary operator)).enclose _

theorem isWritten_logical [LawfulIdentifierChars version] {left right : Expression}
    {operator : LogicalOperator}
    (h : Formula (.logical span left operator right)) (hleft : IsWritten style left)
    (hright : IsWritten style right) : IsWritten style (.logical span left operator right) := by
  intro p hp
  have hq := within_noIn hp
  rw [expressionText, encloses_eq (.base h) hp, formulaWords]
  refine Written.enclose (written_operation ?_ ?_ _ (.inl (isSpaced_logical operator))) _
  · exact hleft.operand (p := Place.first _ _) (hq _) rfl operator
  · exact hright.operand (p := Place.inner _ _) (hq _) rfl operator

theorem isWritten_conditional [LawfulIdentifierChars version]
    {test consequent alternate : Expression}
    (h : Formula (.conditional span test consequent alternate)) (htest : IsWritten style test)
    (hconsequent : IsWritten style consequent) (halternate : IsWritten style alternate) :
    IsWritten style (.conditional span test consequent alternate) := by
  intro p hp
  have hq := within_noIn hp
  rw [expressionText, encloses_eq (.base h) hp, formulaWords]
  exact (written_conditional (htest.first (hq _) .coalesce)
    (hconsequent.inner (hq _) .assignment) (halternate.inner (hq _) .assignment)).enclose _

theorem isWritten_assignment [LawfulIdentifierChars version] {left : Pattern}
    {target right : Expression}
    {operator : AssignmentOperator} (h : Formula (.assignment span operator left right))
    (htarget : left.asExpression? = some target) (hformula : Formula target)
    (hsmaller : ∀ e', sizeOf e' < sizeOf target → ∀ found', Links found' e' → IsWritten style e')
    (hright : IsWritten style right) :
    IsWritten style (.assignment span operator left right) := by
  intro p hp
  have hq := within_noIn hp
  rw [expressionText, encloses_eq (.base h) hp, formulaWords]
  refine (written_operation ?_ (hright.inner (hq _) .assignment) operator.token
    (.inl (isSpaced_assignment operator))).enclose _
  obtain ⟨id, rfl, rfl⟩ | ⟨span', object, property, computed, optional, rfl, rfl⟩ :=
    Pattern.asExpression?_cases htarget
  · cases hformula with
    | identifier hname =>
      rw [patternText, targetWords, ← formulaWords, formulaWords_of_isName (hname.isName rfl)]
      exact written_name (hname.isName rfl)
  · cases hformula with
    | member hobject hproperty =>
      rw [patternText, targetWords]
      refine written_memberOf (p := Place.first _ _) (hq _) (.base hobject)
        (hsmaller object (by simp +arith) _ (.base hobject)) hproperty ?_ false
      rintro rfl
      exact hsmaller property (by simp +arith) _ (.base hproperty.formula)

theorem isWritten_sequence {expressions : List Expression}
    (h : Formula (.sequence span expressions)) (hlength : 2 ≤ expressions.length)
    (hexpressions : ∀ e ∈ expressions, IsWritten style e) :
    IsWritten style (.sequence span expressions) := by
  intro p hp
  have hq := within_noIn hp
  rw [expressionText, encloses_eq (.base h) hp, formulaWords]
  refine Written.enclose ?_ _
  cases expressions with
  | nil => simp at hlength
  | cons e es =>
    rw [sequenceTexts, sequenceWords]
    refine written_list ((hexpressions e List.mem_cons_self).first (hq _) .assignment) ?_
    exact items_sequence (fun e' he' => hexpressions e' (List.mem_cons_of_mem _ he')) _ (hq _)

end Operations

section Links

variable {span : Span} {found found' : Bool}

theorem isWritten_member [LawfulIdentifierChars version] {object property : Expression}
    {computed optional : Bool} (h : Links found' (.member span object property computed optional))
    (hlinks : Links found object) (hobject : IsWritten style object)
    (hname : FormulaProperty computed property)
    (hproperty : computed = true → IsWritten style property) :
    IsWritten style (.member span object property computed optional) := by
  intro p hp
  have hq := within_noIn hp
  rw [expressionText, encloses_eq h hp, formulaWords]
  exact (written_memberOf (hq _) hlinks hobject hname hproperty optional).enclose _

theorem isWritten_call {callee : Expression} {arguments : List Element} {optional : Bool}
    (h : Links found (.call span callee arguments optional))
    (hcallee : IsWritten style callee)
    (harguments : ∀ x ∈ arguments, ∀ e, elementExpression? x = some e → IsWritten style e) :
    IsWritten style (.call span callee arguments optional) := by
  intro p hp
  have hq := within_noIn hp
  rw [expressionText, encloses_eq h hp, formulaWords]
  exact (written_arguments (hq _) (hcallee.callee (hq _)) harguments optional).enclose _

end Links

/-- With what is smaller written, the expression is. -/
theorem isWritten_of_smaller [LawfulIdentifierChars version] {found : Bool} {e : Expression}
    (h : Links found e)
    (hsmaller : ∀ e', sizeOf e' < sizeOf e → ∀ found', Links found' e' → IsWritten style e') :
    IsWritten style e := by
  have hformula (e' : Expression) (hsize : sizeOf e' < sizeOf e) (h' : Formula e') :
      IsWritten style e' := hsmaller e' hsize _ (.base h')
  have helements (elements : List Element) (hsize : sizeOf elements < sizeOf e)
      (helements : ∀ x ∈ elements, FormulaElement x) :
      ∀ x ∈ elements, ∀ e', elementExpression? x = some e' → IsWritten style e' := by
    intro x hx e' he'
    have hlt := sizeOf_lt_of_element hx he'
    exact hformula e' (by omega) ((helements x hx).formula he')
  have hproperties (computed : Bool) (property : Expression) (hsize : sizeOf property < sizeOf e)
      (hproperty : FormulaProperty computed property) :
      computed = true → IsWritten style property := by
    rintro rfl
    exact hformula property hsize hproperty.formula
  have hlinks := h
  cases h with
  | @member _ span object property computed optional hobject hproperty =>
    exact isWritten_member hlinks hobject (hsmaller object (by simp +arith) _ hobject) hproperty
      (hproperties computed property (by simp +arith) hproperty)
  | @call _ span callee arguments optional hcallee harguments _ =>
    exact isWritten_call hlinks (hsmaller callee (by simp +arith) _ hcallee)
      (helements arguments (by simp +arith) harguments)
  | base h =>
    have hself := h
    cases h with
    | identifier h =>
      intro p hp
      rw [expressionText, encloses_eq hlinks hp, formulaWords_of_isName (h.isName rfl)]
      exact (written_name (h.isName rfl)).enclose _
    | this =>
      have hname : IsSpelling .thisKeyword "this" := ⟨_, rfl, rfl, rfl, rfl⟩
      intro p hp
      rw [expressionText, encloses_eq hlinks hp, formulaWords]
      exact (written_name (hname.isName rfl)).enclose _
    | @array span elements h =>
      intro p hp
      rw [expressionText, encloses_eq hlinks hp]
      exact (written_array (within_noIn hp _) (helements elements (by simp +arith) h)
          span).enclose _
    | @member span object property computed hobject hproperty =>
      exact isWritten_member hlinks (.base hobject) (hformula object (by simp +arith) hobject)
        hproperty (hproperties computed property (by simp +arith) hproperty)
    | @call span callee arguments hcallee harguments _ =>
      exact isWritten_call hlinks (hformula callee (by simp +arith) hcallee)
        (helements arguments (by simp +arith) harguments)
    | @newCall span callee arguments hcallee harguments _ =>
      intro p hp
      rw [expressionText, encloses_eq hlinks hp]
      exact (written_new (within_noIn hp _) (hformula callee (by simp +arith) hcallee)
        (helements arguments (by simp +arith) harguments) span).enclose _
    | @chain span inner h =>
      intro p hp
      have hinner := (hsmaller inner (by simp +arith) _ h).first
        (within_noIn hp (p.encloses (.chain span inner))) .comma
      rw [bindsBelow_comma] at hinner
      rw [expressionText, formulaWords, ← encloses_eq hlinks hp]
      exact hinner.enclose _
    | @update span operator isBefore argument h _ =>
      exact isWritten_update hself (hformula argument (by simp) h)
    | @unary span operator argument h =>
      exact isWritten_unary hself (hformula argument (by simp +arith) h)
    | @binary span left operator right hleft hright =>
      exact isWritten_binary hself (hformula left (by simp +arith) hleft)
        (hformula right (by simp +arith) hright)
    | @logical span left operator right hleft hright =>
      exact isWritten_logical hself (hformula left (by simp +arith) hleft)
        (hformula right (by simp +arith) hright)
    | @conditional span test consequent alternate htest hconsequent halternate =>
      exact isWritten_conditional hself (hformula test (by simp +arith) htest)
        (hformula consequent (by simp +arith) hconsequent)
        (hformula alternate (by simp +arith) halternate)
    | @assignment span operator left target right htarget hleft hright =>
      have hsize := sizeOf_lt_of_target htarget span operator right
      exact isWritten_assignment hself htarget hleft
        (fun e' he' => hsmaller e' (by omega)) (hformula right (by simp +arith) hright)
    | @sequence span expressions h hlength =>
      refine isWritten_sequence hself hlength fun e' he' => ?_
      have hlt := List.sizeOf_lt_of_mem he'
      exact hformula e' (by simp; omega) (h e' he')
/-- A formula, or members and calls applied to one, is written as its words. -/
theorem isWritten [LawfulIdentifierChars version] {found : Bool} {e : Expression}
    (h : Links found e) : IsWritten style e :=
  isWritten_of_smaller h fun _ _ _ h' => isWritten h'
termination_by sizeOf e

end Texts

end EcmaSyntax.Print
