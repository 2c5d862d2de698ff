import EcmaSyntax.Proofs.Formula.Chains

/-!
Unary and binary operators. An operator of some strength stops before a token that
holds on less tightly, so the operands that are read back are those that were
written. The left operands of binary operators are read by one loop, like the parts
that are applied to a head.
-/

namespace EcmaSyntax.Grammar

open EcmaSyntax.Diagnostic EcmaSyntax.Lexer EcmaSyntax.Print EcmaSyntax.Text EcmaSyntax.Tree

variable {version : Nat} [Unicode.IdentifierChars version]

section Unary

variable {size fuel : Nat} {s : State} {t : Word} {ts ws : List Word}

theorem Recovered.setDepth {isEnclosed found : Bool} {e e' : Expression}
    (h : Recovered isEnclosed found e ws e' s) (depth : Nat) :
    Recovered isEnclosed found e ws e' { s with depth := depth } :=
  ⟨h.same, h.ahead.setDepth depth, h.target, h.group⟩

/-- The words do not start with an operator. -/
def StartsPlainly (words : List Word) : Prop :=
  ∃ w more, words = w :: more ∧ w.token.isUnary = false ∧ w.token.isUpdate = false

theorem IsHead.startsPlainly {isEnclosed : Bool} {e : Expression} (h : IsHead isEnclosed e)
    (tail : List Word) : StartsPlainly (wordsOf isEnclosed e ++ tail) := by
  obtain ⟨-, w, words, hwords, ⟨htoken, -⟩ | ⟨htoken, -⟩⟩ := h
  · exact ⟨w, words ++ tail, by rw [hwords]; rfl, by rw [htoken]; decide⟩
  · refine ⟨w, words ++ tail, by rw [hwords]; rfl, ?_⟩
    rcases htoken with h | h | h | h <;> rw [h] <;> decide

/-- What starts plainly is an operand that may be counted up or down. -/
theorem unary_meets {g : Phrases} {Q : Expression → State → Prop} {words : List Word}
    (hplain : StartsPlainly words) (hahead : Ahead s words)
    (h : Meets IsTooDeep (updateAfter g .none) Q s) : Meets IsTooDeep (unary g .none) Q s := by
  obtain ⟨w, more, rfl, hunary, hupdate⟩ := hplain
  unfold unary
  refine .run rfl (.run hahead.currentToken ?_)
  refine .run hahead.isEscaped (.no (by simp [hunary]) (.no hupdate ?_))
  exact .run (hahead.atWord _) (.no rfl h)

/-- An operand that nothing counts. -/
theorem unary_of_leftHandSide {isEnclosed : Bool} {e : Expression}
    (h : Recovers 17 leftHandSide isEnclosed e) (hformula : Formula e)
    (hplain : ∀ tail, StartsPlainly (wordsOf isEnclosed e ++ tail)) :
    Recovers 15 unary isEnclosed e := by
  intro size fuel s t ts hahead ht hroom
  refine unary_meets (hplain _) hahead ?_
  unfold updateAfter
  refine .run rfl ((h size fuel s t ts hahead (by omega) hroom).bind fun e' s₁ he' => ?_)
  refine .run he'.ahead.currentToken (.run he'.ahead.afterLineBreak ?_)
  refine .run (he'.isBareArrow (.base hformula)) (.yes ?_ (.pure he'))
  have hupdate : t.token.isUpdate = false := by
    refine Bool.eq_false_iff.mpr fun hupdate => ?_
    have hhold := hold_of_isUpdate hupdate
    omega
  simp [hupdate]

/-- A target but for spans is the same kind of target. -/
theorem exists_reference {e e' : Expression} (hreference : isReference e = true)
    (h : e'.withoutSpans = e.withoutSpans) :
    (∃ id, e' = .identifier id) ∨ ∃ span object property computed optional,
      e' = .member span object property computed optional := by
  have hreference' : isReference e' = true :=
    (eq_of_same (fun e => by cases e <;> rfl) h).trans hreference
  cases e' with
  | identifier id => exact .inl ⟨id, rfl⟩
  | member span object property computed optional => exact .inr ⟨_, _, _, _, _, rfl⟩
  | _ => cases hreference'

theorem checkUpdateTarget_of_recovered {e e' : Expression} {ws : List Word}
    (h : Recovered false false e ws e' s) (hreference : isReference e = true)
    (position : String) : checkUpdateTarget .none e' position s = .ok () s := by
  have hassignable := h.target rfl hreference
  unfold checkUpdateTarget
  refine (bind_of_ok rfl).trans ?_
  rw [if_neg (by simp [hassignable])]
  obtain ⟨id, rfl⟩ | ⟨span, object, property, computed, optional, rfl⟩ :=
    exists_reference hreference h.same
  · rfl
  · rfl

theorem updateOperator_updateToken (operator : UpdateOperator) :
    updateOperator (updateToken operator) = operator := by
  cases operator <;> rfl

/-- What is counted up or down afterwards. -/
theorem updateAfter_recovers {argument : Expression} (h : Recovers 17 leftHandSide false argument)
    (hformula : Formula argument) (hreference : isReference argument = true)
    (hplain : ∀ tail, StartsPlainly (wordsOf false argument ++ tail)) (span : Span)
    (operator : UpdateOperator) : Recovers 15 unary false
    (.update span operator false argument) := by
  intro size fuel s t ts hahead _ hroom
  have hbinds : bindsBelow .leftHandSide argument = false := by
    cases argument <;> first | rfl | cases hreference
  have hwords : wordsOf false (.update span operator false argument) ++ t :: ts =
      wordsOf false argument ++ .sign (updateToken operator) :: t :: ts := by
    simp [wordsOf, formulaWords, hbinds]
  have hhold : hold (Word.sign (updateToken operator)).token ≤ 17 := by
    cases operator <;> decide
  have hupdate : (Word.sign (updateToken operator)).token.isUpdate = true := by
    cases operator <;> rfl
  rw [hwords] at hahead hroom
  refine unary_meets (hplain _) hahead ?_
  unfold updateAfter
  refine .run rfl ((h size fuel s _ _ hahead hhold hroom).bind fun e' s₁ he' => ?_)
  refine .run he'.ahead.currentToken (.run he'.ahead.afterLineBreak ?_)
  refine .run (he'.isBareArrow (.base hformula)) (.no (by simp [hupdate]) ?_)
  refine .run (he'.ahead.checkCover e') (.run (checkUpdateTarget_of_recovered he' hreference _) ?_)
  refine .next he'.ahead fun s₂ _ hs₂ => .run rfl (.run rfl (.pure ?_))
  refine .of_not_isReference ?_ (hs₂.setAssignable false) rfl
  rw [Expression.withoutSpans, Expression.withoutSpans, he'.same]
  congr
  exact updateOperator_updateToken operator

/-- The operand of a prefix, one level deeper. -/
theorem prefixOperand_meets {isEnclosed : Bool} {e : Expression}
    (h : Recovers 15 unary isEnclosed e) {w : Word}
    (hahead : Ahead s (w :: (wordsOf isEnclosed e ++ t :: ts))) (ht : hold t.token ≤ 15)
    (hroom : Room size fuel (w :: (wordsOf isEnclosed e ++ t :: ts))) :
    Meets IsTooDeep (nested do
      next
      (phrases .script size fuel).unary .none) (Recovered isEnclosed false e (t :: ts)) s := by
  refine .nested fun depth => .next (hahead.setDepth depth) fun s₁ _ hs₁ => ?_
  cases fuel with
  | zero => exact absurd hroom.fuel (by simp)
  | succ fuel =>
    refine (h size fuel s₁ t ts hs₁ ht (hroom.smaller (by simp))).mono fun e' s₂ he' => ?_
    exact he'.setDepth _

theorem updateBefore_recovers {argument : Expression} (h : Recovers 15 unary false argument)
    (hreference : isReference argument = true) (span : Span) (operator : UpdateOperator) :
    Recovers 15 unary false (.update span operator true argument) := by
  intro size fuel s t ts hahead ht hroom
  have hbinds : bindsBelow .leftHandSide argument = false := by
    cases argument <;> first | rfl | cases hreference
  have hwords : wordsOf false (.update span operator true argument) ++ t :: ts =
      .sign (updateToken operator) :: (wordsOf false argument ++ t :: ts) := by
    simp [wordsOf, formulaWords, hbinds]
  have htoken : (Word.sign (updateToken operator)).token.isUnary = false ∧
      (Word.sign (updateToken operator)).token.isUpdate = true := by
    cases operator <;> decide
  rw [hwords] at hahead hroom
  unfold unary
  refine .run rfl (.run hahead.currentToken ?_)
  refine .run hahead.isEscaped (.no (by simp [htoken.1]) (.yes htoken.2 ?_))
  unfold updateBefore
  refine (prefixOperand_meets h hahead ht hroom).bind fun e' s₁ he' => ?_
  refine .run (checkUpdateTarget_of_recovered he' hreference _) (.run rfl (.run rfl (.pure ?_)))
  refine .of_not_isReference ?_ (he'.ahead.setAssignable false) rfl
  rw [Expression.withoutSpans, Expression.withoutSpans, he'.same]
  congr
  exact updateOperator_updateToken operator

/-- A member with a private name, in a chain or not, which is not deleted. -/
def namesPrivate : Expression → Bool
  | .member _ _ property _ _ => isPrivate property
  | _ => false

theorem withoutParens_withoutSpans (e : Expression) :
    e.withoutSpans.withoutParens = e.withoutParens.withoutSpans := by
  induction e using Expression.withoutParens.induct with
  | case1 span e ih => exact ih
  | case2 e hne => cases e <;> first | rfl | exact (hne _ _ rfl).elim

theorem deleteTarget_withoutSpans (e : Expression) :
    deleteTarget e.withoutSpans = (deleteTarget e).withoutSpans := by
  unfold deleteTarget
  rw [withoutParens_withoutSpans]
  cases e.withoutParens <;> rfl

theorem namesPrivate_withoutSpans (e : Expression) :
    namesPrivate e.withoutSpans = namesPrivate e := by
  cases e with
  | member span object property computed optional => cases property <;> rfl
  | _ => rfl

theorem not_namesPrivate_of_links {found : Bool} {e : Expression} (h : Links found e) :
    namesPrivate e = false := by
  have hname {computed : Bool} {property : Expression} (h : FormulaProperty computed property) :
      isPrivate property = false := by
    cases h with
    | computed h => exact not_isPrivate_of_links (.base h)
    | name => rfl
  cases h with
  | member _ h => exact hname h
  | call => rfl
  | base h => cases h <;> first | rfl | exact hname ‹_›

/-- A formula has no parentheses, and a chain in it no private members. -/
theorem not_namesPrivate_deleteTarget {e : Expression} (h : Formula e) :
    namesPrivate (deleteTarget e) = false := by
  have hself := not_namesPrivate_of_links (.base h)
  cases h with
  | chain hlinks => exact not_namesPrivate_of_links hlinks
  | _ => exact hself

theorem checkDelete_of_recovered {isEnclosed : Bool} {e e' : Expression}
    (h : Recovered isEnclosed false e ws e' s) (hformula : Formula e) (start : Nat) :
    checkDelete .none e' start s = .ok () s := by
  have hprivate : namesPrivate (deleteTarget e') = false := by
    rw [← namesPrivate_withoutSpans, ← deleteTarget_withoutSpans, h.same,
      deleteTarget_withoutSpans, namesPrivate_withoutSpans]
    exact not_namesPrivate_deleteTarget hformula
  unfold checkDelete
  generalize deleteTarget e' = target at hprivate
  cases target with
  | member span object property computed optional =>
    cases property <;> first | rfl | cases hprivate
  | _ => rfl

theorem unaryOperation_recovers {argument : Expression}
    (h : Recovers 15 unary (bindsBelow .unary argument) argument) (hformula : Formula argument)
    (span : Span) (operator : UnaryOperator) :
    Recovers 15 unary false (.unary span operator argument) := by
  intro size fuel s t ts hahead ht hroom
  have hwords : wordsOf false (.unary span operator argument) ++ t :: ts =
      operatorWord operator.token ::
        (wordsOf (bindsBelow .unary argument) argument ++ t :: ts) := by
    simp [wordsOf, formulaWords]
  have htoken : (operatorWord operator.token).token = operator.token := rfl
  have hunary : operator.token.isUnary = true := by
    cases operator <;> rfl
  rw [hwords] at hahead hroom
  unfold unary
  refine .run rfl (.run hahead.currentToken (.run hahead.isEscaped ?_))
  refine .yes (by simp [htoken, hunary]) ?_
  unfold unaryOperation
  refine (prefixOperand_meets h hahead ht hroom).bind fun e' s₁ he' => ?_
  refine .run (he'.ahead.checkCover e') ?_
  rw [htoken, UnaryOperator.ofToken?_token]
  have hdone : Meets IsTooDeep (do
      setAssignable false
      return Expression.unary (← spanFrom s.start) operator e')
      (Recovered false false (.unary span operator argument) (t :: ts)) s₁ := by
    refine .run rfl (.run rfl (.pure ?_))
    refine .of_not_isReference ?_ (he'.ahead.setAssignable false) rfl
    rw [Expression.withoutSpans, Expression.withoutSpans, he'.same]
  dsimp only
  split
  · exact .run (checkDelete_of_recovered he' hformula _) hdone
  · exact hdone

end Unary

section Binary

variable {size fuel : Nat} {s : State} {t : Word} {ts ws : List Word}

/-- The operator that is seen from outside, which parentheses hide. -/
def visibleOperator? (isEnclosed : Bool) (e : Expression) : Option Token :=
  if isEnclosed then none else operatorToken? e

/-- A token ends an expression whose last operator is given. -/
structure EndsOperand (last : Option Token) (token : Token) : Prop where
  holds : hold token ≤ 15
  weaker : ∀ operator ∈ last, token.strength < rightMinimum operator

theorem strength_le_rightMinimum (token : Token) : token.strength ≤ rightMinimum token := by
  unfold rightMinimum
  split <;> omega

theorem EndsOperand.of_minimum {last : Option Token} {token : Token} {minimum : Nat}
    (hlast : ∀ operator ∈ last, minimum ≤ operator.strength) (hholds : hold token ≤ 15)
    (htoken : token.strength < minimum) : EndsOperand last token := by
  refine ⟨hholds, fun operator hoperator => ?_⟩
  have hle := hlast operator hoperator
  have hmin := strength_le_rightMinimum operator
  omega

/-- The loop over the operators after the first operand comes, at the end of the
expression, to stand before what follows. -/
def Operates (isEnclosed : Bool) (e : Expression) (isBaseEnclosed : Bool) (base : Expression)
    (tail : List Word) : Prop :=
  ∀ (size fuel start rounds minimum : Nat) (s : State) (ws : List Word) (t : Word)
    (ts : List Word) (base' : Expression) (Q : Expression × Option Token → State → Prop),
    (∀ operator ∈ visibleOperator? isEnclosed e, minimum ≤ operator.strength) →
    EndsOperand (visibleOperator? isEnclosed e) t.token →
    Recovered isBaseEnclosed false base (tail ++ t :: ts) base' s → Room size fuel ws →
    (tail ++ t :: ts).length ≤ ws.length → tail.length ≤ rounds →
    (∀ e' s' rounds', rounds ≤ rounds' + tail.length →
      Recovered isEnclosed false e (t :: ts) e' s' → Meets IsTooDeep (iterate
        (binaryLink (phrases .script size fuel) .none start minimum) rounds'
          (e', visibleOperator? isEnclosed e)) Q s') →
    Meets IsTooDeep (iterate (binaryLink (phrases .script size fuel) .none start minimum) rounds
      (base', none)) Q s

/-- An expression is a first operand and the words of the operators applied to it. -/
structure Operated (isEnclosed : Bool) (e : Expression) (isBaseEnclosed : Bool)
    (base : Expression) (tail : List Word) : Prop where
  formula : Formula e
  baseFormula : Formula base
  operand : Recovers 15 unary isBaseEnclosed base
  words : wordsOf isEnclosed e = wordsOf isBaseEnclosed base ++ tail
  holds : ∀ w ∈ tail.head?, hold w.token ≤ 15
  loops : Operates isEnclosed e isBaseEnclosed base tail

/-- An operand by itself. -/
theorem Operated.of_unary {isEnclosed : Bool} {e : Expression} (hformula : Formula e)
    (h : Recovers 15 unary isEnclosed e) (hoperator : visibleOperator? isEnclosed e = none) :
    Operated isEnclosed e isEnclosed e [] := by
  refine ⟨hformula, hformula, h, by simp, by simp, ?_⟩
  intro size fuel start rounds minimum s ws t ts base' Q _ _ hbase _ _ _ hrest
  rw [hoperator] at hrest
  exact hrest base' s rounds (Nat.le_refl _) hbase

theorem Operated.exists_follow {isEnclosed isBaseEnclosed : Bool} {e base : Expression}
    {tail : List Word} (h : Operated isEnclosed e isBaseEnclosed base tail)
    (ht : hold t.token ≤ 15) (ts : List Word) :
    ∃ t' ts', tail ++ t :: ts = t' :: ts' ∧ hold t'.token ≤ 15 := by
  cases tail with
  | nil => exact ⟨t, ts, rfl, ht⟩
  | cons w tail => exact ⟨w, _, rfl, h.holds w rfl⟩

/-- The loop ends before a token that is too weak. -/
theorem binaryLink_stop {g : Phrases} {start minimum : Nat} {left : Expression × Option Token}
    (hahead : Ahead s (t :: ts)) (ht : t.token.strength < minimum) :
    binaryLink g .none start minimum left s = .ok none s := by
  have hstrength : Context.none.binaryStrength t.token = t.token.strength := by
    simp [Context.binaryStrength, Context.none, Context.ofList]
  unfold binaryLink
  refine (bind_of_ok hahead.currentToken).trans ?_
  rw [hstrength, if_pos (by simp [ht])]
  rfl

/-- The operators that belong to a first operand, and the loop after them. -/
theorem binary_meets {isEnclosed isBaseEnclosed : Bool} {e base base' : Expression}
    {tail : List Word} (h : Operated isEnclosed e isBaseEnclosed base tail) {start minimum : Nat}
    (hminimum : ∀ operator ∈ visibleOperator? isEnclosed e, minimum ≤ operator.strength)
    (hbase : Recovered isBaseEnclosed false base (tail ++ t :: ts) base' s)
    (hholds : hold t.token ≤ 15) (ht : t.token.strength < minimum) (hroom : Room size fuel ws)
    (hle : (tail ++ t :: ts).length ≤ ws.length) :
    Meets IsTooDeep (binary (phrases .script size fuel) .none start base' minimum)
      (fun r s' => r.2 = visibleOperator? isEnclosed e ∧
        Recovered isEnclosed false e (t :: ts) r.1 s') s := by
  have hsize := hroom.size
  have hlength := hle
  simp only [List.length_append, List.length_cons] at hlength
  unfold binary
  rw [phrases_size]
  refine h.loops size fuel start size minimum s ws t ts base' _ hminimum
    (.of_minimum hminimum hholds ht) hbase hroom hle (by omega) ?_
  intro e' s' rounds hrounds he'
  obtain ⟨rounds', rfl⟩ : ∃ rounds', rounds = rounds' + 1 := ⟨rounds - 1, by omega⟩
  exact .iterate_stop (binaryLink_stop he'.ahead ht) ⟨rfl, he'⟩

/-- What a binary operator makes of two operands, which have parentheses or not. -/
structure IsOperation (whole left right : Expression) (token : Token)
    (isLeftEnclosed isRightEnclosed : Bool) : Prop where
  words : formulaWords whole =
    wordsOf isLeftEnclosed left ++ operatorWord token :: wordsOf isRightEnclosed right
  operator : operatorToken? whole = some token
  node : ∀ span left' right', left'.withoutSpans = left.withoutSpans →
    right'.withoutSpans = right.withoutSpans → ∃ e', binaryNode span token left' right' = some e' ∧
      e'.withoutSpans = whole.withoutSpans
  strong : token.strength ≠ 0
  leftOperator : ∀ operator ∈ visibleOperator? isLeftEnclosed left,
    token.strength ≤ operator.strength ∧ token.strength < rightMinimum operator ∧
      mixesCoalesce operator token = false
  rightOperator : ∀ operator ∈ visibleOperator? isRightEnclosed right,
    rightMinimum token ≤ operator.strength ∧ mixesCoalesce token operator = false
  power : token = .exponentiate → isLeftEnclosed = true ∨ isUnaryOrAwait left = false

theorem IsOperation.checkMixing_left {whole left right : Expression} {token : Token}
    {isLeftEnclosed isRightEnclosed : Bool}
    (h : IsOperation whole left right token isLeftEnclosed isRightEnclosed) (s : State) :
    checkMixing (visibleOperator? isLeftEnclosed left) (some token) s = .ok () s := by
  unfold checkMixing
  cases hoperator : visibleOperator? isLeftEnclosed left with
  | none => rfl
  | some operator =>
    dsimp only
    rw [(h.leftOperator operator hoperator).2.2]
    rfl

theorem IsOperation.checkMixing_right {whole left right : Expression} {token : Token}
    {isLeftEnclosed isRightEnclosed : Bool}
    (h : IsOperation whole left right token isLeftEnclosed isRightEnclosed) (s : State) :
    checkMixing (some token) (visibleOperator? isRightEnclosed right) s = .ok () s := by
  unfold checkMixing
  cases hoperator : visibleOperator? isRightEnclosed right with
  | none => rfl
  | some operator =>
    dsimp only
    rw [(h.rightOperator operator hoperator).2]
    rfl

/-- What stands before an exponentiation is no operation of its own. -/
theorem IsOperation.not_refused {whole left right left' : Expression} {token : Token}
    {isLeftEnclosed isRightEnclosed : Bool}
    (h : IsOperation whole left right token isLeftEnclosed isRightEnclosed)
    (hleft : Recovered isLeftEnclosed false left ws left' s) :
    (token == .exponentiate && isUnaryOrAwait left' &&
      !s.parenthesized.contains left'.start) = false := by
  by_cases htoken : token = .exponentiate
  · rcases h.power htoken with henclosed | hunary
    · have hgroup := hleft.group henclosed
      simp [hgroup]
    · have hsame : isUnaryOrAwait left' = isUnaryOrAwait left :=
        eq_of_same (fun e => by cases e <;> rfl) hleft.same
      simp [hsame, hunary]
  · simp [htoken]

/-- A round of the loop takes an operator and its right operand. -/
theorem binaryLink_meets {whole left right base left' : Expression} {token : Token}
    {isLeftEnclosed isRightEnclosed isBaseEnclosed : Bool} {tail : List Word}
    (h : IsOperation whole left right token isLeftEnclosed isRightEnclosed)
    (hformula : Formula left) (hright : Operated isRightEnclosed right isBaseEnclosed base tail)
    {minimum : Nat} (start : Nat)
    (hleft : Recovered isLeftEnclosed false left
      (operatorWord token :: (wordsOf isRightEnclosed right ++ t :: ts)) left' s)
    (hminimum : minimum ≤ token.strength) (ht : EndsOperand (some token) t.token)
    (hroom : Room size fuel ws)
    (hle : (operatorWord token :: (wordsOf isRightEnclosed right ++ t :: ts)).length ≤ ws.length) :
    Meets IsTooDeep (binaryLink (phrases .script size fuel) .none start minimum
      (left', visibleOperator? isLeftEnclosed left)) (fun r s' => ∃ e', r = some (e', some token) ∧
        Recovered false false whole (t :: ts) e' s') s := by
  have hstrength : Context.none.binaryStrength token = token.strength := by
    simp [Context.binaryStrength, Context.none, Context.ofList]
  have hs := hleft.ahead
  have hfuel := hroom.fuel
  have hsize := hroom.size
  have hweaker : t.token.strength < rightMinimum token := ht.weaker token rfl
  have hlength := hle
  rw [hright.words] at hlength
  simp only [List.length_cons, List.length_append] at hlength
  unfold binaryLink
  refine .run hs.currentToken ?_
  change Meets IsTooDeep (ite (Context.none.binaryStrength token == 0 ||
    decide (Context.none.binaryStrength token < minimum)) _ _) _ s
  rw [hstrength]
  refine .no (by simpa [h.strong] using hminimum) ?_
  refine .maybe (hleft.refusePrivateName (.base hformula)) (.run (h.checkMixing_left s) ?_)
  refine .run rfl (.no (h.not_refused hleft) (.run (hs.checkCover left') ?_))
  refine .next hs fun s₁ _ hs₁ => .run rfl ?_
  obtain ⟨t', ts', hfollow, ht'⟩ := hright.exists_follow ht.holds ts
  rw [hright.words, List.append_assoc, hfollow] at hs₁
  have hroom' : Room size fuel (wordsOf isBaseEnclosed base ++ t' :: ts') := by
    rw [← hfollow]
    constructor
    · simp only [List.length_append, List.length_cons]
      omega
    · simp only [List.length_append, List.length_cons]
      omega
  refine (hright.operand size fuel s₁ t' ts' hs₁ ht' hroom').bind fun operand s₂ hoperand => ?_
  rw [← hfollow] at hoperand
  have hrest : Meets IsTooDeep (nested ((phrases .script size fuel).binary .none s₁.start operand
      (rightMinimum token))) (fun r s' => r.2 = visibleOperator? isRightEnclosed right ∧
        Recovered isRightEnclosed false right (t :: ts) r.1 s') s₂ := by
    refine .nested fun depth => ?_
    cases fuel with
    | zero => exact absurd hfuel (by omega)
    | succ fuel =>
      have hsmaller : Room size fuel (tail ++ t :: ts) := by
        constructor
        · simp only [List.length_append, List.length_cons]
          omega
        · simp only [List.length_append, List.length_cons]
          omega
      refine (binary_meets hright (fun operator hoperator => (h.rightOperator operator hoperator).1)
        (hoperand.setDepth depth) ht.holds hweaker hsmaller (Nat.le_refl _)).mono fun r s₃ hr => ?_
      exact ⟨hr.1, hr.2.setDepth _⟩
  rw [rightMinimum, ← hstrength] at hrest
  refine hrest.bind ?_
  rintro ⟨right', last⟩ s₃ ⟨rfl, hright'⟩
  refine .run (hright'.refusePrivateName (.base hright.formula)) ?_
  refine .run (hright'.ahead.checkCover right') (.run (h.checkMixing_right s₃) (.run rfl ?_))
  obtain ⟨e', hnode, hsame⟩ := h.node ⟨start, s₃.previousEnd⟩ left' right' hleft.same hright'.same
  have hbinary : binaryNode ⟨start, s₃.previousEnd⟩
    (operatorWord token).token left' right' = some e' :=
    hnode
  dsimp only
  rw [hbinary]
  refine .run rfl (.pure ⟨e', rfl, ?_⟩)
  have hreference : isReference whole = false := by
    have hoperator := h.operator
    cases whole <;> first | rfl | cases hoperator
  exact .of_not_isReference hsame (hright'.ahead.setAssignable false) hreference

/-- The rounds for one more operator, after those for its left operand. -/
theorem Operated.step {whole left right leftBase rightBase : Expression} {token : Token}
    {isLeftEnclosed isRightEnclosed isLeftBaseEnclosed isRightBaseEnclosed : Bool}
    {leftTail rightTail : List Word} (hwhole : Formula whole)
    (h : IsOperation whole left right token isLeftEnclosed isRightEnclosed)
    (hleft : Operated isLeftEnclosed left isLeftBaseEnclosed leftBase leftTail)
    (hright : Operated isRightEnclosed right isRightBaseEnclosed rightBase rightTail) :
    Operated false whole isLeftBaseEnclosed leftBase
      (leftTail ++ operatorWord token :: wordsOf isRightEnclosed right) := by
  have hhold : hold token ≤ 15 := by
    have hoperator := h.operator
    rcases strength_or_hold token with hzero | heq
    · exact absurd hzero h.strong
    · have hle : token.strength ≤ 12 := by
        cases token <;> decide
      omega
  have hvisible : visibleOperator? false whole = some token := h.operator
  refine ⟨hwhole, hleft.baseFormula, hleft.operand, ?_, ?_, ?_⟩
  · rw [wordsOf, inParentheses_false, h.words, hleft.words, List.append_assoc]
  · intro w hw
    cases leftTail with
    | nil =>
      cases hw
      exact hhold
    | cons w' tail => exact hleft.holds w hw
  · intro size fuel start rounds minimum s ws t ts base' Q hminimum ht hbase hroom hle hrounds hrest
    rw [hvisible] at hminimum ht hrest
    have hmin := hminimum token rfl
    have hlength := hle
    rw [List.append_assoc] at hbase hle
    simp only [List.length_append, List.length_cons] at hrounds hlength
    refine hleft.loops size fuel start rounds minimum s ws (operatorWord token)
      (wordsOf isRightEnclosed right ++ t :: ts) base' Q ?_ ?_ hbase hroom hle (by omega) ?_
    · intro operator hoperator
      exact Nat.le_trans hmin (h.leftOperator operator hoperator).1
    · exact ⟨hhold, fun operator hoperator => (h.leftOperator operator hoperator).2.1⟩
    intro left' s' rounds' hleftover hleft'
    obtain ⟨rounds'', rfl⟩ : ∃ rounds'', rounds' = rounds'' + 1 := ⟨rounds' - 1, by omega⟩
    have hround := binaryLink_meets h hleft.formula hright start hleft' hmin ht hroom
      (by simp only [List.length_append, List.length_cons]; omega)
    refine Meets.iterate_more (P := fun y s'' => ∃ e', y = (e', some token) ∧
      Recovered false false whole (t :: ts) e' s'') (hround.mono fun r s'' hr => ?_) ?_
    · obtain ⟨e', rfl, he'⟩ := hr
      exact ⟨_, rfl, e', rfl, he'⟩
    · rintro _ s'' ⟨e', rfl, he'⟩
      refine hrest e' s'' rounds'' ?_ he'
      simp only [List.length_append, List.length_cons]
      omega

/-- An expression made with binary operators, up to what is none. -/
theorem binaryExpression_recovers {isEnclosed isBaseEnclosed : Bool} {e base : Expression}
    {tail : List Word} (h : Operated isEnclosed e isBaseEnclosed base tail) :
    Recovers 3 binaryExpression isEnclosed e := by
  intro size fuel s t ts hahead ht hroom
  have hzero : t.token.strength = 0 := by
    rcases strength_or_hold t.token with hzero | heq
    · exact hzero
    · omega
  have hpositive : ∀ operator ∈ visibleOperator? isEnclosed e, 1 ≤ operator.strength := by
    intro operator hoperator
    have hsome : operatorToken? e = some operator := by
      cases isEnclosed with
      | true => cases hoperator
      | false => exact hoperator
    cases e <;> try cases hsome
    case binary span left operator right => cases operator <;> decide
    case logical span left operator right => cases operator <;> decide
  obtain ⟨t', ts', hfollow, ht'⟩ := h.exists_follow (t := t) (by omega) ts
  have hwords := hahead
  rw [h.words, List.append_assoc, hfollow] at hwords hroom
  unfold binaryExpression
  refine .run rfl ((h.operand size fuel s t' ts' hwords ht' hroom).bind fun base' s₁ hbase => ?_)
  refine .run (hbase.isBareArrow (.base h.baseFormula)) (.no rfl ?_)
  rw [← hfollow] at hbase hroom
  refine (binary_meets h hpositive hbase (by omega) (by omega) hroom ?_).bind ?_
  · simp only [List.length_append]
    omega
  · rintro ⟨e', last⟩ s₂ ⟨-, he'⟩
    exact .run (he'.refusePrivateName (.base h.formula)) (.pure he')

theorem visibleOperator?_eq_some {isEnclosed : Bool} {e : Expression} {token : Token}
    (h : visibleOperator? isEnclosed e = some token) :
    isEnclosed = false ∧ operatorToken? e = some token := by
  cases isEnclosed with
  | true => cases h
  | false => exact ⟨rfl, h⟩

/-- The levels of binary operators follow their strengths. -/
theorem rank_precedence {e : Expression} {token : Token} (h : operatorToken? e = some token) :
    (precedence e).rank = token.strength + 2 := by
  cases e <;> try cases h
  case binary span left operator right => cases operator <;> rfl
  case logical span left operator right => cases operator <;> rfl

theorem rank_le_of_not_bindsBelow {least : Precedence} {e : Expression} {token : Token}
    (h : bindsBelow least e = false) (hoperator : operatorToken? e = some token) :
    least.rank ≤ token.strength + 2 := by
  have hnot : ¬ precedence e < least := of_decide_eq_false h
  have hrank := rank_precedence hoperator
  have hle : ¬ (precedence e).rank < least.rank := hnot
  omega

theorem strength_le_of_operator {e : Expression} {token : Token}
    (h : operatorToken? e = some token) : token.strength ≤ 12 := by
  cases e <;> try cases h
  case binary span left operator right => cases operator <;> decide
  case logical span left operator right => cases operator <;> decide

/-- A weaker operator ends the operand of a stronger one, or of an equal one that
groups to the left. -/
theorem lt_rightMinimum {token operator : Token} (hle : token.strength ≤ operator.strength)
    (hlt : token.strength < 12) : token.strength < rightMinimum operator := by
  rcases rightMinimum_cases operator with heq | ⟨rfl, heq⟩
  · omega
  · rw [heq]
    exact hlt

theorem not_mixesCoalesce_binary (operator : BinaryOperator) (token : Token) :
    mixesCoalesce operator.token token = false ∧ mixesCoalesce token operator.token = false := by
  have hplain : operator.token.isCoalesce = false ∧ operator.token.isLogical = false := by
    cases operator <;> decide
  simp [mixesCoalesce, hplain]

/-- The operators of two logical expressions that may stand next to each other. -/
theorem not_mixesCoalesce {operator : LogicalOperator} {e : Expression} {token : Token}
    (h : mixes operator e = false) (hoperator : operatorToken? e = some token) :
    mixesCoalesce token operator.token = false ∧ mixesCoalesce operator.token token = false := by
  cases e <;> try cases hoperator
  case binary span left other right => exact not_mixesCoalesce_binary other operator.token
  case logical span left other right =>
    cases operator <;> cases other <;> first | decide | cases h

/-- The levels that a binary operator asks of its operands. -/
abbrev binaryLevels (span : Span) (left : Expression) (operator : BinaryOperator)
    (right : Expression) : Precedence × Precedence :=
  operandPrecedences operator (precedence (.binary span left operator right))

theorem binaryLevels_left (span : Span) (left : Expression) (operator : BinaryOperator)
    (right : Expression) :
    (operator.token.strength < 12 ∧
      (binaryLevels span left operator right).1.rank = operator.token.strength + 2) ∨
    (binaryLevels span left operator right).1 = .update := by
  cases operator <;> first | exact .inl ⟨by decide, rfl⟩ | exact .inr rfl

theorem binaryLevels_right (span : Span) (left : Expression) (operator : BinaryOperator)
    (right : Expression) :
    (binaryLevels span left operator right).2.rank = rightMinimum operator.token + 2 := by
  cases operator <;> rfl

theorem isOperation_binary (span : Span) (left : Expression) (operator : BinaryOperator)
    (right : Expression) : IsOperation (.binary span left operator right) left right operator.token
      (bindsBelow (binaryLevels span left operator right).1 left)
      (bindsBelow (binaryLevels span left operator right).2 right) := by
  have hstrong : operator.token.strength ≠ 0 := by
    cases operator <;> decide
  have hlevel := binaryLevels_left span left operator right
  refine ⟨by rw [formulaWords], rfl, ?_, hstrong, ?_, ?_, ?_⟩
  · intro span' left' right' hleft hright
    refine ⟨.binary span' left' operator right', ?_, ?_⟩
    · have hlogical : LogicalOperator.ofToken? operator.token = none := by
        cases operator <;> rfl
      unfold binaryNode
      rw [hlogical, BinaryOperator.ofToken?_token]
      rfl
    · rw [Expression.withoutSpans, Expression.withoutSpans, hleft, hright]
  · intro other hother
    obtain ⟨henclosed, hother⟩ := visibleOperator?_eq_some hother
    have hle := rank_le_of_not_bindsBelow henclosed hother
    rcases hlevel with ⟨hlt, hrank⟩ | hupdate
    · have hle' : operator.token.strength ≤ other.strength := by omega
      exact ⟨hle', lt_rightMinimum hle' hlt, (not_mixesCoalesce_binary operator other).2⟩
    · have hmax := strength_le_of_operator hother
      have hrank : Precedence.update.rank = 16 := rfl
      rw [hupdate] at hle
      omega
  · intro other hother
    obtain ⟨henclosed, hother⟩ := visibleOperator?_eq_some hother
    have hle := rank_le_of_not_bindsBelow henclosed hother
    have hrank := binaryLevels_right span left operator right
    exact ⟨by omega, (not_mixesCoalesce_binary operator other).1⟩
  · intro hpower
    rcases hlevel with ⟨hlt, -⟩ | hupdate
    · rw [hpower] at hlt
      exact absurd hlt (by decide)
    · rw [hupdate]
      cases left <;> first | exact .inr rfl | exact .inl rfl

theorem isOperation_logical (span : Span) (left : Expression) (operator : LogicalOperator)
    (right : Expression) : IsOperation (.logical span left operator right) left right operator.token
      (enclosesOperand operator (precedence (.logical span left operator right)) left)
      (enclosesOperand operator
        (precedence (.logical span left operator right)).tighter right) := by
  have hrank : (precedence (.logical span left operator right)).rank =
      operator.token.strength + 2 := rank_precedence rfl
  have htighter : (precedence (.logical span left operator right)).tighter.rank =
      rightMinimum operator.token + 2 := by
    cases operator <;> rfl
  have hweak : operator.token.strength ≠ 0 ∧ operator.token.strength < 12 := by
    cases operator <;> decide
  refine ⟨by rw [formulaWords], rfl, ?_, hweak.1, ?_, ?_, ?_⟩
  · intro span' left' right' hleft hright
    refine ⟨.logical span' left' operator right', ?_, ?_⟩
    · unfold binaryNode
      rw [LogicalOperator.ofToken?_token]
    · rw [Expression.withoutSpans, Expression.withoutSpans, hleft, hright]
  · intro other hother
    obtain ⟨henclosed, hother⟩ := visibleOperator?_eq_some hother
    obtain ⟨hmixes, hbinds⟩ := Bool.or_eq_false_iff.mp henclosed
    have hle := rank_le_of_not_bindsBelow hbinds hother
    have hle' : operator.token.strength ≤ other.strength := by omega
    exact ⟨hle', lt_rightMinimum hle' hweak.2, (not_mixesCoalesce hmixes hother).1⟩
  · intro other hother
    obtain ⟨henclosed, hother⟩ := visibleOperator?_eq_some hother
    obtain ⟨hmixes, hbinds⟩ := Bool.or_eq_false_iff.mp henclosed
    have hle := rank_le_of_not_bindsBelow hbinds hother
    exact ⟨by omega, (not_mixesCoalesce hmixes hother).2⟩
  · intro hpower
    cases operator <;> cases hpower

end Binary

end EcmaSyntax.Grammar
