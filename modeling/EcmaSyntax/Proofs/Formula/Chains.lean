import EcmaSyntax.Proofs.Formula.Lists

/-!
Members, calls and `new`. What is applied to an expression is read by a loop, from
the head of the expression outwards. The lemmas say what one round does, and what
the rounds up to some point of the expression do together.
-/

namespace EcmaSyntax.Grammar

open EcmaSyntax.Diagnostic EcmaSyntax.Lexer EcmaSyntax.Print EcmaSyntax.Text EcmaSyntax.Tree

variable {version : Nat} [Unicode.IdentifierChars version]

section Links

variable {size fuel : Nat} {s : State} {ws after : List Word}

/-- The words of a member after its object. -/
def memberTail (property : List Word) (computed optional : Bool) : List Word :=
  if computed then
    (if optional then [.sign .questionDot, .sign .leftBracket] else [.sign .leftBracket]) ++
      (property ++ [.sign .rightBracket])
  else .sign (if optional then .questionDot else .dot) :: property

theorem identifier_meets {E : Failure → Prop} {w : Word} (hahead : Ahead s (w :: after)) :
    Meets E identifier (fun id s' => id.name = w.value ∧ Ahead s' after) s := by
  unfold identifier
  refine .run rfl (.run hahead.currentValue (.next hahead fun s₁ _ hs₁ => ?_))
  exact .run rfl (.pure ⟨rfl, hs₁⟩)

theorem withoutSpan_of_name {id id' : Identifier} (h : id'.name = id.name) :
    id'.withoutSpan = id.withoutSpan := by
  unfold Identifier.withoutSpan
  rw [h]

theorem memberName_meets {E : Failure → Prop} {token : Token} {id : Identifier}
    (hword : token.isWord = true) (hname : IsSpelling token id.name)
    (hahead : Ahead s (formulaWords (.identifier id) ++ after)) :
    Meets E memberName (fun e s' => e.withoutSpans = (Expression.identifier id).withoutSpans ∧
      Ahead s' after) s := by
  have hwords : formulaWords (.identifier id) = [⟨token, id.name⟩] := by
    rw [formulaWords, nameWord, ← (hname.isName hword).token_eq]
  rw [hwords, List.singleton_append] at hahead
  have hprivate : token ≠ .privateName := by
    rintro rfl
    cases hword
  unfold memberName
  refine .run hahead.currentToken (.no (by simpa using hprivate) (.yes hword ?_))
  refine (identifier_meets hahead).bind fun id' s₁ hid => .pure ⟨?_, hid.2⟩
  rw [Expression.withoutSpans, Expression.withoutSpans, withoutSpan_of_name hid.1]

theorem computedProperty_meets {property : Expression} (hproperty : Formula property)
    (hitems : ∀ x ∈ parts property, IsItem x)
    (hahead : Ahead s (.sign .leftBracket :: (formulaWords property ++
      .sign .rightBracket :: after))) (hroom : Room size fuel ws)
    (hle : (.sign .leftBracket :: (formulaWords property ++
      .sign .rightBracket :: after)).length ≤ ws.length) :
    Meets IsTooDeep (computedProperty (phrases .script size fuel) .none)
      (fun e s' => e.withoutSpans = property.withoutSpans ∧ Ahead s' after) s := by
  unfold computedProperty
  refine .next hahead fun s₁ _ hs₁ => ?_
  refine (expression_meets hproperty hitems hs₁ rfl hroom hle).bind fun e' s₂ he' => ?_
  exact .expect he'.2 rfl fun s₃ _ hs₃ => .pure ⟨he'.1, hs₃⟩

/-- What names a member can be read. -/
structure IsProperty (computed : Bool) (name : Expression) : Prop where
  property : FormulaProperty computed name
  items : computed = true → ∀ x ∈ parts name, IsItem x

/-- Nothing but the tree and the words after it matters for a member. -/
theorem recovered_member {object object' property property' : Expression} {found : Bool}
    (hobject : object'.withoutSpans = object.withoutSpans)
    (hproperty : property'.withoutSpans = property.withoutSpans) (span span' : Span)
    (computed optional : Bool) (hs : Ahead s after) (hassignable : found = false →
      s.assignable = true) :
    Recovered false found (.member span object property computed optional) after
      (.member span' object' property' computed optional) s := by
  refine ⟨?_, hs, fun hfound _ => hassignable (by simpa using hfound), fun h => by cases h⟩
  rw [Expression.withoutSpans, Expression.withoutSpans, hobject, hproperty]

/-- The words of an optional member after its sign. -/
def optionalTail (property : List Word) (computed : Bool) : List Word :=
  if computed then .sign .leftBracket :: (property ++ [.sign .rightBracket]) else property

theorem memberTail_optional (property : List Word) (computed : Bool) :
    memberTail property computed true = .sign .questionDot :: optionalTail property computed := by
  cases computed <;> rfl

theorem optionalTail_computed (property after : List Word) :
    optionalTail property true ++ after =
      .sign .leftBracket :: (property ++ .sign .rightBracket :: after) := by
  simp [optionalTail]

/-- What follows the sign of an optional member. -/
theorem optionalLink_member {object property : Expression} {computed : Bool} {start : Nat}
    (hproperty : IsProperty computed property)
    (hahead : Ahead s (optionalTail (formulaWords property) computed ++ after))
    (hroom : Room size fuel ws)
    (hle : (optionalTail (formulaWords property) computed ++ after).length ≤ ws.length) :
    Meets IsTooDeep (optionalLink (phrases .script size fuel) .none start object) (fun e s' =>
      ∃ span property', e = .member span object property' computed true ∧
        property'.withoutSpans = property.withoutSpans ∧ Ahead s' after) s := by
  unfold optionalLink
  cases hproperty.property with
  | computed h =>
    rw [optionalTail_computed] at hahead hle
    refine .run hahead.currentToken ?_
    refine (computedProperty_meets h (hproperty.items rfl) hahead hroom hle).bind fun e' s₁ he' =>
      ?_
    exact .run rfl (.pure ⟨_, e', rfl, he'⟩)
  | @name id token hword h =>
    have hname : Meets IsTooDeep
        (memberName >>= fun property' => do
          return Expression.member (← spanFrom start) object property' false true)
        (fun e s' => ∃ span property', e = .member span object property' false true ∧
          property'.withoutSpans = (Expression.identifier id).withoutSpans ∧ Ahead s' after) s :=
      (memberName_meets hword h hahead).bind fun property' s₁ h₁ =>
        .run rfl (.pure ⟨_, property', rfl, h₁⟩)
    have hwords : formulaWords (.identifier id) = [⟨token, id.name⟩] := by
      rw [formulaWords, nameWord, ← (h.isName hword).token_eq]
    change Ahead s (formulaWords (.identifier id) ++ after) at hahead
    rw [hwords, List.singleton_append] at hahead
    refine .run hahead.currentToken ?_
    dsimp only
    split
    · cases hword
    · cases hword
    · cases hword
    · cases hword
    · exact hname

theorem chainLink_member {object object' property : Expression} {computed optional : Bool}
    (span : Span) {isEnclosed found allowCalls : Bool} {start : Nat}
    (hproperty : IsProperty computed property)
    (hobject : Recovered isEnclosed found object
      (memberTail (formulaWords property) computed optional ++ after) object' s)
    (hcalls : allowCalls = false → optional = false) (hroom : Room size fuel ws)
    (hle : (memberTail (formulaWords property) computed optional ++ after).length ≤ ws.length) :
    Meets IsTooDeep (chainLink (phrases .script size fuel) .none start allowCalls ⟨object', found⟩)
      (fun r s' => ∃ e', r = some ⟨e', found || optional⟩ ∧ Recovered false (found || optional)
        (.member span object property computed optional) after e' s') s := by
  have hs := hobject.ahead
  unfold chainLink
  cases optional with
  | true =>
    obtain rfl : allowCalls = true := by
      cases allowCalls with
      | true => rfl
      | false => cases hcalls rfl
    rw [memberTail_optional, List.cons_append] at hs hle
    refine .run hs.currentToken (.no rfl
      (.run (hs.checkCover object') (.next hs fun s₁ _ hs₁ => ?_)))
    refine (optionalLink_member hproperty hs₁ hroom (Nat.le_of_succ_le hle)).bind fun e' s₂ he' =>
      ?_
    obtain ⟨span', property', rfl, hsame, hs₂⟩ := he'
    refine .run rfl (.pure ⟨_, by rw [Bool.or_true], ?_⟩)
    exact recovered_member hobject.same hsame _ _ _ _ (hs₂.setAssignable _) (by simp)
  | false =>
    cases hproperty.property with
    | computed h =>
      change Ahead s (optionalTail (formulaWords property) true ++ after) at hs
      change (optionalTail (formulaWords property) true ++ after).length ≤ _ at hle
      rw [optionalTail_computed] at hs hle
      refine .run hs.currentToken (.run (hs.checkCover object') ?_)
      refine (computedProperty_meets h (hproperty.items rfl) hs hroom hle).bind fun e' s₁ he' => ?_
      refine .run rfl (.run rfl (.pure ⟨_, by rw [Bool.or_false], ?_⟩))
      exact recovered_member hobject.same he'.1 _ _ _ _ (he'.2.setAssignable _)
        fun hfound => by simpa using hfound
    | @name id token hword h =>
      refine .run (Ahead.currentToken hs)
        (.run (hs.checkCover object') (.next hs fun s₁ _ hs₁ => ?_))
      refine (memberName_meets hword h hs₁).bind fun e' s₂ he' => ?_
      refine .run rfl (.run rfl (.pure ⟨_, by rw [Bool.or_false], ?_⟩))
      exact recovered_member hobject.same he'.1 _ _ _ _ (he'.2.setAssignable _)
        fun hfound => by simpa using hfound

/-- The words of a call after what is called. -/
def callTailWords (arguments : List Element) (optional : Bool) : List Word :=
  (if optional then [.sign .questionDot] else []) ++ argumentWords (elementWords arguments)

/-- Arguments can be read. -/
structure AreArguments (args : List Element) : Prop where
  items : ∀ x ∈ args, ∀ e, elementExpression? x = some e → IsItem e
  holes : .hole ∉ args

theorem chainLink_call {callee callee' : Expression} {args : List Element} {optional : Bool}
    (span : Span) {isEnclosed found : Bool} {start : Nat} (hargs : AreArguments args)
    (hcallee : Recovered isEnclosed found callee (callTailWords args optional ++ after) callee' s)
    (hroom : Room size fuel ws) (hle : (callTailWords args optional ++ after).length ≤ ws.length) :
    Meets IsTooDeep (chainLink (phrases .script size fuel) .none start true ⟨callee', found⟩)
      (fun r s' => ∃ e', r = some ⟨e', found || optional⟩ ∧ Recovered false (found || optional)
        (.call span callee args optional) after e' s') s := by
  have hs := hcallee.ahead
  have hsame (span' : Span) (args' : List Element)
      (hargs' : args'.map Element.withoutSpans = args.map Element.withoutSpans) :
      (Expression.call span' callee' args' optional).withoutSpans =
        (Expression.call span callee args optional).withoutSpans := by
    simp only [Expression.withoutSpans, elementsWithoutSpans_eq_map, hargs', hcallee.same]
  unfold chainLink
  cases optional with
  | true =>
    change Ahead s (.sign .questionDot :: (argumentWords (elementWords args) ++ after)) at hs
    change (.sign .questionDot :: (argumentWords (elementWords args) ++ after)).length ≤ _ at hle
    refine .run hs.currentToken (.no rfl
      (.run (hs.checkCover callee') (.next hs fun s₁ _ hs₁ => ?_)))
    have hlink : Meets IsTooDeep (optionalLink (phrases .script size fuel) .none start callee')
        (fun e s' => ∃ span' args', e = .call span' callee' args' true ∧
          args'.map Element.withoutSpans = args.map Element.withoutSpans ∧ Ahead s' after) s₁ := by
      unfold optionalLink
      refine .run (Ahead.currentToken hs₁) ?_
      refine (arguments_meets hargs.items hargs.holes hs₁ hroom (Nat.le_of_succ_le hle)).bind
        fun args' s₂ hargs' => ?_
      exact .run rfl (.pure ⟨_, args', rfl, hargs'⟩)
    refine hlink.bind fun e' s₂ he' => ?_
    obtain ⟨span', args', rfl, hargs', hs₂⟩ := he'
    refine .run rfl (.pure ⟨_, by rw [Bool.or_true], ?_⟩)
    exact .of_not_isReference (hsame _ _ hargs') (hs₂.setAssignable _) rfl
  | false =>
    change Ahead s (argumentWords (elementWords args) ++ after) at hs
    refine .run (Ahead.currentToken hs) (.yes rfl (.run (hs.checkCover callee') ?_))
    refine (arguments_meets hargs.items hargs.holes hs hroom hle).bind fun args' s₁ hargs' => ?_
    refine .run rfl (.run rfl (.pure ⟨_, by rw [Bool.or_false], ?_⟩))
    exact .of_not_isReference (hsame _ _ hargs'.1) (hargs'.2.setAssignable _) rfl

end Links

section Heads

variable {size fuel : Nat} {s : State} {t : Word} {ts ws : List Word}

/-- What is read before anything is applied to it. -/
def IsHead (isEnclosed : Bool) (e : Expression) : Prop :=
  Formula e ∧ ∃ w words, wordsOf isEnclosed e = w :: words ∧
    ((w.token = .newKeyword ∧ Recovers 19 newCall isEnclosed e) ∨
      ((w.token = .identifier ∨ w.token = .thisKeyword ∨ w.token = .leftBracket ∨
        w.token = .leftParen) ∧ Recovers 19 primary isEnclosed e))

theorem leftHandSide_meets {isEnclosed : Bool} {e : Expression} (h : IsHead isEnclosed e)
    (hahead : Ahead s (wordsOf isEnclosed e ++ t :: ts)) (ht : hold t.token ≤ 19)
    (hroom : Room size fuel (wordsOf isEnclosed e ++ t :: ts)) {Q : Expression → State → Prop}
    (htail : ∀ start e' s', Recovered isEnclosed false e (t :: ts) e' s' →
      Meets IsTooDeep (callTail (phrases .script size fuel) .none start e' true) Q s') :
    Meets IsTooDeep (leftHandSide (phrases .script size fuel) .none) Q s := by
  obtain ⟨hformula, w, words, hwords, hcases⟩ := h
  have hhead : Ahead s (w :: (words ++ t :: ts)) := by
    rw [← List.cons_append, ← hwords]
    exact hahead
  have hrest (start : Nat) (e' : Expression) (s' : State)
      (he' : Recovered isEnclosed false e (t :: ts) e' s') :
      Meets IsTooDeep (do
        if ← isBareArrow e' then return e'
        callTail (phrases .script size fuel) .none start e' true) Q s' :=
    .run (he'.isBareArrow (.base hformula)) (.no rfl (htail start e' s' he'))
  unfold leftHandSide
  refine .run rfl (.run (hhead.atWord _) (.run (hhead.atWord _) (.run (hhead.atWord _) ?_)))
  rcases hcases with ⟨htoken, hrecovers⟩ | ⟨htoken, hrecovers⟩
  · refine .yes (by simp [htoken]) ?_
    exact (hrecovers size fuel s t ts hahead ht hroom).bind (hrest _)
  · refine .no (by rcases htoken with h | h | h | h <;> simp [h]) ?_
    refine .no (by rcases htoken with h | h | h | h <;> simp [h]) ?_
    refine .no (by rcases htoken with h | h | h | h <;> simp [h]) ?_
    exact (hrecovers size fuel s t ts hahead ht hroom).bind (hrest _)

theorem newCallee_meets {isEnclosed : Bool} {e : Expression} (h : IsHead isEnclosed e)
    (hahead : Ahead s (wordsOf isEnclosed e ++ t :: ts)) (ht : hold t.token ≤ 19)
    (hroom : Room size fuel ws) (hlt : (wordsOf isEnclosed e ++ t :: ts).length < ws.length) :
    Meets IsTooDeep (newCallee (phrases .script size fuel) .none)
      (Recovered isEnclosed false e (t :: ts)) s := by
  obtain ⟨-, w, words, hwords, hcases⟩ := h
  have hhead : Ahead s (w :: (words ++ t :: ts)) := by
    rw [← List.cons_append, ← hwords]
    exact hahead
  unfold newCallee
  refine .run rfl (.run (hhead.atWord _) ?_)
  rcases hcases with ⟨htoken, hrecovers⟩ | ⟨htoken, hrecovers⟩
  · refine .yes (by simp [htoken]) ?_
    cases fuel with
    | zero => exact absurd (Nat.lt_of_lt_of_le hlt hroom.fuel) (Nat.not_lt_zero _)
    | succ fuel => exact hrecovers size fuel s t ts hahead ht (hroom.smaller hlt)
  · refine .no (by rcases htoken with h | h | h | h <;> simp [h]) (.run (hhead.atWord _) ?_)
    refine .no (by rcases htoken with h | h | h | h <;> simp [h]) (.run (hhead.atWord _) ?_)
    refine .no (by rcases htoken with h | h | h | h <;> simp [h]) ?_
    have hfuel := hroom.fuel
    have hsize := hroom.size
    exact hrecovers size fuel s t ts hahead ht ⟨by omega, by omega⟩

/-- The loop over what is applied to the base of an expression comes, at the end of the
expression, to stand before what follows. -/
def Loops (isEnclosed found : Bool) (e : Expression) (isBaseEnclosed : Bool) (base : Expression)
    (tail : List Word) : Prop :=
  ∀ (size fuel start rounds : Nat) (allowCalls : Bool) (s : State) (ws after : List Word)
    (base' : Expression) (Q : Chain → State → Prop),
    (allowCalls = false → (isEnclosed = true ∨ containsCall e = false) ∧ found = false) →
    Recovered isBaseEnclosed false base (tail ++ after) base' s → Room size fuel ws →
    (tail ++ after).length ≤ ws.length → tail.length ≤ rounds →
    (∀ e' s' rounds', rounds ≤ rounds' + tail.length →
      Recovered isEnclosed found e after e' s' → Meets IsTooDeep (iterate
        (chainLink (phrases .script size fuel) .none start allowCalls) rounds' ⟨e', found⟩) Q s') →
    Meets IsTooDeep (iterate (chainLink (phrases .script size fuel) .none start allowCalls) rounds
      ⟨base', false⟩) Q s

/-- An expression is a head and the words of what is applied to it. -/
structure Linked (isEnclosed found : Bool) (e : Expression) (isBaseEnclosed : Bool)
    (base : Expression) (tail : List Word) : Prop where
  head : IsHead isBaseEnclosed base
  words : wordsOf isEnclosed e = wordsOf isBaseEnclosed base ++ tail
  holds : ∀ w ∈ tail.head?, hold w.token ≤ 19
  loops : Loops isEnclosed found e isBaseEnclosed base tail

/-- A head by itself. -/
theorem Linked.of_head {isEnclosed : Bool} {e : Expression} (h : IsHead isEnclosed e) :
    Linked isEnclosed false e isEnclosed e [] := by
  refine ⟨h, by simp, by simp, ?_⟩
  intro size fuel start rounds allowCalls s ws after base' Q _ hbase _ _ _ hrest
  exact hrest base' s rounds (Nat.le_refl _) hbase

/-- The rounds for one more part, after those for what it is applied to. -/
theorem Linked.step {isEnclosed found found' isBaseEnclosed : Bool} {e whole base : Expression}
    {tail more : List Word} (h : Linked isEnclosed found e isBaseEnclosed base tail)
    (hmore : more ≠ []) (hholds : ∀ w ∈ more.head?, hold w.token ≤ 19)
    (hwords : formulaWords whole = wordsOf isEnclosed e ++ more)
    (hcalls : ∀ allowCalls, (allowCalls = false → containsCall whole = false ∧ found' = false) →
      (allowCalls = false → (isEnclosed = true ∨ containsCall e = false) ∧ found = false))
    (hlink : ∀ (size fuel start : Nat) (allowCalls : Bool) (s : State) (ws after : List Word)
      (e' : Expression), (allowCalls = false → containsCall whole = false ∧ found' = false) →
      Recovered isEnclosed found e (more ++ after) e' s → Room size fuel ws →
      (more ++ after).length ≤ ws.length →
      Meets IsTooDeep (chainLink (phrases .script size fuel) .none start allowCalls ⟨e', found⟩)
        (fun r s' => ∃ e'', r = some ⟨e'', found'⟩ ∧ Recovered false found' whole after e'' s') s) :
    Linked false found' whole isBaseEnclosed base (tail ++ more) := by
  refine ⟨h.head, ?_, ?_, ?_⟩
  · rw [wordsOf, inParentheses, if_neg (by simp), hwords, h.words, List.append_assoc]
  · intro w hw
    cases tail with
    | nil => exact hholds w hw
    | cons w' tail => exact h.holds w hw
  · intro size fuel start rounds allowCalls s ws after base' Q hallowed hbase hroom
      hle hrounds hrest
    have hallowed' : allowCalls = false → containsCall whole = false ∧ found' = false := by
      intro hfalse
      simpa using hallowed hfalse
    have hpos := List.length_pos_iff.mpr hmore
    rw [List.append_assoc] at hbase hle
    simp only [List.length_append] at hrounds hle
    refine h.loops size fuel start rounds allowCalls s ws (more ++ after) base' Q
      (hcalls allowCalls hallowed') hbase hroom (by simpa using hle) (by omega) ?_
    intro e' s' rounds' hleft he'
    obtain ⟨rounds'', rfl⟩ : ∃ rounds'', rounds' = rounds'' + 1 := ⟨rounds' - 1, by omega⟩
    have hround := hlink size fuel start allowCalls s' ws after e' hallowed' he' hroom
      (by simp only [List.length_append]; omega)
    refine Meets.iterate_more (P := fun y s'' => ∃ e'', y = ⟨e'', found'⟩ ∧
      Recovered false found' whole after e'' s'') (hround.mono fun r s'' hr => ?_) ?_
    · obtain ⟨e'', rfl, he''⟩ := hr
      exact ⟨_, rfl, e'', rfl, he''⟩
    · rintro _ s'' ⟨e'', rfl, he''⟩
      refine hrest e'' s'' rounds'' ?_ he''
      simp only [List.length_append]
      omega

theorem linked_member {found isBaseEnclosed : Bool} {object property base : Expression}
    {tail : List Word}
    (h : Linked (enclosesCallee object) found object isBaseEnclosed base tail) {computed : Bool}
    (hproperty : IsProperty computed property) (span : Span) (optional : Bool) :
    Linked false (found || optional) (.member span object property computed optional)
      isBaseEnclosed base (tail ++ memberTail (formulaWords property) computed optional) := by
  refine h.step ?_ ?_ (by rw [formulaWords]; rfl) ?_ ?_
  · cases computed <;> cases optional <;> simp [memberTail]
  · intro w hw
    cases computed <;> cases optional <;> cases hw <;> decide
  · intro allowCalls hallowed hfalse
    obtain ⟨hcontains, hfound⟩ := hallowed hfalse
    exact ⟨.inr hcontains, (Bool.or_eq_false_iff.mp hfound).1⟩
  · intro size fuel start allowCalls s ws after e' hallowed he' hroom hle
    refine chainLink_member span hproperty he' (fun hfalse => ?_) hroom hle
    exact (Bool.or_eq_false_iff.mp (hallowed hfalse).2).2

theorem linked_call {found isBaseEnclosed : Bool} {callee base : Expression} {tail : List Word}
    (h : Linked (enclosesCallee callee) found callee isBaseEnclosed base tail)
    {args : List Element} (hargs : AreArguments args) (span : Span) (optional : Bool) :
    Linked false (found || optional) (.call span callee args optional) isBaseEnclosed base
      (tail ++ callTailWords args optional) := by
  refine h.step ?_ ?_ (by rw [formulaWords]; rfl) ?_ ?_
  · cases optional <;> simp [callTailWords, argumentWords]
  · intro w hw
    cases optional <;> cases hw <;> decide
  · intro allowCalls hallowed hfalse
    cases (hallowed hfalse).1
  · intro size fuel start allowCalls s ws after e' hallowed he' hroom hle
    cases allowCalls with
    | true => exact chainLink_call span hargs he' hroom hle
    | false => cases (hallowed rfl).1

/-- Nothing is applied where a token holds on less tightly. -/
theorem chainLink_stop {g : Phrases} {start : Nat} {allowCalls : Bool} {chain : Chain}
    (hahead : Ahead s (t :: ts)) (ht : hold t.token ≤ if allowCalls then 17 else 18) :
    chainLink g .none start allowCalls chain s = .ok none s := by
  have hle : hold t.token ≤ 18 := by
    split at ht <;> omega
  unfold chainLink
  refine (bind_of_ok hahead.currentToken).trans ?_
  generalize t.token = token at ht hle ⊢
  cases token
  case leftParen =>
    cases allowCalls with
    | true => exact absurd ht (by decide)
    | false => rfl
  case dot | leftBracket | questionDot | noSubstitutionTemplate | templateHead =>
    exact absurd hle (by decide)
  all_goals rfl

/-- Everything that is applied to a head. -/
theorem callTail_meets (allowCalls : Bool) {isEnclosed found isBaseEnclosed : Bool}
    {e base base' : Expression} {tail : List Word}
    (h : Linked isEnclosed found e isBaseEnclosed base tail) {start : Nat}
    (hcalls : allowCalls = false → (isEnclosed = true ∨ containsCall e = false) ∧ found = false)
    (hbase : Recovered isBaseEnclosed false base (tail ++ t :: ts) base' s)
    (ht : hold t.token ≤ if allowCalls then 17 else 18) (hroom : Room size fuel ws)
    (hle : (tail ++ t :: ts).length ≤ ws.length) {Q : Expression → State → Prop}
    (hQ : ∀ e' s' span, Recovered isEnclosed found e (t :: ts) e' s' →
      Q (if found then .chain span e' else e')
        (if found then { s' with assignable := false } else s')) :
    Meets IsTooDeep (callTail (phrases .script size fuel) .none start base' allowCalls) Q s := by
  have hsize := hroom.size
  unfold callTail
  refine Meets.bind (Q := fun chain s' => chain.isOptional = found ∧
    Recovered isEnclosed found e (t :: ts) chain.expression s') ?_ ?_
  · rw [phrases_size]
    simp only [List.length_append, List.length_cons] at hle
    refine h.loops size fuel start size allowCalls s ws (t :: ts) base' _ hcalls hbase hroom
      (by simpa using hle) (by omega) ?_
    intro e' s' rounds hrounds he'
    obtain ⟨rounds', rfl⟩ : ∃ rounds', rounds = rounds' + 1 := ⟨rounds - 1, by omega⟩
    exact .iterate_stop (chainLink_stop he'.ahead ht) ⟨rfl, he'⟩
  · rintro ⟨e', isOptional⟩ s' ⟨rfl, he'⟩
    cases isOptional with
    | true => exact .run rfl (.run rfl (.pure (hQ e' s' _ he')))
    | false => exact .pure (hQ e' s' noSpan he')

/-- The words after a head start with a token that does not change what it is. -/
theorem Linked.exists_follow {isEnclosed found isBaseEnclosed : Bool} {e base : Expression}
    {tail : List Word} (h : Linked isEnclosed found e isBaseEnclosed base tail)
    (ht : hold t.token ≤ 19) (ts : List Word) :
    ∃ t' ts', tail ++ t :: ts = t' :: ts' ∧ hold t'.token ≤ 19 := by
  cases tail with
  | nil => exact ⟨t, ts, rfl, ht⟩
  | cons w tail => exact ⟨w, _, rfl, h.holds w rfl⟩

theorem leftHandSide_of_linked {isEnclosed found isBaseEnclosed : Bool} {e base : Expression}
    {tail : List Word} (h : Linked isEnclosed found e isBaseEnclosed base tail)
    (hahead : Ahead s (wordsOf isEnclosed e ++ t :: ts)) (ht : hold t.token ≤ 17)
    (hroom : Room size fuel (wordsOf isEnclosed e ++ t :: ts)) {Q : Expression → State → Prop}
    (hQ : ∀ e' s' span, Recovered isEnclosed found e (t :: ts) e' s' →
      Q (if found then .chain span e' else e')
        (if found then { s' with assignable := false } else s')) :
    Meets IsTooDeep (leftHandSide (phrases .script size fuel) .none) Q s := by
  obtain ⟨t', ts', hfollow, ht'⟩ := h.exists_follow (t := t) (by omega) ts
  rw [h.words, List.append_assoc, hfollow] at hahead hroom
  refine leftHandSide_meets h.head hahead ht' hroom fun start base' s' hbase => ?_
  rw [← hfollow] at hbase hroom
  refine callTail_meets true h (fun hfalse => by cases hfalse) hbase (by simpa using ht) hroom ?_ hQ
  simp only [List.length_append]
  omega

/-- An expression to which parts are applied, none of them optional. -/
theorem leftHandSide_recovers {isEnclosed isBaseEnclosed : Bool} {e base : Expression}
    {tail : List Word} (h : Linked isEnclosed false e isBaseEnclosed base tail) :
    Recovers 17 leftHandSide isEnclosed e := by
  intro size fuel s t ts hahead ht hroom
  exact leftHandSide_of_linked h hahead ht hroom fun e' s' span he' => he'

/-- An optional chain. -/
theorem chain_recovers {isBaseEnclosed : Bool} {e base : Expression} {tail : List Word}
    (h : Linked false true e isBaseEnclosed base tail) (span : Span) :
    Recovers 17 leftHandSide false (.chain span e) := by
  intro size fuel s t ts hahead ht hroom
  have hwords : wordsOf false (.chain span e) = wordsOf false e := by
    rw [wordsOf, wordsOf, formulaWords]
  rw [hwords] at hahead hroom
  refine leftHandSide_of_linked h hahead ht hroom fun e' s' span' he' => ?_
  refine .of_not_isReference ?_ (he'.ahead.setAssignable _) rfl
  rw [if_pos rfl, Expression.withoutSpans, Expression.withoutSpans, he'.same]

/-- `new` with its callee and arguments. -/
theorem newCall_recovers {isBaseEnclosed : Bool} {callee base : Expression} {tail : List Word}
    (h : Linked (enclosesConstructor callee) false callee isBaseEnclosed base tail)
    {args : List Element} (hargs : AreArguments args) (span : Span) (rank : Nat) :
    Recovers rank newCall false (.newCall span callee args) := by
  intro size fuel s t ts hahead _ hroom
  have hwords : wordsOf false (.newCall span callee args) ++ t :: ts =
      ⟨.newKeyword, "new"⟩ :: (wordsOf isBaseEnclosed base ++
        (tail ++ .sign .leftParen :: (withCommas (elementWords args) ++
          .sign .rightParen :: t :: ts))) := by
    have hcallee := h.words
    rw [wordsOf] at hcallee
    rw [wordsOf, inParentheses_false, formulaWords, nameWord_new, hcallee]
    simp [argumentWords]
  have hsame (span' : Span) (callee' : Expression) (args' : List Element)
      (hcallee' : callee'.withoutSpans = callee.withoutSpans)
      (hargs' : args'.map Element.withoutSpans = args.map Element.withoutSpans) :
      (Expression.newCall span' callee' args').withoutSpans =
        (Expression.newCall span callee args).withoutSpans := by
    simp only [Expression.withoutSpans, elementsWithoutSpans_eq_map, hargs', hcallee']
  have harguments (after : List Word) : argumentWords (elementWords args) ++ after =
      .sign .leftParen :: (withCommas (elementWords args) ++ .sign .rightParen :: after) := by
    simp [argumentWords]
  obtain ⟨t', ts', hfollow, ht'⟩ := h.exists_follow (t := .sign .leftParen) (by decide)
    (withCommas (elementWords args) ++ .sign .rightParen :: t :: ts)
  rw [hwords] at hahead hroom
  have hdot : ∃ w words, Word.token w ≠ .dot ∧ wordsOf isBaseEnclosed base = w :: words := by
    obtain ⟨-, w, words, hbase, ⟨htoken, -⟩ | ⟨htoken, -⟩⟩ := h.head
    · exact ⟨w, words, by simp [htoken], hbase⟩
    · exact ⟨w, words, by rcases htoken with h | h | h | h <;> simp [h], hbase⟩
  obtain ⟨w, words, hw, hbase⟩ := hdot
  unfold newCall
  refine .nested fun depth => .run rfl (.next (hahead.setDepth depth) fun s₁ _ hs₁ => ?_)
  have hfirst := hs₁
  rw [hbase, List.cons_append] at hfirst
  refine .refuse hfirst hw (.run rfl ?_)
  rw [hfollow] at hs₁
  refine (newCallee_meets h.head hs₁ ht' hroom (by rw [hfollow]; simp)).bind fun base' s₂ hbase' =>
    ?_
  rw [← hfollow] at hbase'
  refine Meets.bind (callTail_meets false h ?_ hbase' (by decide) hroom ?_
    fun e' s' span' he' => he') fun callee' s₃ hcallee' => ?_
  · refine fun _ => ⟨?_, rfl⟩
    cases hcontains : containsCall callee with
    | true => exact .inl (by simp [enclosesConstructor, hcontains])
    | false => exact .inr rfl
  · simp only [List.length_cons, List.length_append]
    omega
  · have hs₃ := hcallee'.ahead
    refine .run (hs₃.atToken _) (.yes rfl ?_)
    rw [← harguments] at hs₃
    refine (arguments_meets hargs.items hargs.holes hs₃ hroom ?_).bind fun args' s₄ hargs' => ?_
    · rw [harguments]
      simp only [List.length_cons, List.length_append]
      omega
    · refine .run rfl (.run rfl (.pure ?_))
      exact .of_not_isReference (hsame _ _ _ hcallee'.same hargs'.1)
        ((hargs'.2.setAssignable false).setDepth _) rfl

theorem referenceFault?_eq_none {name : String} (h : IsSpelling .identifier name) :
    referenceFault? .none name = none := by
  have htoken := (h.isName rfl).token_eq
  unfold referenceFault?
  cases hkeyword : Token.ofKeyword? name with
  | none => simp [Context.none, Context.ofList]
  | some token =>
    rw [hkeyword] at htoken
    obtain rfl : token = .identifier := htoken.symm
    rfl

theorem name_recovers {id : Identifier} (h : IsSpelling .identifier id.name) :
    Recovers 19 primary false (.identifier id) := by
  intro size fuel s t ts hahead ht hroom
  have hwords : wordsOf false (.identifier id) = [⟨.identifier, id.name⟩] := by
    rw [wordsOf, inParentheses_false, formulaWords, nameWord, ← (h.isName rfl).token_eq]
  rw [hwords, List.singleton_append] at hahead
  unfold primary
  refine .run rfl (.run rfl (.run rfl ?_))
  have hs₁ : Ahead { s with assignable := false, cover := Cover.none } _ :=
    ⟨hahead.observing, rfl, hahead.lexer⟩
  refine .run hs₁.currentToken (.yes rfl ?_)
  unfold namePrimary
  refine .run (hs₁.atWord _) (.no rfl ?_)
  unfold plainName
  refine (identifier_meets hs₁).bind fun id' s₂ hid => ?_
  obtain ⟨hname, hs₂⟩ := hid
  have harrow : t.token ≠ .arrow := ne_of_hold ht (by decide)
  refine .run (hs₂.atToken .arrow) (.no (by simp [harrow]) ?_)
  have hreference : checkReference .none id'.name s.start s₂ = .ok () s₂ := by
    unfold checkReference
    rw [hname, referenceFault?_eq_none h]
    rfl
  refine .run hreference ?_
  have hnote : Meets IsTooDeep (noteAwaitName id'.name s.start)
      (fun _ s' => Ahead s' (t :: ts)) s₂ := by
    unfold noteAwaitName
    split
    · exact .ok rfl ⟨hs₂.observing, hs₂.cover, hs₂.lexer⟩
    · exact .pure hs₂
  refine hnote.bind fun _ s₃ hs₃ => .run rfl (.pure ?_)
  refine ⟨?_, hs₃.setAssignable true, fun _ _ => rfl, fun hfalse => by cases hfalse⟩
  rw [Expression.withoutSpans, Expression.withoutSpans, withoutSpan_of_name hname]

theorem this_recovers (span : Span) : Recovers 19 primary false (.thisKeyword span) := by
  intro size fuel s t ts hahead _ _
  refine primary_meets hahead rfl fun s₁ start canArrow hs₁ => ?_
  unfold otherPrimary
  refine .run (Ahead.currentToken hs₁) (.next hs₁ fun s₂ _ hs₂ => .run rfl (.pure ?_))
  exact .of_not_isReference rfl hs₂ rfl

theorem array_recovers {span : Span} {elements : List Element}
    (hitems : ∀ x ∈ elements, ∀ e, elementExpression? x = some e → IsItem e) :
    Recovers 19 primary false (.array span elements) := by
  intro size fuel s t ts hahead ht hroom
  have hwords : wordsOf false (.array span elements) ++ t :: ts = .sign .leftBracket ::
      (elementListWords elements ++ .sign .rightBracket :: t :: ts) := by
    simp [wordsOf, formulaWords, elementListWords]
  have hfirst := hahead
  rw [hwords] at hfirst
  refine primary_meets hfirst rfl fun s₁ start canArrow hs₁ => ?_
  unfold otherPrimary
  refine .run hs₁.currentToken ?_
  rw [← hwords] at hs₁
  exact arrayLiteral_recovers hitems 19 size fuel s₁ t ts hs₁ ht hroom

theorem isHead_group {e : Expression} (h : Formula e) (hitems : ∀ x ∈ parts e, IsItem x) :
    IsHead true e :=
  ⟨h, _, _, rfl, .inr ⟨by simp [Word.sign], group_recovers h hitems⟩⟩

end Heads

end EcmaSyntax.Grammar
