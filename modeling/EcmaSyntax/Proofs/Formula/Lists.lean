import EcmaSyntax.Proofs.Formula.Reading

/-!
Lists with commas: the elements of an array, arguments, and the expressions of a
sequence or a group. A round of each loop recovers one item and leaves the words
of the others, so that the loop recovers them all.
-/

namespace EcmaSyntax.Grammar

open EcmaSyntax.Diagnostic EcmaSyntax.Lexer EcmaSyntax.Print EcmaSyntax.Text EcmaSyntax.Tree

variable {version : Nat} [Unicode.IdentifierChars version]

section Items

/-- What stands between commas. -/
structure IsItem (e : Expression) : Prop where
  formula : Formula e
  recovers : Recovers 1 assignmentCover (bindsBelow .assignment e) e

abbrev itemWords (e : Expression) : List Word := wordsOf (bindsBelow .assignment e) e

variable {size fuel : Nat} {s : State} {t : Word} {ts ws : List Word} {e : Expression}

/-- The first word of an item. -/
theorem IsItem.exists_head (h : IsItem e) :
    ∃ w words, itemWords e = w :: words ∧ startsFormula w.token = true :=
  ((opens_formulaWords (.base h.formula)).enclose _).exists_head

theorem IsItem.assignmentCover (h : IsItem e) (hahead : Ahead s (itemWords e ++ t :: ts))
    (ht : hold t.token ≤ 1) (hroom : Room size fuel ws)
    (hlt : (itemWords e ++ t :: ts).length < ws.length) :
    Meets IsTooDeep ((phrases .script size fuel).assignmentCover .none)
      (Recovered (bindsBelow .assignment e) false e (t :: ts)) s := by
  cases fuel with
  | zero => exact absurd (Nat.lt_of_lt_of_le hlt hroom.fuel) (Nat.not_lt_zero _)
  | succ fuel => exact h.recovers size fuel s t ts hahead ht (hroom.smaller hlt)

theorem IsItem.assignment (h : IsItem e) (hahead : Ahead s (itemWords e ++ t :: ts))
    (ht : hold t.token ≤ 1) (hroom : Room size fuel ws)
    (hlt : (itemWords e ++ t :: ts).length < ws.length) :
    Meets IsTooDeep ((phrases .script size fuel).assignment .none)
      (Recovered (bindsBelow .assignment e) false e (t :: ts)) s := by
  unfold Phrases.assignment
  refine (h.assignmentCover hahead ht hroom hlt).bind fun e' s' he' => ?_
  exact .run (he'.ahead.checkCover e') (.pure he')

theorem IsItem.covered (h : IsItem e) (hahead : Ahead s (itemWords e ++ t :: ts))
    (ht : hold t.token ≤ 1) (hroom : Room size fuel ws)
    (hlt : (itemWords e ++ t :: ts).length < ws.length) :
    Meets IsTooDeep ((phrases .script size fuel).covered .none)
      (fun r s' => r.2 = Cover.none ∧
        Recovered (bindsBelow .assignment e) false e (t :: ts) r.1 s') s := by
  unfold Phrases.covered
  refine (h.assignmentCover hahead ht hroom hlt).bind fun e' s' he' => ?_
  exact .run he'.ahead.takeCover (.pure ⟨rfl, he'⟩)

end Items

section Elements

variable {s : State} {ws : List Word}

theorem elementFrom_meets {E : Failure → Prop} {start : Nat} {isSpread : Bool} {e : Expression}
    {w : Word} (h : Ahead s (w :: ws)) :
    Meets E (elementFrom start isSpread e) (fun x s' => Ahead s' (w :: ws) ∧
      x.withoutSpans = if isSpread then .spread noSpan e.withoutSpans else .item e.withoutSpans)
      s := by
  cases isSpread with
  | false => exact .pure ⟨h, rfl⟩
  | true =>
    have hnote : Meets E (noteSpread start) (fun _ s' => Ahead s' (w :: ws)) s := by
      unfold noteSpread
      refine .run (h.atToken .comma) ?_
      split
      · exact .ok rfl ⟨h.observing, h.cover, h.lexer⟩
      · exact .pure h
    exact hnote.bind fun _ s' hs' => .run rfl (.pure ⟨hs', rfl⟩)

/-- Elements that have been read, with the latest first, and those still ahead. -/
structure Elements (all : List Element) (read rest : List Element) : Prop where
  parts : read.reverse.map Element.withoutSpans ++ rest.map Element.withoutSpans =
    all.map Element.withoutSpans
  items : ∀ x ∈ rest, ∀ e, elementExpression? x = some e → IsItem e

theorem Elements.step {all read rest : List Element} {x x' : Element}
    (h : Elements all read (x :: rest)) (hx : x'.withoutSpans = x.withoutSpans) :
    Elements all (x' :: read) rest := by
  refine ⟨?_, fun y hy => h.items y (List.mem_cons_of_mem _ hy)⟩
  rw [← h.parts]
  simp [hx]

/-- An element that is no hole has an expression, perhaps after the sign of a spread. -/
theorem exists_item {x : Element} (hhole : x ≠ .hole) {words : List Word}
    (hx : elementWords [x] = [words])
    (hitem : ∀ e, elementExpression? x = some e → IsItem e) :
    ∃ e isSpread, IsItem e ∧ (itemWords e).length ≤ words.length ∧
      x.withoutSpans = (if isSpread then .spread noSpan e.withoutSpans else .item e.withoutSpans) ∧
      (∃ w more, words = w :: more ∧ w.token ≠ .comma ∧ w.token ≠ .rightParen ∧
        w.token ≠ .rightBracket) ∧
      ∀ (s : State) (ws : List Word), Ahead s (words ++ ws) → Meets IsTooDeep (accept .ellipsis)
        (fun found s' => found = isSpread ∧ Ahead s' (itemWords e ++ ws)) s := by
  cases x with
  | hole => exact absurd rfl hhole
  | item e =>
    cases hx
    obtain ⟨w, more, hwords, hstarts⟩ := (hitem e rfl).exists_head
    refine ⟨e, false, hitem e rfl, Nat.le_refl _, rfl, ⟨w, more, hwords, ?_⟩, fun s ws hahead => ?_⟩
    · exact ⟨ne_of_starts hstarts (by decide), ne_of_starts hstarts (by decide),
        ne_of_starts hstarts (by decide)⟩
    · have hfirst : Ahead s (w :: (more ++ ws)) := by
        rw [← List.cons_append, ← hwords]
        exact hahead
      rw [← bind_pure (accept .ellipsis)]
      exact .refuse hfirst (ne_of_starts hstarts (by decide)) (.pure ⟨rfl, hahead⟩)
  | spread span e =>
    cases hx
    refine ⟨e, true, hitem e rfl, by simp, rfl, ⟨_, _, rfl, by decide⟩, fun s ws hahead => ?_⟩
    rw [← bind_pure (accept .ellipsis)]
    exact .accept hahead rfl fun s' _ hs' => .pure ⟨rfl, hs'⟩

theorem restWords_cons {close : Token} (hclose : hold close = 0) (rest : List Element)
    (ws : List Word) : ∃ t ts, restWords rest ++ .sign close :: ws = t :: ts ∧
      hold t.token ≤ 1 := by
  cases rest with
  | nil => exact ⟨_, _, rfl, Nat.le_trans (Nat.le_of_eq hclose) (by decide)⟩
  | cons x rest => exact ⟨_, _, rfl, by decide⟩

theorem length_le_restWords (rest : List Element) :
    (elementListWords rest).length ≤ (restWords rest).length := by
  cases rest with
  | nil => exact Nat.le_refl _
  | cons x rest => exact Nat.le_succ _

theorem separator_meets {E : Failure → Prop} {rest : List Element} {close : Token}
    (hclose : hold close = 0) (h : Ahead s (restWords rest ++ .sign close :: ws)) :
    Meets E (Phrases.separator close)
      (fun _ s' => Ahead s' (elementListWords rest ++ .sign close :: ws)) s := by
  unfold Phrases.separator
  cases rest with
  | nil =>
    refine .run (Ahead.atToken h close) (.no ?_ (.pure h))
    simp [Word.sign]
  | cons x rest =>
    have hcomma : Token.comma ≠ close := (ne_of_hold (Nat.le_of_eq hclose) (by decide)).symm
    refine .run (Ahead.atToken h close) (.yes (by simpa [Word.sign] using hcomma) ?_)
    rw [← bind_pure (expect .comma)]
    exact .expect h rfl fun s' _ hs' => .pure hs'

/-- A list up to a closing token, of which some elements have been read and the
others are ahead. -/
structure ListRead (close : Token) (all : List Element) (after : List Word) (rest : List Element)
    (read : List Element) (s : State) : Prop where
  elements : Elements all read rest
  ahead : Ahead s (elementListWords rest ++ .sign close :: after)
  shorter : (elementListWords rest).length ≤ (elementListWords all).length

/-- How an element that is no hole is read, from its first word to the one before the
next element. -/
theorem ListRead.element {close : Token} {all rest read : List Element} {x : Element}
    {after : List Word} (h : ListRead close all after (x :: rest) read s) (hhole : x ≠ .hole)
    (hclose : hold close = 0) (hbracket : close = .rightParen ∨ close = .rightBracket) :
    ∃ e isSpread t ts, IsItem e ∧ hold t.token ≤ 1 ∧
      (itemWords e ++ t :: ts).length ≤ (elementListWords all ++ .sign close :: after).length ∧
      (∃ w ws, Ahead s (w :: ws) ∧ w.token ≠ .comma ∧ w.token ≠ close) ∧
      Meets IsTooDeep (accept .ellipsis)
        (fun found s' => found = isSpread ∧ Ahead s' (itemWords e ++ t :: ts)) s ∧
      ∀ (x' : Element) (s' : State), Ahead s' (t :: ts) →
        (x'.withoutSpans =
          if isSpread then .spread noSpan e.withoutSpans else .item e.withoutSpans) →
        Meets IsTooDeep (Phrases.separator close)
          (fun _ s'' => ListRead close all after rest (x' :: read) s'') s' := by
  obtain ⟨words, hx, hlist⟩ := elementListWords_cons hhole rest
  obtain ⟨e, isSpread, hitem, hlength, herased, ⟨w, more, hfirst, hcomma, hends⟩, haccept⟩ :=
    exists_item hhole hx (h.elements.items x List.mem_cons_self)
  obtain ⟨t, ts, hfollow, ht⟩ := restWords_cons hclose rest after
  have hshorter := h.shorter
  have hahead := h.ahead
  rw [hlist] at hshorter hahead
  rw [List.append_assoc, hfollow] at hahead
  refine ⟨e, isSpread, t, ts, hitem, ht, ?_, ⟨w, more ++ t :: ts, ?_, hcomma, ?_⟩,
    haccept s _ hahead, fun x' s' hs' hx' => ?_⟩
  · rw [← hfollow]
    simp only [List.length_append, List.length_cons] at hshorter ⊢
    omega
  · rw [← List.cons_append, ← hfirst]
    exact hahead
  · rcases hbracket with rfl | rfl
    · exact hends.1
    · exact hends.2
  · rw [← hfollow] at hs'
    refine (separator_meets hclose hs').mono fun _ s'' hs'' => ?_
    refine ⟨h.elements.step (hx'.trans herased.symm), hs'', ?_⟩
    exact Nat.le_trans (length_le_restWords rest) (by simp at hshorter; omega)

theorem unionAll_eq_none {covers : List Cover} (h : ∀ c ∈ covers, c = Cover.none) :
    Cover.unionAll covers = Cover.none := by
  induction covers with
  | nil => rfl
  | cons c covers ih =>
    have hrest := ih fun c' hc' => h c' (List.mem_cons_of_mem _ hc')
    rw [Cover.unionAll, List.foldr_cons, ← Cover.unionAll, hrest, h c List.mem_cons_self]
    rfl

/-- A round of the loop over an array takes the next element or hole. -/
theorem arrayRound_meets {size fuel : Nat} {all rest : List Element} {after ws : List Word}
    {read : List (Element × Cover)}
    (h : ListRead .rightBracket all after rest (read.map Prod.fst) s) (hroom : Room size fuel ws)
    (hlt : (elementListWords all ++ .sign .rightBracket :: after).length < ws.length) :
    Meets IsTooDeep (do
      if ← atToken .rightBracket then return Round.stop
      if ← accept .comma then return .more (Element.hole, Cover.none)
      let elementStart ← currentStart
      let isSpread ← accept .ellipsis
      let (e, cover) ← (phrases .script size fuel).covered .none
      let element ← elementFrom elementStart isSpread e
      Phrases.separator .rightBracket
      return .more (element, cover))
      (fun r s' => match r with
        | .stop => ListRead .rightBracket all after [] (read.map Prod.fst) s'
        | .last _ => False
        | .more r => r.2 = Cover.none ∧ ∃ rest', rest'.length < rest.length ∧
            ListRead .rightBracket all after rest' (r.1 :: read.map Prod.fst) s') s := by
  cases rest with
  | nil => exact .run (Ahead.atToken h.ahead _) (.yes rfl (.pure h))
  | cons x rest =>
    by_cases hhole : x = .hole
    · subst hhole
      have hahead := h.ahead
      have hshorter := h.shorter
      rw [elementListWords_hole] at hahead hshorter
      refine .run (hahead.atToken _) (.no rfl (.accept hahead rfl fun s₁ _ hs₁ => ?_))
      refine .pure ⟨rfl, rest, Nat.lt_succ_self _, h.elements.step rfl, hs₁, ?_⟩
      exact Nat.le_of_succ_le hshorter
    · obtain ⟨e, isSpread, t, ts, hitem, ht, hle, ⟨w, more, hhead, hcomma, hbracket⟩, haccept,
        hseparator⟩ := h.element hhole rfl (.inr rfl)
      refine .run (hhead.atToken _) (.no (by simpa using hbracket) ?_)
      refine .refuse hhead hcomma (.run rfl ?_)
      refine haccept.bind fun found s₁ hs₁ => ?_
      obtain ⟨rfl, hs₁⟩ := hs₁
      refine (hitem.covered hs₁ ht hroom (Nat.lt_of_le_of_lt hle hlt)).bind fun r s₂ hr => ?_
      obtain ⟨e', cover⟩ := r
      obtain ⟨rfl, he'⟩ := hr
      refine (elementFrom_meets he'.ahead).bind fun x' s₃ hx' => ?_
      obtain ⟨hs₃, hx'⟩ := hx'
      rw [he'.same] at hx'
      refine (hseparator x' s₃ hs₃ hx').bind fun _ s₄ hs₄ => ?_
      exact .pure ⟨rfl, rest, Nat.lt_succ_self _, hs₄⟩

/-- A round of the loop over arguments takes the next one. -/
theorem argumentRound_meets {size fuel : Nat} {all rest : List Element} {after ws : List Word}
    {read : List Element} (h : ListRead .rightParen all after rest read s)
    (hholes : .hole ∉ rest) (hroom : Room size fuel ws)
    (hlt : (elementListWords all ++ .sign .rightParen :: after).length < ws.length) :
    Meets IsTooDeep (do
      if ← atToken .rightParen then return Round.stop
      let a ← (do
        let start ← currentStart
        let isSpread ← accept .ellipsis
        let e ← (phrases .script size fuel).assignment .none
        elementFrom start isSpread e : Parser Element)
      Phrases.separator .rightParen
      return .more a)
      (fun r s' => match r with
        | .stop => ListRead .rightParen all after [] read s'
        | .last _ => False
        | .more x => ∃ rest', rest'.length < rest.length ∧ .hole ∉ rest' ∧
            ListRead .rightParen all after rest' (x :: read) s') s := by
  cases rest with
  | nil => exact .run (Ahead.atToken h.ahead _) (.yes rfl (.pure h))
  | cons x rest =>
    have hhole : x ≠ .hole := fun hx => hholes (hx ▸ List.mem_cons_self)
    obtain ⟨e, isSpread, t, ts, hitem, ht, hle, ⟨w, more, hhead, -, hparen⟩, haccept, hseparator⟩ :=
      h.element hhole rfl (.inl rfl)
    refine .run (hhead.atToken _) (.no (by simpa using hparen) ?_)
    refine Meets.bind (Q := fun (x' : Element) s' => Ahead s' (t :: ts) ∧ x'.withoutSpans =
      if isSpread then .spread noSpan e.withoutSpans else .item e.withoutSpans) ?_ ?_
    · refine .run rfl (haccept.bind fun found s₁ hs₁ => ?_)
      obtain ⟨rfl, hs₁⟩ := hs₁
      refine (hitem.assignment hs₁ ht hroom (Nat.lt_of_le_of_lt hle hlt)).bind fun e' s₂ he' => ?_
      rw [← he'.same]
      exact elementFrom_meets he'.ahead
    · rintro x' s₁ ⟨hs₁, hx'⟩
      refine (hseparator x' s₁ hs₁ hx').bind fun _ s₂ hs₂ => ?_
      exact .pure ⟨rest, Nat.lt_succ_self _, fun h => hholes (List.mem_cons_of_mem _ h), hs₂⟩

theorem length_le_elementListWords {elements : List Element}
    (hitems : ∀ x ∈ elements, ∀ e, elementExpression? x = some e → IsItem e) :
    elements.length ≤ (elementListWords elements).length := by
  induction elements with
  | nil => exact Nat.zero_le _
  | cons x elements ih =>
    have hrest := ih fun y hy => hitems y (List.mem_cons_of_mem _ hy)
    by_cases hhole : x = .hole
    · subst hhole
      rw [elementListWords_hole]
      exact Nat.succ_le_succ hrest
    · obtain ⟨words, hx, hlist⟩ := elementListWords_cons hhole elements
      obtain ⟨-, -, -, -, -, ⟨w, more, rfl, -⟩, -⟩ :=
        exists_item hhole hx (hitems x List.mem_cons_self)
      rw [hlist]
      have hlength := length_le_restWords elements
      simp only [List.length_cons, List.length_append]
      omega

theorem arrayLiteral_recovers {span : Span} {elements : List Element}
    (hitems : ∀ x ∈ elements, ∀ e, elementExpression? x = some e → IsItem e) (rank : Nat) :
    Recovers rank arrayLiteral false (.array span elements) := by
  intro size fuel s t ts hahead _ hroom
  have hwords : wordsOf false (.array span elements) ++ t :: ts =
      .sign .leftBracket :: (elementListWords elements ++ .sign .rightBracket :: t :: ts) := by
    simp [wordsOf, inParentheses, formulaWords, elementListWords]
  rw [hwords] at hahead hroom
  unfold arrayLiteral
  refine .run rfl (.next hahead fun s₁ hmoved hs₁ => ?_)
  refine Meets.bind (Q := fun found s' => (∀ r ∈ found, r.2 = Cover.none) ∧
    ListRead .rightBracket elements (t :: ts) [] (found.map Prod.fst).reverse s') ?_ ?_
  · refine Meets.collectAfter (I := fun n read s => ∃ rest, rest.length = n ∧
      (∀ r ∈ read, r.2 = Cover.none) ∧
      ListRead .rightBracket elements (t :: ts) rest (read.map Prod.fst) s) ?_ _ elements.length []
      s₁ ?_ ?_
    · rintro n read s' ⟨rest, rfl, hcovers, hread⟩
      refine (arrayRound_meets hread hroom (by simp)).mono fun r s'' hr => ?_
      cases r with
      | stop => exact ⟨by simpa using hcovers, by simpa using hr⟩
      | last r => exact hr.elim
      | more r =>
        obtain ⟨hcover, rest', hlt, hrest'⟩ := hr
        exact ⟨_, hlt, rest', rfl, List.forall_mem_cons.mpr ⟨hcover, hcovers⟩, hrest'⟩
    · have hlength := length_le_elementListWords hitems
      have hsize := hroom.size
      simp only [List.length_cons, List.length_append] at hsize
      rw [phrases_size]
      omega
    · exact ⟨elements, rfl, by simp, ⟨by simp, hitems⟩, hs₁, Nat.le_refl _⟩
  · rintro found s₂ ⟨hcovers, hs₂⟩
    refine .next hs₂.ahead fun s₃ hmoved₃ hs₃ => ?_
    refine .run rfl (.run rfl (.run rfl (.pure ?_)))
    have hcover : Cover.unionAll (found.map Prod.snd) = Cover.none := by
      refine unionAll_eq_none fun c hc => ?_
      obtain ⟨r, hr, rfl⟩ := List.mem_map.mp hc
      exact hcovers r hr
    have hparts := hs₂.elements.parts
    refine .of_not_isReference ?_ ⟨hs₃.observing, hcover, hs₃.lexer⟩ rfl
    simp only [Expression.withoutSpans, elementsWithoutSpans_eq_map]
    simpa using hparts

/-- Arguments in parentheses are read up to the word after them. -/
theorem arguments_meets {size fuel : Nat} {args : List Element}
    (hitems : ∀ x ∈ args, ∀ e, elementExpression? x = some e → IsItem e)
    (hholes : .hole ∉ args) {after : List Word}
    (hahead : Ahead s (argumentWords (elementWords args) ++ after)) (hroom : Room size fuel ws)
    (hle : (argumentWords (elementWords args) ++ after).length ≤ ws.length) :
    Meets IsTooDeep (arguments (phrases .script size fuel) .none) (fun args' s' =>
      args'.map Element.withoutSpans = args.map Element.withoutSpans ∧ Ahead s' after) s := by
  have hwords : argumentWords (elementWords args) ++ after =
      .sign .leftParen :: (elementListWords args ++ .sign .rightParen :: after) := by
    simp [argumentWords, elementListWords_of_no_holes hholes]
  rw [hwords] at hahead hle
  unfold arguments
  refine .expect hahead rfl fun s₁ hmoved hs₁ => ?_
  refine Meets.bind (Q := fun found s' =>
    ListRead .rightParen args after [] found.reverse s') ?_ ?_
  · refine Meets.collectAfter (I := fun n read s => ∃ rest, rest.length = n ∧ .hole ∉ rest ∧
      ListRead .rightParen args after rest read s) ?_ _ args.length [] s₁ ?_ ?_
    · rintro n read s' ⟨rest, rfl, hholes, hread⟩
      refine (argumentRound_meets hread hholes hroom hle).mono fun r s'' hr => ?_
      cases r with
      | stop => simpa using hr
      | last r => exact hr.elim
      | more r =>
        obtain ⟨rest', hlt, hholes', hrest'⟩ := hr
        exact ⟨_, hlt, rest', rfl, hholes', hrest'⟩
    · have hlength := length_le_elementListWords hitems
      have hsize := hroom.size
      simp only [List.length_cons, List.length_append] at hle
      rw [phrases_size]
      omega
    · exact ⟨args, rfl, hholes, ⟨by simp, hitems⟩, hs₁, Nat.le_refl _⟩
  · intro found s₂ hs₂
    refine .next hs₂.ahead fun s₃ _ hs₃ => .pure ⟨?_, hs₃⟩
    simpa using hs₂.elements.parts

end Elements

section Sequences

variable {size fuel : Nat} {s : State} {t : Word} {ts ws : List Word}

/-- Expressions, each after a comma. -/
def commaWords : List Expression → List Word
  | [] => []
  | e :: rest => .sign .comma :: (itemWords e ++ commaWords rest)

theorem withCommas_sequenceWords (e : Expression) (rest : List Expression) :
    withCommas (sequenceWords (e :: rest)) = itemWords e ++ commaWords rest := by
  induction rest generalizing e with
  | nil => simp [sequenceWords, withCommas, commaWords]
  | cons e' rest ih =>
    have htail := ih e'
    rw [sequenceWords] at htail
    rw [sequenceWords, sequenceWords, withCommas, htail, commaWords]

theorem commaWords_cons (rest : List Expression) (ht : hold t.token ≤ 1) (ts : List Word) :
    ∃ t' ts', commaWords rest ++ t :: ts = t' :: ts' ∧ hold t'.token ≤ 1 := by
  cases rest with
  | nil => exact ⟨t, ts, rfl, ht⟩
  | cons e rest => exact ⟨_, _, rfl, by decide⟩

theorem length_le_commaWords (rest : List Expression) :
    rest.length ≤ (commaWords rest).length := by
  induction rest with
  | nil => exact Nat.le_refl _
  | cons e rest ih =>
    simp only [commaWords, List.length_cons, List.length_append]
    omega

/-- Expressions that have been read, with the latest first, and those still ahead. -/
structure SequenceRead (all : List Expression) (after : List Word) (rest read : List Expression)
    (s : State) : Prop where
  parts : read.reverse.map Expression.withoutSpans ++ rest.map Expression.withoutSpans =
    all.map Expression.withoutSpans
  items : ∀ e ∈ rest, IsItem e
  ahead : Ahead s (commaWords rest ++ after)
  shorter : (commaWords rest).length ≤ (commaWords all).length

theorem sequenceRound_meets {all rest read : List Expression}
    (h : SequenceRead all (t :: ts) rest read s) (ht : hold t.token = 0)
    (hroom : Room size fuel ws) (hlt : (commaWords all ++ t :: ts).length ≤ ws.length) :
    Meets IsTooDeep (do
      if ← accept .comma then return Round.more (← (phrases .script size fuel).assignment .none)
      else return .stop)
      (fun r s' => match r with
        | .stop => SequenceRead all (t :: ts) [] read s'
        | .last _ => False
        | .more e => ∃ rest', rest'.length < rest.length ∧
            SequenceRead all (t :: ts) rest' (e :: read) s') s := by
  have hahead := h.ahead
  have hshorter := h.shorter
  cases rest with
  | nil => exact .refuse hahead (ne_of_hold (Nat.le_of_eq ht) (by decide)) (.pure h)
  | cons e rest =>
    refine .accept hahead rfl fun s₁ _ hs₁ => ?_
    obtain ⟨t', ts', hfollow, ht'⟩ := commaWords_cons rest (t := t) (by omega) ts
    have hitem := h.items e List.mem_cons_self
    simp only [commaWords, List.length_cons, List.length_append] at hshorter hlt
    have hlt' : (itemWords e ++ t' :: ts').length < ws.length := by
      rw [← hfollow]
      simp only [List.length_cons, List.length_append]
      omega
    change Ahead s₁ (itemWords e ++ commaWords rest ++ t :: ts) at hs₁
    rw [List.append_assoc, hfollow] at hs₁
    refine (hitem.assignment hs₁ ht' hroom hlt').bind fun e' s₂ he' => ?_
    have hparts := h.parts
    refine .pure ⟨rest, Nat.lt_succ_self _, ?_, fun x hx => h.items x (List.mem_cons_of_mem _ hx),
      ?_, by omega⟩
    · rw [← hparts]
      simp [he'.same]
    · rw [hfollow]
      exact he'.ahead

/-- The expressions of a sequence after the first. -/
theorem sequenceAfter_meets {start : Nat} {first : Expression} {rest : List Expression}
    (hitems : ∀ e ∈ rest, IsItem e) (hahead : Ahead s (commaWords rest ++ t :: ts))
    (ht : hold t.token = 0) (hroom : Room size fuel ws)
    (hle : (commaWords rest ++ t :: ts).length ≤ ws.length) :
    Meets IsTooDeep ((phrases .script size fuel).sequenceAfter .none start first)
      (fun e s' => Ahead s' (t :: ts) ∧
        ((rest = [] ∧ e = first) ∨ ∃ span rest', rest ≠ [] ∧ e = .sequence span (first :: rest') ∧
          rest'.map Expression.withoutSpans = rest.map Expression.withoutSpans)) s := by
  unfold Phrases.sequenceAfter
  cases rest with
  | nil =>
    refine .run (Ahead.atToken hahead _) (.no ?_ (.pure ⟨hahead, .inl ⟨rfl, rfl⟩⟩))
    simpa using ne_of_hold (Nat.le_of_eq ht) (by decide)
  | cons e rest =>
    refine .run (Ahead.atToken hahead _) (.yes rfl ?_)
    refine Meets.bind (Q := fun found s' =>
      SequenceRead (e :: rest) (t :: ts) [] found.reverse s') ?_ ?_
    · refine Meets.collectAfter (I := fun n read s => ∃ left, left.length = n ∧
        SequenceRead (e :: rest) (t :: ts) left read s) ?_ _ (e :: rest).length [] s ?_ ?_
      · rintro n read s' ⟨left, rfl, hread⟩
        refine (sequenceRound_meets hread ht hroom hle).mono fun r s'' hr => ?_
        cases r with
        | stop => simpa using hr
        | last r => exact hr.elim
        | more r =>
          obtain ⟨left', hlt, hleft'⟩ := hr
          exact ⟨_, hlt, left', rfl, hleft'⟩
      · have hlength := length_le_commaWords (e :: rest)
        have hsize := hroom.size
        simp only [List.length_append, List.length_cons] at hle
        rw [phrases_size]
        omega
      · exact ⟨e :: rest, rfl, by simp, hitems, hahead, Nat.le_refl _⟩
    · intro found s₂ hs₂
      refine .run rfl (.run rfl (.pure ⟨?_, .inr ⟨_, found, by simp, rfl, ?_⟩⟩))
      · exact hs₂.ahead.setAssignable false
      · simpa using hs₂.parts

/-- The expressions between the commas of an expression. -/
def parts : Expression → List Expression
  | .sequence _ es => es
  | e => [e]

theorem exists_parts {e : Expression} (h : Formula e) : ∃ first rest, parts e = first :: rest ∧
    formulaWords e = itemWords first ++ commaWords rest ∧
      ((rest = [] ∧ first = e) ∨ ∃ span, rest ≠ [] ∧ e = .sequence span (first :: rest)) := by
  have hsingle (hrank : bindsBelow .assignment e = false) :
      formulaWords e = itemWords e ++ commaWords [] := by
    rw [itemWords, wordsOf, hrank]
    simp [inParentheses, commaWords]
  have hlevel (operator : BinaryOperator) (span : Span) (left right : Expression) :
      bindsBelow .assignment (.binary span left operator right) = false := by
    cases operator <;> rfl
  cases h with
  | @sequence span es h hlength =>
    match es, hlength with
    | first :: second :: rest, _ =>
      refine ⟨first, second :: rest, rfl, ?_, .inr ⟨span, by simp, rfl⟩⟩
      rw [formulaWords, withCommas_sequenceWords]
  | binary => exact ⟨_, [], rfl, hsingle (hlevel _ _ _ _), .inl ⟨rfl, rfl⟩⟩
  | @logical span left operator right =>
    exact ⟨_, [], rfl, hsingle (by cases operator <;> rfl), .inl ⟨rfl, rfl⟩⟩
  | @update span operator isBefore argument =>
    exact ⟨_, [], rfl, hsingle (by cases isBefore <;> rfl), .inl ⟨rfl, rfl⟩⟩
  | _ => exact ⟨_, [], rfl, hsingle rfl, .inl ⟨rfl, rfl⟩⟩

/-- The tree of the first part and the others. -/
theorem same_of_parts (span' : Span) (rest' : List Expression) {e first : Expression}
    {rest : List Expression}
    (h : (rest = [] ∧ first = e) ∨ ∃ span, rest ≠ [] ∧ e = .sequence span (first :: rest))
    {first' : Expression} (hfirst : first'.withoutSpans = first.withoutSpans)
    (hrest : rest'.map Expression.withoutSpans = rest.map Expression.withoutSpans) :
    (if rest'.isEmpty then first' else .sequence span' (first' :: rest')).withoutSpans =
      e.withoutSpans := by
  rcases h with ⟨rfl, rfl⟩ | ⟨span, hne, rfl⟩
  · obtain rfl : rest' = [] := by simpa using hrest
    exact hfirst
  · have hne' : rest'.isEmpty = false := by
      cases rest' with
      | nil => exact absurd (by simpa using hrest.symm) hne
      | cons x rest' => rfl
    simp [hne', Expression.withoutSpans, expressionsWithoutSpans_eq_map, hfirst, hrest]

/-- An expression up to what stands behind every expression. -/
theorem expression_meets {e : Expression} (h : Formula e) (hitems : ∀ x ∈ parts e, IsItem x)
    (hahead : Ahead s (formulaWords e ++ t :: ts)) (ht : hold t.token = 0)
    (hroom : Room size fuel ws) (hlt : (formulaWords e ++ t :: ts).length < ws.length) :
    Meets IsTooDeep ((phrases .script size fuel).expression .none)
      (fun e' s' => e'.withoutSpans = e.withoutSpans ∧ Ahead s' (t :: ts)) s := by
  obtain ⟨first, rest, hparts, hwords, hcases⟩ := exists_parts h
  rw [hparts] at hitems
  rw [hwords] at hahead hlt
  obtain ⟨t', ts', hfollow, ht'⟩ := commaWords_cons rest (t := t) (by omega) ts
  rw [List.append_assoc] at hahead hlt
  have hlength := hlt
  rw [hfollow] at hahead hlt
  unfold Phrases.expression
  refine .run rfl ?_
  refine ((hitems first List.mem_cons_self).assignment hahead ht' hroom hlt).bind
    fun first' s₁ hfirst => ?_
  have hs₁ := hfirst.ahead
  rw [← hfollow] at hs₁
  have hle : (commaWords rest ++ t :: ts).length ≤ ws.length := by
    simp only [List.length_append] at hlength ⊢
    omega
  refine (sequenceAfter_meets (fun x hx => hitems x (List.mem_cons_of_mem _ hx)) hs₁ ht hroom
    hle).mono fun e' s₂ he' => ?_
  obtain ⟨hs₂, ⟨rfl, rfl⟩ | ⟨span, rest', hne, rfl, hrest'⟩⟩ := he'
  · exact ⟨same_of_parts noSpan [] hcases hfirst.same rfl, hs₂⟩
  · have hsame := same_of_parts span rest' hcases hfirst.same hrest'
    cases rest' with
    | nil => exact absurd (by simpa using hrest'.symm) hne
    | cons x rest' => exact ⟨hsame, hs₂⟩

end Sequences

section Groups

variable {size fuel : Nat} {s : State} {t : Word} {ts ws : List Word}

/-- Items of a group that have been read, with the latest first, and those ahead. -/
structure GroupRead (all : List Expression) (after : List Word) (first : Expression)
    (rest : List Expression) (read : List GroupItem) (s : State) : Prop where
  parts : read.reverse.map (fun item => item.expression.withoutSpans) ++
    (first :: rest).map Expression.withoutSpans = all.map Expression.withoutSpans
  plain : ∀ item ∈ read, item.isRest = false ∧ item.cover = Cover.none
  items : ∀ e ∈ first :: rest, IsItem e
  ahead : Ahead s (itemWords first ++ commaWords rest ++ .sign .rightParen :: after)
  shorter : (itemWords first ++ commaWords rest).length < (commaWords all).length

/-- The items of a group that stands for an expression. -/
structure GroupDone (all : List Expression) (after : List Word) (items : List GroupItem)
    (s : State) : Prop where
  parts : items.map (fun item => item.expression.withoutSpans) = all.map Expression.withoutSpans
  plain : ∀ item ∈ items, item.isRest = false ∧ item.cover = Cover.none
  last : items.getLast?.any GroupItem.comma = false
  ahead : Ahead s (.sign .rightParen :: after)

theorem groupItem_meets {all rest : List Expression} {first : Expression} {after : List Word}
    {read : List GroupItem} (h : GroupRead all after first rest read s) (hroom : Room size fuel ws)
    (hle : (commaWords all ++ .sign .rightParen :: after).length ≤ ws.length) :
    Meets IsTooDeep (groupItem (phrases .script size fuel) .none)
      (fun r s' => match r with
        | .stop => False
        | .last item => GroupDone all after (item :: read).reverse s'
        | .more item => ∃ first' rest', rest'.length < rest.length ∧
            GroupRead all after first' rest' (item :: read) s') s := by
  have hitem := h.items first List.mem_cons_self
  obtain ⟨w, more, hwords, hstarts⟩ := hitem.exists_head
  have hahead := h.ahead
  have hshorter := h.shorter
  obtain ⟨t', ts', hfollow, ht'⟩ := commaWords_cons rest (t := .sign .rightParen) (by decide) after
  rw [List.append_assoc, hfollow] at hahead
  have hhead : Ahead s (w :: (more ++ t' :: ts')) := by
    rw [← List.cons_append, ← hwords]
    exact hahead
  have hlt' : (itemWords first ++ t' :: ts').length < ws.length := by
    rw [← hfollow]
    simp only [List.length_append, List.length_cons] at hshorter hle ⊢
    omega
  unfold groupItem
  refine .run (hhead.atToken _) (.no ?_ (.run rfl ?_))
  · simpa using ne_of_starts hstarts (by decide)
  refine .refuse hhead (ne_of_starts hstarts (by decide)) ?_
  refine (hitem.covered hahead ht' hroom hlt').bind fun r s₁ hr => ?_
  obtain ⟨e', cover⟩ := r
  obtain ⟨rfl, he'⟩ := hr
  have hs₁ := he'.ahead
  rw [← hfollow] at hs₁
  have hplain (item : GroupItem) (hitem : item.isRest = false ∧ item.cover = Cover.none) :
      ∀ x ∈ item :: read, x.isRest = false ∧ x.cover = Cover.none :=
    List.forall_mem_cons.mpr ⟨hitem, h.plain⟩
  have hparts := h.parts
  cases rest with
  | nil =>
    refine .run (Ahead.atToken hs₁ _) (.yes rfl (.pure ⟨?_, ?_, by simp, hs₁⟩))
    · rw [← hparts]
      simp [he'.same]
    · intro x hx
      exact hplain _ ⟨rfl, rfl⟩ x (List.mem_reverse.mp hx)
  | cons e rest =>
    refine .run (Ahead.atToken hs₁ _) (.no rfl (.expect hs₁ rfl fun s₂ _ hs₂ => ?_))
    refine .pure ⟨e, rest, Nat.lt_succ_self _, ?_, hplain _ ⟨rfl, rfl⟩,
      fun x hx => h.items x (List.mem_cons_of_mem _ hx), hs₂, ?_⟩
    · rw [← hparts]
      simp [he'.same]
    · simp only [commaWords, List.length_append, List.length_cons] at hshorter ⊢
      omega

theorem groupExpression_same {e first : Expression} {rest : List Expression}
    (h : (rest = [] ∧ first = e) ∨ ∃ span, rest ≠ [] ∧ e = .sequence span (first :: rest))
    {first' : Expression} {rest' : List Expression}
    (hfirst : first'.withoutSpans = first.withoutSpans)
    (hrest : rest'.map Expression.withoutSpans = rest.map Expression.withoutSpans) :
    (groupExpression first' rest').withoutSpans = e.withoutSpans := by
  cases hlast : rest'.getLast? with
  | none =>
    obtain rfl : rest' = [] := List.getLast?_eq_none_iff.mp hlast
    exact same_of_parts noSpan [] h hfirst hrest
  | some last =>
    have hsame := same_of_parts ⟨first'.start, last.span.stop⟩ rest' h hfirst hrest
    cases rest' with
    | nil => cases hlast
    | cons x rest' =>
      unfold groupExpression
      rw [hlast]
      exact hsame

theorem groupValue_meets {e first : Expression} {rest : List Expression} {after : List Word}
    (h : (rest = [] ∧ first = e) ∨ ∃ span, rest ≠ [] ∧ e = .sequence span (first :: rest))
    {start close : Nat} {items : List GroupItem}
    (hparts : items.map (fun item => item.expression.withoutSpans) =
      (first :: rest).map Expression.withoutSpans)
    (hplain : ∀ item ∈ items, item.isRest = false ∧ item.cover = Cover.none)
    (hlast : items.getLast?.any GroupItem.comma = false) (hahead : Ahead s after) :
    Meets IsTooDeep (groupValue (phrases .script size fuel) start close items)
      (Recovered true false e after) s := by
  have hfind : items.find? GroupItem.isRest = none := by
    rw [List.find?_eq_none]
    intro item hitem
    simp [(hplain item hitem).1]
  have hcover : Cover.unionAll (items.map GroupItem.cover) = Cover.none := by
    refine unionAll_eq_none fun c hc => ?_
    obtain ⟨item, hitem, rfl⟩ := List.mem_map.mp hc
    exact (hplain item hitem).2
  unfold groupValue
  rw [hfind]
  cases items with
  | nil => cases hparts
  | cons item items =>
    simp only [List.map_cons, List.cons.injEq] at hparts
    refine .run rfl (.no hlast ?_)
    rw [hcover]
    refine .run rfl (.run rfl ?_)
    rw [phrases_options]
    refine .no rfl (.run rfl (.pure ?_))
    refine ⟨groupExpression_same h hparts.1 (by rw [List.map_map]; exact hparts.2), ?_, ?_, ?_⟩
    · exact ⟨hahead.observing, rfl, hahead.lexer⟩
    · intro hfalse
      cases hfalse
    · intro _
      exact List.mem_cons_self

/-- A primary expression that does not start with a name. -/
theorem primary_meets {g : Phrases} {Q : Expression → State → Prop} {w : Word}
    (hahead : Ahead s (w :: ws)) (hname : w.token.isIdentifier = false)
    (h : ∀ s' start canArrow, Ahead s' (w :: ws) →
      Meets IsTooDeep (otherPrimary g .none start canArrow) Q s') :
    Meets IsTooDeep (primary g .none) Q s := by
  unfold primary
  refine .run rfl (.run rfl (.run rfl ?_))
  have hs₁ : Ahead { s with assignable := false, cover := Cover.none } (w :: ws) :=
    ⟨hahead.observing, rfl, hahead.lexer⟩
  refine .run hs₁.currentToken (.no hname ?_)
  refine .run hs₁.isEscaped (.no (Bool.and_false _) ?_)
  exact h _ _ _ hs₁

/-- An expression in parentheses. -/
theorem group_recovers {e : Expression} (h : Formula e) (hitems : ∀ x ∈ parts e, IsItem x) :
    Recovers 19 primary true e := by
  intro size fuel s t ts hahead ht hroom
  obtain ⟨first, rest, hparts, hwords, hcases⟩ := exists_parts h
  rw [hparts] at hitems
  have hall : wordsOf true e ++ t :: ts = .sign .leftParen ::
      (itemWords first ++ commaWords rest ++ .sign .rightParen :: t :: ts) := by
    simp [wordsOf, inParentheses, hwords]
  rw [hall] at hahead hroom
  refine primary_meets hahead rfl fun s₁ start canArrow hs₁ => ?_
  unfold otherPrimary
  refine .run hs₁.currentToken ?_
  change Meets IsTooDeep (parenGroup _ _ _ _) _ _
  unfold parenGroup
  refine .next hs₁ fun s₂ _ hs₂ => ?_
  refine Meets.bind (Q := GroupDone (first :: rest) (t :: ts)) ?_ ?_
  · refine Meets.collectAfter (I := fun n read s => ∃ first' rest', rest'.length = n ∧
      GroupRead (first :: rest) (t :: ts) first' rest' read s) ?_ _ rest.length [] s₂ ?_ ?_
    · rintro n read s' ⟨first', rest', rfl, hread⟩
      refine (groupItem_meets hread hroom ?_).mono fun r s'' hr => ?_
      · simp [commaWords]
      cases r with
      | stop => exact hr.elim
      | last item => exact hr
      | more item =>
        obtain ⟨first'', rest'', hlt, hread'⟩ := hr
        exact ⟨_, hlt, first'', rest'', rfl, hread'⟩
    · have hlength := length_le_commaWords rest
      have hsize := hroom.size
      simp only [List.length_append, List.length_cons] at hsize
      rw [phrases_size]
      omega
    · refine ⟨first, rest, rfl, by simp, by simp, hitems, hs₂, ?_⟩
      simp [commaWords]
  · intro items s₃ hs₃
    refine .run rfl (.expect hs₃.ahead rfl fun s₄ _ hs₄ => ?_)
    refine .run (hs₄.atToken .arrow) (.no ?_ ?_)
    · have harrow : t.token ≠ .arrow := ne_of_hold ht (by decide)
      simp [harrow]
    · exact groupValue_meets hcases hs₃.parts hs₃.plain hs₃.last hs₄

end Groups

end EcmaSyntax.Grammar
