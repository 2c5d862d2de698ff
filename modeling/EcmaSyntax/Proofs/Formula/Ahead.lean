import EcmaSyntax.Grammar.Name
import EcmaSyntax.Proofs.Grammar.Outcome

/-!
A parse of words that are known. The state of the parse stands at the first of
them, and no literal is left open; every step that looks at a token or takes one
then has one outcome.
-/

namespace EcmaSyntax.Grammar

open EcmaSyntax.Diagnostic EcmaSyntax.Lexer EcmaSyntax.Tree

variable {version : Nat} [Unicode.IdentifierChars version]

variable {α β : Type}

/-- The lexer stands at the first of the words and the others follow. -/
def LexerAhead (lexer : Lexer.State) : List Word → Prop
  | [] => lexer.IsPlain ∧ lexer.token = .endOfSource
  | w :: ws => lexer.StandsAt w ∧ Spells lexer.cursor.rest ws

/-- The words are ahead and nothing is recorded or left open. -/
structure Ahead (s : State) (words : List Word) : Prop where
  observing : s.observing = false
  cover : s.cover = Cover.none
  lexer : LexerAhead s.lexer words

/-- The parse gives up because phrases are nested too deeply. -/
def IsTooDeep (failure : Failure) : Prop := failure.cause = .nestingTooDeep

namespace Ahead

variable {s : State} {w : Word} {ws : List Word}

theorem token (h : Ahead s (w :: ws)) : s.token = w.token := h.lexer.1.token

theorem currentToken (h : Ahead s (w :: ws)) : currentToken s = .ok w.token s := by
  change EStateM.Result.ok s.token s = _
  rw [h.token]

theorem currentValue (h : Ahead s (w :: ws)) : currentValue s = .ok w.value s := by
  change EStateM.Result.ok s.lexer.value.text s = _
  rw [h.lexer.1.value]

theorem isEscaped (h : Ahead s (w :: ws)) : isEscaped s = .ok false s := by
  change EStateM.Result.ok s.lexer.flags.escaped s = _
  rw [h.lexer.1.escaped]

theorem afterLineBreak (h : Ahead s (w :: ws)) : afterLineBreak s = .ok false s := by
  change EStateM.Result.ok s.lexer.flags.lineBreakBefore s = _
  rw [h.lexer.1.lineBreak]

theorem atToken (h : Ahead s (w :: ws)) (token : Token) :
    atToken token s = .ok (w.token == token) s := by
  change EStateM.Result.ok (s.token == token) s = _
  rw [h.token]

theorem atWord (h : Ahead s (w :: ws)) (token : Token) :
    atWord token s = .ok (w.token == token) s := by
  change EStateM.Result.ok (s.token == token && !s.lexer.flags.escaped) s = _
  rw [h.token, h.lexer.1.escaped, Bool.not_false, Bool.and_true]

end Ahead

/-- The lexer reads on to the words that are spelled. -/
theorem lexerAhead_of_spells {lexer : Lexer.State} {words : List Word} (hplain : lexer.IsPlain)
    (h : Spells lexer.cursor.rest words) :
    ∃ token lexer', (do let _ ← scan; rescanGreaterThan : Lexer Token) lexer = .ok token lexer' ∧
      LexerAhead lexer' words := by
  generalize hrest : lexer.cursor.rest = rest at h
  cases h with
  | stop hend =>
    obtain ⟨s', hscan, htoken, hplain'⟩ := hend lexer hplain hrest
    have hmerge : merge Token.endOfSource s'.cursor.rest = (.endOfSource, 0) := rfl
    refine ⟨_, _, (bind_of_ok hscan).trans (rescanGreaterThan_eq s'), ?_⟩
    rw [htoken, hmerge]
    exact ⟨⟨hplain'.html, hplain'.collect⟩, rfl⟩
  | word hword hrest' =>
    obtain ⟨first, s₁, s₂, hscan, hrescan, -, hstands, hleft⟩ := hword.reads _ lexer hplain hrest
    refine ⟨_, s₂, (bind_of_ok hscan).trans hrescan, hstands, ?_⟩
    rwa [hleft]

/-- Nothing but the place of the parse in the text is another. -/
def Moved (s s' : State) : Prop :=
  ∃ lexer stop, s' = { s with lexer := lexer, previousEnd := stop }

theorem next_of_spells {s : State} {words : List Word} (hobserving : s.observing = false)
    (hcover : s.cover = Cover.none) (hplain : s.lexer.IsPlain)
    (h : Spells s.lexer.cursor.rest words) :
    ∃ s', next s = .ok () s' ∧ Moved s s' ∧ Ahead s' words := by
  obtain ⟨token, lexer, hscan, hlexer⟩ := lexerAhead_of_spells hplain h
  have hrecord : s.recordToken = s := by
    unfold State.recordToken
    rw [hobserving]
    rfl
  let s₁ : State := { s with previousEnd := s.lexer.cursor.offset }
  let s₂ : State := { s₁ with lexer := lexer }
  have hread : withLexer (do let _ ← scan; rescanGreaterThan : Lexer Token) s₁ = .ok token s₂ := by
    unfold withLexer
    rw [hscan]
  refine ⟨s₂, ?_, ⟨_, _, rfl⟩, hobserving, hcover, hlexer⟩
  unfold Grammar.next advance
  have hmodify : (modify fun s => { s.recordToken with previousEnd := s.lexer.cursor.offset } :
      Parser Unit) s = .ok () s₁ := by
    change EStateM.Result.ok () { s.recordToken with previousEnd := s.lexer.cursor.offset } = _
    rw [hrecord]
  refine (bind_of_ok hmodify).trans ((bind_of_ok hread).trans ((bind_of_ok rfl).trans ?_))
  rw [if_neg (by simp [s₂, s₁, hobserving])]
  rfl

theorem Ahead.next {s : State} {w : Word} {ws : List Word} (h : Ahead s (w :: ws)) :
    ∃ s', next s = .ok () s' ∧ Moved s s' ∧ Ahead s' ws :=
  next_of_spells h.observing h.cover h.lexer.1.plain h.lexer.2

namespace Moved

variable {s s' : State}

theorem assignable (h : Moved s s') : s'.assignable = s.assignable := by
  obtain ⟨lexer, stop, rfl⟩ := h
  rfl

theorem parenthesized (h : Moved s s') : s'.parenthesized = s.parenthesized := by
  obtain ⟨lexer, stop, rfl⟩ := h
  rfl

end Moved

end EcmaSyntax.Grammar

namespace EcmaSyntax.Meets

open EcmaSyntax.Diagnostic EcmaSyntax.Grammar

variable {version : Nat} [Unicode.IdentifierChars version]

variable {α β : Type} {E : Failure → Prop} {Q : β → State → Prop} {s : State} {w : Lexer.Word}
  {ws : List Lexer.Word}

theorem next {rest : Unit → Parser β} (h : Ahead s (w :: ws))
    (hrest : ∀ s', Moved s s' → Ahead s' ws → Meets E (rest ()) Q s') :
    Meets E (Grammar.next >>= rest) Q s := by
  obtain ⟨s', hnext, hmoved, hahead⟩ := h.next
  exact .run hnext (hrest s' hmoved hahead)

/-- A token that is there is taken. -/
theorem accept {token : Token} {rest : Bool → Parser β} (h : Ahead s (w :: ws))
    (htoken : w.token = token)
    (hrest : ∀ s', Moved s s' → Ahead s' ws → Meets E (rest true) Q s') :
    Meets E (Grammar.accept token >>= rest) Q s := by
  obtain ⟨s', hnext, hmoved, hahead⟩ := h.next
  have haccept : Grammar.accept token s = .ok true s' := by
    unfold Grammar.accept
    refine (bind_of_ok (h.atToken token)).trans ?_
    rw [if_pos (by simpa using htoken)]
    exact (bind_of_ok hnext).trans rfl
  exact .run haccept (hrest s' hmoved hahead)

/-- A token that is not there is not taken. -/
theorem refuse {token : Token} {rest : Bool → Parser β} (h : Ahead s (w :: ws))
    (htoken : w.token ≠ token) (hrest : Meets E (rest false) Q s) :
    Meets E (Grammar.accept token >>= rest) Q s := by
  have haccept : Grammar.accept token s = .ok false s := by
    unfold Grammar.accept
    refine (bind_of_ok (h.atToken token)).trans ?_
    rw [if_neg (by simpa using htoken)]
    rfl
  exact .run haccept hrest

theorem expect {token : Token} {rest : Unit → Parser β} (h : Ahead s (w :: ws))
    (htoken : w.token = token) (hrest : ∀ s', Moved s s' → Ahead s' ws → Meets E (rest ()) Q s') :
    Meets E (Grammar.expect token >>= rest) Q s := by
  obtain ⟨s', hnext, hmoved, hahead⟩ := h.next
  have hexpect : Grammar.expect token s = .ok () s' := by
    unfold Grammar.expect
    refine (bind_of_ok (h.atToken token)).trans ?_
    rw [if_pos (by simpa using htoken)]
    exact hnext
  exact .run hexpect (hrest s' hmoved hahead)

theorem yes {c : Bool} {a b : Parser β} (hc : c = true) (h : Meets E a Q s) :
    Meets E (if c = true then a else b) Q s := by
  rw [if_pos hc]
  exact h

theorem no {c : Bool} {a b : Parser β} (hc : c = false) (h : Meets E b Q s) :
    Meets E (if c = true then a else b) Q s := by
  rw [if_neg (by simp [hc])]
  exact h

/-- A check that changes nothing may be made or not. -/
theorem maybe {c : Prop} [Decidable c] {check : Parser Unit} {rest : Unit → Parser β}
    (hcheck : check s = .ok () s) (h : Meets E (rest ()) Q s) :
      Meets E (if c then check >>= rest else rest ()) Q s := by
  split
  · exact .run hcheck h
  · exact h

/-- A phrase one level deeper recovers what it does, or there are too many levels. -/
theorem nested {phrase : Parser α} {Q : α → State → Prop}
    (h : ∀ depth, Meets IsTooDeep phrase (fun a s' => Q a { s' with depth := s'.depth - 1 })
      { s with depth := depth }) : Meets IsTooDeep (Grammar.nested phrase) Q s := by
  unfold Grammar.nested
  refine Meets.bind (Q := fun _ s' => ∃ depth, s' = { s with depth := depth }) ?_ ?_
  · unfold enterNesting
    refine .run rfl (.run rfl ?_)
    split
    · exact .error rfl rfl
    · exact .pure ⟨_, rfl⟩
  · rintro _ _ ⟨depth, rfl⟩
    exact (h depth).bind fun a s' ha => .run rfl (.pure ha)

end EcmaSyntax.Meets
