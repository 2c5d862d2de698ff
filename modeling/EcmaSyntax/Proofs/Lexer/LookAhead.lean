import EcmaSyntax.Proofs.Lexer.LineBreaks
import EcmaSyntax.Proofs.Lexer.Tokens
import EcmaSyntax.Unicode.IdentifierRanges

/-!
Looking ahead. A lexer that has looked ahead stands where it stood, with the token and the
comments it had. The place of an invalid escape is not among what is put back: it may be
that of a template which was read on the way. No later step makes anything of it, since a
template chunk that is read then comes with a place of its own.
-/

namespace EcmaSyntax.Lexer

open EcmaSyntax.Diagnostic EcmaSyntax.Text

variable {α β : Type}

section

variable {version : Nat} [Unicode.IdentifierChars version]

/-- Where the current template chunk has its first invalid escape, if it has one. -/
def State.invalidEscape? (s : State) : Option Nat :=
  if s.flags.invalidTemplateEscape then some s.invalidEscape else none

section Faults

/-- The reader fails, if it does, without an invalid escape before the fault. -/
def LacksEscape (reading : Reading α) : Prop :=
  ∀ found, reading = .error found → found.invalidEscape = none

theorem LacksEscape.ok (a : α) : LacksEscape (.ok a) := by
  rintro _ ⟨⟩

theorem LacksEscape.fault (cause : Cause) (index : Nat) :
    LacksEscape (α := α) (fault cause index) := by
  rintro _ ⟨⟩
  rfl

theorem LacksEscape.bind {reading : Reading α} {rest : α → Reading β} (h : LacksEscape reading)
    (hrest : ∀ a, LacksEscape (rest a)) : LacksEscape (reading >>= rest) := by
  cases reading with
  | ok a => exact hrest a
  | error found =>
    rintro _ ⟨⟩
    exact h found rfl

theorem LacksEscape.ite {p : Prop} [Decidable p] {first second : Reading α} (h : LacksEscape first)
    (h' : LacksEscape second) : LacksEscape (if p then first else second) := by
  split
  · exact h
  · exact h'

theorem readWordFrom_lacksEscape (text : List Char) :
    ∀ first index skip, LacksEscape (readWordFrom first index skip text) := by
  induction text with
  | nil =>
    intro first index skip
    rw [readWordFrom]
    exact .ok _
  | cons c rest ih =>
    intro first index skip
    cases skip with
    | succ skip =>
      rw [readWordFrom]
      exact ih first _ skip
    | zero =>
      unfold readWordFrom
      refine .ite ?_ (.ite ((ih _ _ _).bind fun _ => .ok _) (.ok _))
      split
      · split
        · exact .fault _ _
        · exact .ite ((ih _ _ _).bind fun _ => .ok _) (.fault _ _)
      · exact .fault _ _

theorem readStringFrom_lacksEscape (quote : Char) (text : List Char) :
    ∀ index skip, LacksEscape (readStringFrom quote index skip text) := by
  induction text with
  | nil =>
    intro index skip
    rw [readStringFrom]
    exact .fault _ _
  | cons c rest ih =>
    intro index skip
    cases skip with
    | succ skip =>
      rw [readStringFrom]
      exact ih _ skip
    | zero =>
      unfold readStringFrom
      refine .ite (.ok _) (.ite ?_ (.ite (.fault _ _) ((ih _ _).bind fun _ => .ok _)))
      split
      · exact .fault _ _
      · exact .fault _ _
      · exact (ih _ _).bind fun _ => .ok _

theorem readDigits_lacksEscape (radix : Nat) (separators : Bool) (text : List Char) :
    ∀ index any afterSeparator,
      LacksEscape (readDigits radix separators index any afterSeparator text) := by
  induction text with
  | nil => exact fun _ _ _ => .ite (.fault _ _) (.ok _)
  | cons c rest ih =>
    intro index any afterSeparator
    unfold readDigits
    exact .ite (.ite (.fault _ _) (ih _ _ _))
      (.ite ((ih _ _ _).bind fun _ => .ok _) (.ite (.fault _ _) (.ok _)))

theorem readDecimalTail_lacksEscape (whole : List Char) (index : Nat) (text : List Char) :
    LacksEscape (readDecimalTail whole index text) := by
  have hfraction : LacksEscape (readFraction index text) := by
    unfold readFraction
    split
    · exact (readDigits_lacksEscape _ _ _ _ _ _).bind fun _ => .ok _
    · exact .ok _
  have hexponent : ∀ index text, LacksEscape (readExponent index text) := by
    intro index text
    unfold readExponent
    split
    · refine .ite ?_ (.ok _)
      exact (readDigits_lacksEscape _ _ _ _ _ _).bind fun _ => .ite (.fault _ _) (.ok _)
    · exact .ok _
  exact hfraction.bind fun _ => (hexponent _ _).bind fun _ => .ok _

theorem checkAfterNumber_lacksEscape (text : List Char) (numeral : Numeral) :
    LacksEscape (checkAfterNumber text numeral) := by
  unfold checkAfterNumber
  split
  · exact .ite (.fault _ _) (.ok _)
  · exact .ok _

theorem readNumeral_lacksEscape (text : List Char) : LacksEscape (readNumeral text) := by
  have hcheck := checkAfterNumber_lacksEscape text
  have hradix : ∀ radix missing, LacksEscape (readRadixNumber radix missing text) :=
    fun _ _ => (readDigits_lacksEscape _ _ _ _ _ _).bind fun _ =>
      .ite (.fault _ _) (.ite (hcheck _) (hcheck _))
  have hlegacy : LacksEscape (readLegacyNumber text) :=
    (readDigits_lacksEscape _ _ _ _ _ _).bind fun _ => .ite (.ite (.fault _ _) (hcheck _))
      ((readDecimalTail_lacksEscape _ _ _).bind fun _ => .ite (.fault _ _) (hcheck _))
  have hdecimal : LacksEscape (readDecimalNumber text) :=
    (readDigits_lacksEscape _ _ _ _ _ _).bind fun _ => (readDecimalTail_lacksEscape _ _ _).bind
      fun _ => .ite (.ite (hcheck _) (.fault _ _)) (hcheck _)
  unfold readNumeral
  split
  · exact .ite (hradix _ _) (.ite (hradix _ _) (.ite (hradix _ _)
      (.ite hlegacy (.ite (.fault _ _) hdecimal))))
  · exact hdecimal

/-- The invalid escape that a reader comes upon, whether it then fails or not. -/
def escapeOf : Reading Lexeme → Option Nat
  | .ok lexeme => lexeme.invalidEscape
  | .error found => found.invalidEscape

/-- The text starts with a template, whose first chunk has an invalid escape at the index. -/
def OpensEscape (text : List Char) (index : Nat) : Prop :=
  ∃ body, text = '\x60' :: body ∧ (readChunk body).invalidEscape? = some index

theorem escapeOf_eq_none {reading : Reading Lexeme} (h : LacksEscape reading)
    (hread : ∀ lexeme, reading = .ok lexeme → lexeme.invalidEscape = none) :
    escapeOf reading = none := by
  cases reading with
  | ok lexeme => exact hread lexeme rfl
  | error found => exact h found rfl

theorem escapeOf_readStringLexeme (quote : Char) (text : List Char) :
    escapeOf (readStringLexeme quote text) = none := by
  refine escapeOf_eq_none ?_ fun lexeme hread => ?_
  · exact (readStringFrom_lacksEscape _ _ _ _).bind fun _ => .ok _
  · obtain ⟨found, -, hread⟩ := except_bind_ok hread
    cases hread
    rfl

theorem escapeOf_readNumberLexeme (text : List Char) :
    escapeOf (readNumberLexeme text) = none := by
  refine escapeOf_eq_none ?_ fun lexeme hread => ?_
  · refine (readNumeral_lacksEscape text).bind fun numeral => ?_
    split
    · exact .ok _
    · exact .ok _
  · obtain ⟨numeral, -, hread⟩ := except_bind_ok hread
    split at hread
    · cases hread
      rfl
    · cases hread
      rfl

theorem escapeOf_readPrivateLexeme (text : List Char) :
    escapeOf (readPrivateLexeme text) = none := by
  refine escapeOf_eq_none ?_ fun lexeme hread => ?_
  · exact .ite ((readWordFrom_lacksEscape _ _ _ _).bind fun _ => .ok _) (.fault _ _)
  · unfold readPrivateLexeme at hread
    split at hread
    · obtain ⟨found, -, hread⟩ := except_bind_ok hread
      cases hread
      rfl
    · cases hread

theorem escapeOf_readWordLexeme (text : List Char) : escapeOf (readWordLexeme text) = none := by
  refine escapeOf_eq_none ?_ fun lexeme hread => ?_
  · exact (readWordFrom_lacksEscape _ _ _ _).bind fun _ => .ok _
  · obtain ⟨found, -, hread⟩ := except_bind_ok hread
    cases hread
    rfl

theorem escapeOf_readChunkLexeme (isFirst : Bool) (c : Char) (body : List Char) :
    escapeOf (readChunkLexeme isFirst (c :: body)) = (readChunk body).invalidEscape? := by
  unfold readChunkLexeme
  dsimp only [List.drop_succ_cons, List.drop_zero]
  split <;> rfl

/-- Only in a template can a lexer come upon an invalid escape that it remembers. -/
theorem opensEscape_of_escapeOf {text : List Char} {index : Nat}
    (h : escapeOf (readLexeme text) = some index) : OpensEscape text index := by
  unfold readLexeme at h
  split at h
  · cases h
  split at h
  · cases h
  rename_i c rest _
  split at h
  · cases (escapeOf_readStringLexeme c _).symm.trans h
  split at h
  · rename_i hopening
    rw [escapeOf_readChunkLexeme] at h
    exact ⟨rest, congrArg (· :: rest) (beq_iff_eq.mp hopening), h⟩
  split at h
  · cases (escapeOf_readNumberLexeme _).symm.trans h
  split at h
  · cases (escapeOf_readPrivateLexeme _).symm.trans h
  split at h
  · cases (escapeOf_readWordLexeme _).symm.trans h
  · cases h

end Faults

section Frame

variable {s s' s₁ : State}

/-- A place of an invalid escape that a lexer may remember after it has gone on: the one from
before, or that of a template which it has come to. -/
def Recollects (s : State) (escape : Nat) : Prop :=
  escape = s.invalidEscape ∨ ∃ place between index, s.cursor.Reaches place between ∧
    OpensEscape place.rest index ∧ escape = (place.advance index).offset

/-- The lexer has gone on. -/
structure Ahead (s s' : State) : Prop where
  passed : ∃ between, s.cursor.Reaches s'.cursor between
  comments : s.comments <+: s'.comments
  escape : Recollects s s'.invalidEscape

theorem Ahead.refl (s : State) : Ahead s s := ⟨⟨[], .refl _⟩, List.prefix_refl _, .inl rfl⟩

theorem Ahead.trans (h : Ahead s s₁) (h' : Ahead s₁ s') : Ahead s s' := by
  obtain ⟨first, hfirst⟩ := h.passed
  obtain ⟨second, hsecond⟩ := h'.passed
  refine ⟨⟨_, hfirst.trans hsecond⟩, h.comments.trans h'.comments, ?_⟩
  rcases h'.escape with hsame | ⟨place, between, index, hreach, hopens, hescape⟩
  · rw [hsame]
    exact h.escape
  · exact .inr ⟨place, _, index, hfirst.trans hreach, hopens, hescape⟩

/-- Whether the step fails or not, the lexer has gone on. -/
abbrev GoesAhead (step : Lexer α) (s : State) : Prop :=
  EndsIn (fun _ s' => Ahead s s') step (fun _ s' => Ahead s s') s

theorem GoesAhead.bind {step : Lexer α} {rest : α → Lexer β} (h : GoesAhead step s)
    (hrest : ∀ a s', GoesAhead (rest a) s') : GoesAhead (step >>= rest) s :=
  EndsIn.bind h fun a _ hs' =>
    ((hrest a _).mono fun _ _ => hs'.trans).weaken fun _ _ => hs'.trans

theorem beginToken_ahead (s : State) : GoesAhead beginToken s := by
  unfold GoesAhead EndsIn
  rw [beginToken_eq]
  cases hread : readTrivia s.htmlComments s.atLineStart s.cursor.offset s.cursor.rest with
  | error failure => exact .refl s
  | ok trivia =>
    obtain ⟨gap, hreach, -⟩ := readTrivia_reaches hread
    refine ⟨⟨gap, hreach⟩, ?_, .inl rfl⟩
    change s.comments <+: if s.collectComments then s.comments ++ trivia.comments else s.comments
    split
    · exact List.prefix_append _ _
    · exact List.prefix_refl _

/-- The place that is remembered when a reader of the next token has come upon an escape. -/
theorem recollects_escapeOf (s : State) : Recollects s
    (match escapeOf (readLexeme s.cursor.rest) with
      | some index => (s.cursor.advance index).offset
      | none => s.invalidEscape) := by
  split
  · rename_i index hescape
    exact .inr ⟨s.cursor, [], index, .refl _, opensEscape_of_escapeOf hescape, rfl⟩
  · exact .inl rfl

theorem takeToken_ahead (s : State) : GoesAhead takeToken s := by
  have hescape := recollects_escapeOf s
  unfold GoesAhead EndsIn takeToken
  by_cases hempty : s.cursor.rest.isEmpty = true
  · rw [if_pos hempty]
    exact ⟨⟨[], .refl _⟩, List.prefix_refl _, .inl rfl⟩
  · rw [if_neg hempty]
    have hrest : s.cursor.rest ≠ [] := by simpa using hempty
    have hfits := readLexeme_fits hrest
    cases hread : readLexeme s.cursor.rest with
    | ok lexeme =>
      rw [hread] at hescape hfits
      exact ⟨⟨_, s.cursor.reaches_advance _ hfits.le⟩, List.prefix_refl _, hescape⟩
    | error found =>
      rw [hread] at hescape
      exact ⟨⟨[], .refl _⟩, List.prefix_refl _, hescape⟩

theorem scan_ahead (s : State) : GoesAhead scan s := by
  rw [scan_eq]
  exact (beginToken_ahead s).bind fun _ => takeToken_ahead

/-- A step whose failure is a result. -/
def attempt (step : Lexer α) : Lexer (Except Failure α) := fun s =>
  match step s with
  | .ok a s' => .ok (.ok a) s'
  | .error failure s' => .ok (.error failure) s'

/-- What may be done to look ahead: tokens are scanned, as many as one likes, some perhaps in
vain, and whatever the lexer holds is looked at. -/
inductive Looks : {α : Type} → Lexer α → Prop
  | pure {α : Type} (a : α) : Looks (Pure.pure a)
  | bind {α β : Type} {step : Lexer α} {rest : α → Lexer β} (h : Looks step)
      (hrest : ∀ a, Looks (rest a)) : Looks (step >>= rest)
  | state : Looks get
  | scan : Looks scan
  | attempt {α : Type} {step : Lexer α} (h : Looks step) : Looks (attempt step)

theorem Looks.goesAhead {step : Lexer α} (h : Looks step) : ∀ s, GoesAhead step s := by
  induction h with
  | pure a => exact fun s => .pure (.refl s)
  | bind _ _ ih ihrest => exact fun s => (ih s).bind ihrest
  | state => exact fun s => .ok rfl (.refl s)
  | scan => exact scan_ahead
  | @attempt α step _ ih =>
    intro s
    cases hrun : step s with
    | ok a s' => exact .ok (by unfold Lexer.attempt; rw [hrun]) ((ih s).result hrun)
    | error failure s' => exact .ok (by unfold Lexer.attempt; rw [hrun]) ((ih s).failure hrun)

/-- Nothing but the place of an invalid escape tells that the lexer has gone on and come back. -/
theorem Ahead.restore_eq (h : Ahead s s') :
    s.restore s' = { s with invalidEscape := s'.invalidEscape } := by
  unfold State.restore
  rw [← List.prefix_iff_eq_take.mp h.comments]

theorem lookAhead_frame {step : Lexer α} (h : Looks step) (s : State) :
    ∃ found escape, lookAhead step s = .ok found { s with invalidEscape := escape } ∧
      Recollects s escape := by
  have hstep := h.goesAhead s
  unfold lookAhead
  cases hrun : step s with
  | ok a s' =>
    have hahead := hstep.result hrun
    exact ⟨_, _, congrArg (EStateM.Result.ok _) hahead.restore_eq, hahead.escape⟩
  | error failure s' =>
    have hahead := hstep.failure hrun
    exact ⟨_, _, congrArg (EStateM.Result.ok _) hahead.restore_eq, hahead.escape⟩

end Frame

section Later

variable {s t : State}

/-- The states differ at most in the place of an invalid escape. -/
def Alike (s t : State) : Prop := ∃ escape, t = { s with invalidEscape := escape }

/-- The states differ at most in the place of an invalid escape that neither of them is at. -/
def Synced (s t : State) : Prop := Alike s t ∧ s.invalidEscape? = t.invalidEscape?

/-- Two steps, each from its own state, end in results with `Q`, or in the same failure. -/
def Pairs (Q : α → State → β → State → Prop) (first : Lexer α) (second : Lexer β) (s t : State) :
    Prop :=
  match first s, second t with
  | .ok a s', .ok b t' => Q a s' b t'
  | .error failure s', .error failure' t' => failure = failure' ∧ Alike s' t'
  | _, _ => False

/-- From two states the step gives the same result, and comes to states with `R`. -/
abbrev Agrees (R : State → State → Prop) (step : Lexer α) (s t : State) : Prop :=
  Pairs (fun a s' b t' => a = b ∧ R s' t') step step s t

namespace Pairs

variable {γ δ : Type} {Q : α → State → β → State → Prop} {R : γ → State → δ → State → Prop}
  {first : Lexer α} {second : Lexer β}

theorem bind {rest : α → Lexer γ} {rest' : β → Lexer δ} (h : Pairs Q first second s t)
    (hrest : ∀ a s' b t', Q a s' b t' → Pairs R (rest a) (rest' b) s' t') :
    Pairs R (first >>= rest) (second >>= rest') s t := by
  unfold Pairs at h
  change match EStateM.bind first rest s, EStateM.bind second rest' t with
    | .ok a s', .ok b t' => R a s' b t'
    | .error failure s', .error failure' t' => failure = failure' ∧ Alike s' t'
    | _, _ => False
  unfold EStateM.bind
  split at h
  · rename_i a s' b t' hs ht
    rw [hs, ht]
    exact hrest a s' b t' h
  · rename_i failure s' failure' t' hs ht
    rw [hs, ht]
    exact h
  · exact h.elim

theorem mono {Q' : α → State → β → State → Prop} (h : Pairs Q first second s t)
    (hQ : ∀ a s' b t', Q a s' b t' → Q' a s' b t') : Pairs Q' first second s t := by
  unfold Pairs at h ⊢
  split at h
  · exact hQ _ _ _ _ h
  · exact h
  · exact h

/-- A step that looks at its state goes on from either of the two. -/
theorem state {rest : State → Lexer γ} {rest' : State → Lexer δ}
    (h : Pairs R (rest s) (rest' t) s t) : Pairs R (get >>= rest) (get >>= rest') s t := h

theorem change {f g : State → State} {Q : Unit → State → Unit → State → Prop}
    (h : Q () (f s) () (g t)) : Pairs Q (modify f) (modify g) s t := h

end Pairs

theorem Synced.alike (h : Synced s t) : Alike s t := h.1

theorem Agrees.alike {step : Lexer α} (h : Agrees Synced step s t) : Agrees Alike step s t :=
  Pairs.mono h fun _ _ _ _ hresult => ⟨hresult.1, hresult.2.alike⟩

theorem agrees_ofReading (start : Cursor) (reading : Reading α) (h : Alike s t) :
    Agrees Alike (ofReading start reading) s t := by
  obtain ⟨escape, rfl⟩ := h
  unfold Agrees Pairs
  cases reading with
  | ok a => exact ⟨rfl, escape, rfl⟩
  | error found =>
    rw [ofReading_error, ofReading_error]
    exact ⟨rfl, _, rfl⟩

/-- A token that has an invalid escape comes with its place. -/
theorem agrees_accept (start : Cursor) (lexeme : Lexeme) (h : Alike s t) :
    Agrees Synced (accept start lexeme) s t := by
  obtain ⟨escape, rfl⟩ := h
  refine .change ⟨rfl, ⟨_, rfl⟩, ?_⟩
  unfold State.invalidEscape?
  cases lexeme.invalidEscape with
  | some index => rfl
  | none => rfl

theorem agrees_beginToken (h : Alike s t) : Agrees Synced beginToken s t := by
  obtain ⟨escape, rfl⟩ := h
  unfold Agrees Pairs
  rw [beginToken_eq, beginToken_eq]
  dsimp only
  cases readTrivia s.htmlComments s.atLineStart s.cursor.offset s.cursor.rest with
  | ok trivia => exact ⟨rfl, ⟨escape, rfl⟩, rfl⟩
  | error failure => exact ⟨rfl, escape, rfl⟩

theorem agrees_scan (h : Alike s t) : Agrees Synced scan s t := by
  unfold scan
  refine (agrees_beginToken h).bind fun _ s _ t ⟨_, hbegun⟩ => ?_
  obtain ⟨⟨escape, rfl⟩, hescape⟩ := hbegun
  refine .state ?_
  dsimp only
  split
  · exact ⟨rfl, ⟨escape, rfl⟩, hescape⟩
  · refine (agrees_ofReading _ _ ⟨escape, rfl⟩).bind fun lexeme s _ t ⟨hlexeme, hread⟩ => ?_
    subst hlexeme
    refine (agrees_accept _ lexeme hread).bind fun _ s _ t ⟨_, haccepted⟩ => ?_
    obtain ⟨⟨escape, rfl⟩, hescape⟩ := haccepted
    exact ⟨rfl, ⟨escape, rfl⟩, hescape⟩

theorem agrees_rescanTemplate (h : Alike s t) : Agrees Synced rescanTemplate s t := by
  obtain ⟨escape, rfl⟩ := h
  unfold rescanTemplate
  refine .state ?_
  dsimp only
  refine (agrees_ofReading _ _ ⟨escape, rfl⟩).bind fun lexeme s _ t ⟨hlexeme, hread⟩ => ?_
  subst hlexeme
  exact (agrees_accept _ lexeme hread).bind fun _ s _ t ⟨_, haccepted⟩ => ⟨rfl, haccepted⟩

theorem agrees_scanMarkupAttributeValue (h : Alike s t) :
    Agrees Synced scanMarkupAttributeValue s t := by
  unfold scanMarkupAttributeValue
  refine (agrees_beginToken h).bind fun _ s _ t ⟨_, hbegun⟩ => ?_
  have hscan := agrees_scan hbegun.alike
  obtain ⟨⟨escape, rfl⟩, hescape⟩ := hbegun
  refine .state ?_
  dsimp only
  split
  · split
    · split
      · exact ⟨rfl, ⟨escape, rfl⟩, hescape⟩
      · exact ⟨rfl, escape, rfl⟩
    · exact hscan
  · exact hscan

theorem agrees_rescanGreaterThan (h : Alike s t) : Agrees Alike rescanGreaterThan s t := by
  obtain ⟨escape, rfl⟩ := h
  unfold Agrees Pairs
  rw [rescanGreaterThan_eq, rescanGreaterThan_eq]
  exact ⟨rfl, escape, rfl⟩

theorem agrees_rescanRegex (h : Alike s t) : Agrees Alike rescanRegex s t := by
  obtain ⟨escape, rfl⟩ := h
  unfold rescanRegex
  refine .state ?_
  dsimp only
  refine (agrees_ofReading _ _ ⟨escape, rfl⟩).bind fun literal s _ t ⟨hliteral, hread⟩ => ?_
  subst hliteral
  obtain ⟨escape, rfl⟩ := hread
  exact ⟨rfl, escape, rfl⟩

theorem agrees_scanMarkupChild (h : Alike s t) : Agrees Alike scanMarkupChild s t := by
  obtain ⟨escape, rfl⟩ := h
  unfold scanMarkupChild
  refine .state ?_
  dsimp only
  refine Pairs.bind (Q := fun _ s _ t => Alike s t) ⟨escape, rfl⟩ fun _ s _ t hbegun => ?_
  obtain ⟨escape, rfl⟩ := hbegun
  split
  · exact ⟨rfl, escape, rfl⟩
  · exact ⟨rfl, escape, rfl⟩
  · exact ⟨rfl, escape, rfl⟩
  · refine (agrees_ofReading _ _ ⟨escape, rfl⟩).bind fun body s _ t hread => ?_
    obtain ⟨rfl, escape, rfl⟩ := hread
    exact ⟨rfl, escape, rfl⟩

theorem agrees_scanMarkupName (h : Alike s t) : Agrees Alike scanMarkupName s t := by
  obtain ⟨escape, rfl⟩ := h
  refine .change ⟨rfl, ?_⟩
  dsimp only
  split
  · split
    · exact ⟨escape, rfl⟩
    · exact ⟨escape, rfl⟩
  · exact ⟨escape, rfl⟩

/-- A state that a lexer went back to is alike whatever it went back from. -/
theorem Alike.restore {s' t' : State} (h : Alike s t) (h' : Alike s' t') :
    Alike (s.restore s') (t.restore t') := by
  obtain ⟨escape, rfl⟩ := h
  obtain ⟨escape', rfl⟩ := h'
  exact ⟨escape', rfl⟩

theorem Agrees.lookAhead {step : Lexer α} (h : Agrees Alike step s t) (hs : Alike s t) :
    Agrees Alike (lookAhead step) s t := by
  unfold Agrees Pairs at h ⊢
  unfold Lexer.lookAhead
  split at h
  · rename_i a s' b t' hrun hrun'
    rw [hrun, hrun']
    exact ⟨congrArg Except.ok h.1, hs.restore h.2⟩
  · rename_i failure s' failure' t' hrun hrun'
    rw [hrun, hrun']
    exact ⟨congrArg Except.error h.1, hs.restore h.2⟩
  · exact h.elim

theorem Agrees.attempt {step : Lexer α} (h : Agrees Alike step s t) :
    Agrees Alike (attempt step) s t := by
  unfold Agrees Pairs at h ⊢
  unfold Lexer.attempt
  split at h
  · rename_i a s' b t' hrun hrun'
    rw [hrun, hrun']
    exact ⟨congrArg Except.ok h.1, h.2⟩
  · rename_i failure s' failure' t' hrun hrun'
    rw [hrun, hrun']
    exact ⟨congrArg Except.error h.1, h.2⟩
  · exact h.elim

/-- A step together with the place of the invalid escape in what it has read. -/
def withEscape (step : Lexer α) : Lexer (α × Option Nat) := do
  let a ← step
  return (a, (← get).invalidEscape?)

theorem Agrees.withEscape {step : Lexer α} (h : Agrees Synced step s t) :
    Agrees Alike (withEscape step) s t := by
  refine Pairs.bind h fun a s b t ⟨ha, hsynced⟩ => ?_
  exact ⟨by rw [ha, hsynced.2], hsynced.alike⟩

/-- What may be done with a lexer, where the place of an invalid escape is asked for together
with the chunk it stands in. -/
inductive Uses : {α : Type} → Lexer α → Prop
  | pure {α : Type} (a : α) : Uses (Pure.pure a)
  | bind {α β : Type} {step : Lexer α} {rest : α → Lexer β} (h : Uses step)
      (hrest : ∀ a, Uses (rest a)) : Uses (step >>= rest)
  | observe {α : Type} (f : State → α)
    (h : ∀ s escape, f { s with invalidEscape := escape } = f s) :
      Uses (f <$> get)
  | scan : Uses (withEscape scan)
  | scanMarkupAttributeValue : Uses (withEscape scanMarkupAttributeValue)
  | rescanTemplate : Uses (withEscape rescanTemplate)
  | rescanGreaterThan : Uses rescanGreaterThan
  | rescanRegex : Uses rescanRegex
  | scanMarkupChild : Uses scanMarkupChild
  | scanMarkupName : Uses scanMarkupName
  | takeComments : Uses takeComments
  | peek : Uses peek
  | restore (saved : State) : Uses (modify saved.restore)
  | lookAhead {α : Type} {step : Lexer α} (h : Uses step) : Uses (lookAhead step)
  | attempt {α : Type} {step : Lexer α} (h : Uses step) : Uses (attempt step)

theorem agrees_peek (h : Alike s t) : Agrees Alike peek s t := by
  unfold peek
  refine Pairs.bind (Agrees.lookAhead ?_ h) fun found s _ t ⟨hfound, hback⟩ => ?_
  · refine (agrees_scan h).bind fun token s _ t ⟨htoken, hscanned⟩ => .state ?_
    obtain ⟨⟨escape, rfl⟩, -⟩ := hscanned
    exact ⟨by rw [htoken], escape, rfl⟩
  · subst hfound
    cases found with
    | ok next => exact ⟨rfl, hback⟩
    | error failure => exact ⟨rfl, hback⟩

theorem Uses.agrees {step : Lexer α} (h : Uses step) :
    ∀ s t, Alike s t → Agrees Alike step s t := by
  induction h with
  | pure a => exact fun s t hst => ⟨rfl, hst⟩
  | bind _ _ ih ihrest =>
    intro s t hst
    refine (ih s t hst).bind fun a s' b t' ⟨ha, hst'⟩ => ?_
    subst ha
    exact ihrest a s' t' hst'
  | observe f hf =>
    rintro s _ ⟨escape, rfl⟩
    exact ⟨(hf s escape).symm, escape, rfl⟩
  | scan => exact fun s t hst => (agrees_scan hst).withEscape
  | scanMarkupAttributeValue =>
    exact fun s t hst => (agrees_scanMarkupAttributeValue hst).withEscape
  | rescanTemplate => exact fun s t hst => (agrees_rescanTemplate hst).withEscape
  | rescanGreaterThan => exact fun s t => agrees_rescanGreaterThan
  | rescanRegex => exact fun s t => agrees_rescanRegex
  | scanMarkupChild => exact fun s t => agrees_scanMarkupChild
  | scanMarkupName => exact fun s t => agrees_scanMarkupName
  | takeComments =>
    rintro s _ ⟨escape, rfl⟩
    exact ⟨rfl, escape, rfl⟩
  | peek => exact fun s t => agrees_peek
  | restore saved => exact fun s t hst => ⟨rfl, Alike.restore ⟨_, rfl⟩ hst⟩
  | lookAhead _ ih => exact fun s t hst => (ih s t hst).lookAhead hst
  | attempt _ ih => exact fun s t hst => (ih s t hst).attempt

/-- The result or the failure that a step ends in, apart from the state. -/
def outcome : EStateM.Result Failure State α → Except Failure α
  | .ok a _ => .ok a
  | .error failure _ => .error failure

theorem Agrees.outcome_eq {R : State → State → Prop} {step : Lexer α} (h : Agrees R step s t) :
    outcome (step s) = outcome (step t) := by
  unfold Agrees Pairs at h
  split at h
  · rename_i hrun hrun'
    rw [hrun, hrun']
    exact congrArg Except.ok h.1
  · rename_i hrun hrun'
    rw [hrun, hrun']
    exact congrArg Except.error h.1
  · exact h.elim

end Later

/-- Looking ahead puts back everything but the place of an invalid escape, which may become
that of a template further on. Whatever is done with the lexer afterwards gives the same
results as if nobody had looked ahead. -/
theorem lookAhead_comes_back {step : Lexer α} (h : Looks step) (s : State) :
    ∃ found escape, lookAhead step s = .ok found { s with invalidEscape := escape } ∧
      (escape = s.invalidEscape ∨ ∃ place between index, s.cursor.Reaches place between ∧
        OpensEscape place.rest index ∧ escape = (place.advance index).offset) ∧
      ∀ {β : Type} (later : Lexer β), Uses later →
        outcome (later { s with invalidEscape := escape }) = outcome (later s) := by
  obtain ⟨found, escape, hlook, hescape⟩ := lookAhead_frame h s
  refine ⟨found, escape, hlook, hescape, fun later hlater => ?_⟩
  exact (hlater.agrees s _ ⟨escape, rfl⟩).outcome_eq.symm

/-- The next two tokens, each with the failure that there may be instead. -/
def nextTwo : Lexer (Except Failure Token × Except Failure Token) := do
  let first ← attempt scan
  let second ← attempt scan
  return (first, second)

theorem looks_nextTwo : Looks nextTwo :=
  .bind (.attempt .scan) fun _ => .bind (.attempt .scan) fun _ => .pure _

/-- Templates with invalid escapes, the last of which is not closed. -/
def escapedText : List Char := "\x60\\u\x60 \x60\\x\x60 \x60\\u".toList

end

theorem lookAhead_comes_back_escaped : ∃ s, Reached escapedText false true s [] ∧ Looks nextTwo ∧
    s.invalidEscape? = some 1 ∧
    ∃ found escape, lookAhead nextTwo s = .ok found { s with invalidEscape := escape } ∧
      (escape = s.invalidEscape ∨ ∃ place between index, s.cursor.Reaches place between ∧
        OpensEscape place.rest index ∧ escape = (place.advance index).offset) ∧
      ∀ {β : Type} (later : Lexer β), Uses later →
        outcome (later { s with invalidEscape := escape }) = outcome (later s) := by
  have h₀ : Reached escapedText false true (State.initial escapedText false true) [] := .initial
  have h₁ := h₀.step .scan trivial rfl
  exact ⟨_, h₁, looks_nextTwo, rfl, lookAhead_comes_back looks_nextTwo _⟩

/-- The current template chunk has its invalid escape at another place after a look at the
next token, which is a template too. -/
theorem exists_escape_moved : ∃ s found s', Reached escapedText false true s [] ∧
    peek s = .ok found s' ∧ s'.token = s.token ∧ s'.span = s.span ∧ s'.flags = s.flags ∧
      s.invalidEscape? = some 1 ∧ s'.invalidEscape? = some 6 := by
  have h₀ : Reached escapedText false true (State.initial escapedText false true) [] := .initial
  have h₁ := h₀.step .scan trivial rfl
  exact ⟨_, _, _, h₁, rfl, rfl, rfl, rfl, rfl, rfl⟩

end EcmaSyntax.Lexer
