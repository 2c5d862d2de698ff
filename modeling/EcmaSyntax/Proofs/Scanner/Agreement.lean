import EcmaSyntax.Proofs.Lexer.Steps
import EcmaSyntax.Proofs.Lexer.Words
import EcmaSyntax.Proofs.Scanner.Tokens
import EcmaSyntax.Proofs.Scanner.Trivia

/-!
The scanner on bytes and the lexer on characters. Where the scanner stands between two characters,
its state is one of the lexer, with the values that the scanner keeps as ranges cut out. A step of
the scanner goes from such a state to another one as the lexer does, and fails as the lexer does.
-/

namespace EcmaSyntax.Scanner

open EcmaSyntax.Diagnostic EcmaSyntax.Lexer EcmaSyntax.Text EcmaSyntax.Unicode

variable {version : Nat} [Unicode.IdentifierChars version]

variable {α β : Type} {s s' : State} {l l' : Lexer.State}
  {text before raw rest lead token : List Char}

section States

/-- The state of a lexer before the text `token` of the current token and all after it, and behind
that token before `rest`. -/
def State.toLexer (s : State) (token rest : List Char) (value : TokenValue) (regexFlags : String) :
    Lexer.State where
  cursor := ⟨s.pos, rest⟩
  start := ⟨s.tokenStart, token⟩
  token := s.token
  flags := s.flags
  value := value
  number := s.number
  regexFlags := regexFlags
  invalidEscape := s.invalidEscape
  htmlComments := s.htmlComments
  collectComments := s.collectComments
  comments := s.comments
  atLineStart := s.atLineStart

/-- The scanner stands behind the token `raw`, and what it keeps as ranges can be cut out. -/
structure Shows (text : List Char) (s : State) (before raw rest : List Char) (value : TokenValue)
    (regexFlags : String) : Prop where
  place : At s (before ++ raw) rest
  start : s.tokenStart = byteLength before
  value : Holds s value.text.toList value.isSlice
  regexFlags : s.regexFlags? = some regexFlags.toList
  source : s.source = text

/-- The scanner on bytes is where the lexer on characters is, in the same text. -/
def Agrees (text : List Char) (s : State) (l : Lexer.State) : Prop :=
  ∃ before raw rest value regexFlags, Shows text s before raw rest value regexFlags ∧
    l = s.toLexer (raw ++ rest) rest value regexFlags

/-- The result of a step of the lexer with the state after it, or its failure with the state it
leaves. -/
def outcome (step : Lexer α) (l : Lexer.State) : Except (Failure × Lexer.State) (α × Lexer.State) :=
  match step l with
  | .ok a l' => .ok (a, l')
  | .error failure l' => .error (failure, l')

theorem outcome_ok {step : Lexer α} {a : α} (h : step l = .ok a l') :
    outcome step l = .ok (a, l') := by
  rw [outcome, h]

theorem outcome_error {step : Lexer α} {failure : Failure} (h : step l = .error failure l') :
    outcome step l = .error (failure, l') := by
  rw [outcome, h]

theorem outcome_bind (step : Lexer α) (more : α → Lexer β) :
    outcome (step >>= more) l = outcome step l >>= fun found => outcome (more found.1) found.2 := by
  unfold outcome
  change (match EStateM.bind step more l with
    | .ok a l' => _
    | .error failure l' => _) = _
  unfold EStateM.bind
  cases step l <;> rfl

/-- Both fail in the same way; what has been found of comments before is kept. -/
structure FailsLike (s : State) (found : Failure × Lexer.State) (stop : Stop) (s' : State) :
    Prop where
  stop : stop = .failure found.1
  invalidEscape : s'.invalidEscape = found.2.invalidEscape
  comments : s.comments <+: s'.comments ∧ s.comments <+: found.2.comments

theorem FailsLike.since {found : Failure × Lexer.State} {stop : Stop} {s₁ : State}
    (h : FailsLike s₁ found stop s') (hcomments : s.comments <+: s₁.comments) :
    FailsLike s found stop s' :=
  ⟨h.stop, h.invalidEscape, hcomments.trans h.comments.1, hcomments.trans h.comments.2⟩

/-- The step of the scanner does what the step of the lexer does. -/
def Simulates (text : List Char) (step : Scanner α) (other : Lexer α) (s : State)
    (l : Lexer.State) :
    Prop :=
  Follows (FailsLike s) (outcome other l) step
    (fun found a s' => a = found.1 ∧ Agrees text s' found.2) s

end States

section Begin

variable {value : TokenValue} {regexFlags : String}

/-- Where the lexer is after a number of characters. -/
theorem advance_eq (lead : List Char) {count : Nat} (h : count ≤ token.length) :
    (Cursor.mk (byteLength lead) token).advance count =
      ⟨byteLength (lead ++ token.take count), token.drop count⟩ := by
  have hreach := (Cursor.mk (byteLength lead) token).reaches_advance count h
  have hrest := (Cursor.mk (byteLength lead) token).advance_rest count
  have hoffset : ((Cursor.mk (byteLength lead) token).advance count).offset =
      byteLength (lead ++ token.take count) := by
    rw [hreach.offset, byteLength_append]
  cases hcursor : (Cursor.mk (byteLength lead) token).advance count with
  | mk offset rest =>
    rw [hcursor] at hrest hoffset
    rw [← hoffset, ← hrest]

theorem advance_append (lead piece rest : List Char) :
    (Cursor.mk (byteLength lead) (piece ++ rest)).advance piece.length =
      ⟨byteLength (lead ++ piece), rest⟩ := by
  have hle : piece.length ≤ (piece ++ rest).length := by
    rw [List.length_append]
    exact Nat.le_add_right _ _
  rw [advance_eq lead hle, List.take_left, List.drop_left]

/-- Where the scanner stands, the empty text can be cut out. -/
theorem At.slice?_nil (h : At s before rest) : Text.slice? s.source s.pos s.pos = some [] := by
  have hplace : At s (before ++ []) rest := by rwa [List.append_nil]
  have hslice := hplace.slice?
  rwa [← h.pos] at hslice

theorem At.pos_append (h : At s before rest) (piece : List Char) :
    byteLength (before ++ piece) = s.pos + byteLength piece := by
  rw [byteLength_append, h.pos]

/-- The state before a token that stands at an offset, behind trivia. -/
def State.begun (s : State) (trivia : Trivia) (pos : Nat) : State :=
  { ({ s with flags := TokenFlags.none }).skipping trivia pos with
    tokenStart := pos
    value := .slice pos pos }

/-- What is left before a token: nothing of it has been passed. -/
structure HasBegun (text : List Char) (s s' : State) (before rest : List Char)
    (regexFlags : String) : Prop where
  shows : Shows text s' before [] rest .empty regexFlags
  begins : Begins s' before rest
  comments : s.comments <+: s'.comments

theorem beginToken_simulates (h : Shows text s before raw rest value regexFlags) :
    Follows (FailsLike s) (outcome Lexer.beginToken (s.toLexer (raw ++ rest) rest value regexFlags))
      beginToken
      (fun found _ s' => ∃ before rest, HasBegun text s s' before rest regexFlags ∧
        found.2 = s'.toLexer rest rest .empty regexFlags) s := by
  have hplace : At { s with flags := TokenFlags.none } (before ++ raw) rest := h.place.of_eq rfl rfl
  have htrivia := skipTrivia_follows hplace
  have hlength := readTrivia_isTrivia s.htmlComments s.atLineStart s.pos rest
  unfold beginToken
  refine .run rfl ?_
  change Follows _ (readTrivia s.htmlComments s.atLineStart s.pos rest) _ _ _ at htrivia
  cases hread : readTrivia s.htmlComments s.atLineStart s.pos rest with
  | error failure =>
    rw [hread] at htrivia
    obtain ⟨stop, s', hskip, hfails⟩ := htrivia.error
    have hbegin : Lexer.beginToken (s.toLexer (raw ++ rest) rest value regexFlags) =
        .error failure (s.toLexer (raw ++ rest) rest value regexFlags) := beginToken_error hread
    exact .fails (outcome_error hbegin) hskip
      ⟨hfails.stop, hfails.invalidEscape, hfails.comments, List.prefix_rfl⟩
  | ok trivia =>
    rw [hread] at htrivia hlength
    obtain ⟨_, s', hskip, rfl⟩ := htrivia.ok
    obtain ⟨gap, after, comments, rfl, -, hgap, -⟩ := hlength
    rw [Nat.zero_add] at hgap
    have htake : (gap ++ after).take trivia.length = gap := by rw [hgap, List.take_left]
    have hcursor := advance_append (before ++ raw) gap after
    rw [← h.place.pos, ← hgap] at hcursor
    have hbegin : Lexer.beginToken (s.toLexer (raw ++ (gap ++ after))
      (gap ++ after) value regexFlags) =
        .ok () { s.toLexer (raw ++ (gap ++ after)) (gap ++ after) value regexFlags with
          cursor := ⟨byteLength (before ++ raw ++ gap), after⟩
          start := ⟨byteLength (before ++ raw ++ gap), after⟩
          flags := { TokenFlags.none with lineBreakBefore := trivia.hasLineBreak }
          value := TokenValue.empty
          comments := if s.collectComments then s.comments ++ trivia.comments else s.comments
          atLineStart := trivia.atLineStart } := by
      rw [← hcursor]
      exact beginToken_ok hread
    rw [outcome_ok hbegin]
    rw [htake] at hskip
    have hbegun : At (s.begun trivia (byteLength (before ++ raw ++ gap)))
      (before ++ raw ++ gap) after :=
      hplace.passed rfl (by rw [← h.place.pos_append]; rfl)
    have hempty : Holds (s.begun trivia (byteLength (before ++ raw ++ gap))) [] true :=
      ⟨rfl, hbegun.slice?_nil⟩
    refine .of_ok rfl ((bind_of_ok hskip).trans rfl) ⟨before ++ raw ++ gap, after, ⟨?_, ?_, ?_⟩, ?_⟩
    · refine ⟨?_, rfl, hempty, h.regexFlags, h.source⟩
      rw [List.append_nil]
      exact hbegun
    · exact ⟨hbegun, rfl, hempty, rfl⟩
    · change s.comments <+: if s.collectComments then s.comments ++ trivia.comments else s.comments
      split
      · exact List.prefix_append _ _
      · exact List.prefix_rfl
    · unfold State.toLexer
      rfl

end Begin

section Tokens

variable {γ δ : Type} {value : TokenValue} {regexFlags : String}

/-- A step that follows a reader of the token fails as the lexer does that uses the reader. -/
theorem ofReading_simulates {reading : Reading α} {step : Scanner β} {P : α → β → State → Prop}
    {inside : α → Prop} {more : α → Lexer γ} {next : β → Scanner δ}
    {Q : γ × Lexer.State → δ → State → Prop}
    (h : Follows (FailsAs s lead token) reading step P s')
    (hfits : reading.Within token.length inside)
    (hinvalid : l.invalidEscape = s.invalidEscape) (hcomments : l.comments = s.comments)
    (hmore : ∀ a b s₁, reading = .ok a → inside a → P a b s₁ →
      Follows (FailsLike s) (outcome (more a) l) (next b) Q s₁) :
    Follows (FailsLike s)
      (outcome (do let a ← ofReading ⟨byteLength lead, token⟩ reading; more a) l)
      (step >>= next) Q s' := by
  cases reading with
  | ok a =>
    obtain ⟨b, s₁, hstep, hP⟩ := h.ok
    exact .run hstep (hmore a b s₁ rfl hfits hP)
  | error found =>
    obtain ⟨stop, s₁, hstep, hfails⟩ := h.error
    obtain ⟨cause, index, invalidEscape⟩ := found
    have hindex := advance_eq lead hfits.1
    have hstop : stop = .failure
        ⟨cause, ((Cursor.mk (byteLength lead) token).advance index).offset⟩ := by
      rw [hindex]
      exact hfails.stop
    have hkept : s.comments <+: s₁.comments ∧ s.comments <+: l.comments := by
      rw [hfails.comments, hcomments]
      exact ⟨List.prefix_rfl, List.prefix_rfl⟩
    cases invalidEscape with
    | none => exact .fails rfl hstep ⟨hstop, hfails.invalidEscape.trans hinvalid.symm, hkept⟩
    | some escape =>
      have hescape := advance_eq lead (hfits.2 escape rfl)
      refine .fails rfl hstep ⟨hstop, hfails.invalidEscape.trans ?_, hkept⟩
      change byteLength (lead ++ token.take escape) =
        ((Cursor.mk (byteLength lead) token).advance escape).offset
      rw [hescape]

/-- The place of an invalid escape is counted in characters of the token. -/
theorem invalidEscape_eq {lexeme : Lexeme}
    (h : ∀ index ∈ lexeme.invalidEscape, index ≤ token.length) (earlier : Nat) :
    (match lexeme.invalidEscape with
      | some index => ((Cursor.mk (byteLength lead) token).advance index).offset
      | none => earlier) = match lexeme.invalidEscape with
      | some index => byteLength (lead ++ token.take index)
      | none => earlier := by
  cases hindex : lexeme.invalidEscape with
  | none => rfl
  | some index => exact congrArg Cursor.offset (advance_eq lead (h index hindex))

/-- What the scanner leaves that has read a token, as the lexer accepts it. -/
theorem HasTaken.accept_eq {lexeme : Lexeme} {found : Token} {s₁ : State}
    (h : HasTaken s lead token lexeme found s₁) (hle : lexeme.length ≤ token.length)
    (hinvalid : ∀ index ∈ lexeme.invalidEscape, index ≤ token.length) :
    accept ⟨byteLength lead, token⟩ lexeme (s.toLexer token rest value regexFlags) = .ok ()
      ({ s₁ with token := found }.toLexer token (token.drop lexeme.length) lexeme.value
        regexFlags) := by
  refine congrArg (EStateM.Result.ok ()) ?_
  rw [h.state, h.found]
  let reached (cursor : Cursor) (invalidEscape : Nat) : Lexer.State :=
    { s.toLexer token rest value regexFlags with
      cursor := cursor
      token := lexeme.token
      flags := flagsAfter s.flags lexeme
      value := lexeme.value
      number := lexeme.number.getD s.number
      invalidEscape := invalidEscape }
  exact congrArg₂ reached (advance_eq lead hle) (invalidEscape_eq hinvalid s.invalidEscape)

/-- What the scanner leaves that has read a token, can be shown. -/
theorem HasTaken.shows {lexeme : Lexeme} {found : Token} {s₁ : State}
    (h : HasTaken s lead token lexeme found s₁) (hplace : At (s.goTo s.tokenStart) lead token)
    (hregex : s.regexFlags? = some regexFlags.toList) (hsource : s.source = text)
    (atLineStart : Bool) : Shows text { s₁ with token := found, atLineStart := atLineStart } lead
    (token.take lexeme.length)
      (token.drop lexeme.length) lexeme.value regexFlags := by
  have hvalue := h.value
  have hstate := h.state
  refine ⟨hplace.goTo rfl lexeme.length ?_ ?_, ?_, hvalue, ?_, ?_⟩
  · rw [hstate]
    rfl
  · rw [hstate]
  · rw [hstate]
    exact hplace.pos
  · rw [hstate]
    exact hregex
  · rw [hstate]
    exact hsource

theorem scan_simulates (h : Shows text s before raw rest value regexFlags) :
    Simulates text scan Lexer.scan s (s.toLexer (raw ++ rest) rest value regexFlags) := by
  unfold Simulates Lexer.scan scan
  rw [outcome_bind]
  refine (beginToken_simulates h).bind fun found _ s₁ hbegun => ?_
  obtain ⟨lead, token, hbegun, hfound⟩ := hbegun
  have hplace := hbegun.begins.place
  rw [hfound]
  refine .run hplace.isEof_eq ?_
  cases token with
  | nil =>
    refine .run rfl (.of_ok (outcome_ok rfl) rfl ⟨rfl, lead, [], [], _, _, ?_, rfl⟩)
    exact ⟨hbegun.shows.place.of_eq rfl rfl, hbegun.shows.start, hbegun.shows.value,
      hbegun.shows.regexFlags, hbegun.shows.source⟩
  | cons c rest =>
    have htakes : Follows (FailsLike s₁)
        (outcome (do
          let lexeme ← ofReading ⟨byteLength lead, c :: rest⟩ (readLexeme (c :: rest))
          accept ⟨byteLength lead, c :: rest⟩ lexeme
          modify fun l => { l with atLineStart := false }
          return lexeme.token) (s₁.toLexer (c :: rest) (c :: rest) .empty regexFlags))
        (do
          let token ← scanToken
          modify fun s => { s with token := token, atLineStart := false }
          return token)
        (fun found a s' => a = found.1 ∧ Agrees text s' found.2) s₁ := by
      refine ofReading_simulates (scanToken_takes hbegun.begins)
        (readLexeme_fits (List.cons_ne_nil c rest)) rfl rfl
        fun lexeme found s₂ hread hfits htaken => ?_
      have haccept : accept ⟨byteLength lead, c :: rest⟩ lexeme
          (s₁.toLexer (c :: rest) (c :: rest) .empty regexFlags) = _ :=
        htaken.accept_eq hfits.le (readLexeme_invalidEscape hread)
      have hstart : At (s₁.goTo s₁.tokenStart) lead (c :: rest) :=
        hplace.of_eq rfl hbegun.begins.start
      refine .of_ok (outcome_ok ((bind_of_ok haccept).trans rfl)) rfl
        ⟨htaken.found, lead, _, _, _, _,
        htaken.shows hstart hbegun.shows.regexFlags hbegun.shows.source false, ?_⟩
      rw [List.take_append_drop]
      rfl
    rw [← hplace.pos] at htakes
    exact htakes.weaken fun found stop s' hfails => hfails.since hbegun.comments

end Tokens

section Looking

variable {now : State} {nowAgain : Lexer.State}

theorem Agrees.scan (h : Agrees text s l) : Simulates text scan Lexer.scan s l := by
  obtain ⟨before, raw, rest, value, regexFlags, hshows, rfl⟩ := h
  exact scan_simulates hshows

theorem Agrees.flags (h : Agrees text s l) : l.flags = s.flags := by
  obtain ⟨before, raw, rest, value, regexFlags, -, rfl⟩ := h
  rfl

theorem Agrees.comments (h : Agrees text s l) : l.comments = s.comments := by
  obtain ⟨before, raw, rest, value, regexFlags, -, rfl⟩ := h
  rfl

theorem Agrees.invalidEscape (h : Agrees text s l) : l.invalidEscape = s.invalidEscape := by
  obtain ⟨before, raw, rest, value, regexFlags, -, rfl⟩ := h
  rfl

/-- Going back to states that agree, from states that know the same of what stays. -/
theorem Agrees.restore (h : Agrees text s l) (hinvalid : now.invalidEscape = nowAgain.invalidEscape)
    (hcomments : now.comments.take s.comments.length = nowAgain.comments.take s.comments.length) :
    Agrees text (s.restore now) (l.restore nowAgain) := by
  obtain ⟨before, raw, rest, value, regexFlags, hshows, rfl⟩ := h
  refine ⟨before, raw, rest, value, regexFlags, ?_, ?_⟩
  · exact ⟨hshows.place.of_eq rfl rfl, hshows.start, hshows.value, hshows.regexFlags,
      hshows.source⟩
  · unfold State.restore Lexer.State.restore State.toLexer
    dsimp only
    rw [hinvalid, hcomments]

theorem peek_eq {found : Token × TokenFlags} (h : scanOrEnd s = .ok found now) :
    peek s = .ok found (s.restore now) := by
  unfold peek lookAhead
  exact (bind_of_ok rfl).trans ((bind_of_ok h).trans rfl)

theorem Agrees.peek (h : Agrees text s l) : Simulates text peek Lexer.peek s l := by
  have hscan := h.scan
  unfold Simulates at hscan
  cases hread : @Lexer.scan version _ l with
  | ok token l' =>
    rw [outcome_ok hread] at hscan
    obtain ⟨token', s', hrun, htoken, hagrees⟩ := hscan.ok
    obtain rfl : token' = token := htoken
    have hfound : scanOrEnd s = .ok (token', s'.flags) s' := by
      have hattempt : attempt Scanner.scan s = .ok (.ok token') s' := by
        unfold attempt
        rw [hrun]
      exact (bind_of_ok hattempt).trans rfl
    have hlook : Lexer.lookAhead (do
        let token ← @Lexer.scan version _
        return (token, (← get).flags)) l = .ok (.ok (token', l'.flags)) (l.restore l') := by
      unfold Lexer.lookAhead
      rw [bind_of_ok hread]
      rfl
    refine .of_ok (outcome_ok ((bind_of_ok hlook).trans rfl)) (peek_eq hfound) ⟨?_, ?_⟩
    · exact congrArg (Prod.mk token') hagrees.flags.symm
    · exact h.restore hagrees.invalidEscape.symm (by rw [hagrees.comments])
  | error failure l' =>
    rw [outcome_error hread] at hscan
    obtain ⟨stop, s', hrun, hfails⟩ := hscan.error
    obtain rfl : stop = .failure failure := hfails.stop
    have hfound : scanOrEnd s = .ok (.endOfSource, TokenFlags.none) s' := by
      have hattempt : attempt Scanner.scan s = .ok (.error failure) s' := by
        unfold attempt
        rw [hrun]
      exact (bind_of_ok hattempt).trans rfl
    have hlook : Lexer.lookAhead (do
        let token ← @Lexer.scan version _
        return (token, (← get).flags)) l = .ok (.error failure) (l.restore l') := by
      have hstep : (do
          let token ← @Lexer.scan version _
          return (token, (← get).flags) : Lexer (Token × TokenFlags)) l = .error failure l' :=
        bind_of_error hread
      unfold Lexer.lookAhead
      rw [hstep]
    refine .of_ok (outcome_ok ((bind_of_ok hlook).trans rfl)) (peek_eq hfound) ⟨rfl, ?_⟩
    obtain ⟨⟨more, hmore⟩, more', hmore'⟩ := hfails.comments
    refine h.restore hfails.invalidEscape ?_
    rw [← hmore, ← hmore', List.take_left, List.take_left]

end Looking

end EcmaSyntax.Scanner
