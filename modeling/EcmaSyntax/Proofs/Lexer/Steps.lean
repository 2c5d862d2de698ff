import EcmaSyntax.Proofs.Lexer.Lexemes
import EcmaSyntax.Proofs.Lexer.Gap
import EcmaSyntax.Lexer.Scan
import EcmaSyntax.Proofs.Outcome

/-!
What the steps of a lexer do to the place where it stands. A step to the next token
passes over a gap and takes in the token; a second reading of the current token keeps
its start. Whatever fails, fails at a place of the text.

What looking ahead finds. The next token follows from the text after the current one,
so a second look finds what the first one did.
-/

namespace EcmaSyntax.Lexer

open EcmaSyntax.Diagnostic EcmaSyntax.Text

variable {version : Nat} [Unicode.IdentifierChars version]

variable {α : Type}

/-- The failure is reported at a place behind the cursor. -/
def FailsAfter (a : Cursor) (failure : Failure) : Prop :=
  ∃ b between, a.Reaches b between ∧ failure.offset = b.offset

theorem FailsAfter.trans {a b : Cursor} {between : List Char} {failure : Failure}
    (h : a.Reaches b between) (hfail : FailsAfter b failure) : FailsAfter a failure := by
  obtain ⟨c, between', hreach, hoffset⟩ := hfail
  exact ⟨c, between ++ between', h.trans hreach, hoffset⟩

/-- The lexer stands at a token with this text. -/
structure IsToken (s : State) (raw : List Char) : Prop where
  extent : s.start.Reaches s.cursor raw
  shape : HasShape s.token raw
  isEmpty : raw = [] ↔ s.token = .endOfSource

/-- The value is the one from before, or it is decoded, or it stands in the text. -/
def KeepsValue (before after : TokenValue) (text : List Char) : Prop :=
  after.isSlice = true → after = before ∨ after.text.toList <:+: text

/-- The step goes over a gap to the next token. -/
structure Scanned (s s' : State) (gap raw : List Char) (comments : List Comment) : Prop where
  passed : s.cursor.Reaches s'.start gap
  trivia : Gap s.htmlComments s.cursor.offset gap s'.start.rest comments
  token : IsToken s' raw
  ending : s'.token = .endOfSource → s'.start.rest = []
  collected : s'.comments = if s.collectComments then s.comments ++ comments else s.comments
  html : s'.htmlComments = s.htmlComments
  collect : s'.collectComments = s.collectComments
  value : KeepsValue s.value s'.value s'.start.rest
  regexFlags : s'.regexFlags = s.regexFlags

/-- The step reads the current token anew. -/
structure Rescanned (s s' : State) (raw : List Char) : Prop where
  start : s'.start = s.start
  token : IsToken s' raw
  ending : s'.token = .endOfSource → s.token = .endOfSource
  comments : s'.comments = s.comments
  html : s'.htmlComments = s.htmlComments
  collect : s'.collectComments = s.collectComments
  value : KeepsValue s.value s'.value s.start.rest
  regexFlags : s'.regexFlags = s.regexFlags ∨ s'.regexFlags.toList <:+: s.start.rest

/-- A second reading right after the step to the token is part of that step. -/
theorem Scanned.rescan {s s₁ s' : State} {gap raw raw' : List Char} {comments : List Comment}
    (h : Scanned s s₁ gap raw comments) (h' : Rescanned s₁ s' raw')
    (hflags : s'.regexFlags = s₁.regexFlags) : Scanned s s' gap raw' comments := by
  refine ⟨?_, ?_, h'.token, fun hend => ?_, ?_, ?_, ?_, fun hslice => ?_, hflags.trans h.regexFlags⟩
  · rw [h'.start]
    exact h.passed
  · rw [h'.start]
    exact h.trivia
  · rw [h'.start]
    exact h.ending (h'.ending hend)
  · rw [h'.comments, h.collected]
  · rw [h'.html, h.html]
  · rw [h'.collect, h.collect]
  · rw [h'.start]
    rcases h'.value hslice with hsame | hinfix
    · rw [hsame] at hslice ⊢
      exact h.value hslice
    · exact .inr hinfix

section Reading

/-- A reading of what stands at a cursor fails behind it. -/
theorem ofReading_meets {start : Cursor} {reading : Reading α} {P : α → Prop}
    (h : reading.Within start.rest.length P) (s : State) :
    Meets (FailsAfter start) (ofReading start reading) (fun a s' => P a ∧ s' = s) s := by
  cases reading with
  | ok a => exact .pure ⟨h, rfl⟩
  | error found =>
    have hfail : FailsAfter start ⟨found.cause, (start.advance found.index).offset⟩ :=
      ⟨_, _, start.reaches_advance found.index h.1, rfl⟩
    obtain ⟨cause, index, invalidEscape⟩ := found
    cases invalidEscape with
    | none => exact hfail
    | some escape => exact hfail

theorem ofReading_yields (start : Cursor) (reading : Reading α) (s : State) :
    Yields (ofReading start reading) (fun a s' => reading = .ok a ∧ s' = s) s := by
  cases reading with
  | ok a => exact .pure ⟨rfl, rfl⟩
  | error found =>
    obtain ⟨cause, index, invalidEscape⟩ := found
    cases invalidEscape with
    | none => exact .error rfl trivial
    | some escape => exact .error rfl trivial

/-- The state of a lexer that has passed over a gap. -/
structure Begun (s s' : State) (gap : List Char) (comments : List Comment) : Prop where
  passed : s.cursor.Reaches s'.cursor gap
  trivia : Gap s.htmlComments s.cursor.offset gap s'.cursor.rest comments
  start : s'.start = s'.cursor
  collected : s'.comments = if s.collectComments then s.comments ++ comments else s.comments
  html : s'.htmlComments = s.htmlComments
  collect : s'.collectComments = s.collectComments
  value : s'.value = TokenValue.empty
  regexFlags : s'.regexFlags = s.regexFlags

theorem beginToken_meets (s : State) :
    Meets (FailsAfter s.cursor) beginToken
      (fun _ s' => ∃ gap comments, Begun s s' gap comments) s := by
  have htrivia := readTrivia_isTrivia s.htmlComments s.atLineStart s.cursor.offset s.cursor.rest
  unfold beginToken
  refine .run rfl ?_
  split
  · rename_i failure hfailure
    rw [hfailure] at htrivia
    obtain ⟨gap, after, hrest, hoffset⟩ := htrivia
    have hreach := Cursor.reaches_advance_of_rest hrest
    exact ⟨_, _, hreach, hoffset.trans hreach.offset.symm⟩
  · rename_i trivia hok
    rw [hok] at htrivia
    obtain ⟨gap, after, comments, hrest, hgap, hlength, hcomments⟩ := htrivia
    rw [Nat.zero_add] at hlength
    have hreach := Cursor.reaches_advance_of_rest hrest
    rw [← hlength] at hreach
    have hafter : (s.cursor.advance trivia.length).rest = after := by
      rw [Cursor.advance_rest, hlength, hrest, List.drop_left]
    refine .ok rfl ⟨gap, comments, hreach, ?_, rfl, ?_, rfl, rfl, rfl, rfl⟩
    · change Gap _ _ gap (s.cursor.advance trivia.length).rest comments
      rwa [hafter]
    · change (if s.collectComments then s.comments ++ trivia.comments else s.comments) = _
      rw [hcomments]
      rfl

theorem Begun.scanned {s s₁ s' : State} {gap gap' raw : List Char}
    {comments comments' : List Comment}
    (h : Begun s s₁ gap comments) (h' : Scanned s₁ s' gap' raw comments') :
    Scanned s s' (gap ++ gap') raw (comments ++ comments') := by
  refine ⟨h.passed.trans h'.passed, ?_, h'.token, h'.ending, ?_, ?_, ?_, ?_, ?_⟩
  · have htrivia := h'.trivia
    rw [h.html, h.passed.offset] at htrivia
    exact h.trivia.append h'.passed.rest htrivia
  · rw [h'.collected, h.collected, h.collect]
    split <;> simp
  · rw [h'.html, h.html]
  · rw [h'.collect, h.collect]
  · intro hslice
    rcases h'.value hslice with hsame | hinfix
    · refine .inr ?_
      rw [hsame, h.value]
      exact nil_infix _
    · exact .inr hinfix
  · rw [h'.regexFlags, h.regexFlags]

/-- Behind a gap the token stands that the lexer takes in. -/
theorem Begun.token {s s₁ s' : State} {gap : List Char} {comments : List Comment}
    (h : Begun s s₁ gap comments) {token : Token} {length : Nat} {value : TokenValue}
    (hfits : Fits s₁.cursor.rest token length value)
    (hs' : s' = { s₁ with
      cursor := s₁.cursor.advance length
      token := token
      value := value
      flags := s'.flags
      number := s'.number
      invalidEscape := s'.invalidEscape
      atLineStart := s'.atLineStart }) :
    Scanned s s' gap (s₁.cursor.rest.take length) comments := by
  have hreach := s₁.cursor.reaches_advance length hfits.le
  have hpos := hfits.pos
  have hle := hfits.le
  have hne : s₁.cursor.rest.take length ≠ [] := by
    rw [← List.length_pos_iff, List.length_take]
    omega
  rw [hs']
  refine ⟨?_, ?_, ⟨?_, hfits.shape, ?_⟩, fun hend => absurd hend hfits.notEnd, h.collected, h.html,
    h.collect, fun hslice => .inr ?_, h.regexFlags⟩
  · rw [h.start]
    exact h.passed
  · rw [h.start]
    exact h.trivia
  · rw [h.start]
    exact hreach
  · exact ⟨fun hnil => absurd hnil hne, fun hend => absurd hend hfits.notEnd⟩
  · rw [h.start]
    exact (hfits.value hslice).trans (List.take_prefix _ _).isInfix

/-- Behind a gap the text ends. -/
theorem Begun.atEnd {s s₁ : State} {gap : List Char} {comments : List Comment}
    (h : Begun s s₁ gap comments) (hrest : s₁.cursor.rest = []) :
    Scanned s { s₁ with token := .endOfSource } gap [] comments := by
  refine ⟨?_, ?_, ⟨?_, .of_none rfl rfl _, fun _ => rfl, fun _ => rfl⟩, fun _ => ?_, h.collected,
    h.html, h.collect, fun _ => .inr ?_, h.regexFlags⟩
  · change s.cursor.Reaches s₁.start gap
    rw [h.start]
    exact h.passed
  · change Gap _ _ gap s₁.start.rest comments
    rw [h.start]
    exact h.trivia
  · change s₁.start.Reaches s₁.cursor []
    rw [h.start]
    exact .refl _
  · change s₁.start.rest = []
    rw [h.start, hrest]
  · change s₁.value.text.toList <:+: _
    rw [h.value]
    exact nil_infix _

end Reading

section NextToken

/-- The lexer has gone on to the next token. -/
def HasScanned (s s' : State) : Prop := ∃ gap raw comments, Scanned s s' gap raw comments

theorem scan_meets (s : State) :
    Meets (FailsAfter s.cursor) scan (fun _ s' => HasScanned s s') s := by
  unfold scan
  refine (beginToken_meets s).bind fun _ s₁ hs₁ => .run rfl ?_
  obtain ⟨gap, comments, hbegun⟩ := hs₁
  dsimp only
  split
  · rename_i hempty
    exact .run rfl (.pure ⟨gap, [], comments, hbegun.atEnd (by simpa using hempty)⟩)
  · rename_i hne
    have hread := ofReading_meets (readLexeme_fits (by simpa using hne)) s₁
    refine (hread.weaken fun _ => .trans hbegun.passed).bind fun lexeme s₂ hs₂ => ?_
    obtain ⟨hfits, rfl⟩ := hs₂
    exact .run rfl (.run rfl (.pure ⟨gap, _, comments, hbegun.token hfits rfl⟩))

/-- A part of markup contents that starts a text: its kind, length and value. -/
structure IsChild (text : List Char) (token : Token) (length : Nat) (value : Option TokenValue) :
    Prop where
  le : length ≤ text.length
  isEmpty : length = 0 ↔ token = .endOfSource
  ending : token = .endOfSource → text = []
  opening : opening? token = none
  delimiters : delimiters? token = none
  value : ∀ v ∈ value, v.isSlice = true → v.text.toList <:+: text

theorem IsChild.scanned {s s' : State} {token : Token} {length : Nat} {value : Option TokenValue}
    (h : IsChild s.cursor.rest token length value)
    (hs' : s' = { s with
      start := s.cursor
      cursor := s.cursor.advance length
      token := token
      value := value.getD s.value
      flags := s'.flags }) : HasScanned s s' := by
  have hle := h.le
  refine ⟨[], s.cursor.rest.take length, [], ?_⟩
  rw [hs']
  refine ⟨.refl _, .done, ⟨s.cursor.reaches_advance length h.le,
    .of_none h.opening h.delimiters _, ?_⟩, h.ending, ?_, rfl, rfl, fun hslice => ?_, rfl⟩
  · rw [← List.length_eq_zero_iff, List.length_take, ← h.isEmpty]
    omega
  · simp
  · cases value with
    | none => exact .inl rfl
    | some v => exact .inr (h.value v rfl hslice)

/-- Text between tags. -/
theorem readMarkupText_isChild {text : List Char} (hnil : text ≠ [])
    (hbrace : ∀ rest, text ≠ '\x7b' :: rest) (htag : ∀ rest, text ≠ '<' :: rest) :
    (readMarkupText 0 text).Within text.length fun body =>
      IsChild text .jsxText body.length (some (markupValue body)) := by
  cases text with
  | nil => exact absurd rfl hnil
  | cons c rest =>
    have hwithin := readMarkupText_within (c :: rest) 0
    rw [Nat.zero_add] at hwithin
    cases hread : readMarkupText 0 (c :: rest) with
    | error found =>
      rw [hread] at hwithin
      exact hwithin
    | ok body =>
      rw [hread] at hwithin
      obtain ⟨after, htext⟩ := hwithin
      have hne : body ≠ [] := readMarkupText_ne_nil (fun h => hbrace rest (by rw [h]))
        (fun h => htag rest (by rw [h])) hread
      refine .ok ⟨?_, ?_, nofun, rfl, rfl, fun v hv hslice => ?_⟩
      · rw [htext, List.length_append]
        omega
      · exact ⟨fun h => absurd (List.length_eq_zero_iff.mp h) hne, nofun⟩
      · cases hv
        rw [markupValue_slice hslice, htext]
        exact (List.prefix_append _ _).isInfix

theorem scanMarkupChild_meets (s : State) :
    Meets (FailsAfter s.cursor) scanMarkupChild (fun _ s' => HasScanned s s') s := by
  unfold scanMarkupChild
  refine .run rfl (.run rfl ?_)
  dsimp only
  split
  · rename_i hrest
    have hchild : IsChild s.cursor.rest .endOfSource 0 none := by
      rw [hrest]
      exact ⟨Nat.le_refl _, by simp, fun _ => rfl, rfl, rfl, by simp⟩
    exact .run rfl (.run rfl (.pure (hchild.scanned rfl)))
  · rename_i rest hrest
    have hchild : IsChild s.cursor.rest .leftBrace 1 none := by
      rw [hrest]
      exact ⟨by simp, by simp, by rintro ⟨⟩, rfl, rfl, by simp⟩
    exact .run rfl (.run rfl (.pure (hchild.scanned rfl)))
  · rename_i rest hrest
    have hchild : IsChild s.cursor.rest .lessThan 1 none := by
      rw [hrest]
      exact ⟨by simp, by simp, by rintro ⟨⟩, rfl, rfl, by simp⟩
    exact .run rfl (.run rfl (.pure (hchild.scanned rfl)))
  · rename_i hnil hbrace htag
    refine (ofReading_meets (readMarkupText_isChild hnil hbrace htag) _).bind fun body s₁ hs₁ => ?_
    obtain ⟨hchild, rfl⟩ := hs₁
    exact .run rfl (.run rfl (.pure (hchild.scanned rfl)))

/-- A string without escapes, up to the next quotation mark. -/
theorem attributeValue_fits (quote : Char) {text : List Char}
    (h : (text.takeWhile (· != quote)).length < text.length) :
    Fits (quote :: text) .stringLiteral ((text.takeWhile (· != quote)).length + 2)
      (markupValue (text.takeWhile (· != quote))) := by
  refine ⟨Nat.succ_pos _, ?_, nofun, .of_none rfl rfl _, fun hslice => ?_⟩
  · simp only [List.length_cons]
    omega
  · rw [markupValue_slice hslice]
    have hprefix : text.takeWhile (· != quote) <+:
        text.take ((text.takeWhile (· != quote)).length + 1) := by
      rw [List.prefix_take_iff]
      exact ⟨List.takeWhile_prefix _, Nat.le_succ _⟩
    exact hprefix.isInfix.trans ⟨[quote], [], by simp⟩

theorem scanMarkupAttributeValue_meets (s : State) :
    Meets (FailsAfter s.cursor) scanMarkupAttributeValue (fun _ s' => HasScanned s s') s := by
  unfold scanMarkupAttributeValue
  refine (beginToken_meets s).bind fun _ s₁ hs₁ => .run rfl ?_
  obtain ⟨gap, comments, hbegun⟩ := hs₁
  have hscan : Meets (FailsAfter s.cursor) scan (fun _ s' => HasScanned s s') s₁ := by
    refine ((scan_meets s₁).weaken fun _ => .trans hbegun.passed).mono fun _ s' hs' => ?_
    obtain ⟨gap', raw, comments', hscanned⟩ := hs'
    exact ⟨_, _, _, hbegun.scanned hscanned⟩
  dsimp only
  split
  · rename_i quote text hrest
    split
    · rename_i hquote
      split
      · rename_i hlt
        refine .run rfl (.pure ⟨gap, _, comments, hbegun.token ?_ rfl⟩)
        rw [hrest]
        exact attributeValue_fits quote hlt
      · exact ⟨_, _, hbegun.passed, rfl⟩
    · exact hscan
  · exact hscan

end NextToken

section CurrentToken

variable {s : State} {raw : List Char}

/-- The current token has been read anew. -/
def HasRescanned (s s' : State) : Prop := ∃ raw, Rescanned s s' raw

/-- A token to which the next characters are added. -/
theorem IsToken.extend (h : IsToken s raw) (hend : s.token ≠ .endOfSource) {more rest : List Char}
    (hmore : s.cursor.rest = more ++ rest) {token : Token} (htoken : token ≠ .endOfSource)
    (hopening : opening? token = none) (hdelimiters : delimiters? token = none) {value : TokenValue}
    (hvalue : KeepsValue s.value value s.start.rest) :
    Rescanned s { s with cursor := s.cursor.advance more.length, token := token, value := value }
      (raw ++ more) := by
  have hreach := h.extent.trans (Cursor.reaches_advance_of_rest hmore)
  have hne : raw ++ more ≠ [] := fun hnil =>
    hend (h.isEmpty.mp (List.append_eq_nil_iff.mp hnil).1)
  refine ⟨rfl, ⟨hreach, .of_none hopening hdelimiters _, ?_⟩, fun h =>
    absurd h htoken, rfl, rfl, rfl, hvalue, .inl rfl⟩
  exact ⟨fun hnil => absurd hnil hne, fun h => absurd h htoken⟩

/-- A token that stays as it is. -/
theorem IsToken.rescanned (h : IsToken s raw) : Rescanned s s raw :=
  ⟨rfl, h, id, rfl, rfl, rfl, fun _ => .inl rfl, .inl rfl⟩

theorem rescanGreaterThan_meets (h : IsToken s raw) :
    Meets (fun _ => False) rescanGreaterThan
      (fun _ s' => HasRescanned s s' ∧ s'.regexFlags = s.regexFlags) s := by
  refine .ok (rescanGreaterThan_eq s) ⟨?_, rfl⟩
  unfold merge
  split
  · rename_i htoken
    obtain ⟨hle, hend, hopening, hdelimiters⟩ := mergeGreaterThan_le s.cursor.rest
    have hne : s.token ≠ .endOfSource := by
      rw [beq_iff_eq.mp htoken]
      nofun
    have hmore := (List.take_append_drop (mergeGreaterThan s.cursor.rest).2 s.cursor.rest).symm
    have hextend := h.extend hne hmore hend hopening hdelimiters (fun _ => .inl rfl)
    rw [List.length_take, Nat.min_eq_left hle] at hextend
    exact ⟨_, hextend⟩
  · exact ⟨raw, h.rescanned⟩

theorem scanMarkupName_meets (h : IsToken s raw) :
    Meets (fun _ => False) scanMarkupName (fun _ s' => HasRescanned s s') s := by
  refine .ok rfl ?_
  dsimp only
  split
  · rename_i hword
    split
    · exact ⟨raw, h.rescanned⟩
    · have hmore := (List.takeWhile_append_dropWhile (p := isMarkupNamePart)
        (l := s.cursor.rest)).symm
      have hreach := h.extent.trans (Cursor.reaches_advance_of_rest hmore)
      have hvalue : KeepsValue s.value (TokenValue.slice (s.start.textTo (s.cursor.advance
          (s.cursor.rest.takeWhile isMarkupNamePart).length).offset)) s.start.rest := by
        intro _
        refine .inr ?_
        rw [hreach.textTo, TokenValue.slice, String.toList_ofList, hreach.rest]
        exact (List.prefix_append _ _).isInfix
      have hend : Token.identifier ≠ .endOfSource := by decide
      exact ⟨_, h.extend (opening?_of_isWord hword).2.2 hmore hend rfl rfl hvalue⟩
  · exact ⟨raw, h.rescanned⟩

/-- A token that is read anew from its first character. -/
theorem Fits.rescanned {token : Token} {length : Nat} {value : TokenValue}
    (h : Fits s.start.rest token length value) {s' : State}
    (hs' : s' = { s with
      cursor := s.start.advance length
      token := token
      value := value
      flags := s'.flags
      number := s'.number
      invalidEscape := s'.invalidEscape
      regexFlags := s'.regexFlags })
    (hflags : s'.regexFlags = s.regexFlags ∨ s'.regexFlags.toList <:+: s.start.rest) :
    HasRescanned s s' := by
  have hpos := h.pos
  have hle := h.le
  have hne : s.start.rest.take length ≠ [] := by
    rw [← List.length_pos_iff, List.length_take]
    omega
  refine ⟨s.start.rest.take length, ?_⟩
  rw [hs'] at hflags ⊢
  refine ⟨rfl, ⟨s.start.reaches_advance length h.le, h.shape, ?_⟩, fun hend => absurd hend h.notEnd,
    rfl, rfl, rfl, fun hslice => .inr ?_, hflags⟩
  · exact ⟨fun hnil => absurd hnil hne, fun hend => absurd hend h.notEnd⟩
  · exact (h.value hslice).trans (List.take_prefix _ _).isInfix

theorem rescanTemplate_meets (h : IsToken s raw) (htoken : s.token = .rightBrace) :
    Meets (FailsAfter s.start) rescanTemplate (fun _ s' => HasRescanned s s') s := by
  have hopening := h.shape.opening '\x7d' (by rw [htoken]; rfl)
  obtain ⟨rest, hrest⟩ : ∃ rest, s.start.rest = '\x7d' :: rest := by
    obtain ⟨tail, rfl⟩ := List.head?_eq_some_iff.mp hopening
    exact ⟨_, h.extent.rest⟩
  have hfits : (readChunkLexeme false ('\x7d' :: rest)).Within _ (Lexeme.Fits ('\x7d' :: rest)) :=
    readChunkLexeme_fits false rest rfl
  rw [← hrest] at hfits
  unfold rescanTemplate
  refine .run rfl ((ofReading_meets hfits s).bind fun lexeme s₁ hs₁ => ?_)
  obtain ⟨hlexeme, rfl⟩ := hs₁
  exact .run rfl (.pure (hlexeme.rescanned rfl (.inl rfl)))

theorem rescanRegex_meets (s : State) :
    Meets (FailsAfter s.start) rescanRegex (fun _ s' => HasRescanned s s') s := by
  unfold rescanRegex
  refine .run rfl ((ofReading_meets (readRegex_within s.start.rest) s).bind fun literal s₁ hs₁ =>
    ?_)
  obtain ⟨⟨hfits, hflags⟩, rfl⟩ := hs₁
  exact .run rfl (.pure (hfits.rescanned rfl (.inr (by simpa using hflags))))

/-- The next token together with what belongs to a closing angle bracket. -/
theorem scanMerged_meets (s : State) :
    Meets (FailsAfter s.cursor) (do let _ ← scan; rescanGreaterThan)
      (fun _ s' => HasScanned s s') s := by
  refine (scan_meets s).bind fun _ s₁ hs₁ => ?_
  obtain ⟨gap, raw, comments, hscanned⟩ := hs₁
  refine ((rescanGreaterThan_meets hscanned.token).mono fun _ s₂ hs₂ => ?_).weaken
    fun _ => False.elim
  obtain ⟨⟨raw', hrescanned⟩, hflags⟩ := hs₂
  exact ⟨gap, raw', comments, hscanned.rescan hrescanned hflags⟩

/-- The next token starts where the current one ends, or later. -/
theorem HasScanned.stop_le {s' : State} (h : HasScanned s s') :
    s.cursor.offset ≤ s'.start.offset := by
  obtain ⟨gap, raw, comments, hscanned⟩ := h
  rw [hscanned.passed.offset]
  exact Nat.le_add_right _ _

/-- Only the end of the text is empty. -/
theorem IsToken.start_lt_stop (h : IsToken s raw) (hend : s.token ≠ .endOfSource) :
    s.start.offset < s.cursor.offset := by
  have hpos : 0 < byteLength raw := byteLength_pos fun hnil => hend (h.isEmpty.mp hnil)
  rw [h.extent.offset]
  omega

end CurrentToken

/-- The token after some trivia, the end if there is none that can be read. -/
def tokenOf (text : List Char) : Token :=
  if text.isEmpty then .endOfSource
  else match readLexeme text with
    | .ok lexeme => lexeme.token
    | .error _ => .endOfSource

/-- The token after the current one. -/
def State.following (s : State) : Token :=
  match readTrivia s.htmlComments s.atLineStart s.cursor.offset s.cursor.rest with
  | .error _ => .endOfSource
  | .ok trivia => tokenOf (s.cursor.advance trivia.length).rest

theorem beginToken_meets_trivia (s : State) :
    Meets (fun _ => s.following = .endOfSource) beginToken
      (fun _ s' => s.following = tokenOf s'.cursor.rest) s := by
  unfold State.following beginToken
  refine .run rfl ?_
  dsimp only
  cases readTrivia s.htmlComments s.atLineStart s.cursor.offset s.cursor.rest with
  | error failure => exact .error rfl rfl
  | ok trivia => exact .ok rfl rfl

theorem readLexeme_meets_token {text : List Char} (hne : ¬ text.isEmpty = true) (start : Cursor)
    (s : State) : Meets (fun _ => tokenOf text = .endOfSource) (ofReading start (readLexeme text))
      (fun lexeme _ => lexeme.token = tokenOf text) s := by
  unfold tokenOf
  rw [if_neg hne]
  cases readLexeme text with
  | ok lexeme => exact .pure rfl
  | error found =>
    obtain ⟨cause, index, invalidEscape⟩ := found
    cases invalidEscape with
    | none => exact .error rfl rfl
    | some index => exact .error rfl rfl

/-- A token that can be scanned is the following one. -/
theorem scan_meets_following (s : State) : Meets (fun _ => s.following = .endOfSource) scan
    (fun token _ => token = s.following) s := by
  unfold scan
  refine (beginToken_meets_trivia s).bind fun _ s' hs' => .run rfl ?_
  rw [hs']
  dsimp only
  split
  · rename_i hempty
    exact .run rfl (.pure (by simp [tokenOf, hempty]))
  · rename_i hne
    refine (readLexeme_meets_token hne _ s').bind fun lexeme s₁ hlexeme => ?_
    exact .run rfl (.run rfl (.pure hlexeme))

theorem peek_following (s : State) :
    ∃ flags now, peek s = .ok (s.following, flags) (s.restore now) := by
  have hscan := scan_meets_following s
  unfold Meets at hscan
  cases hrun : scan s with
  | ok token s' =>
    rw [hrun] at hscan
    have hlook : lookAhead (do let token ← scan; return (token, (← get).flags)) s =
        .ok (.ok (token, s'.flags)) (s.restore s') := by
      unfold lookAhead
      rw [bind_of_ok hrun]
      rfl
    refine ⟨s'.flags, s', ?_⟩
    rw [← hscan]
    exact bind_of_ok hlook
  | error failure s' =>
    rw [hrun] at hscan
    have hstep : (do let token ← scan; return (token, (← get).flags) : Lexer _) s =
        .error failure s' := by
      change EStateM.bind scan _ s = _
      simp only [EStateM.bind, hrun]
    have hlook : lookAhead (do let token ← scan; return (token, (← get).flags)) s =
        .ok (.error failure) (s.restore s') := by
      unfold lookAhead
      rw [hstep]
    refine ⟨TokenFlags.none, s', ?_⟩
    rw [hscan]
    exact bind_of_ok hlook

end EcmaSyntax.Lexer
