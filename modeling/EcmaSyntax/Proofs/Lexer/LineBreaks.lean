import EcmaSyntax.Proofs.Lexer.Safety
import EcmaSyntax.Proofs.Lexer.Tokens
import EcmaSyntax.Unicode.IdentifierRanges

/-!
Line breaks before a token. The reader of trivia sees an end of a line wherever one
stands: on its own, behind a comment that goes up to it, and inside a comment. It goes on
until nothing is left to skip, so that a second reading from there finds nothing.
-/

namespace EcmaSyntax.Lexer

open EcmaSyntax.Diagnostic EcmaSyntax.Text EcmaSyntax.Unicode

variable {α : Type}

section

variable {version : Nat} [Unicode.IdentifierChars version]

section Comments

/-- The characters that a comment up to the end of its line takes in after the first one
are on one line. -/
theorem lineComment_unbroken {html atLineStart : Bool} {offset : Nat} {c : Char}
    {tail : List Char} {kind : CommentKind} {width : Nat}
    (h : lineCommentOpening? html atLineStart offset (c :: tail) = some (kind, width)) :
    (tail.take (width - 1 + (lineComment kind width offset (c :: tail)).value.length)).any
      isLineTerminator = false := by
  obtain ⟨opening, rest, htext, hwidth, hopens⟩ := lineCommentOpening?_some h
  obtain ⟨after, hrest, hbody, -⟩ := lineBody_spec rest
  have hvalue : (lineComment kind width offset (c :: tail)).value.length =
      (lineBody rest).length := by
    unfold lineComment
    rw [htext, ← hwidth, List.drop_left, String.length_ofList]
  have htail : tail = opening.tail ++ lineBody rest ++ after := by
    rw [List.append_assoc, ← hrest]
    cases hopens <;> exact (List.cons.inj htext).2
  have hlength : width - 1 + (lineBody rest).length = (opening.tail ++ lineBody rest).length := by
    rw [List.length_append, List.length_tail, hwidth]
  have hopening : opening.tail.any isLineTerminator = false := by
    cases hopens <;> decide
  rw [hvalue, hlength, htail, List.take_left, List.any_append, hopening, Bool.false_or]
  exact List.any_eq_false.mpr fun d hd => by simp [hbody d hd]

/-- The delimiters of a comment break no line. -/
theorem blockComment_breaks {tail body : List Char} (h : blockBody? tail = some body) :
    ∃ after, '*' :: tail = '*' :: body ++ ['*', '/'] ++ after ∧
      ('/' :: '*' :: body ++ ['*', '/']).any isLineTerminator = body.any isLineTerminator := by
  obtain ⟨⟨after, htail⟩, -⟩ := blockBody?_some h
  refine ⟨after, by rw [htail]; rfl, ?_⟩
  have hslash : isLineTerminator '/' = false := by decide
  have hstar : isLineTerminator '*' = false := by decide
  simp [List.any_append, hslash, hstar]

end Comments

section Trivia

variable {html : Bool} {offset : Nat} {trivia found : Trivia}

/-- At the offset nothing is skipped. -/
def Stops (html atLineStart : Bool) (offset : Nat) (text : List Char) : Prop :=
  ∀ trivia : Trivia, trivia.atLineStart = atLineStart →
    readTriviaFrom html offset trivia 0 text = .ok trivia

/-- What the reader of trivia has found in a text: a gap, whether a line ends in it, and
behind it a text where nothing is skipped. -/
structure Passed (html : Bool) (offset : Nat) (trivia found : Trivia) (rest gap after : List Char) :
    Prop where
  text : rest = gap ++ after
  length : found.length = trivia.length + gap.length
  lineBreak : found.hasLineBreak = (trivia.hasLineBreak || gap.any isLineTerminator)
  stops : Stops html found.atLineStart (offset + byteLength gap) after

/-- The first part of a gap, which has been read. -/
theorem Passed.prepend {past : Trivia} {rest gap after : List Char} (lead : List Char)
    (h : Passed html (offset + byteLength lead) past found rest gap after)
    (hlength : past.length = trivia.length + lead.length)
    (hbreak : past.hasLineBreak = (trivia.hasLineBreak || lead.any isLineTerminator)) :
    Passed html offset trivia found (lead ++ rest) (lead ++ gap) after := by
  refine ⟨?_, ?_, ?_, ?_⟩
  · rw [h.text, List.append_assoc]
  · rw [h.length, hlength, List.length_append, Nat.add_assoc]
  · rw [h.lineBreak, hbreak, List.any_append, Bool.or_assoc]
  · rw [byteLength_append, ← Nat.add_assoc]
    exact h.stops

/-- The reader of trivia, which first passes over what belongs to the last comment. -/
theorem readTriviaFrom_passed (html : Bool) (found : Trivia) (text : List Char) :
    ∀ (offset : Nat) (trivia : Trivia) (skipped rest : List Char), text = skipped ++ rest →
      readTriviaFrom html offset trivia skipped.length text = .ok found →
        ∃ gap after, Passed html (offset + byteLength skipped)
          { trivia with length := trivia.length + skipped.length } found rest gap after := by
  induction text with
  | nil =>
    intro offset trivia skipped rest htext hread
    obtain ⟨rfl, rfl⟩ := List.nil_eq_append_iff.mp htext
    cases hread
    exact ⟨[], [], rfl, rfl, by simp, fun trivia _ => rfl⟩
  | cons c tail ih =>
    intro offset trivia skipped rest htext hread
    cases skipped with
    | cons d skipped =>
      obtain ⟨rfl, rfl⟩ := List.cons.inj htext
      rw [List.length_cons, readTriviaFrom] at hread
      have htail := ih _ _ skipped rest rfl hread
      simpa only [byteLength, List.length_cons, Nat.add_assoc, Nat.add_comm 1 skipped.length]
        using htail
    | nil =>
      -- The text that is read next is passed over, and the rest of the gap follows it.
      have hlead : ∀ (lead after : List Char) (past : Trivia), tail = lead ++ after →
          past.length = trivia.length + 1 →
          past.hasLineBreak = (trivia.hasLineBreak || (c :: lead).any isLineTerminator) →
          readTriviaFrom html (offset + c.utf8Size) past lead.length tail = .ok found →
          ∃ gap after, Passed html offset trivia found (c :: tail) gap after := by
        intro lead after past htail hlength hbreak hread
        obtain ⟨gap, after', hpassed⟩ := ih _ past lead after htail hread
        rw [Nat.add_assoc] at hpassed
        refine ⟨c :: lead ++ gap, after', ?_⟩
        rw [htail]
        refine Passed.prepend (c :: lead) hpassed ?_ hbreak
        simp only [hlength, List.length_cons]
        omega
      rw [List.nil_append] at htext
      subst htext
      change ∃ gap after, Passed html offset trivia found (c :: tail) gap after
      rw [List.length_nil] at hread
      unfold readTriviaFrom at hread
      split at hread
      · rename_i hline
        refine hlead [] tail _ rfl rfl ?_ hread
        simp [hline]
      split at hread
      · rename_i hline hspace
        refine hlead [] tail _ rfl rfl ?_ hread
        simp [hline]
      split at hread
      · rename_i hline _ _ kind width hopening
        obtain ⟨lead, after, htail, hlength, -⟩ := lineComment_isComment hopening
        have hunbroken := lineComment_unbroken hopening
        rw [hlength, htail, List.take_left] at hunbroken
        simp only [hlength] at hread
        refine hlead lead after _ htail rfl ?_ hread
        simp [hline, hunbroken]
      · rename_i hline hspace _ hopening
        split at hread
        · rename_i hslash
          simp only [Bool.and_eq_true, beq_iff_eq] at hslash
          obtain ⟨rfl, hstar⟩ := hslash
          obtain ⟨tail, rfl⟩ := List.head?_eq_some_iff.mp hstar
          rw [List.drop_one, List.tail_cons] at hread
          split at hread
          · cases hread
          · rename_i body hbody
            obtain ⟨after, htail, hbreaks⟩ := blockComment_breaks hbody
            have hlength : body.length + 3 = ('*' :: body ++ ['*', '/']).length := by simp
            rw [hlength] at hread
            refine hlead _ after _ htail rfl ?_ hread
            exact congrArg (trivia.hasLineBreak || ·) hbreaks.symm
        · rename_i hslash
          cases hread
          refine ⟨[], c :: tail, rfl, rfl, by simp, fun trivia' hstart => ?_⟩
          have hzero : offset + byteLength [] = offset := rfl
          rw [hzero]
          unfold readTriviaFrom
          simp only [hline, hspace, hstart, hopening, hslash, Bool.false_eq_true, if_false]

/-- The trivia at a place: how far they reach, whether a line ends in them, and that nothing
is skipped behind them. -/
theorem readTrivia_reaches {atLineStart : Bool} {place : Cursor}
    (h : readTrivia html atLineStart place.offset place.rest = .ok found) :
    ∃ gap, place.Reaches (place.advance found.length) gap ∧
      found.hasLineBreak = gap.any isLineTerminator ∧
      Stops html found.atLineStart (place.advance found.length).offset
        (place.advance found.length).rest := by
  obtain ⟨gap, after, hpassed⟩ := readTriviaFrom_passed html found place.rest place.offset
    ⟨[], false, atLineStart, 0⟩ [] place.rest rfl h
  have hlength : found.length = gap.length := hpassed.length.trans (Nat.zero_add _)
  have hreach := Cursor.reaches_advance_of_rest hpassed.text
  have hafter : (place.advance gap.length).rest = after := by
    rw [Cursor.advance_rest, hpassed.text, List.drop_left]
  rw [hlength]
  refine ⟨gap, hreach, hpassed.lineBreak, ?_⟩
  rw [hreach.offset, hafter]
  exact hpassed.stops

end Trivia

section Steps

variable {s s' : State}

/-- The lexer has passed over a gap, and the flag tells whether a line ends in it. -/
structure Begins (s s' : State) (gap : List Char) : Prop where
  passed : s.cursor.Reaches s'.start gap
  lineBreak : s'.flags.lineBreakBefore = gap.any isLineTerminator

theorem beginToken_begins (s : State) :
    Yields beginToken (fun _ s' => ∃ gap, Begins s s' gap) s := by
  unfold beginToken
  refine .run rfl ?_
  dsimp only
  split
  · exact .error rfl trivial
  · rename_i found hfound
    obtain ⟨gap, hreach, hbreak, -⟩ := readTrivia_reaches hfound
    exact .ok rfl ⟨gap, hreach, hbreak⟩

/-- To take in the token changes nothing about the gap before it. -/
theorem scan_begins (s : State) : Yields scan (fun _ s' => ∃ gap, Begins s s' gap) s := by
  unfold scan
  refine (beginToken_begins s).bind fun _ s₁ hs₁ => .run rfl ?_
  obtain ⟨gap, hreach, hbreak⟩ := hs₁
  dsimp only
  split
  · exact .run rfl (.pure ⟨gap, hreach, hbreak⟩)
  · refine (ofReading_yields s₁.cursor _ s₁).bind fun lexeme s₂ hs₂ => ?_
    obtain ⟨-, rfl⟩ := hs₂
    exact .run rfl (.run rfl (.pure ⟨gap, hreach, hbreak⟩))

/-- A lexer stands in its text in every run. -/
theorem Reached.cursor_in {text : List Char} {html collect : Bool} {saved : List State}
    (h : Reached text html collect s saved) : ∃ before, s.cursor.In text before := by
  obtain ⟨before, raw, hstart, htoken⟩ := h.sound.1.place
  exact ⟨before ++ raw, hstart.trans htoken.extent⟩

end Steps

/-- A token is marked as standing behind a line break just if the text between the place
of the lexer and the token has the end of a line in it. -/
theorem scan_lineBreakBefore {text before : List Char} {s s' : State} {token : Token}
    (hplace : s.cursor.In text before) (hscan : scan s = .ok token s') :
    ∃ between, slice? text s.cursor.offset s'.start.offset = some between ∧
      (s'.flags.lineBreakBefore = true ↔
        ∃ c ∈ between, c = '\n' ∨ c = '\r' ∨ c = '\u2028' ∨ c = '\u2029') := by
  obtain ⟨between, hreach, hflag⟩ := (scan_begins s).result hscan
  refine ⟨between, hplace.slice? hreach, ?_⟩
  rw [hflag, List.any_eq_true]
  simp only [isLineTerminator, Bool.or_eq_true, beq_iff_eq, or_assoc]

/-- The first line of a script, a comment over two lines, comments of markup, and a gap
on one line. -/
def brokenText : List Char :=
  "#!sh\r/*\u2028*/--> p\n<!-- q\u2029a /*b*/ c".toList

end

theorem scan_lineBreakBefore_broken :
    ∃ first s saved second s', Reached brokenText true false s saved ∧
      scan (State.initial brokenText true false) = .ok first s ∧ scan s = .ok second s' ∧
      (∃ between, slice? brokenText 0 s.start.offset = some between ∧
        (s.flags.lineBreakBefore = true ↔
          ∃ c ∈ between, c = '\n' ∨ c = '\r' ∨ c = '\u2028' ∨ c = '\u2029')) ∧
      s.flags.lineBreakBefore = true ∧
      (∃ between, slice? brokenText s.cursor.offset s'.start.offset = some between ∧
        (s'.flags.lineBreakBefore = true ↔
          ∃ c ∈ between, c = '\n' ∨ c = '\r' ∨ c = '\u2028' ∨ c = '\u2029')) ∧
      s'.flags.lineBreakBefore = false := by
  have h₀ : Reached brokenText true false _ [] := .initial
  have h₁ := h₀.step .scan trivial rfl
  obtain ⟨_, hbefore⟩ := h₀.cursor_in
  obtain ⟨_, hplace⟩ := h₁.cursor_in
  exact ⟨_, _, _, _, _, h₁, rfl, rfl, scan_lineBreakBefore hbefore rfl, rfl,
    scan_lineBreakBefore hplace rfl, rfl⟩

section

variable {version : Nat} [Unicode.IdentifierChars version]

section Scanning

variable {s s' : State}

/-- The lexer after it has come upon a fault in the next token. -/
def State.faulty (s : State) (found : Fault) : State :=
  { s with invalidEscape := match found.invalidEscape with
      | some index => (s.cursor.advance index).offset
      | none => s.invalidEscape }

/-- Take in the token before which the lexer stands. -/
def takeToken : Lexer Token := fun s =>
  if s.cursor.rest.isEmpty then .ok .endOfSource { s with token := .endOfSource }
  else match readLexeme s.cursor.rest with
    | .ok lexeme => .ok lexeme.token (s.after lexeme)
    | .error found =>
      .error ⟨found.cause, (s.cursor.advance found.index).offset⟩ (s.faulty found)

theorem ofReading_error (start : Cursor) (found : Fault) (s : State) :
    ofReading (α := α) start (.error found) s =
      .error ⟨found.cause, (start.advance found.index).offset⟩
        { s with invalidEscape := match found.invalidEscape with
          | some index => (start.advance index).offset
          | none => s.invalidEscape } := by
  obtain ⟨cause, index, invalidEscape⟩ := found
  cases invalidEscape <;> rfl

theorem scan_eq : scan = (do beginToken; takeToken) := by
  unfold scan
  refine bind_congr fun _ => ?_
  funext s
  refine (bind_of_ok rfl).trans ?_
  unfold takeToken
  by_cases hempty : s.cursor.rest.isEmpty = true
  · rw [if_pos hempty, if_pos hempty]
    rfl
  · rw [if_neg hempty, if_neg hempty]
    cases hread : readLexeme s.cursor.rest with
    | ok lexeme => rfl
    | error found =>
      change EStateM.bind _ _ _ = _
      simp only [EStateM.bind, ofReading_error]
      rfl

end Scanning

section AttributeValues

variable {s s' : State} {trivia : Trivia}

/-- The state with the mark of a line break taken off. -/
def State.withoutBreak (s : State) : State :=
  { s with flags := { s.flags with lineBreakBefore := false } }

/-- The outcome of a step with the mark of a line break taken off its state. -/
def clearBreak : EStateM.Result Failure State α → EStateM.Result Failure State α
  | .ok a s => .ok a s.withoutBreak
  | .error failure s => .error failure s.withoutBreak

/-- No step makes anything of the mark while it takes in a token. -/
theorem takeToken_withoutBreak (s : State) :
    takeToken s.withoutBreak = clearBreak (takeToken s) := by
  unfold takeToken State.withoutBreak
  dsimp only
  by_cases hempty : s.cursor.rest.isEmpty = true
  · rw [if_pos hempty, if_pos hempty]
    rfl
  · rw [if_neg hempty, if_neg hempty]
    cases readLexeme s.cursor.rest with
    | ok lexeme => rfl
    | error found => rfl

/-- To begin a token twice is to begin it once, but for the mark. -/
theorem begun_begun : (s.begun trivia).begun ⟨[], false, trivia.atLineStart, 0⟩ =
    (s.begun trivia).withoutBreak := by
  have hcomments : (if s.collectComments = true then (s.begun trivia).comments ++ []
      else (s.begun trivia).comments) = (s.begun trivia).comments := by
    rw [List.append_nil, ite_self]
  exact congrArg (fun comments => { (s.begun trivia).withoutBreak with comments := comments })
    hcomments

section Beginning

variable (hread : readTrivia s.htmlComments s.atLineStart s.cursor.offset
  s.cursor.rest = .ok trivia)
include hread

theorem scan_of_readTrivia : scan s = takeToken (s.begun trivia) := by
  have hbegin := beginToken_ok hread
  rw [scan_eq]
  exact bind_of_ok hbegin

/-- Behind the trivia the lexer finds no more. -/
theorem readTrivia_begun : readTrivia (s.begun trivia).htmlComments (s.begun trivia).atLineStart
    (s.begun trivia).cursor.offset (s.begun trivia).cursor.rest =
      .ok ⟨[], false, trivia.atLineStart, 0⟩ := by
  obtain ⟨gap, -, -, hstops⟩ := readTrivia_reaches hread
  exact hstops ⟨[], false, trivia.atLineStart, 0⟩ rfl

theorem scan_begun : scan (s.begun trivia) = takeToken (s.begun trivia).withoutBreak := by
  rw [scan_of_readTrivia (readTrivia_begun hread), begun_begun]

/-- Where no string starts, the token is begun a second time. -/
theorem scanMarkupAttributeValue_of_readTrivia
    (hquote : ∀ c ∈ (s.begun trivia).cursor.rest.head?, c ≠ '"' ∧ c ≠ '\'') :
    scanMarkupAttributeValue s = takeToken (s.begun trivia).withoutBreak := by
  have hbegin := beginToken_ok hread
  rw [← scan_begun hread]
  unfold scanMarkupAttributeValue
  refine (bind_of_ok hbegin).trans ((bind_of_ok rfl).trans ?_)
  dsimp only
  cases hrest : (s.begun trivia).cursor.rest with
  | nil => rfl
  | cons quote text =>
    obtain ⟨hdouble, hsingle⟩ := hquote quote (by rw [hrest]; rfl)
    dsimp only
    rw [if_neg (by simp [hdouble, hsingle])]

end Beginning

/-- Where no string starts, an attribute value is read as the next token is, with the same
result and to the same state, except that it is never marked as standing behind a line break. -/
theorem scanMarkupAttributeValue_off_strings
    (hquote : ∀ place, s.SkipsTo place → ∀ c ∈ place.rest.head?, c ≠ '"' ∧ c ≠ '\'') :
    clearBreak (scanMarkupAttributeValue s) = clearBreak (scan s) ∧
      (∀ token s', scanMarkupAttributeValue s = .ok token s' → s'.flags.lineBreakBefore = false) ∧
      ((∀ place between, s.SkipsTo place → s.cursor.Reaches place between →
          between.any isLineTerminator = false) →
        scanMarkupAttributeValue s = scan s) := by
  cases hread : readTrivia s.htmlComments s.atLineStart s.cursor.offset s.cursor.rest with
  | error failure =>
    -- Both fail at a comment that is not closed.
    have hbegin := beginToken_error hread
    have hfails : ∀ rest : Unit → Lexer Token, (beginToken >>= rest) s = .error failure s := by
      intro rest
      change EStateM.bind beginToken rest s = _
      simp only [EStateM.bind, hbegin]
    have hvalue : scanMarkupAttributeValue s = .error failure s := hfails _
    have hscan : scan s = .error failure s := hfails _
    refine ⟨by rw [hvalue, hscan], fun token s' h => ?_, fun _ => by rw [hvalue, hscan]⟩
    cases hvalue.symm.trans h
  | ok trivia =>
    have hskips : s.SkipsTo (s.cursor.advance trivia.length) := ⟨trivia, hread, rfl⟩
    rw [scanMarkupAttributeValue_of_readTrivia hread (hquote _ hskips), scan_of_readTrivia hread,
      takeToken_withoutBreak]
    refine ⟨?_, fun token s' hvalue => ?_, fun hbreak => ?_⟩
    · cases takeToken (s.begun trivia) with
      | ok token s' => rfl
      | error failure s' => rfl
    · cases htake : takeToken (s.begun trivia) with
      | ok token s' =>
        rw [htake] at hvalue
        cases hvalue
        rfl
      | error failure s' =>
        rw [htake] at hvalue
        cases hvalue
    · obtain ⟨gap, hreach, hmark, -⟩ := readTrivia_reaches hread
      rw [hbreak _ gap hskips hreach] at hmark
      have hsame : (s.begun trivia).withoutBreak = s.begun trivia := by
        unfold State.withoutBreak State.begun State.before
        rw [hmark]
      rw [← takeToken_withoutBreak, hsame]

/-- A value without quotation marks, on another line than what stands before it. -/
def bareText : List Char := "/* value:\n*/ a".toList

theorem not_quote_bareText : ∀ place, (State.initial bareText false true).SkipsTo place →
    ∀ c ∈ place.rest.head?, c ≠ '"' ∧ c ≠ '\'' := by
  rintro place ⟨trivia, hread, rfl⟩
  cases hread
  rintro _ ⟨⟩
  decide

end AttributeValues

end

theorem scanMarkupAttributeValue_off_strings_bare : ∃ s, Reached bareText false true s [] ∧
    (∀ place, s.SkipsTo place → ∀ c ∈ place.rest.head?, c ≠ '"' ∧ c ≠ '\'') ∧
    clearBreak (scanMarkupAttributeValue s) = clearBreak (scan s) ∧
      (∀ token s', scanMarkupAttributeValue s = .ok token s' → s'.flags.lineBreakBefore = false) ∧
      ((∀ place between, s.SkipsTo place → s.cursor.Reaches place between →
          between.any isLineTerminator = false) →
        scanMarkupAttributeValue s = scan s) :=
  ⟨_, .initial, not_quote_bareText, scanMarkupAttributeValue_off_strings not_quote_bareText⟩

/-- The mark of a line break is lost on the token that is the value. -/
theorem exists_break_lost : ∃ s token s' t', Reached bareText false true s [] ∧
    (∀ place, s.SkipsTo place → ∀ c ∈ place.rest.head?, c ≠ '"' ∧ c ≠ '\'') ∧
      scan s = .ok token s' ∧ scanMarkupAttributeValue s = .ok token t' ∧
      s'.flags.lineBreakBefore = true ∧ t'.flags.lineBreakBefore = false :=
  ⟨_, _, _, _, .initial, not_quote_bareText, rfl, rfl, rfl, rfl⟩

end EcmaSyntax.Lexer
