import EcmaSyntax.Lexer.Scan
import EcmaSyntax.Proofs.Outcome
import EcmaSyntax.Proofs.Text.Boundary

/-!
What the lexer makes of a text that is already divided into words. A text spells a list of words if
the lexer, wherever it stands before the text, reads these words one after the other and then finds
the end. Its cursor goes on by characters that are there, and so stays on boundaries of the text.
-/

namespace EcmaSyntax.Lexer

open EcmaSyntax.Text EcmaSyntax.Unicode

variable {version : Nat} [Unicode.IdentifierChars version]

/-- A token with its value. -/
structure Word where
  token : Token
  value : String
deriving DecidableEq, Repr

/-- A punctuator, which has no value. -/
def Word.sign (token : Token) : Word := ⟨token, ""⟩

@[simp] theorem Cursor.advance_rest (cursor : Cursor) (count : Nat) :
    (cursor.advance count).rest = cursor.rest.drop count := by
  induction count generalizing cursor with
  | zero => simp [Cursor.advance]
  | succ count ih =>
    unfold Cursor.advance
    cases hrest : cursor.rest with
    | nil => simp
    | cons c rest => simp [ih]

/-- Neither the comments of scripts on the web nor any others are looked for. -/
structure State.IsPlain (s : State) : Prop where
  html : s.htmlComments = false
  collect : s.collectComments = false

/-- The token that a lexer stands at, with a word for its value. -/
structure State.StandsAt (s : State) (w : Word) : Prop where
  plain : s.IsPlain
  token : s.token = w.token
  value : s.value.text = w.value
  escaped : s.flags.escaped = false
  lineBreak : s.flags.lineBreakBefore = false

/-- Before the text, and before spaces with the text after them, the lexer reads
the word and leaves the rest. -/
structure ReadsWord (text : List Char) (w : Word) (rest : List Char) : Prop where
  shorter : rest.length < text.length
  reads : ∀ (k : Nat) (s : State), s.IsPlain → s.cursor.rest = List.replicate k ' ' ++ text →
    ∃ first s₁ s₂, scan s = .ok first s₁ ∧ rescanGreaterThan s₁ = .ok w.token s₂ ∧
      (first = w.token ∨ first = .greaterThan) ∧ s₂.StandsAt w ∧ s₂.cursor.rest = rest

/-- Before the text the lexer finds the end. -/
def EndsSource (text : List Char) : Prop :=
  ∀ s : State, s.IsPlain → s.cursor.rest = text → ∃ s',
    scan s = .ok .endOfSource s' ∧ s'.token = .endOfSource ∧ s'.IsPlain

inductive Spells : List Char → List Word → Prop
  | stop {text} (h : EndsSource text) : Spells text []
  | word {k text w rest ws} (h : ReadsWord text w rest) (hrest : Spells rest ws) :
      Spells (List.replicate k ' ' ++ text) (w :: ws)

theorem Spells.cons {text rest : List Char} {w : Word} {ws : List Word}
    (h : ReadsWord text w rest) (hrest : Spells rest ws) : Spells text (w :: ws) :=
  .word (k := 0) h hrest

/-- A space before a word changes nothing. -/
theorem Spells.space {text : List Char} {ws : List Word} (h : Spells text ws) (hne : ws ≠ []) :
    Spells (' ' :: text) ws := by
  cases h with
  | stop _ => exact absurd rfl hne
  | word h hrest => exact .word (k := _ + 1) h hrest

/-- A text has at least as many characters as words. -/
theorem Spells.length_le {text : List Char} {ws : List Word} (h : Spells text ws) :
    ws.length ≤ text.length := by
  induction h with
  | stop _ => exact Nat.zero_le _
  | word h _ ih =>
    have hshorter := h.shorter
    simp only [List.length_cons, List.length_append, List.length_replicate]
    omega

section Trivia

/-- The text starts with a token, not with something that is skipped. -/
def StartsToken : List Char → Prop
  | [] => False
  | c :: rest => isLineTerminator c = false ∧ isInlineSpace c = false ∧ c ≠ '#' ∧
      (c = '/' → rest.head? ≠ some '/' ∧ rest.head? ≠ some '*')

/-- As `StartsToken`, to be computed. -/
def startsToken : List Char → Bool
  | [] => false
  | c :: rest => !isLineTerminator c && !isInlineSpace c && c != '#' &&
      !(c == '/' && (rest.head? == some '/' || rest.head? == some '*'))

theorem startsToken_iff {text : List Char} : startsToken text = true ↔ StartsToken text := by
  cases text with
  | nil => simp [startsToken, StartsToken]
  | cons c rest => simp [startsToken, StartsToken, and_assoc, Decidable.imp_iff_not_or]

theorem lineCommentOpening?_eq_none {text : List Char} (h : StartsToken text)
    (atLineStart : Bool) (offset : Nat) :
    lineCommentOpening? false atLineStart offset text = none := by
  unfold lineCommentOpening?
  split
  · exact absurd rfl h.2.2.1
  · exact absurd rfl (h.2.2.2 rfl).1
  · rfl
  · rfl
  · rfl

theorem readTriviaFrom_stop {text : List Char} (h : StartsToken text) (offset : Nat)
    (trivia : Trivia) : readTriviaFrom false offset trivia 0 text = .ok trivia := by
  cases text with
  | nil => exact h.elim
  | cons c rest =>
    have hopening := lineCommentOpening?_eq_none h trivia.atLineStart offset
    obtain ⟨hline, hspace, -, hslash⟩ := h
    have hblock : (c == '/' && rest.head? == some '*') = false := by
      by_cases hc : c = '/'
      · simp [(hslash hc).2]
      · simp [hc]
    rw [readTriviaFrom]
    simp only [hline, hspace, hopening, hblock, Bool.false_eq_true, if_false]

/-- Nothing but spaces is skipped. -/
theorem readTriviaFrom_spaces {text : List Char} (h : StartsToken text) (k : Nat) :
    ∀ (offset : Nat) (trivia : Trivia),
      readTriviaFrom false offset trivia 0 (List.replicate k ' ' ++ text) =
        .ok { trivia with length := trivia.length + k } := by
  induction k with
  | zero => exact fun offset trivia => readTriviaFrom_stop h offset trivia
  | succ k ih =>
    intro offset trivia
    have hstep : readTriviaFrom false offset trivia 0 (List.replicate (k + 1) ' ' ++ text) =
        readTriviaFrom false (offset + ' '.utf8Size) { trivia with length := trivia.length + 1 } 0
          (List.replicate k ' ' ++ text) := by
      rw [List.replicate_succ, List.cons_append, readTriviaFrom]
      rfl
    rw [hstep, ih]
    simp only [Nat.add_assoc, Nat.add_comm 1 k]

theorem readTrivia_spaces {text : List Char} (h : StartsToken text) (k : Nat)
    (atLineStart : Bool) (offset : Nat) :
    readTrivia false atLineStart offset (List.replicate k ' ' ++ text) =
      .ok ⟨[], false, atLineStart, k⟩ := by
  unfold readTrivia
  rw [readTriviaFrom_spaces h]
  simp

end Trivia

/-- The lexer before the token that follows some trivia. -/
def State.before (s : State) (trivia : Trivia) : State :=
  { s with
    cursor := s.cursor.advance trivia.length
    start := s.cursor.advance trivia.length
    flags := { TokenFlags.none with lineBreakBefore := trivia.hasLineBreak }
    value := TokenValue.empty
    atLineStart := trivia.atLineStart }

/-- The lexer before the token that follows some trivia, with their comments. -/
def State.begun (s : State) (trivia : Trivia) : State :=
  { s.before trivia with
    comments := if s.collectComments then s.comments ++ trivia.comments else s.comments }

theorem beginToken_eq (s : State) : beginToken s =
    match readTrivia s.htmlComments s.atLineStart s.cursor.offset s.cursor.rest with
    | .ok trivia => .ok () (s.begun trivia)
    | .error failure => .error failure s := by
  unfold beginToken
  refine (bind_of_ok rfl).trans ?_
  cases hread : readTrivia s.htmlComments s.atLineStart s.cursor.offset s.cursor.rest with
  | ok trivia => rfl
  | error failure => rfl

theorem beginToken_ok {s : State} {trivia : Trivia}
    (h : readTrivia s.htmlComments s.atLineStart s.cursor.offset s.cursor.rest = .ok trivia) :
    beginToken s = .ok () (s.begun trivia) := by
  rw [beginToken_eq, h]

theorem beginToken_error {s : State} {failure : Diagnostic.Failure}
    (h : readTrivia s.htmlComments s.atLineStart s.cursor.offset s.cursor.rest = .error failure) :
    beginToken s = .error failure s := by
  rw [beginToken_eq, h]

theorem beginToken_of_trivia {s : State} (hplain : s.IsPlain) {trivia : Trivia}
    (h : readTrivia false s.atLineStart s.cursor.offset s.cursor.rest = .ok trivia) :
    beginToken s = .ok () (s.before trivia) := by
  rw [← hplain.html] at h
  rw [beginToken_ok h]
  simp [State.begun, State.before, hplain.collect]

/-- The lexer after a token. -/
def State.after (s : State) (lexeme : Lexeme) : State :=
  { s with
    cursor := s.cursor.advance lexeme.length
    token := lexeme.token
    flags := { s.flags with
      escaped := s.flags.escaped || lexeme.escaped
      octalEscape := s.flags.octalEscape || lexeme.octalEscape
      legacyOctal := s.flags.legacyOctal || lexeme.legacyOctal
      nonOctalDecimal := s.flags.nonOctalDecimal || lexeme.nonOctalDecimal
      invalidTemplateEscape := lexeme.invalidEscape.isSome }
    value := lexeme.value
    number := lexeme.number.getD s.number
    invalidEscape := match lexeme.invalidEscape with
      | some index => (s.cursor.advance index).offset
      | none => s.invalidEscape
    atLineStart := false }

theorem scan_of_lexeme {s : State} (hplain : s.IsPlain) {trivia : Trivia}
    (h : readTrivia false s.atLineStart s.cursor.offset s.cursor.rest = .ok trivia)
    {body : List Char} (hbody : s.cursor.rest.drop trivia.length = body) (hne : body ≠ [])
    {lexeme : Lexeme} (hlexeme : readLexeme body = .ok lexeme) :
    scan s = .ok lexeme.token ((s.before trivia).after lexeme) := by
  have hrest : (s.before trivia).cursor.rest = body := by simpa [State.before] using hbody
  have hreading : ofReading (s.before trivia).cursor (readLexeme (s.before trivia).cursor.rest)
      (s.before trivia) = .ok lexeme (s.before trivia) := by
    rw [hrest, hlexeme]
    rfl
  unfold scan
  refine (bind_of_ok (beginToken_of_trivia hplain h)).trans ?_
  refine (bind_of_ok rfl).trans ?_
  rw [if_neg (by simpa [hrest] using hne)]
  exact (bind_of_ok hreading).trans rfl

/-- What a token becomes together with the characters after it: a closing angle
bracket takes in more. -/
def merge (token : Token) (rest : List Char) : Token × Nat :=
  if token == .greaterThan then mergeGreaterThan rest else (token, 0)

theorem rescanGreaterThan_eq (s : State) :
    rescanGreaterThan s = .ok (merge s.token s.cursor.rest).1
      { s with
        token := (merge s.token s.cursor.rest).1
        cursor := s.cursor.advance (merge s.token s.cursor.rest).2 } := by
  unfold rescanGreaterThan merge
  refine (bind_of_ok rfl).trans ?_
  split
  · rfl
  · rfl

theorem readsWord_of_lexeme {body : List Char} (hbody : StartsToken body)
    {lexeme : Lexeme} (hlexeme : readLexeme body = .ok lexeme) (hescaped : lexeme.escaped = false)
    (hlength : 0 < lexeme.length) :
    ReadsWord body
      ⟨(merge lexeme.token (body.drop lexeme.length)).1, lexeme.value.text⟩
      (body.drop (lexeme.length + (merge lexeme.token (body.drop lexeme.length)).2)) := by
  have hne : body ≠ [] := by
    rintro rfl
    exact hbody
  constructor
  · have hpos := List.length_pos_iff.mpr hne
    simp only [List.length_drop]
    omega
  · intro k s hplain hrest
    have htrivia := readTrivia_spaces hbody k s.atLineStart s.cursor.offset
    rw [← hrest] at htrivia
    have hdrop : s.cursor.rest.drop k = body := by simp [hrest]
    have hscan := scan_of_lexeme hplain htrivia hdrop hne hlexeme
    generalize htrivial : (⟨[], false, s.atLineStart, k⟩ : Trivia) = trivia at hscan
    have hcursor : ((s.before trivia).after lexeme).cursor.rest = body.drop lexeme.length := by
      simp [State.before, State.after, hrest, ← htrivial]
    have hrescan := rescanGreaterThan_eq ((s.before trivia).after lexeme)
    rw [hcursor] at hrescan
    refine ⟨_, _, _, hscan, hrescan, ?_, ⟨⟨hplain.html, hplain.collect⟩, rfl, rfl, ?_, ?_⟩, ?_⟩
    · by_cases hgreater : lexeme.token = .greaterThan
      · exact .inr hgreater
      · exact .inl (by simp [merge, hgreater])
    · simp [State.before, State.after, TokenFlags.none, hescaped]
    · simp [State.before, State.after, ← htrivial]
    · simp only [Cursor.advance_rest, hcursor, List.drop_drop]
      rfl

/-- The second cursor stands behind the first, with some text between them. -/
structure Cursor.Reaches (a b : Cursor) (between : List Char) : Prop where
  rest : a.rest = between ++ b.rest
  offset : b.offset = a.offset + byteLength between

namespace Cursor.Reaches

variable {a b c : Cursor} {first second : List Char}

theorem refl (a : Cursor) : a.Reaches a [] := ⟨rfl, rfl⟩

theorem trans (h : a.Reaches b first) (h' : b.Reaches c second) :
    a.Reaches c (first ++ second) := by
  refine ⟨?_, ?_⟩
  · rw [h.rest, h'.rest, List.append_assoc]
  · rw [h'.offset, h.offset, byteLength_append, Nat.add_assoc]

theorem textTo (h : a.Reaches b first) : a.textTo b.offset = first := by
  unfold Cursor.textTo
  rw [h.offset, Nat.add_sub_cancel_left, h.rest]
  exact takeBytes_append first b.rest

end Cursor.Reaches

/-- A cursor goes on by characters that are there. -/
theorem Cursor.reaches_advance (a : Cursor) (count : Nat) (h : count ≤ a.rest.length) :
    a.Reaches (a.advance count) (a.rest.take count) := by
  refine ⟨?_, ?_⟩
  · rw [Cursor.advance_rest, List.take_append_drop]
  · induction count generalizing a with
    | zero => simp [Cursor.advance, byteLength]
    | succ count ih =>
      unfold Cursor.advance
      cases hrest : a.rest with
      | nil => simp [hrest] at h
      | cons c rest =>
        simp only [hrest, List.length_cons] at h
        have hnext := ih ⟨a.offset + c.utf8Size, rest⟩ (by simp; omega)
        simp only [hnext, List.take_succ_cons, byteLength]
        omega

/-- As many characters as a known text has. -/
theorem Cursor.reaches_advance_of_rest {a : Cursor} {between after : List Char}
    (h : a.rest = between ++ after) : a.Reaches (a.advance between.length) between := by
  have hreach := a.reaches_advance between.length (by simp [h])
  rwa [h, List.take_left] at hreach

/-- The cursor stands in the text, with some of it before. -/
abbrev Cursor.In (text : List Char) (cursor : Cursor) (before : List Char) : Prop :=
  (Cursor.ofText text).Reaches cursor before

namespace Cursor.In

variable {text before between : List Char} {a b : Cursor}

theorem text_eq (h : a.In text before) : text = before ++ a.rest := h.rest

theorem offset_eq (h : a.In text before) : a.offset = byteLength before := by
  have hoffset := h.offset
  simpa [Cursor.ofText] using hoffset

theorem isBoundary (h : a.In text before) : IsBoundary text a.offset := by
  rw [h.offset_eq, h.text_eq]
  exact isBoundary_append before a.rest

theorem le (h : a.In text before) : a.offset ≤ byteLength text := by
  rw [h.offset_eq, h.text_eq, byteLength_append]
  omega

/-- What stands between two places of the text is a slice of it. -/
theorem slice? (h : a.In text before) (hreach : a.Reaches b between) :
    Text.slice? text a.offset b.offset = some between := by
  rw [hreach.offset, h.offset_eq, h.text_eq, hreach.rest]
  exact slice?_append before between b.rest

end Cursor.In

end EcmaSyntax.Lexer
