import EcmaSyntax.Proofs.Lexer.Lexemes
import EcmaSyntax.Proofs.Lexer.NumeralTokens

/-!
Tokens and their readers. Each kind of token has a reader of its own, so that the token of a lexeme
tells which reader has read it, and from what a text.

Behind what can be skipped a scan reads one lexeme, and the current token is that lexeme in all that
the lexer keeps of it.
-/

namespace EcmaSyntax.Lexer

open EcmaSyntax.Text EcmaSyntax.Unicode

variable {version : Nat} [Unicode.IdentifierChars version]

/-- The kinds of tokens that are read from the text without any say of the grammar. -/
inductive LexemeKind where
  | sign
  | string
  | chunk
  | number
  | privateName
  | word
deriving DecidableEq, Repr

def lexemeKind (token : Token) : LexemeKind :=
  if token.isWord then .word
  else if token.isTemplate then .chunk
  else match token with
    | .stringLiteral => .string
    | .numericLiteral | .bigIntLiteral => .number
    | .privateName => .privateName
    | _ => .sign

/-- The text is read as the lexeme by the reader of the kind. -/
def ReadBy (text : List Char) (lexeme : Lexeme) : LexemeKind → Prop
  | .sign => ∃ length, readPunctuator? text = some (lexeme.token, length)
  | .string => ∃ quote rest, text = quote :: rest ∧ (quote = '\'' ∨ quote = '"') ∧
      readStringLexeme quote text = .ok lexeme
  | .chunk => ∃ rest, text = '\x60' :: rest ∧ readChunkLexeme true text = .ok lexeme
  | .number => readNumberLexeme text = .ok lexeme
  | .privateName => ∃ rest, text = '#' :: rest ∧ readPrivateLexeme text = .ok lexeme
  | .word => readWordLexeme text = .ok lexeme

section Readers

variable {token : Token} {text : List Char} {lexeme : Lexeme}

theorem lexemeKind_of_isWord (h : token.isWord = true) : lexemeKind token = .word := if_pos h

theorem lexemeKind_of_isTemplate (h : token.isTemplate = true) : lexemeKind token = .chunk := by
  revert h
  cases token <;> decide

theorem isWord_of_isTemplate (h : token.isTemplate = true) : token.isWord = false := by
  revert h
  cases token <;> decide

theorem readPunctuator?_kind {length : Nat} (h : readPunctuator? text = some (token, length)) :
    lexemeKind token = .sign := by
  unfold readPunctuator? at h
  split at h
  all_goals first
    | (cases h; done)
    | (cases h; rfl)
    | (split at h <;> cases h <;> rfl)

theorem readStringLexeme_kind {quote : Char} (h : readStringLexeme quote text = .ok lexeme) :
    lexemeKind lexeme.token = .string := by
  obtain ⟨found, -, h⟩ := except_bind_ok h
  cases h
  rfl

theorem readChunkLexeme_isTemplate {isFirst : Bool}
    (h : readChunkLexeme isFirst text = .ok lexeme) :
    lexeme.token.isTemplate = true := by
  unfold readChunkLexeme at h
  dsimp only at h
  split at h
  · cases h
    cases isFirst <;> rfl
  · cases h
    cases isFirst <;> rfl
  · cases h

theorem readNumberLexeme_kind (h : readNumberLexeme text = .ok lexeme) :
    lexemeKind lexeme.token = .number := by
  obtain ⟨numeral, -, h⟩ := except_bind_ok h
  split at h
  · cases h
    rfl
  · cases h
    rfl

theorem readPrivateLexeme_kind (h : readPrivateLexeme text = .ok lexeme) :
    lexemeKind lexeme.token = .privateName := by
  unfold readPrivateLexeme at h
  split at h
  · obtain ⟨found, -, h⟩ := except_bind_ok h
    cases h
    rfl
  · cases h

theorem readWordLexeme_isWord (h : readWordLexeme text = .ok lexeme) :
    lexeme.token.isWord = true := by
  obtain ⟨found, -, h⟩ := except_bind_ok h
  cases h
  exact isWord_of_ofKeyword? _

/-- The kind of the token is the kind of the reader. -/
theorem readBy_of_readLexeme (h : readLexeme text = .ok lexeme) :
    ReadBy text lexeme (lexemeKind lexeme.token) := by
  unfold readLexeme at h
  split at h
  · rename_i token length hsign
    cases h
    have hkind : lexemeKind (Lexeme.plain token length .empty).token = .sign :=
      readPunctuator?_kind hsign
    rw [hkind]
    exact ⟨length, hsign⟩
  split at h
  · cases h
  rename_i c rest _
  split at h
  · rename_i hquote
    rw [readStringLexeme_kind h]
    exact ⟨c, rest, rfl, by simpa using hquote, h⟩
  split at h
  · rename_i hopening
    rw [lexemeKind_of_isTemplate (readChunkLexeme_isTemplate h)]
    exact ⟨rest, congrArg (· :: rest) (beq_iff_eq.mp hopening), h⟩
  split at h
  · rw [readNumberLexeme_kind h]
    exact h
  split at h
  · rename_i hopening
    rw [readPrivateLexeme_kind h]
    exact ⟨rest, congrArg (· :: rest) (beq_iff_eq.mp hopening), h⟩
  split at h
  · rw [lexemeKind_of_isWord (readWordLexeme_isWord h)]
    exact h
  · cases h

/-- Only what `readWordLexeme` reads is a word. -/
theorem word_of_readLexeme (h : readLexeme text = .ok lexeme) (hword : lexeme.token.isWord = true) :
    readWordLexeme text = .ok lexeme := by
  have hreader := readBy_of_readLexeme h
  rw [lexemeKind_of_isWord hword] at hreader
  exact hreader

/-- Only what starts with a grave accent is read as the start of a template. -/
theorem chunk_of_readLexeme (h : readLexeme text = .ok lexeme)
    (htemplate : lexeme.token.isTemplate = true) : readChunkLexeme true text = .ok lexeme := by
  have hreader := readBy_of_readLexeme h
  rw [lexemeKind_of_isTemplate htemplate] at hreader
  obtain ⟨rest, -, hread⟩ := hreader
  exact hread

end Readers

section Scanning

variable {s s' : State} {start : Cursor} {token : Token} {lexeme : Lexeme} {c : Char}
  {text : List Char}

/-- The current token is the lexeme at the cursor, with its escapes. -/
structure State.Takes (s : State) (place : Cursor) (lexeme : Lexeme) : Prop
    extends s.Holds place lexeme where
  escaped : s.flags.escaped = lexeme.escaped
  invalidEscape : s.flags.invalidTemplateEscape = lexeme.invalidEscape.isSome

/-- Nothing that can be skipped starts with the character. -/
structure OpensToken (html atLineStart : Bool) (offset : Nat) (c : Char) (text : List Char) :
    Prop where
  line : isLineTerminator c = false
  space : isInlineSpace c = false
  slash : c ≠ '/'
  comment : lineCommentOpening? html atLineStart offset (c :: text) = none

/-- Before a token there is nothing to skip. -/
theorem State.skipsTo_cursor (heq : s.cursor.rest = c :: text)
    (h : OpensToken s.htmlComments s.atLineStart s.cursor.offset c text) : s.SkipsTo s.cursor := by
  refine ⟨⟨[], false, s.atLineStart, 0⟩, ?_, rfl⟩
  rw [heq, readTrivia, readTriviaFrom, if_neg (by simp [h.line]),
    if_neg (by simp [h.space]), h.comment]
  exact if_neg (by simp [h.slash])

theorem State.skipsTo_initial {html : Bool} (collect : Bool) (h : OpensToken html true 0 c text) :
    (State.initial (c :: text) html collect).SkipsTo (Cursor.ofText (c :: text)) :=
  State.skipsTo_cursor (s := State.initial (c :: text) html collect) rfl h

/-- What is not among the characters that start a comment opens none. -/
theorem opensToken_of_not_mem {html atLineStart : Bool} {offset : Nat}
    (hc : c ∉ ['/', '#', '<', '-']) (hline : isLineTerminator c = false)
    (hspace : isInlineSpace c = false) (text : List Char) :
    OpensToken html atLineStart offset c text := by
  simp only [List.mem_cons, List.not_mem_nil, or_false, not_or] at hc
  refine ⟨hline, hspace, hc.1, ?_⟩
  unfold lineCommentOpening?
  split
  all_goals simp_all

theorem skipsTo_end (h : s.cursor.rest = []) : s.SkipsTo s.cursor := by
  refine ⟨⟨[], false, s.atLineStart, 0⟩, ?_, rfl⟩
  rw [h]
  rfl

/-- The flags of the token are those of the lexeme that is read. -/
theorem scan_yields_flags (hskips : s.SkipsTo start) (hne : start.rest ≠ [])
    (hread : readLexeme start.rest = .ok lexeme) :
    Yields scan (fun _ s' => s'.flags.escaped = lexeme.escaped ∧
      s'.flags.invalidTemplateEscape = lexeme.invalidEscape.isSome) s := by
  unfold scan
  refine (hskips.beginToken.weaken fun _ => False.elim).bind fun _ s₁ hs₁ => .run rfl ?_
  obtain ⟨hcursor, hstart, lineBreak, hflags⟩ := hs₁
  rw [hcursor, if_neg (by simpa using hne), hread]
  refine .run rfl (.run rfl (.run rfl (.pure ⟨?_, rfl⟩)))
  change (s₁.flags.escaped || lexeme.escaped) = lexeme.escaped
  rw [hflags]
  rfl

/-- The scan takes in the lexeme that is read behind what can be skipped. -/
theorem scan_of_readLexeme (hskips : s.SkipsTo start) (hne : start.rest ≠ [])
    (hread : readLexeme start.rest = .ok lexeme) :
    ∃ s', scan s = .ok lexeme.token s' ∧ s'.Takes start lexeme := by
  have hunless : (readLexeme start.rest).Unless False (· = lexeme) := by
    rw [hread]
    rfl
  have hmeets := (scan_meets_lexeme hskips hne hunless).and (scan_yields_flags hskips hne hread)
  obtain ⟨token, s', hscan, ⟨_, rfl, rfl, hholds⟩, hescaped, hinvalid⟩ := hmeets.exists_result
  exact ⟨s', hscan, hholds, hescaped, hinvalid⟩

theorem scan_yields_token (s : State) : Yields scan (fun token s' => s'.token = token) s := by
  unfold scan
  refine .skip fun _ s₁ => .run rfl ?_
  dsimp only
  split
  · exact .run rfl (.pure rfl)
  · exact .skip fun lexeme _ => .run rfl (.run rfl (.pure rfl))

/-- A scan that comes to a token has taken in a lexeme. -/
theorem readLexeme_of_scan (h : scan s = .ok token s') (hend : token ≠ .endOfSource) :
    ∃ start lexeme, s.SkipsTo start ∧ readLexeme start.rest = .ok lexeme ∧ token = lexeme.token ∧
      s'.Takes start lexeme := by
  obtain ⟨start, hskips⟩ := (scan_yields_skipsTo s).result h
  by_cases hrest : start.rest = []
  · obtain ⟨end', hscan⟩ := hskips.scan_atEnd hrest
    cases h.symm.trans hscan
    exact absurd rfl hend
  · have hunless : (readLexeme start.rest).Unless True (readLexeme start.rest = .ok ·) := by
      cases readLexeme start.rest with
      | ok lexeme => rfl
      | error found => trivial
    obtain ⟨lexeme, hread, htoken, -⟩ := (scan_meets_lexeme hskips hrest hunless).result h
    obtain ⟨found, hscan, htakes⟩ := scan_of_readLexeme hskips hrest hread
    cases h.symm.trans hscan
    exact ⟨start, lexeme, hskips, hread, htoken, htakes⟩

end Scanning

end EcmaSyntax.Lexer
