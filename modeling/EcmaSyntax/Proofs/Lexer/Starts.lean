import EcmaSyntax.Proofs.Lexer.Names

/-!
What a text starts with, as the lexer sees it: the tokens that a fresh lexer finds there. A text
that starts with a name starts with its token, and one that starts with a sign with no word. What
comes second can be told only from the text behind, which is an operator, a sign or the end.
-/

namespace EcmaSyntax.Lexer

open EcmaSyntax.Unicode

variable {version : Nat} [Unicode.IdentifierChars version]

/-- The lexer reads the tokens one after the other. -/
def State.Reads : State → List Token → Prop
  | _, [] => True
  | s, token :: rest => ∃ s', scan s = .ok token s' ∧ s'.Reads rest

/-- The text starts with the tokens: a fresh lexer reads them first, and nothing stands before
them. -/
def StartsWith (text : List Char) : List Token → Prop
  | [] => True
  | token :: rest => ∃ html s, scan (State.initial text html false) = .ok token s ∧
      s.start.offset = 0 ∧ s.Reads rest

/-- A lexer in front of the text reads only such a token next. -/
def Next (text : List Char) (P : Token → Prop) : Prop :=
  ∀ s s' token, s.cursor.rest = text → scan s = .ok token s' → P token

variable {s s' : State} {start : Cursor} {c : Char} {text rest : List Char} {token : Token}
  {tokens : List Token} {lexeme : Lexeme}

theorem Cursor.le_offset_advance (count : Nat) :
    ∀ cursor : Cursor, cursor.offset + count ≤ (cursor.advance count).offset := by
  induction count with
  | zero => exact fun _ => Nat.le_refl _
  | succ count ih =>
    intro cursor
    unfold Cursor.advance
    cases cursor.rest with
    | nil => exact Nat.le_refl _
    | cons c rest =>
      have hsize : 0 < c.utf8Size := c.utf8Size_pos
      have hrest := ih ⟨cursor.offset + c.utf8Size, rest⟩
      simp only at hrest ⊢
      omega

theorem State.SkipsTo.unique {place : Cursor} (h : s.SkipsTo start) (h' : s.SkipsTo place) :
    start = place := by
  obtain ⟨trivia, hread, rfl⟩ := h
  obtain ⟨found, hfound, rfl⟩ := h'
  cases hread.symm.trans hfound
  rfl

/-- The token is the lexeme at the start of the text. -/
theorem StartsWith.exists_lexeme (h : StartsWith text (token :: tokens))
    (hend : token ≠ .endOfSource) :
    ∃ (lexeme : Lexeme) (s : State), readLexeme text = .ok lexeme ∧ token = lexeme.token ∧
      s.cursor.rest = text.drop lexeme.length ∧ s.Reads tokens := by
  obtain ⟨html, s, hscan, hoffset, hreads⟩ := h
  obtain ⟨start, lexeme, ⟨trivia, -, rfl⟩, hread, htoken, htakes⟩ :=
    readLexeme_of_scan hscan hend
  have hlength : trivia.length = 0 := by
    have hle := (State.initial text html false).cursor.le_offset_advance trivia.length
    rw [← htakes.start, hoffset] at hle
    omega
  rw [hlength] at hread htakes
  refine ⟨lexeme, s, hread, htoken, ?_, hreads⟩
  rw [htakes.cursor, Cursor.advance_rest]
  rfl

section Signs

/-- The character that some of the punctuators consist of. -/
def signOf? : Token → Option Char
  | .leftBrace => some '\x7b'
  | .leftBracket => some '['
  | .at => some '@'
  | _ => none

theorem signOf?_of_readPunctuator? {length : Nat}
    (h : readPunctuator? text = some (token, length)) :
    ∀ d, signOf? token = some d → text.head? = some d := by
  unfold readPunctuator? at h
  split at h
  all_goals first
    | (cases h; done)
    | (cases h; exact fun _ h => by cases h <;> rfl)
    | (split at h <;> cases h <;> exact fun _ h => (nomatch h))

/-- Only the character of such a punctuator starts one. -/
theorem signOf?_of_readLexeme (h : readLexeme text = .ok lexeme) :
    ∀ d, signOf? lexeme.token = some d → text.head? = some d := by
  intro d hd
  have hreader := readBy_of_readLexeme h
  have hkind : lexemeKind lexeme.token = .sign := by
    generalize lexeme.token = token at hd
    unfold signOf? at hd
    split at hd <;> first | rfl | cases hd
  rw [hkind] at hreader
  obtain ⟨length, hsign⟩ := hreader
  exact signOf?_of_readPunctuator? hsign d hd

end Signs

/-- What starts no name starts no word. -/
theorem isWord_of_readLexeme (hstart : isIdentifierStart c = false) (hc : c ≠ '\\')
    (h : readLexeme (c :: text) = .ok lexeme) : lexeme.token.isWord = false := by
  refine Bool.eq_false_iff.mpr fun hword => ?_
  have hread := word_of_readLexeme h hword
  have hnone : readWordFrom true 0 0 (c :: text) = .ok ([], 0) := by
    unfold readWordFrom
    rw [if_neg (by simpa using hc), if_neg (by simpa [fitsName] using hstart)]
  have hfits := readLexeme_fits (List.cons_ne_nil c text)
  rw [h] at hfits
  unfold readWordLexeme readWord at hread
  rw [hnone] at hread
  cases hread
  exact absurd hfits.pos (Nat.lt_irrefl 0)


section Openings

/-- A text that starts with no name starts with no word. -/
theorem StartsWith.sign (h : StartsWith (c :: text) (token :: tokens)) (hend : token ≠ .endOfSource)
    (hstart : isIdentifierStart c = false) (hc : c ≠ '\\') : token.isWord = false := by
  obtain ⟨lexeme, s, hread, rfl, -⟩ := h.exists_lexeme hend
  exact isWord_of_readLexeme hstart hc hread

theorem StartsWith.signOf? (h : StartsWith (c :: text) (token :: tokens)) {d : Char}
    (hd : signOf? token = some d) : c = d := by
  have hend : token ≠ .endOfSource := by
    rintro rfl
    cases hd
  obtain ⟨lexeme, s, hread, rfl, -⟩ := h.exists_lexeme hend
  exact Option.some.inj (signOf?_of_readLexeme hread d hd)

/-- The lexeme of a name before a text that does not continue it. -/
theorem IsName.readLexeme {name : String} (h : IsName token name) (hrest : Apart rest) :
    readLexeme (name.toList ++ rest) =
      .ok (Lexeme.plain token name.toList.length (TokenValue.slice name.toList)) := by
  obtain ⟨c, more, htext, hc⟩ := h.exists_start
  have hlexeme := readWordLexeme_append h.fits h.nonempty hrest
  rw [String.ofList_toList, ← h.token_eq] at hlexeme
  rw [← hlexeme, htext, List.cons_append, readLexeme_of_start hc]

/-- A text that starts with a name starts with its token. -/
theorem StartsWith.name {kind : Token} {name : String}
    (h : StartsWith (name.toList ++ rest) (token :: tokens)) (hend : token ≠ .endOfSource)
    (hname : IsName kind name) (hrest : Apart rest) :
    token = kind ∧ ∃ s : State, s.cursor.rest = rest ∧ s.Reads tokens := by
  obtain ⟨lexeme, s, hread, rfl, hs, hreads⟩ := h.exists_lexeme hend
  obtain rfl := Except.ok.inj (hread.symm.trans (hname.readLexeme hrest))
  exact ⟨rfl, s, hs.trans List.drop_left, hreads⟩

theorem startsWith_nil (hend : token ≠ .endOfSource) : ¬ StartsWith [] (token :: tokens) := by
  intro h
  obtain ⟨lexeme, s, hread, -⟩ := h.exists_lexeme hend
  cases hread

end Openings

section Continuations

/-- The token that is read is the lexeme behind what can be skipped. -/
theorem exists_lexeme_of_scan (hskips : s.SkipsTo start) (hscan : scan s = .ok token s')
    (hend : token ≠ .endOfSource) :
    ∃ lexeme, readLexeme start.rest = .ok lexeme ∧ token = lexeme.token := by
  obtain ⟨place, lexeme, hplace, hread, htoken, -⟩ := readLexeme_of_scan hscan hend
  obtain rfl := hskips.unique hplace
  exact ⟨lexeme, hread, htoken⟩

/-- The text is no comment, whatever stands before it. -/
def OpensNoComment (text : List Char) : Prop :=
  ∀ html atLineStart offset, lineCommentOpening? html atLineStart offset text = none

/-- A space before a token is skipped. -/
theorem State.skipsTo_space (heq : s.cursor.rest = ' ' :: text) (hstarts : StartsToken text)
    (hopens : OpensNoComment text) : s.SkipsTo (s.cursor.advance 1) := by
  refine ⟨⟨[], false, s.atLineStart, 1⟩, ?_, rfl⟩
  cases text with
  | nil => exact hstarts.elim
  | cons c more =>
    obtain ⟨hline, hspace, -, hslash⟩ := hstarts
    have hblock : ¬ (c == '/' && more.head? == some '*') = true := by
      intro h
      rw [Bool.and_eq_true, beq_iff_eq, beq_iff_eq] at h
      exact (hslash h.1).2 h.2
    have hspaced : readTrivia s.htmlComments s.atLineStart s.cursor.offset (' ' :: c :: more) =
        readTriviaFrom s.htmlComments (s.cursor.offset + ' '.utf8Size)
          ⟨[], false, s.atLineStart, 1⟩ 0 (c :: more) := rfl
    rw [heq, hspaced, readTriviaFrom, if_neg (by simp [hline]), if_neg (by simp [hspace]), hopens]
    exact if_neg hblock

theorem next_space {P : Token → Prop} (hstarts : StartsToken text) (hopens : OpensNoComment text)
    (h : ∀ lexeme, readLexeme text = .ok lexeme → P lexeme.token) (hend : P .endOfSource) :
    Next (' ' :: text) P := by
  intro s s' token heq hscan
  by_cases htoken : token = .endOfSource
  · rwa [htoken]
  · obtain ⟨lexeme, hread, rfl⟩ :=
      exists_lexeme_of_scan (State.skipsTo_space heq hstarts hopens) hscan htoken
    rw [Cursor.advance_rest, heq] at hread
    exact h lexeme hread

/-- An operator that is written between spaces. -/
abbrev Separates (operator : Token) : Prop :=
  isSpaced operator = true ∨ operator = .inKeyword ∨ operator = .instanceOfKeyword

/-- A name between spaces is the next token. -/
theorem next_name [LawfulIdentifierChars version] {kind : Token} {name : String}
    (hname : IsName kind name) (text : List Char) :
    Next (' ' :: (name.toList ++ ' ' :: text))
      fun token => token = kind ∨ token = .endOfSource := by
  obtain ⟨c, more, hchars, hc⟩ := hname.exists_start
  have hmarks : ∀ d ∈ ['/', '#', '<', '-'], isIdentifierStart d = false := by
    simp only [List.forall_mem_cons]
    exact ⟨rfl, rfl, rfl, rfl, nofun⟩
  have hstarts : StartsToken (name.toList ++ ' ' :: text) := by
    rw [hchars]
    exact startsToken_of_start hc _
  have hopens : OpensNoComment (name.toList ++ ' ' :: text) := by
    intro html atLineStart offset
    rw [hchars]
    exact (opensToken_of_not_mem (fun hmem => ne_of_start hc (hmarks c hmem) rfl)
      (not_isLineTerminator_of_start hc) (not_isInlineSpace_of_start hc) _).comment
  refine next_space hstarts hopens (fun lexeme hread => ?_) (.inr rfl)
  have hlexeme := hname.readLexeme (apart_sign (c := ' ') (by decide) text)
  obtain rfl := Except.ok.inj (hread.symm.trans hlexeme)
  exact .inl rfl

/-- An operator between spaces is the next token. -/
theorem next_spaced [LawfulIdentifierChars version] {operator : Token} (h : Separates operator)
    (text : List Char) :
    Next (' ' :: (operator.text.toList ++ ' ' :: text))
      fun token => token ≠ .functionKeyword ∧ token ≠ .leftBracket := by
  rcases h with hsign | hword
  · cases operator
    all_goals first
      | exact absurd hsign (by decide)
      | exact next_space (startsToken_iff.mp rfl) (fun _ _ _ => rfl)
          (fun lexeme hread => by cases hread; exact ⟨nofun, nofun⟩) ⟨nofun, nofun⟩
  · have hname : IsName operator operator.text := by
      rcases hword with rfl | rfl <;> exact IsSpelling.isName ⟨_, rfl, rfl, rfl, rfl⟩ rfl
    intro s s' token heq hscan
    rcases next_name hname text s s' token heq hscan with rfl | rfl
    · rcases hword with rfl | rfl <;> exact ⟨nofun, nofun⟩
    · exact ⟨nofun, nofun⟩

/-- What may stand behind an expression: no name goes on or begins with it, it starts neither a
body nor a decorator, and the word before it does not become a function. -/
structure Follows (text : List Char) : Prop where
  apart : Apart text
  begins : ∀ c, text.head? = some c → isIdentifierStart c = false
  plain : ∀ c, text.head? = some c → c ∉ ['\x7b', '@', '>']
  next : Next text (· ≠ .functionKeyword)

namespace Follows

theorem nil : Follows [] := by
  refine ⟨nofun, nofun, nofun, fun s s' token heq hscan => ?_⟩
  rintro rfl
  obtain ⟨lexeme, hread, -⟩ := exists_lexeme_of_scan (skipsTo_end heq) hscan nofun
  rw [heq] at hread
  cases hread

/-- A sign that starts neither a name nor a comment. -/
theorem cons (hc : isIdentifierPart c = false) (hstart : isIdentifierStart c = false)
    (hplain : c ∉ ['\\', '\x7b', '@', '>'])
    (hopens : ∀ html atLineStart offset, OpensToken html atLineStart offset c text) :
    Follows (c :: text) := by
  simp only [List.mem_cons, not_or] at hplain
  refine ⟨apart_cons ⟨hc, hplain.1⟩ text, ?_, ?_, fun s s' token heq hscan => ?_⟩
  · rintro _ ⟨⟩
    exact hstart
  · rintro _ ⟨⟩
    simpa using hplain.2
  · rintro rfl
    have hskips := State.skipsTo_cursor heq (hopens _ _ _)
    obtain ⟨lexeme, hread, htoken⟩ := exists_lexeme_of_scan hskips hscan nofun
    rw [heq] at hread
    have hword := isWord_of_readLexeme hstart hplain.1 hread
    rw [← htoken] at hword
    cases hword

/-- A sign that applies something to what stands before it, or ends it. -/
theorem sign (hc : c ∈ ".?[(\x60+,;)".toList) (text : List Char) : Follows (c :: text) := by
  -- computed over the list: an instance for `∀ c` may go through all characters there are
  have hall := List.all_eq_true.mp (show (".?[(\x60+,;)".toList.all fun c => decide
    (isIdentifierPart c = false ∧ isIdentifierStart c = false ∧ c ∉ ['\\', '\x7b', '@', '>'] ∧
      c ∉ ['/', '#', '<', '-'] ∧ isLineTerminator c = false ∧ isInlineSpace c = false)) = true
    from rfl)
  obtain ⟨hpart, hstart, hplain, hmarks, hline, hspace⟩ := of_decide_eq_true (hall c hc)
  exact cons hpart hstart hplain fun _ _ _ => opensToken_of_not_mem hmarks hline hspace text

theorem decrement (h : Follows text) : Follows ('-' :: '-' :: text) := by
  refine cons rfl rfl (by decide) fun html atLineStart offset => ⟨rfl, rfl, by decide, ?_⟩
  cases text with
  | nil => rfl
  | cons c more =>
    unfold lineCommentOpening?
    split
    all_goals first | rfl | (rename_i heq; cases heq; done) | skip
    rename_i heq
    cases heq
    exact absurd (h.plain '>' rfl) (by decide)

theorem spaced [LawfulIdentifierChars version] {operator : Token} (h : Separates operator)
    (text : List Char) :
    Follows (' ' :: (operator.text.toList ++ ' ' :: text)) := by
  refine ⟨apart_sign (by decide) _, ?_, ?_, fun s s' token heq hscan => ?_⟩
  · rintro _ ⟨⟩
    rfl
  · rintro _ ⟨⟩
    decide
  · exact (next_spaced h text s s' token heq hscan).1

end Follows

end Continuations

end EcmaSyntax.Lexer
