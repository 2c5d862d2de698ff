import EcmaSyntax.Proofs.Lexer.Extent

/-!
How far the readers of tokens go. A token has at least one character and no more than there are, a
fault or an invalid escape stands in the text or at its end, and a value that is kept as it stands
is a part of the token. So it is for what is read a second time.
-/

namespace EcmaSyntax.Lexer

open EcmaSyntax.Diagnostic EcmaSyntax.Number EcmaSyntax.Text EcmaSyntax.Unicode

variable {version : Nat} [Unicode.IdentifierChars version]

variable {α β : Type}

section Lexemes

/-- The first character of the tokens that can be read a second time. -/
def opening? : Token → Option Char
  | .rightBrace => some '\x7d'
  | .divide | .divideAssign => some '/'
  | _ => none

/-- What stands around the text of a template chunk. -/
def delimiters? : Token → Option (Char × List Char)
  | .noSubstitutionTemplate => some ('\x60', ['\x60'])
  | .templateHead => some ('\x60', ['$', '\x7b'])
  | .templateMiddle => some ('\x7d', ['$', '\x7b'])
  | .templateTail => some ('\x7d', ['\x60'])
  | _ => none

/-- The text is that of a token of this kind, as far as its first character and its
delimiters tell. -/
structure HasShape (token : Token) (text : List Char) : Prop where
  opening : ∀ c, opening? token = some c → text.head? = some c
  delimiters : ∀ first last, delimiters? token = some (first, last) →
    ∃ body, text = first :: body ++ last

theorem HasShape.of_none {token : Token} (hopening : opening? token = none)
    (hdelimiters : delimiters? token = none) (text : List Char) : HasShape token text :=
  ⟨fun _ h => by simp [hopening] at h, fun _ _ h => by simp [hdelimiters] at h⟩

/-- A token at the start of a text: it has a character and no more than there are, and a
value that is kept as it stands is a part of it. -/
structure Fits (text : List Char) (token : Token) (length : Nat) (value : TokenValue) : Prop where
  pos : 0 < length
  le : length ≤ text.length
  notEnd : token ≠ .endOfSource
  shape : HasShape token (text.take length)
  value : value.isSlice = true → value.text.toList <:+: text.take length

def Lexeme.Fits (text : List Char) (lexeme : Lexeme) : Prop :=
  Lexer.Fits text lexeme.token lexeme.length lexeme.value

/-- A token that is made of pieces after an opening. -/
theorem Spans.fits (opening : List Char) {text closing : List Char} {pieces : List Piece}
    {stop : Nat} (h : Spans 0 opening.length text closing pieces stop)
    (hpos : 0 < stop) {token : Token}
    (hend : token ≠ .endOfSource)
    (hshape : ∀ body, HasShape token (opening ++ body ++ closing)) :
    Fits (opening ++ text) token stop (.ofPieces pieces) := by
  obtain ⟨body, htake, hvalue⟩ := h.exists_take
  refine ⟨hpos, ?_, hend, ?_, fun hslice => ?_⟩
  · rw [List.length_append]
    exact h.stop_le
  · rw [htake]
    exact hshape body
  · rw [htake]
    refine ⟨opening, closing, ?_⟩
    rw [TokenValue.ofPieces, String.toList_ofList, hvalue hslice]

theorem nil_infix (text : List Char) : [] <:+: text := ⟨[], text, rfl⟩

/-- What a punctuator of known characters has to be. -/
structure IsSign (text : List Char) (token : Token) (length : Nat) : Prop where
  pos : 0 < length
  le : length ≤ text.length
  notEnd : token ≠ .endOfSource
  opening : ∀ c, opening? token = some c → text.head? = some c
  delimiters : delimiters? token = none

theorem readPunctuator?_isSign {text : List Char} {token : Token} {length : Nat}
    (h : readPunctuator? text = some (token, length)) : IsSign text token length := by
  unfold readPunctuator? at h
  split at h
  all_goals first
    | (cases h; done)
    | (cases h; exact ⟨by decide, by simp, by decide, fun _ h => by cases h <;> rfl, rfl⟩)
    | (split at h <;> cases h <;>
        exact ⟨by decide, by simp, by decide, fun _ h => (nomatch h), rfl⟩)

theorem readPunctuator?_fits {text : List Char} {token : Token} {length : Nat}
    (h : readPunctuator? text = some (token, length)) : Fits text token length .empty := by
  have hsign := readPunctuator?_isSign h
  refine ⟨hsign.pos, hsign.le, hsign.notEnd, ⟨fun c hc => ?_, fun first last hlast => ?_⟩, fun _ =>
    ?_⟩
  · rw [List.head?_take, if_neg (Nat.pos_iff_ne_zero.mp hsign.pos)]
    exact hsign.opening c hc
  · cases hlast.symm.trans hsign.delimiters
  · exact nil_infix _

theorem opening?_of_isWord {token : Token} (h : token.isWord = true) :
    opening? token = none ∧ delimiters? token = none ∧ token ≠ .endOfSource := by
  revert h
  cases token <;> decide

theorem isWord_of_ofKeyword? (name : String) :
    ((Token.ofKeyword? name).getD .identifier).isWord = true := by
  cases hfound : Token.ofKeyword? name with
  | none => rfl
  | some token =>
    have hkeywords : ∀ t ∈ Token.keywords, t.isWord = true := by decide
    exact hkeywords token (List.mem_of_find?_eq_some hfound)

/-- A name has its first character. -/
theorem readWordFrom_pos {c : Char} (h : c = '\\' ∨ isIdentifierStart c = true) (index : Nat)
    (text : List Char) : (readWordFrom true index 0 (c :: text)).Within (index + (c :: text).length)
      fun result => index < result.2 := by
  have hlength : index + 1 + text.length = index + (c :: text).length := by
    simp only [List.length_cons]
    omega
  have hindex : index ≤ index + (c :: text).length := Nat.le_add_right _ _
  have hrest := fun skip => readWordFrom_within text false (index + 1) skip
  rw [hlength] at hrest
  unfold readWordFrom
  refine .ite (fun _ => ?_) fun hescape => .ite (fun _ => ?_) fun hname => ?_
  · split
    · split
      · exact .fault hindex
      · refine .ite (fun _ => ?_) fun _ => .fault hindex
        exact (hrest _).bind fun result hresult => .ok hresult.le_stop
    · exact .fault hindex
  · exact (hrest 0).bind fun result hresult => .ok hresult.le_stop
  · simp only [beq_iff_eq] at hescape
    exact absurd (h.resolve_left hescape) hname

theorem readWordLexeme_fits {c : Char} (h : c = '\\' ∨ isIdentifierStart c = true)
    (text : List Char) :
    (readWordLexeme (c :: text)).Within (c :: text).length (Lexeme.Fits (c :: text)) := by
  have hword := (readWordFrom_within (c :: text) true 0 0).and (readWordFrom_pos h 0 text)
  rw [Nat.zero_add] at hword
  refine hword.bind fun result hresult => .ok ?_
  have htoken := opening?_of_isWord (isWord_of_ofKeyword? (TokenValue.ofPieces result.1).text)
  exact Spans.fits [] hresult.1 hresult.2 htoken.2.2 fun body =>
    .of_none htoken.1 htoken.2.1 _

theorem readPrivateLexeme_fits (text : List Char) :
    (readPrivateLexeme ('#' :: text)).Within ('#' :: text).length (Lexeme.Fits ('#' :: text)) := by
  unfold readPrivateLexeme
  refine .ite (fun _ => ?_) fun _ => .fault (Nat.zero_le _)
  have hword := readWordFrom_within text true 1 0
  rw [Nat.add_comm] at hword
  refine hword.bind fun result hresult => .ok ?_
  exact Spans.fits ['#'] hresult hresult.le_stop nofun fun body => .of_none rfl rfl _

theorem readStringLexeme_fits (quote : Char) (text : List Char) :
    (readStringLexeme quote (quote :: text)).Within (quote :: text).length
      (Lexeme.Fits (quote :: text)) := by
  have hstring := readStringFrom_within quote text 1 0
  rw [Nat.add_comm] at hstring
  refine hstring.bind fun result hresult => .ok ?_
  have hpos : 1 ≤ result.2 := Nat.le_of_add_right_le hresult.le_stop
  exact Spans.fits [quote] hresult hpos nofun fun body => .of_none rfl rfl _

/-- A template chunk after either of the characters that it can start with. -/
theorem readChunkLexeme_fits (isFirst : Bool) (text : List Char) {c : Char}
    (hc : c = if isFirst then '\x60' else '\x7d') :
    (readChunkLexeme isFirst (c :: text)).Within (c :: text).length (Lexeme.Fits (c :: text)) := by
  have hchunk := readChunkFrom_spans text 1 0
  have hinvalid := readChunkFrom_invalidEscape text 1 0
  unfold readChunkLexeme readChunk
  simp only [List.drop_succ_cons, List.drop_zero]
  generalize readChunkFrom 1 0 text = chunk at hchunk hinvalid
  -- Whatever the kind of the chunk, its delimiters are the first character and the ending.
  have hfits : ∀ token, chunk.ending ≠ .unterminated → opening? token = none →
      delimiters? token = some (c, chunk.ending.delimiter) → token ≠ .endOfSource →
        Fits (c :: text) token chunk.stop (.ofPieces chunk.pieces) := by
    intro token hending hopening hdelimiters hend
    have hspans := hchunk hending
    have hpos : 1 ≤ chunk.stop := Nat.le_of_add_right_le hspans.le_stop
    refine Spans.fits [c] hspans hpos hend fun body => ⟨fun d hd => ?_, fun first last hlast => ?_⟩
    · cases hd.symm.trans hopening
    · cases hlast.symm.trans hdelimiters
      exact ⟨body, rfl⟩
  subst hc
  split
  · rename_i hending
    rw [hending] at hfits
    cases isFirst <;> exact .ok (hfits _ (by decide) rfl rfl (by rintro ⟨⟩))
  · rename_i hending
    rw [hending] at hfits
    cases isFirst <;> exact .ok (hfits _ (by decide) rfl rfl (by rintro ⟨⟩))
  · rw [Nat.add_comm] at hinvalid
    exact ⟨Nat.zero_le _, hinvalid⟩

/-- An invalid escape of a token stands in a template chunk. -/
theorem readChunkLexeme_invalidEscape {isFirst : Bool} {c : Char} {text : List Char}
    {lexeme : Lexeme} (h : readChunkLexeme isFirst (c :: text) = .ok lexeme) :
    ∀ index ∈ lexeme.invalidEscape, index ≤ (c :: text).length := by
  have hinvalid := readChunkFrom_invalidEscape text 1 0
  rw [Nat.add_comm] at hinvalid
  unfold readChunkLexeme readChunk at h
  simp only [List.drop_succ_cons, List.drop_zero] at h
  split at h
  · cases h
    exact hinvalid
  · cases h
    exact hinvalid
  · cases h

theorem readNumberLexeme_fits {text : List Char}
    (h : text.head?.any (fun c => isAsciiDigit c || c == '.') = true) :
    (readNumberLexeme text).Within text.length (Lexeme.Fits text) := by
  unfold readNumberLexeme
  refine (readNumeral_within h).bind fun numeral hnumeral => ?_
  split
  · refine .ok ⟨hnumeral.1, hnumeral.2, by rintro ⟨⟩, .of_none rfl rfl _, fun _ => nil_infix _⟩
  · refine .ok ⟨hnumeral.1, hnumeral.2, by rintro ⟨⟩, .of_none rfl rfl _, by rintro ⟨⟩⟩

/-- The token at the start of a text. -/
theorem readLexeme_fits {text : List Char} (h : text ≠ []) :
    (readLexeme text).Within text.length (Lexeme.Fits text) := by
  unfold readLexeme
  split
  · rename_i token length heq
    exact .ok (readPunctuator?_fits heq)
  · split
    · exact absurd rfl h
    · rename_i c rest _
      refine .ite (fun hquote => readStringLexeme_fits c rest) fun _ => ?_
      refine .ite (fun htick => ?_) fun _ => ?_
      · exact readChunkLexeme_fits true rest (beq_iff_eq.mp htick)
      refine .ite (fun hdigit => readNumberLexeme_fits (by simpa using hdigit)) fun _ => ?_
      refine .ite (fun hsharp => ?_) fun _ => ?_
      · rw [beq_iff_eq.mp hsharp]
        exact readPrivateLexeme_fits rest
      refine .ite (fun hname => ?_) fun _ => .fault (Nat.zero_le _)
      exact readWordLexeme_fits (by simpa using hname) rest

/-- Only template chunks have invalid escapes. -/
theorem readLexeme_invalidEscape {text : List Char} {lexeme : Lexeme}
    (h : readLexeme text = .ok lexeme) : ∀ index ∈ lexeme.invalidEscape, index ≤ text.length := by
  unfold readLexeme at h
  split at h
  · cases h
    rintro _ ⟨⟩
  · split at h
    · cases h
    · split at h
      · obtain ⟨found, -, h⟩ := except_bind_ok h
        cases h
        rintro _ ⟨⟩
      · split at h
        · exact readChunkLexeme_invalidEscape h
        · split at h
          · obtain ⟨numeral, -, h⟩ := except_bind_ok h
            split at h
            · cases h
              rintro _ ⟨⟩
            · cases h
              rintro _ ⟨⟩
          · split at h
            · unfold readPrivateLexeme at h
              split at h
              · obtain ⟨found, -, h⟩ := except_bind_ok h
                cases h
                rintro _ ⟨⟩
              · cases h
            · split at h
              · obtain ⟨found, -, h⟩ := except_bind_ok h
                cases h
                rintro _ ⟨⟩
              · cases h

end Lexemes

section Rescans

/-- The slash that closes a regular expression stands in the text. -/
theorem readRegexBody_within (text : List Char) : ∀ (inClass escaped : Bool) (index : Nat),
    (readRegexBody inClass escaped index text).Within (index + text.length) fun close =>
      index ≤ close ∧ close < index + text.length := by
  induction text with
  | nil =>
    intro inClass escaped index
    exact .fault (Nat.zero_le _)
  | cons c rest ih =>
    intro inClass escaped index
    have hlength : index + 1 + rest.length = index + (c :: rest).length := by
      simp only [List.length_cons]
      omega
    have hrest : ∀ inClass escaped : Bool, (readRegexBody inClass escaped (index + 1) rest).Within
        (index + (c :: rest).length) fun close =>
          index ≤ close ∧ close < index + (c :: rest).length := by
      intro inClass escaped
      rw [← hlength]
      exact (ih inClass escaped (index + 1)).mono fun close h => ⟨by omega, h.2⟩
    unfold readRegexBody
    refine .ite (fun _ => .fault (Nat.zero_le _)) fun _ => ?_
    refine .ite (fun _ => hrest _ _) fun _ => ?_
    refine .ite (fun _ => hrest _ _) fun _ => ?_
    refine .ite (fun _ => hrest _ _) fun _ => ?_
    refine .ite (fun _ => hrest _ _) fun _ => ?_
    exact .ite (fun _ => .ok ⟨Nat.le_refl _, by omega⟩) fun _ => hrest _ _

/-- The flags of a regular expression are the next characters of the text. -/
theorem readRegexFlagsFrom_within (text : List Char) : ∀ (index : Nat) (seen : List Char),
    (readRegexFlagsFrom index seen text).Within (index + text.length) fun flags =>
      ∃ more rest, flags = seen ++ more ∧ text = more ++ rest := by
  induction text with
  | nil =>
    intro index seen
    exact .ok ⟨[], [], by simp, rfl⟩
  | cons c rest ih =>
    intro index seen
    have hlength : index + 1 + rest.length = index + (c :: rest).length := by
      simp only [List.length_cons]
      omega
    have hindex : index ≤ index + (c :: rest).length := Nat.le_add_right _ _
    unfold readRegexFlagsFrom
    refine .ite (fun _ => ?_) fun _ => .ite (fun _ => .fault hindex) fun _ => ?_
    · refine .ite (fun _ => .fault hindex) fun _ => .ite (fun _ => .fault hindex) fun _ => ?_
      rw [← hlength]
      refine (ih (index + 1) (seen ++ [c])).mono fun flags hflags => ?_
      obtain ⟨more, rest', rfl, rfl⟩ := hflags
      exact ⟨c :: more, rest', by simp, rfl⟩
    · exact .ok ⟨[], c :: rest, by simp, rfl⟩

/-- A regular expression with its body for a value; the flags are a part of the text. -/
theorem readRegex_within (text : List Char) :
    (readRegex text).Within text.length fun literal =>
      Fits text .regularExpression literal.stop (.slice literal.body) ∧
        literal.flags <:+: text := by
  unfold readRegex
  cases text with
  | nil => exact .fault (Nat.zero_le _)
  | cons c rest =>
    have hbody := readRegexBody_within rest false false 1
    rw [Nat.add_comm] at hbody
    refine hbody.bind fun close hclose => ?_
    have hdrop : close + 1 + ((c :: rest).drop (close + 1)).length = (c :: rest).length := by
      simp only [List.length_drop, List.length_cons]
      omega
    have hflags := readRegexFlagsFrom_within ((c :: rest).drop (close + 1)) (close + 1) []
    rw [hdrop] at hflags
    have hboth : (readRegexFlags (close + 1) ((c :: rest).drop (close + 1))).Within
        (c :: rest).length fun flags => ∃ more, (c :: rest).drop (close + 1) = flags ++ more := by
      refine hflags.bind fun flags hflags => .ite (fun _ => .fault (by simp; omega)) fun _ => .ok ?_
      obtain ⟨more, after, rfl, htext⟩ := hflags
      exact ⟨after, htext⟩
    refine hboth.bind fun flags hflags => .ok ?_
    obtain ⟨more, hmore⟩ := hflags
    have hlength := congrArg List.length hmore
    rw [List.length_append] at hlength
    have hstop : close + 1 + flags.length ≤ (c :: rest).length := by omega
    refine ⟨⟨?_, hstop, nofun, .of_none rfl rfl _, fun _ => ?_⟩, ?_⟩
    · exact Nat.lt_of_lt_of_le (Nat.succ_pos close) (Nat.le_add_right _ _)
    · have hprefix : (c :: rest).take close <+: (c :: rest).take (close + 1 + flags.length) :=
        List.take_prefix_take_left (by omega)
      rw [TokenValue.slice, String.toList_ofList]
      exact (List.drop_suffix _ _).isInfix.trans hprefix.isInfix
    · have hinfix : flags <:+: (c :: rest).drop (close + 1) := ⟨[], more, hmore.symm⟩
      exact hinfix.trans (List.drop_suffix _ _).isInfix

/-- Markup text is the next part of the text. -/
theorem readMarkupText_within (text : List Char) : ∀ index : Nat,
    (readMarkupText index text).Within (index + text.length) fun body =>
      ∃ rest, text = body ++ rest := by
  induction text with
  | nil =>
    intro index
    exact .ok ⟨[], rfl⟩
  | cons c rest ih =>
    intro index
    have hlength : index + 1 + rest.length = index + (c :: rest).length := by
      simp only [List.length_cons]
      omega
    unfold readMarkupText
    refine .ite (fun _ => .ok ⟨c :: rest, rfl⟩) fun _ => ?_
    refine .ite (fun _ => .fault (Nat.le_add_right _ _)) fun _ => ?_
    rw [← hlength]
    refine (ih (index + 1)).bind fun body hbody => .ok ?_
    obtain ⟨after, rfl⟩ := hbody
    exact ⟨after, rfl⟩

/-- Markup text that starts with neither a tag nor a brace has a character. -/
theorem readMarkupText_ne_nil {c : Char} {rest body : List Char} (hbrace : c ≠ '\x7b')
    (htag : c ≠ '<') {index : Nat} (h : readMarkupText index (c :: rest) = .ok body) :
    body ≠ [] := by
  unfold readMarkupText at h
  rw [if_neg (by simp [hbrace, htag])] at h
  split at h
  · cases h
  · obtain ⟨text, -, htext⟩ := except_bind_ok h
    cases htext
    simp

/-- Without ampersands there is nothing to decode. -/
theorem decodeEntities_of_not_mem {text : List Char} (h : '&' ∉ text) :
    decodeEntities text = text := by
  unfold decodeEntities
  induction text with
  | nil => rfl
  | cons c rest ih =>
    simp only [List.mem_cons, not_or] at h
    rw [decodeEntitiesFrom, if_neg (by simpa using Ne.symm h.1), ih h.2]

theorem markupValue_slice {text : List Char} (h : (markupValue text).isSlice = true) :
    (markupValue text).text.toList = text := by
  have hmem : '&' ∉ text := by simpa [markupValue] using h
  simp [markupValue, decodeEntities_of_not_mem hmem]

/-- What a closing angle bracket takes in stands in the text. -/
theorem mergeGreaterThan_le (text : List Char) : (mergeGreaterThan text).2 ≤ text.length ∧
    (mergeGreaterThan text).1 ≠ .endOfSource ∧ opening? (mergeGreaterThan text).1 = none ∧
      delimiters? (mergeGreaterThan text).1 = none := by
  unfold mergeGreaterThan
  split <;> exact ⟨by simp, nofun, rfl, rfl⟩

end Rescans

end EcmaSyntax.Lexer
