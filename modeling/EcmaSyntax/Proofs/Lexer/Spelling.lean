import EcmaSyntax.Proofs.Lexer.Tokens
import EcmaSyntax.Proofs.Lexer.Safety

/-!
How names, keywords and punctuators are spelled. A name is read up to the first character that
cannot continue it; a punctuator is read whatever follows it, if what follows does not make a longer
one.

The value of a keyword is its text, whatever characters of it are escaped, and the steps of a lexer
keep it so. Where the grammar takes a keyword for a name, the name is known from the token.
-/

namespace EcmaSyntax.Lexer

open EcmaSyntax.Diagnostic EcmaSyntax.Unicode

variable {version : Nat} [Unicode.IdentifierChars version]

/-- The text is one token of a kind, spelled without escapes. -/
def IsSpelling (token : Token) (text : String) : Prop :=
  ∃ lexeme, readLexeme text.toList = .ok lexeme ∧ lexeme.token = token ∧
    lexeme.length = text.toList.length ∧ lexeme.escaped = false

/-- No name goes on with the text. -/
def Apart (text : List Char) : Prop :=
  ∀ c, text.head? = some c → isIdentifierPart c = false ∧ c ≠ '\\'

theorem apart_cons {c : Char} (h : isIdentifierPart c = false ∧ c ≠ '\\') (text : List Char) :
    Apart (c :: text) := by
  intro d hd
  cases hd
  exact h

theorem apart_sign {c : Char} (h : c ∈ [' ', '(', ')', '[', ']', '.', ',', ';', '?', ':', '+', '-'])
    (text : List Char) : Apart (c :: text) := by
  have hall : ∀ d ∈ [' ', '(', ')', '[', ']', '.', ',', ';', '?', ':', '+', '-'],
      isIdentifierPart d = false ∧ d ≠ '\\' := by
    simp only [List.forall_mem_cons]
    exact ⟨⟨rfl, by decide⟩, ⟨rfl, by decide⟩, ⟨rfl, by decide⟩, ⟨rfl, by decide⟩, ⟨rfl, by decide⟩,
      ⟨rfl, by decide⟩, ⟨rfl, by decide⟩, ⟨rfl, by decide⟩, ⟨rfl, by decide⟩, ⟨rfl, by decide⟩,
      ⟨rfl, by decide⟩, ⟨rfl, by decide⟩, nofun⟩
  exact apart_cons (hall c h) text

section Characters

variable {c : Char}

theorem readPunctuator?_of_start (h : isIdentifierStart c = true) (text : List Char) :
    readPunctuator? (c :: text) = none := by
  unfold readPunctuator?
  split
  -- Every punctuator starts with a character that starts no name.
  all_goals first
    | rfl
    | (rename_i heq; cases heq; exact absurd h Bool.false_ne_true)

theorem not_isAsciiDigit_of_start (h : isIdentifierStart c = true) : isAsciiDigit c = false := by
  refine Bool.eq_false_iff.mpr fun hdigit => ?_
  simp only [isAsciiDigit, Bool.and_eq_true, decide_eq_true_eq] at hdigit
  have hlow : 48 ≤ c.toNat := hdigit.1
  have hhigh : c.toNat ≤ 57 := hdigit.2
  have hascii : isAscii c = true := by
    simp only [isAscii, decide_eq_true_eq]
    omega
  rw [isIdentifierStart, hascii] at h
  simp only [isAsciiLetter, if_true, Bool.or_eq_true, Bool.and_eq_true, decide_eq_true_eq,
    beq_iff_eq] at h
  rcases h with ((⟨h, -⟩ | ⟨h, -⟩) | rfl) | rfl
  · have hletter : 97 ≤ c.toNat := h
    omega
  · have hletter : 65 ≤ c.toNat := h
    omega
  · simp at hlow
  · simp at hhigh

theorem ne_of_start (h : isIdentifierStart c = true) {d : Char}
    (hd : isIdentifierStart d = false) : c ≠ d := by
  rintro rfl
  simp [h] at hd

theorem isXidStart_of_start (h : isIdentifierStart c = true) (hascii : isAscii c = false) :
    IdentifierChars.isXidStart c = true := by
  simpa [isIdentifierStart, hascii] using h

theorem not_isLineTerminator_of_start [LawfulIdentifierChars version]
    (h : isIdentifierStart c = true) :
    isLineTerminator c = false := by
  cases hascii : isAscii c with
  | false => exact LawfulIdentifierChars.not_isLineTerminator c (isXidStart_of_start h hascii)
  | true =>
    refine Bool.eq_false_iff.mpr fun hline => ?_
    simp only [isLineTerminator, Bool.or_eq_true, beq_iff_eq] at hline
    rcases hline with ((rfl | rfl) | rfl) | rfl
    · cases h
    · cases h
    · cases hascii
    · cases hascii

theorem not_isInlineSpace_of_start [LawfulIdentifierChars version]
    (h : isIdentifierStart c = true) :
    isInlineSpace c = false := by
  cases hascii : isAscii c with
  | false => exact LawfulIdentifierChars.not_isInlineSpace c (isXidStart_of_start h hascii)
  | true =>
    have hlow : c.toNat < 128 := of_decide_eq_true hascii
    refine Bool.eq_false_iff.mpr fun hspace => ?_
    simp only [isInlineSpace, Bool.or_eq_true, Bool.and_eq_true, beq_iff_eq, decide_eq_true_eq]
      at hspace
    rcases hspace with
      ((((((((((rfl | rfl) | rfl) | rfl) | rfl) | rfl) | hrange) | rfl) | rfl) | rfl) | rfl)
    case true.inl.inl.inl.inl.inr =>
      have hhigh : 8192 ≤ c.toNat := hrange.1
      omega
    all_goals first
      | cases h
      | cases hascii

theorem startsToken_of_start [LawfulIdentifierChars version] (h : isIdentifierStart c = true)
    (text : List Char) :
    StartsToken (c :: text) :=
  ⟨not_isLineTerminator_of_start h, not_isInlineSpace_of_start h, ne_of_start h rfl,
    fun hslash => absurd hslash (ne_of_start h rfl)⟩

theorem readLexeme_of_start (h : isIdentifierStart c = true) (text : List Char) :
    readLexeme (c :: text) = readWordLexeme (c :: text) := by
  have hquote : c ≠ '\'' := ne_of_start h rfl
  have hdouble : c ≠ '"' := ne_of_start h rfl
  have htick : c ≠ '\x60' := ne_of_start h rfl
  have hdot : c ≠ '.' := ne_of_start h rfl
  have hnumber : c ≠ '#' := ne_of_start h rfl
  unfold readLexeme
  rw [readPunctuator?_of_start h text]
  simp [hquote, hdouble, htick, hdot, hnumber, not_isAsciiDigit_of_start h, h]

end Characters

section Names

/-- The characters of a name, without escapes. -/
def FitsName : Bool → List Char → Prop
  | _, [] => True
  | first, c :: rest => c ≠ '\\' ∧ fitsName first c = true ∧ FitsName false rest

/-- A name ends where nothing continues it. -/
theorem readWordFrom_append {rest : List Char} (hrest : Apart rest) :
    ∀ (text : List Char) (first : Bool) (index : Nat), FitsName first text →
      (text = [] → first = false) →
        readWordFrom first index 0 (text ++ rest) =
          .ok (text.map Piece.plain, index + text.length)
  | [], first, index, _, hfirst => by
    obtain rfl := hfirst rfl
    cases rest with
    | nil => rfl
    | cons c rest =>
      obtain ⟨hpart, hslash⟩ := hrest c rfl
      simp [readWordFrom, fitsName, hpart, hslash]
  | c :: text, first, index, hfits, _ => by
    obtain ⟨hslash, hc, htext⟩ := hfits
    have htail := readWordFrom_append hrest text false (index + 1) htext fun _ => rfl
    rw [List.cons_append]
    unfold readWordFrom
    simp only [beq_iff_eq, hslash, if_false, hc, if_true, htail]
    simp [bind, Except.bind]
    omega

/-- Where all was read and no escape was met, all characters fit. -/
theorem fitsName_of_readWordFrom :
    ∀ (text : List Char) (first : Bool) (index stop : Nat) (pieces : List Piece),
      readWordFrom first index 0 text = .ok (pieces, stop) → Piece.areVerbatim pieces = true →
        stop = index + text.length → FitsName first text
  | [], _, _, _, _, _, _, _ => trivial
  | c :: text, first, index, stop, pieces, hread, hplain, hstop => by
    unfold readWordFrom at hread
    simp only [beq_iff_eq] at hread
    split at hread
    · -- An escape would be a piece of the name.
      split at hread
      · split at hread
        · cases hread
        · split at hread
          · obtain ⟨r, -, hr⟩ := except_bind_ok hread
            cases hr
            simp [Piece.areVerbatim, Piece.isPlain] at hplain
          · cases hread
      · cases hread
    · rename_i hslash
      split at hread
      · rename_i hc
        obtain ⟨⟨more, last⟩, hmore, hr⟩ := except_bind_ok hread
        cases hr
        simp only [Piece.areVerbatim, List.all_cons, Bool.and_eq_true] at hplain
        refine ⟨hslash, hc, fitsName_of_readWordFrom text false _ _ _ hmore hplain.2 ?_⟩
        simp only [List.length_cons] at hstop
        omega
      · cases hread
        simp at hstop

theorem value_map_plain (text : List Char) : Piece.value (text.map Piece.plain) = text := by
  induction text with
  | nil => rfl
  | cons c text ih =>
    rw [Piece.value] at ih ⊢
    simpa [Piece.char?] using ih

theorem areVerbatim_map_plain (text : List Char) :
    Piece.areVerbatim (text.map Piece.plain) = true := by
  simp [Piece.areVerbatim, Piece.isPlain]

/-- The lexeme of a name before a text that does not continue it. -/
theorem readWordLexeme_append {text rest : List Char} (hfits : FitsName true text)
    (hne : text ≠ []) (hrest : Apart rest) :
    readWordLexeme (text ++ rest) = .ok (Lexeme.plain
      ((Token.ofKeyword? (String.ofList text)).getD .identifier) text.length
        (TokenValue.slice text)) := by
  have hread := readWordFrom_append hrest text true 0 hfits fun h => absurd h hne
  have hvalue : TokenValue.ofPieces (text.map Piece.plain) = TokenValue.slice text := by
    simp [TokenValue.ofPieces, TokenValue.slice, value_map_plain, areVerbatim_map_plain]
  unfold readWordLexeme readWord
  rw [hread]
  simp only [bind, Except.bind, hvalue, Nat.zero_add]
  rfl

end Names

/-- A word of the language: its characters and the kind that they make. -/
structure IsName (token : Token) (name : String) : Prop where
  fits : FitsName true name.toList
  nonempty : name.toList ≠ []
  token_eq : token = (Token.ofKeyword? name).getD .identifier

theorem IsSpelling.isName {token : Token} {name : String} (h : IsSpelling token name)
    (hword : token.isWord = true) : IsName token name := by
  obtain ⟨lexeme, hread, rfl, hlength, hescaped⟩ := h
  have hne : name.toList ≠ [] := by
    intro hnil
    rw [hnil] at hread
    cases hread
  have hlexeme := word_of_readLexeme hread hword
  have hunfolded := hlexeme
  unfold readWordLexeme at hunfolded
  obtain ⟨⟨pieces, length⟩, hpieces, hr⟩ := except_bind_ok hunfolded
  have hplain : Piece.areVerbatim pieces = true := by
    cases hr
    simpa [TokenValue.ofPieces] using hescaped
  have hstop : length = name.toList.length := by
    cases hr
    exact hlength
  have hfits : FitsName true name.toList :=
    fitsName_of_readWordFrom _ _ _ _ _ hpieces hplain (by simpa using hstop)
  have hnil : Apart [] := by simp [Apart]
  have happend := readWordLexeme_append hfits hne hnil
  rw [List.append_nil, hlexeme] at happend
  refine ⟨hfits, hne, ?_⟩
  cases happend
  simp [Lexeme.plain]

namespace IsName

variable {token : Token} {name : String}

theorem exists_start (h : IsName token name) :
    ∃ c text, name.toList = c :: text ∧ isIdentifierStart c = true := by
  obtain ⟨hfits, hne, -⟩ := h
  cases htext : name.toList with
  | nil => exact absurd htext hne
  | cons c text =>
    rw [htext] at hfits
    exact ⟨c, text, rfl, hfits.2.1⟩

theorem token_ne (h : IsName token name) : token ≠ .greaterThan := by
  rw [h.token_eq]
  cases hfound : Token.ofKeyword? name with
  | none => simp
  | some found =>
    have hmem : found ∈ Token.keywords := List.mem_of_find?_eq_some hfound
    rintro rfl
    revert hmem
    decide

/-- A name before a text that does not continue it. -/
theorem readsWord [LawfulIdentifierChars version] (h : IsName token name) {rest : List Char}
    (hrest : Apart rest) :
    ReadsWord (name.toList ++ rest) ⟨token, name⟩ rest := by
  obtain ⟨c, text, htext, hc⟩ := h.exists_start
  have hlexeme := readWordLexeme_append h.fits h.nonempty hrest
  have hstarts : StartsToken (name.toList ++ rest) := by
    rw [htext]
    exact startsToken_of_start hc _
  have hread : readLexeme (name.toList ++ rest) = readWordLexeme (name.toList ++ rest) := by
    rw [htext, List.cons_append, readLexeme_of_start hc]
  have hlength : 0 < name.toList.length := List.length_pos_iff.mpr h.nonempty
  have hword := readsWord_of_lexeme hstarts (hread.trans hlexeme) rfl hlength
  have hmerge : ∀ text, merge token text = (token, 0) := fun text => by
    simp [merge, h.token_ne]
  simp only [Lexeme.plain, TokenValue.slice, String.ofList_toList, ← h.token_eq, hmerge,
    Nat.add_zero, List.drop_left] at hword
  exact hword

end IsName

section Signs

/-- The punctuator at the start of a text, and the text after it. -/
def signAt? (text : List Char) : Option (Token × List Char) :=
  (readPunctuator? text).map fun found =>
    let merged := merge found.1 (text.drop found.2)
    (merged.1, text.drop (found.2 + merged.2))

theorem readsWord_sign {body rest : List Char} {token : Token}
    (hstarts : startsToken body = true) (hsign : signAt? body = some (token, rest)) :
    ReadsWord body (.sign token) rest := by
  obtain ⟨⟨first, length⟩, hread, hmerged⟩ := Option.map_eq_some_iff.mp hsign
  have hlexeme : readLexeme body = .ok (Lexeme.plain first length .empty) := by
    unfold readLexeme
    rw [hread]
  have hword := readsWord_of_lexeme (startsToken_iff.mp hstarts) hlexeme rfl
    (readPunctuator?_isSign hread).pos
  cases hmerged
  exact hword

/-- The operators that are written between spaces. -/
def isSpaced (token : Token) : Bool :=
  (token.isBinary || token.isAssignment || token == .question || token == .colon) &&
    !token.isWord

theorem readsWord_operator {token : Token} (h : isSpaced token = true) (rest : List Char) :
    ReadsWord (token.text.toList ++ ' ' :: rest) (.sign token) (' ' :: rest) := by
  cases token
  all_goals first
    | exact absurd h (by decide)
    | exact readsWord_sign rfl rfl

end Signs

variable {α : Type} {text : List Char} {s : State}

/-- The current token is no keyword, or its value is the text of the keyword. -/
def State.IsSpelled (s : State) : Prop :=
  s.token.isWord = true → s.token ≠ .identifier → s.value.text = s.token.text

/-- The lexer stands in the text, and the value of a keyword is known. -/
structure Situated (text : List Char) (s : State) : Prop where
  sound : Sound text s
  isSpelled : s.IsSpelled

theorem situated_initial (text : List Char) (html collect : Bool) :
    Situated text (State.initial text html collect) := ⟨sound_initial text html collect, nofun⟩

theorem Situated.restore {now : State} (h : Situated text s) : Situated text (s.restore now) :=
  ⟨h.sound.restore, h.isSpelled⟩

/-- The step does not spoil the value of a keyword. -/
class Spelling (step : Lexer α) : Prop where
  isSpelled : ∀ s, s.IsSpelled → Yields step (fun _ s' => s'.IsSpelled) s

theorem readLexeme_isSpelled {lexeme : Lexeme} (h : readLexeme text = .ok lexeme)
    (hword : lexeme.token.isWord = true) (hkeyword : lexeme.token ≠ .identifier) :
    lexeme.value.text = lexeme.token.text := by
  have hread := word_of_readLexeme h hword
  unfold readWordLexeme at hread
  obtain ⟨r, -, hread⟩ := except_bind_ok hread
  cases hread
  cases hfound : Token.ofKeyword? (TokenValue.ofPieces r.1).text with
  | none => exact absurd (by simp [Lexeme.plain, hfound]) hkeyword
  | some token =>
    have htext := List.find?_some hfound
    simpa [Lexeme.plain, hfound] using (beq_iff_eq.mp htext).symm

/-- No angle bracket is a word, whatever follows it. -/
theorem mergeGreaterThan_isWord (text : List Char) :
    (mergeGreaterThan text).1.isWord = false := by
  unfold mergeGreaterThan
  split <;> rfl

/-- A token that is read anew is spelled right, whatever the last one was. -/
theorem scan_isSpelled (s : State) : Yields scan (fun _ s' => s'.IsSpelled) s := by
  unfold scan
  refine .skip fun _ s₁ => .run rfl ?_
  dsimp only
  split
  · exact .run rfl (.pure nofun)
  · refine (ofReading_yields _ _ s₁).bind fun lexeme _ h => .run rfl (.run rfl (.pure ?_))
    exact readLexeme_isSpelled h.1

instance : Spelling scan := ⟨fun s _ => scan_isSpelled s⟩

instance : Spelling rescanGreaterThan := by
  refine ⟨fun s hs => ?_⟩
  unfold rescanGreaterThan
  refine .run rfl ?_
  split
  · refine .run rfl (.pure fun hword => ?_)
    exact absurd hword (Bool.eq_false_iff.mp (mergeGreaterThan_isWord _))
  · exact .pure hs

instance {β : Type} {step : Lexer α} {rest : α → Lexer β} [h : Spelling step]
    [hrest : ∀ a, Spelling (rest a)] : Spelling (step >>= rest) :=
  ⟨fun s hs => (h.isSpelled s hs).bind fun a s' hs' => (hrest a).isSpelled s' hs'⟩

instance : Spelling rescanTemplate := by
  refine ⟨fun s _ => ?_⟩
  unfold rescanTemplate
  refine .run rfl ((ofReading_yields _ _ s).bind fun lexeme _ h => .run rfl (.pure fun hword => ?_))
  exact absurd hword (Bool.eq_false_iff.mp (isWord_of_isTemplate (readChunkLexeme_isTemplate h.1)))

instance : Spelling rescanRegex := by
  refine ⟨fun s _ => ?_⟩
  unfold rescanRegex
  exact .run rfl (.skip fun literal _ => .run rfl (.pure nofun))

instance : Spelling scanMarkupChild := by
  refine ⟨fun s _ => ?_⟩
  unfold scanMarkupChild
  refine .run rfl (.run rfl ?_)
  split
  · exact .run rfl (.run rfl (.pure nofun))
  · exact .run rfl (.run rfl (.pure nofun))
  · exact .run rfl (.run rfl (.pure nofun))
  · exact Meets.skip fun body _ => .run rfl (.run rfl (.pure nofun))

instance : Spelling scanMarkupName := by
  refine ⟨fun s hs => .ok rfl ?_⟩
  dsimp only
  split
  · split
    · exact hs
    · exact fun _ h => absurd rfl h
  · exact hs

instance : Spelling scanMarkupAttributeValue := by
  refine ⟨fun s _ => ?_⟩
  unfold scanMarkupAttributeValue
  refine .skip fun _ s₁ => .run rfl ?_
  dsimp only
  split
  · split
    · split
      · exact .run rfl (.pure nofun)
      · trivial
    · exact scan_isSpelled s₁
  · exact scan_isSpelled s₁

end EcmaSyntax.Lexer
