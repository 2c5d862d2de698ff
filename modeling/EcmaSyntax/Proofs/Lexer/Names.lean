import EcmaSyntax.Proofs.Lexer.Spelling
import EcmaSyntax.Unicode.IdentifierRanges

/-!
The values of names, and how names and literals start. Escaped or not, a character of a name is one
that could stand there by itself, so that the value of a name is a name without escapes. Scanned
alone it is a token of the same kind and of the same value.

The text of a word is a name if nothing in it is escaped; the text of a string or number starts as
no other token does. Each step of a lexer leaves such a token behind, except for the one that reads
a word of markup.
-/

namespace EcmaSyntax.Lexer

open EcmaSyntax.Text EcmaSyntax.Unicode

section Names

variable {version : Nat} [Unicode.IdentifierChars version]

section Values

variable {c : Char} {first : Bool} {index : Nat} {text : List Char} {found : List Piece × Nat}

theorem ne_backslash_of_fitsName (h : fitsName first c = true) : c ≠ '\\' := by
  rintro rfl
  cases first <;> exact absurd h Bool.false_ne_true

/-- The reader of a name stops at a character that does not fit, or it takes in one that does. -/
theorem readWordFrom_cons (h : readWordFrom first index 0 (c :: text) = .ok found) :
    found = ([], index) ∨ ∃ d skip more, fitsName first d = true ∧
      readWordFrom false (index + 1) skip text = .ok more ∧
        Piece.value found.1 = d :: Piece.value more.1 := by
  unfold readWordFrom at h
  split at h
  · split at h
    · split at h
      · cases h
      split at h
      · rename_i code length _ hfits
        obtain ⟨d, hd, hfits⟩ := (Option.any_eq_true _ _).mp hfits
        obtain ⟨more, hmore, h⟩ := except_bind_ok h
        cases h
        refine .inr ⟨d, _, more, hfits, hmore, ?_⟩
        have hchar : scalarOrReplacement code = d :=
          by rw [scalarOrReplacement, hd, Option.getD_some]
        rw [← hchar]
        rfl
      · cases h
    · cases h
  split at h
  · rename_i hfits
    obtain ⟨more, hmore, h⟩ := except_bind_ok h
    cases h
    exact .inr ⟨c, 0, more, hfits, hmore, rfl⟩
  · cases h
    exact .inl rfl

/-- What is read as a name stands for the characters of one. -/
theorem fitsName_value (text : List Char) :
    ∀ (first : Bool) (index skip : Nat) (found : List Piece × Nat),
    readWordFrom first index skip text = .ok found → FitsName first (Piece.value found.1) := by
  induction text with
  | nil =>
    intro first index skip found h
    unfold readWordFrom at h
    cases h
    trivial
  | cons c text ih =>
    intro first index skip found h
    cases skip with
    | succ skip =>
      rw [readWordFrom] at h
      exact ih _ _ _ _ h
    | zero =>
      rcases readWordFrom_cons h with rfl | ⟨d, skip, more, hfits, hmore, hvalue⟩
      · trivial
      · rw [hvalue]
        exact ⟨ne_backslash_of_fitsName hfits, hfits, ih _ _ _ _ hmore⟩

/-- A name with a character stands for one. -/
theorem value_ne_nil (h : readWord index text = .ok found) (hpos : index < found.2) :
    Piece.value found.1 ≠ [] := by
  cases text with
  | nil =>
    cases h
    exact absurd hpos (Nat.lt_irrefl _)
  | cons c text =>
    rcases readWordFrom_cons h with rfl | ⟨d, skip, more, -, -, hvalue⟩
    · exact absurd hpos (Nat.lt_irrefl _)
    · rw [hvalue]
      nofun

end Values

section Tokens

variable {s s' : State} {token : Token} {lexeme : Lexeme} {name : String} {text : List Char}

theorem toList_ofPieces (pieces : List Piece) :
    (TokenValue.ofPieces pieces).text.toList = Piece.value pieces := String.toList_ofList

/-- The value of a word is a name of its kind. -/
theorem isName_of_readWordLexeme (h : readWordLexeme text = .ok lexeme) (hpos : 0 < lexeme.length) :
    IsName lexeme.token lexeme.value.text := by
  obtain ⟨found, hread, h⟩ := except_bind_ok h
  cases h
  refine ⟨?_, ?_, rfl⟩
  · change FitsName true (TokenValue.ofPieces found.1).text.toList
    rw [toList_ofPieces]
    exact fitsName_value text true 0 0 found hread
  · change (TokenValue.ofPieces found.1).text.toList ≠ []
    rw [toList_ofPieces]
    exact value_ne_nil hread hpos

/-- What stands behind the number sign of a private name is a name. -/
theorem fitsName_of_readPrivateLexeme (h : readPrivateLexeme ('#' :: text) = .ok lexeme) :
    FitsName true lexeme.value.text.toList ∧ lexeme.value.text.toList ≠ [] := by
  unfold readPrivateLexeme at h
  split at h
  · rename_i hstart
    obtain ⟨found, hread, h⟩ := except_bind_ok h
    cases h
    change FitsName true (TokenValue.ofPieces found.1).text.toList ∧
      (TokenValue.ofPieces found.1).text.toList ≠ []
    rw [toList_ofPieces]
    refine ⟨fitsName_value _ true 1 0 found hread, value_ne_nil hread ?_⟩
    cases text with
    | nil => cases hstart
    | cons c text =>
      have hpos := readWordFrom_pos (c := c) (by simpa using hstart) 1 text
      rw [show readWordFrom true 1 0 (c :: text) = .ok found from hread] at hpos
      exact hpos
  · cases h

/-- A fresh lexer finds one name, which is the whole text and has no escapes, and then the end. -/
def ScansAsName (text : List Char) (token : Token) (value : String) : Prop :=
  ∀ html collect, ∃ s s', scan (State.initial text html collect) = .ok token s ∧
    s.span = ⟨0, byteLength text⟩ ∧ s.raw = text ∧ s.value.text = value ∧ s.flags.escaped = false ∧
    scan s = .ok .endOfSource s'

/-- A lexeme that is the whole text. -/
theorem scansAsName_of_readLexeme {c : Char} (hread : readLexeme (c :: text) = .ok lexeme)
    (hopens : ∀ html, OpensToken html true 0 c text) (hlength : lexeme.length = (c :: text).length)
    (hescaped : lexeme.escaped = false) :
    ScansAsName (c :: text) lexeme.token lexeme.value.text := by
  intro html collect
  have hskips := State.skipsTo_initial collect (hopens html)
  obtain ⟨s, hscan, htakes⟩ := scan_of_readLexeme hskips (List.cons_ne_nil _ _) hread
  obtain ⟨hspan, hraw, hrest⟩ :=
    htakes.extent (List.append_nil (c :: text)).symm hlength
  obtain ⟨s', hend⟩ := (skipsTo_end hrest).scan_atEnd hrest
  refine ⟨s, s', hscan, ?_, hraw, congrArg _ htakes.value, htakes.escaped.trans hescaped, hend⟩
  rw [hspan]
  exact congrArg (Span.mk 0) (Nat.zero_add _)

theorem apart_nil : Apart [] := by simp [Apart]

/-- A name is scanned as itself. -/
theorem IsName.scansAsName [LawfulIdentifierChars version] (h : IsName token name) :
    ScansAsName name.toList token name := by
  obtain ⟨c, text, htext, hc⟩ := h.exists_start
  have hlexeme := readWordLexeme_append h.fits h.nonempty apart_nil
  rw [List.append_nil, htext, ← readLexeme_of_start hc] at hlexeme
  have hmarks : c ∉ ['/', '#', '<', '-'] := by
    simp only [List.mem_cons, List.not_mem_nil, or_false, not_or]
    exact ⟨ne_of_start hc rfl, ne_of_start hc rfl, ne_of_start hc rfl, ne_of_start hc rfl⟩
  have hscans := scansAsName_of_readLexeme hlexeme
    (fun html => opensToken_of_not_mem hmarks (not_isLineTerminator_of_start hc)
      (not_isInlineSpace_of_start hc) text) rfl rfl
  rw [← htext] at hscans
  rw [h.token_eq]
  simpa [Lexeme.plain, TokenValue.slice] using hscans

/-- A name behind a number sign is scanned as a private name. -/
theorem scansAsName_private (hfits : FitsName true name.toList) (hne : name.toList ≠ []) :
    ScansAsName ('#' :: name.toList) .privateName name := by
  obtain ⟨c, text, htext⟩ := List.exists_cons_of_ne_nil hne
  have hc : isIdentifierStart c = true := by
    rw [htext] at hfits
    exact hfits.2.1
  have hword := readWordFrom_append apart_nil name.toList true 1 hfits fun h => absurd h hne
  rw [List.append_nil] at hword
  have hread : readLexeme ('#' :: name.toList) = .ok (Lexeme.plain .privateName
      (1 + name.toList.length) (TokenValue.ofPieces (name.toList.map Piece.plain))) := by
    have hprivate : readLexeme ('#' :: name.toList) = readPrivateLexeme ('#' :: name.toList) := rfl
    have hstart :
        (('#' :: name.toList)[1]?.any fun c => c == '\\' || isIdentifierStart c) = true := by
      rw [htext]
      simp [hc]
    rw [hprivate, readPrivateLexeme, if_pos hstart, readWord, List.drop_succ_cons, List.drop_zero,
      hword]
    rfl
  have hopens : ∀ html, OpensToken html true 0 '#' name.toList := by
    refine fun html => ⟨rfl, rfl, by decide, ?_⟩
    rw [htext]
    unfold lineCommentOpening?
    split
    · rename_i heq
      have hmark : c = '!' := (List.cons.inj (List.cons.inj heq).2).1
      exact absurd hmark (ne_of_start hc rfl)
    all_goals first | rfl | (rename_i heq; cases heq)
  have hscans := scansAsName_of_readLexeme hread hopens (Nat.add_comm 1 _) rfl
  simpa [Lexeme.plain, TokenValue.ofPieces, value_map_plain] using hscans

/-- The value of a word that is scanned, scanned alone, is one word of the same kind and the same
value, without escapes; so is that of a private name, behind a number sign. -/
theorem scan_decodedName [LawfulIdentifierChars version] (h : scan s = .ok token s') :
    (token.isWord = true → ScansAsName s'.value.text.toList token s'.value.text) ∧
    (token = .privateName → ScansAsName
    ('#' :: s'.value.text.toList) .privateName s'.value.text) := by
  by_cases hend : token = .endOfSource
  · subst hend
    exact ⟨nofun, nofun⟩
  obtain ⟨start, lexeme, hskips, hread, rfl, htakes⟩ := readLexeme_of_scan h hend
  rw [htakes.value]
  constructor
  · intro hword
    have hne : start.rest ≠ [] := by
      intro hnil
      rw [hnil] at hread
      cases hread
    have hfits := readLexeme_fits hne
    rw [hread] at hfits
    have hlexeme := word_of_readLexeme hread hword
    exact (isName_of_readWordLexeme hlexeme hfits.pos).scansAsName
  · intro hprivate
    have hreader := readBy_of_readLexeme hread
    rw [hprivate] at hreader
    obtain ⟨rest, hrest, hlexeme⟩ := hreader
    rw [hrest] at hlexeme
    obtain ⟨hfits, hne⟩ := fitsName_of_readPrivateLexeme hlexeme
    exact scansAsName_private hfits hne

end Tokens

end Names

/-- A keyword with escapes of both forms, and a private name that starts with an escaped pair. -/
theorem scan_decodedName_escaped : ∃ s s',
    scan (State.initial "v\\u0061\\u{72} #\\uD835\\uDCD0b".toList false false) = .ok .varKeyword s ∧
    s.flags.escaped = true ∧ scan s = .ok .privateName s' ∧
    ScansAsName "var".toList .varKeyword "var" ∧ ScansAsName "#𝓐b".toList .privateName "𝓐b" := by
  have hrun : ∃ s s', scan (State.initial "v\\u0061\\u{72} #\\uD835\\uDCD0b".toList false false) =
      .ok .varKeyword s ∧ s.value.text = "var" ∧ s.flags.escaped = true ∧
        scan s = .ok .privateName s' ∧ s'.value.text = "𝓐b" :=
    ⟨_, _, by rfl, by rfl, by rfl, by rfl, by rfl⟩
  obtain ⟨s, s', hword, hvar, hescaped, hprivate, hname⟩ := hrun
  refine ⟨s, s', hword, hescaped, hprivate, ?_, ?_⟩
  · rw [← hvar]
    exact (scan_decodedName hword).1 rfl
  · have hscans := (scan_decodedName hprivate).2 rfl
    rw [hname] at hscans
    exact hscans

section Starts

variable {version : Nat} [Unicode.IdentifierChars version]

variable {α : Type} {s : State} {text : List Char} {lexeme : Lexeme}

/-- The first characters of literals, apart from the keywords among them. -/
def opensLiteral (c : Char) : Bool :=
  c == '\'' || c == '"' || c == '/' || c == '.' || isAsciiDigit c

/-- The text starts like a literal. -/
def OpensLiteral (text : List Char) : Prop :=
  ∃ c rest, text = c :: rest ∧ opensLiteral c = true

/-- What is known of the current token if it is a word, a string or a number. -/
structure State.IsLegible (s : State) : Prop where
  name : s.token.isWord = true → FitsName true s.value.text.toList ∧ s.value.text.toList ≠ []
  plain : s.token.isWord = true → s.flags.escaped = false → s.raw = s.value.text.toList
  literal : lexemeKind s.token = .string ∨ lexemeKind s.token = .number → OpensLiteral s.start.rest
  digits : s.token = .bigIntLiteral → OpensLiteral s.value.text.toList

namespace OpensLiteral

theorem cons {c : Char} (h : opensLiteral c = true) (text : List Char) : OpensLiteral (c :: text) :=
  ⟨c, text, rfl, h⟩

theorem of_initial {first : List Char} (h : OpensLiteral text) (hinitial : first <+: text)
    (hne : first ≠ []) : OpensLiteral first := by
  obtain ⟨c, rest, rfl, hc⟩ := h
  obtain ⟨after, heq⟩ := hinitial
  cases first with
  | nil => exact absurd rfl hne
  | cons d more =>
    obtain ⟨rfl, -⟩ := List.cons.inj heq
    exact cons hc more

/-- What is left out starts no literal. -/
theorem filter {keeps : Char → Bool} (h : OpensLiteral text)
    (hkeeps : ∀ c, opensLiteral c = true → keeps c = true) : OpensLiteral (text.filter keeps) := by
  obtain ⟨c, rest, rfl, hc⟩ := h
  rw [List.filter_cons_of_pos (hkeeps c hc)]
  exact cons hc _

end OpensLiteral

theorem State.IsLegible.restore {now : State} (h : s.IsLegible) : (s.restore now).IsLegible :=
  ⟨h.name, h.plain, h.literal, h.digits⟩

theorem State.IsLegible.setComments {comments : List Comment} (h : s.IsLegible) :
    State.IsLegible { s with comments := comments } := ⟨h.name, h.plain, h.literal, h.digits⟩

/-- A token that is none of those. -/
theorem isLegible_of_kind (h : lexemeKind s.token = .sign ∨ lexemeKind s.token = .chunk) :
    s.IsLegible := by
  have hword : s.token.isWord = false := by
    refine Bool.eq_false_iff.mpr fun hword => ?_
    rw [lexemeKind_of_isWord hword] at h
    simp at h
  refine ⟨fun h' => ?_, fun h' => ?_, fun h' => ?_, fun h' => ?_⟩
  · simp [hword] at h'
  · simp [hword] at h'
  · rcases h with h | h <;> simp [h] at h'
  · rw [h', show lexemeKind .bigIntLiteral = .number from rfl] at h
    simp at h

section Lexemes

/-- The text of a word without escapes is its value. -/
theorem take_readWordLexeme (h : readWordLexeme text = .ok lexeme)
    (hescaped : lexeme.escaped = false) :
    text.take lexeme.length = lexeme.value.text.toList := by
  obtain ⟨⟨pieces, stop⟩, hread, h⟩ := except_bind_ok h
  cases h
  have hspans := readWordFrom_within text true 0 0
  rw [show readWordFrom true 0 0 text = .ok (pieces, stop) from hread] at hspans
  replace hspans : Spans 0 ([] : List Char).length text [] pieces stop := hspans
  obtain ⟨body, htake, hvalue⟩ := hspans.exists_take
  rw [List.nil_append, List.nil_append, List.append_nil] at htake
  have hplain : Piece.areVerbatim pieces = true := by simpa [TokenValue.ofPieces] using hescaped
  rw [hvalue hplain] at htake
  exact htake.trans (toList_ofPieces pieces).symm

/-- A point starts a punctuator unless a digit follows. -/
theorem readPunctuator?_point (h : readPunctuator? ('.' :: text) = none) :
    text.head?.any isAsciiDigit = true := by
  unfold readPunctuator? at h
  split at h
  all_goals first
    | (cases h; done)
    | skip
  case h_14 heq =>
    cases heq
    split at h
    · assumption
    · cases h
  case h_17 heq => cases heq
  case h_54 => exact absurd rfl (‹∀ rest : List Char, '.' :: text = '.' :: rest → False› text)

/-- Only a digit, or a point before one, starts a number. -/
theorem startsNumeral_of_readLexeme (h : readLexeme text = .ok lexeme)
    (hkind : lexemeKind lexeme.token = .number) : StartsNumeral text := by
  unfold readLexeme at h
  split at h
  · rename_i token length hsign
    cases h
    cases (readPunctuator?_kind hsign).symm.trans hkind
  rename_i hsign
  split at h
  · cases h
  split at h
  · cases (readStringLexeme_kind h).symm.trans hkind
  split at h
  · cases (lexemeKind_of_isTemplate (readChunkLexeme_isTemplate h)).symm.trans hkind
  split at h
  · rename_i c rest _ _ hc
    rcases Bool.or_eq_true_iff.mp hc with hdigit | hpoint
    · exact .inl hdigit
    · obtain rfl := beq_iff_eq.mp hpoint
      obtain ⟨d, hd, hdigit⟩ := (Option.any_eq_true _ _).mp (readPunctuator?_point hsign)
      obtain ⟨more, rfl⟩ := List.head?_eq_some_iff.mp hd
      exact .inr ⟨d, more, rfl, hdigit⟩
  split at h
  · cases (readPrivateLexeme_kind h).symm.trans hkind
  split at h
  · cases (lexemeKind_of_isWord (readWordLexeme_isWord h)).symm.trans hkind
  · cases h

theorem opensLiteral_of_startsNumeral (h : StartsNumeral text) : OpensLiteral text := by
  rcases h with hdigit | ⟨d, rest, rfl, -⟩
  · obtain ⟨c, hc, hascii⟩ := (Option.any_eq_true _ _).mp hdigit
    obtain ⟨rest, rfl⟩ := List.head?_eq_some_iff.mp hc
    exact .cons (by simp [opensLiteral, hascii]) rest
  · exact .cons rfl _

theorem opensLiteral_of_readLexeme (h : readLexeme text = .ok lexeme)
    (hkind : lexemeKind lexeme.token = .string ∨ lexemeKind lexeme.token = .number) :
    OpensLiteral text := by
  rcases hkind with hkind | hkind
  · have hreader := readBy_of_readLexeme h
    rw [hkind] at hreader
    obtain ⟨quote, rest, rfl, hquote, -⟩ := hreader
    exact .cons (by rcases hquote with rfl | rfl <;> decide) rest
  · exact opensLiteral_of_startsNumeral (startsNumeral_of_readLexeme h hkind)

/-- The digits of a bigint are those of its text. -/
theorem opensLiteral_digits (h : readLexeme text = .ok lexeme)
    (htoken : lexeme.token = .bigIntLiteral) : OpensLiteral lexeme.value.text.toList := by
  have hstarts : StartsNumeral text :=
    startsNumeral_of_readLexeme h (by rw [htoken]; rfl)
  obtain ⟨form, p, rest, heq, hlongest, -⟩ := isRead_numeral hstarts
  have hread := readLexeme_longest hstarts heq hlongest
  rw [h] at hread
  obtain ⟨-, hnumeral⟩ := hread
  have hne : text ≠ [] := by
    rintro rfl
    cases h
  have hfits := readLexeme_fits hne
  rw [h] at hfits
  have hform : form = .bigint := by
    have hsame := hnumeral.token.symm.trans htoken
    cases form <;> first | rfl | cases hsame
  rw [hnumeral.value hform, String.toList_ofList]
  refine .filter ?_ fun c hc => ?_
  · refine (opensLiteral_of_startsNumeral hstarts).of_initial (heq ▸ List.prefix_append p rest) ?_
    rintro rfl
    exact absurd hnumeral.length (Nat.pos_iff_ne_zero.mp hfits.pos)
  · rw [Bool.and_eq_true, bne_iff_ne, bne_iff_ne]
    constructor <;> rintro rfl <;> exact absurd hc (by decide)

end Lexemes

/-- The lexer stands in the text, and its token is legible. -/
structure Oriented (text : List Char) (s : State) : Prop extends Situated text s where
  legible : s.IsLegible

theorem oriented_initial (text : List Char) (html collect : Bool) :
    Oriented text (State.initial text html collect) :=
  ⟨situated_initial text html collect, isLegible_of_kind (.inl rfl)⟩

/-- The step leaves a legible token behind. -/
class Legible (step : Lexer α) : Prop where
  isLegible : ∀ s, s.IsLegible → Yields step (fun _ s' => s'.IsLegible) s

theorem State.Takes.isLegible {start : Cursor} (h : s.Takes start lexeme)
    (hread : readLexeme start.rest = .ok lexeme) : s.IsLegible := by
  have hne : start.rest ≠ [] := by
    intro hnil
    rw [hnil] at hread
    cases hread
  have hfits := readLexeme_fits hne
  rw [hread] at hfits
  refine ⟨fun hword => ?_, fun hword hescaped => ?_, fun hkind => ?_, fun htoken => ?_⟩
  · rw [h.token] at hword
    rw [h.value]
    have hname := isName_of_readWordLexeme (word_of_readLexeme hread hword) hfits.pos
    exact ⟨hname.fits, hname.nonempty⟩
  · rw [h.token] at hword
    rw [h.escaped] at hescaped
    have htake := take_readWordLexeme (word_of_readLexeme hread hword) hescaped
    have hlength : lexeme.length = (start.rest.take lexeme.length).length :=
      (List.length_take_of_le hfits.le).symm
    obtain ⟨-, hraw, -⟩ := h.extent (List.take_append_drop lexeme.length start.rest).symm hlength
    rw [hraw, h.value, htake]
  · rw [h.token] at hkind
    rw [h.start]
    exact opensLiteral_of_readLexeme hread hkind
  · rw [h.token] at htoken
    rw [h.value]
    exact opensLiteral_digits hread htoken

/-- A token that is read anew is legible, whatever the last one was. -/
theorem scan_isLegible (s : State) : Yields scan (fun _ s' => s'.IsLegible) s := by
  refine Meets.yields_iff.mpr fun token s' hscan => ?_
  by_cases hend : token = .endOfSource
  · refine isLegible_of_kind (.inl ?_)
    rw [(scan_yields_token s).result hscan, hend]
    rfl
  · obtain ⟨start, lexeme, -, hread, -, htakes⟩ := readLexeme_of_scan hscan hend
    exact htakes.isLegible hread

instance : Legible scan := ⟨fun s _ => scan_isLegible s⟩

instance {β : Type} {step : Lexer α} {rest : α → Lexer β} [h : Legible step]
    [hrest : ∀ a, Legible (rest a)] : Legible (step >>= rest) :=
  ⟨fun s hs => (h.isLegible s hs).bind fun a s' hs' => (hrest a).isLegible s' hs'⟩

theorem mergeGreaterThan_kind (text : List Char) :
    lexemeKind (mergeGreaterThan text).1 = .sign := by
  unfold mergeGreaterThan
  split <;> rfl

instance : Legible rescanGreaterThan := by
  refine ⟨fun s hs => ?_⟩
  unfold rescanGreaterThan
  refine .run rfl ?_
  split
  · exact .run rfl (.pure (isLegible_of_kind (.inl (mergeGreaterThan_kind _))))
  · exact .pure hs

instance : Legible rescanTemplate := by
  refine ⟨fun s _ => ?_⟩
  unfold rescanTemplate
  refine .run rfl ((ofReading_yields _ _ s).bind fun lexeme _ h => .run rfl (.pure ?_))
  exact isLegible_of_kind (.inr (lexemeKind_of_isTemplate (readChunkLexeme_isTemplate h.1)))

instance : Legible rescanRegex := by
  refine ⟨fun s _ => ?_⟩
  unfold rescanRegex
  exact .run rfl (.skip fun literal _ => .run rfl (.pure (isLegible_of_kind (.inl rfl))))

instance : Legible scanMarkupChild := by
  refine ⟨fun s _ => ?_⟩
  unfold scanMarkupChild
  refine .run rfl (.run rfl ?_)
  split
  · exact .run rfl (.run rfl (.pure (isLegible_of_kind (.inl rfl))))
  · exact .run rfl (.run rfl (.pure (isLegible_of_kind (.inl rfl))))
  · exact .run rfl (.run rfl (.pure (isLegible_of_kind (.inl rfl))))
  · exact Meets.skip fun body _ => .run rfl (.run rfl (.pure (isLegible_of_kind (.inl rfl))))

instance : Legible scanMarkupAttributeValue := by
  refine ⟨fun s _ => ?_⟩
  unfold scanMarkupAttributeValue
  refine ((beginToken_meets s).weaken fun _ _ => trivial).bind fun _ s₁ hbegun => .run rfl ?_
  obtain ⟨gap, comments, hbegun⟩ := hbegun
  dsimp only
  split
  · rename_i quote text heq
    split
    · rename_i hquote
      split
      · refine .run rfl (.pure ⟨nofun, nofun, fun _ => ?_, nofun⟩)
        change OpensLiteral s₁.start.rest
        rw [hbegun.start, heq]
        refine .cons ?_ text
        rcases Bool.or_eq_true_iff.mp hquote with h | h <;> cases beq_iff_eq.mp h <;> decide
      · trivial
    · exact scan_isLegible s₁
  · exact scan_isLegible s₁

end Starts

end EcmaSyntax.Lexer
