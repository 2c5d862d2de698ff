import EcmaSyntax.Proofs.Lexer.DecimalForms
import EcmaSyntax.Unicode.IdentifierRanges

/-!
Numerals as tokens. Where a numeral starts, a token is scanned that has the text and the value of
the longest word of the grammar there, or the text is refused for what follows that word.
-/

namespace EcmaSyntax.Lexer

open EcmaSyntax.Diagnostic EcmaSyntax.Number EcmaSyntax.Text EcmaSyntax.Unicode

section Tokens

variable {version : Nat} [Unicode.IdentifierChars version]

variable {s : State} {start : Cursor} {form : NumeralForm} {p rest : List Char}

/-- Of two longest numerals at the start of one text neither is longer. -/
theorem Longest.unique {form' : NumeralForm} {p' rest' : List Char} (h : Longest form p rest)
    (h' : Longest form' p' rest') (heq : p ++ rest = p' ++ rest') : form = form' ∧ p = p' := by
  rcases h'.longest form p rest h.spells heq with hsame | hlt
  · exact hsame
  · rcases h.longest form' p' rest' h'.spells heq.symm with hsame | hlt'
    · exact ⟨hsame.1.symm, hsame.2.symm⟩
    · exact absurd hlt (Nat.lt_asymm hlt')

def NumeralForm.token : NumeralForm → Token
  | .bigint => .bigIntLiteral
  | _ => .numericLiteral

/-- The next token of the lexer starts at the cursor. -/
def State.SkipsTo (s : State) (start : Cursor) : Prop :=
  ∃ trivia, readTrivia s.htmlComments s.atLineStart s.cursor.offset s.cursor.rest = .ok trivia ∧
    start = s.cursor.advance trivia.length

/-- The current token is the numeral, which starts at the cursor. -/
structure State.HasNumeral (s : State) (start : Cursor) (form : NumeralForm) (p : List Char) :
    Prop where
  token : s.token = form.token
  span : s.span = ⟨start.offset, start.offset + byteLength p⟩
  raw : s.raw = p
  legacyOctal : s.flags.legacyOctal = true ↔ form = .legacyOctal
  nonOctalDecimal : s.flags.nonOctalDecimal = true ↔ form = .nonOctalDecimal
  value : form = .bigint → s.value.text = String.ofList (p.filter fun c => c != '_' && c != 'n')

/-- The current token is the lexeme at the cursor. -/
structure State.Holds (s : State) (place : Cursor) (lexeme : Lexeme) : Prop where
  start : s.start = place
  cursor : s.cursor = place.advance lexeme.length
  token : s.token = lexeme.token
  value : s.value = lexeme.value
  octalEscape : s.flags.octalEscape = lexeme.octalEscape
  legacyOctal : s.flags.legacyOctal = lexeme.legacyOctal
  nonOctalDecimal : s.flags.nonOctalDecimal = lexeme.nonOctalDecimal

/-- A token of as many characters stands in the text. -/
theorem State.extent_of_advance (hstart : s.start = start) (heq : start.rest = p ++ rest)
    (hcursor : s.cursor = start.advance p.length) :
    s.span = ⟨start.offset, start.offset + byteLength p⟩ ∧ s.raw = p ∧ s.cursor.rest = rest := by
  have hreach := Cursor.reaches_advance_of_rest heq
  rw [← hcursor] at hreach
  refine ⟨?_, ?_, ?_⟩
  · rw [State.span, hstart, hreach.offset]
  · rw [State.raw, hstart]
    exact hreach.textTo
  · exact List.append_cancel_left (hreach.rest.symm.trans heq)

theorem State.Holds.extent {lexeme : Lexeme} (h : s.Holds start lexeme)
    (heq : start.rest = p ++ rest)
    (hlength : lexeme.length = p.length) :
    s.span = ⟨start.offset, start.offset + byteLength p⟩ ∧ s.raw = p ∧ s.cursor.rest = rest :=
  State.extent_of_advance h.start heq (hlength ▸ h.cursor)

/-- The lexer at a token that starts at the cursor. -/
theorem State.SkipsTo.beginToken (h : s.SkipsTo start) :
    Meets (fun _ => False) Lexer.beginToken (fun _ s' => s'.cursor = start ∧ s'.start = start ∧
      ∃ lineBreak, s'.flags = { TokenFlags.none with lineBreakBefore := lineBreak }) s := by
  obtain ⟨trivia, htrivia, rfl⟩ := h
  unfold Lexer.beginToken
  refine .run rfl ?_
  rw [htrivia]
  exact .ok rfl ⟨rfl, rfl, _, rfl⟩

theorem mem_of_isAsciiDigit {c : Char} (hc : isAsciiDigit c = true) :
    c ∈ ['0', '1', '2', '3', '4', '5', '6', '7', '8', '9'] := by
  have hrange : 48 ≤ c.toNat ∧ c.toNat ≤ 57 := by
    simpa [isAsciiDigit, Char.le_def, UInt32.le_iff_toNat_le] using hc
  have hnat : c.toNat ∈ List.range' 48 10 := List.mem_range'_1.mpr ⟨hrange.1, by omega⟩
  rw [← Char.ofNat_toNat c]
  exact List.mem_map_of_mem (f := Char.ofNat) hnat

/-- A digit starts no punctuator. -/
theorem readPunctuator?_digit {c : Char} (hc : isAsciiDigit c = true) (text : List Char) :
    readPunctuator? (c :: text) = none := by
  have hdigits := mem_of_isAsciiDigit hc
  simp only [List.mem_cons, List.not_mem_nil, or_false] at hdigits
  rcases hdigits with rfl | rfl | rfl | rfl | rfl | rfl | rfl | rfl | rfl | rfl <;> rfl

theorem readLexeme_numeral {text : List Char} (h : StartsNumeral text) :
    readLexeme text = readNumberLexeme text := by
  rcases h with hdigit | ⟨d, text, rfl, hd⟩
  · obtain ⟨c, hhead, hc⟩ := (Option.any_eq_true _ _).mp hdigit
    obtain ⟨text, rfl⟩ := List.head?_eq_some_iff.mp hhead
    rw [readLexeme, readPunctuator?_digit hc]
    have hdigits := mem_of_isAsciiDigit hc
    simp only [List.mem_cons, List.not_mem_nil, or_false] at hdigits
    rcases hdigits with rfl | rfl | rfl | rfl | rfl | rfl | rfl | rfl | rfl | rfl <;> rfl
  · have hdigits := mem_of_isAsciiDigit hd
    simp only [List.mem_cons, List.not_mem_nil, or_false] at hdigits
    rcases hdigits with rfl | rfl | rfl | rfl | rfl | rfl | rfl | rfl | rfl | rfl <;> rfl

/-- The lexeme is the numeral. -/
structure Lexeme.IsNumeral (lexeme : Lexeme) (form : NumeralForm) (p : List Char) : Prop where
  token : lexeme.token = form.token
  length : lexeme.length = p.length
  legacyOctal : lexeme.legacyOctal = true ↔ form = .legacyOctal
  nonOctalDecimal : lexeme.nonOctalDecimal = true ↔ form = .nonOctalDecimal
  value : form = .bigint → lexeme.value.text =
    String.ofList (p.filter fun c => c != '_' && c != 'n')

/-- The longest numeral at the start of the text is read, unless something may not follow it. -/
theorem readLexeme_longest {text : List Char} (hstarts : StartsNumeral text)
    (heq : text = p ++ rest) (h : Longest form p rest) :
    (readLexeme text).Unless (Refused rest)
      fun lexeme => ¬ Refused rest ∧ lexeme.IsNumeral form p := by
  obtain ⟨form', p', rest', heq', hlongest, hread⟩ := isRead_numeral hstarts
  obtain ⟨rfl, rfl⟩ := hlongest.unique h (heq'.symm.trans heq)
  obtain rfl := List.append_cancel_left (heq'.symm.trans heq)
  rw [readLexeme_numeral hstarts]
  refine hread.bind id fun numeral ⟨hends, hnumeral⟩ => ?_
  split
  · rename_i value hvalue
    have hform := hnumeral.number value hvalue
    refine ⟨hends, ?_, hnumeral.stop, hnumeral.legacyOctal, hnumeral.nonOctalDecimal,
      fun hbigint => absurd hbigint hform⟩
    cases form' <;> first | rfl | exact absurd rfl hform
  · rename_i digits hvalue
    obtain ⟨rfl, rfl⟩ := hnumeral.bigint digits hvalue
    exact ⟨hends, rfl, hnumeral.stop, by simp [Lexeme.plain], by simp [Lexeme.plain], fun _ => rfl⟩

theorem ofReading_unless {α : Type} {reading : Reading α} {blocked : Prop} {P : α → Prop}
    (h : reading.Unless blocked P) (s : State) :
    Meets (fun _ => blocked) (ofReading start reading) (fun a s' => P a ∧ s' = s) s := by
  cases reading with
  | ok a => exact .pure ⟨h, rfl⟩
  | error found =>
    unfold ofReading raise
    dsimp only
    split
    · exact .error rfl h
    · exact .error rfl h

/-- The scan takes in the token that is read where it starts. -/
theorem scan_meets_lexeme {blocked : Prop} {P : Lexeme → Prop} (hskips : s.SkipsTo start)
    (hne : start.rest ≠ []) (h : (readLexeme start.rest).Unless blocked P) :
    Meets (fun _ => blocked) scan
      (fun token s' => ∃ lexeme, P lexeme ∧ token = lexeme.token ∧ s'.Holds start lexeme) s := by
  unfold scan
  refine (hskips.beginToken.weaken fun _ => False.elim).bind fun _ s₁ hs₁ => .run rfl ?_
  obtain ⟨hcursor, hstart, lineBreak, hflags⟩ := hs₁
  rw [hcursor, if_neg (by simpa using hne)]
  refine (ofReading_unless h s₁).bind fun lexeme s₂ hs₂ => ?_
  obtain ⟨hlexeme, rfl⟩ := hs₂
  refine .run rfl (.run rfl (.pure ⟨lexeme, hlexeme, rfl, hstart, rfl, rfl, rfl, ?_, ?_, ?_⟩))
  · change (s₂.flags.octalEscape || lexeme.octalEscape) = lexeme.octalEscape
    rw [hflags]
    rfl
  · change (s₂.flags.legacyOctal || lexeme.legacyOctal) = lexeme.legacyOctal
    rw [hflags]
    rfl
  · change (s₂.flags.nonOctalDecimal || lexeme.nonOctalDecimal) = lexeme.nonOctalDecimal
    rw [hflags]
    rfl

/-- The scan goes over what can be skipped. -/
theorem scan_yields_skipsTo (s : State) : Yields scan (fun _ _ => ∃ start, s.SkipsTo start) s := by
  have hbegin : Yields beginToken (fun _ _ => ∃ start, s.SkipsTo start) s := by
    unfold beginToken
    refine .run rfl ?_
    dsimp only
    split
    · exact .error rfl trivial
    · rename_i trivia htrivia
      exact .of_results fun _ _ => ⟨_, trivia, htrivia, rfl⟩
  unfold scan
  exact hbegin.bind fun _ s₁ hskips => .of_results fun _ _ => hskips

/-- The scan ends where nothing but what can be skipped stands before the end. -/
theorem State.SkipsTo.scan_atEnd (hskips : s.SkipsTo start) (hrest : start.rest = []) :
    ∃ s', scan s = .ok .endOfSource s' := by
  have hmeets : Meets (fun _ => False) scan (fun token _ => token = .endOfSource) s := by
    unfold scan
    refine hskips.beginToken.bind fun _ s₁ hs₁ => .run rfl ?_
    rw [hs₁.1, if_pos (by simp [hrest])]
    exact .run rfl (.pure rfl)
  obtain ⟨token, s', hscan, rfl⟩ := hmeets.exists_result
  exact ⟨s', hscan⟩

/-- Where a numeral starts, the scan succeeds unless something may not follow the longest one. -/
theorem scan_meets_numeral (hskips : s.SkipsTo start) (hstarts : StartsNumeral start.rest)
    (heq : start.rest = p ++ rest) (h : Longest form p rest) :
    Meets (fun _ => Refused rest)
      scan (fun token s' => ¬ Refused rest ∧ token = form.token ∧
        s'.HasNumeral start form p) s := by
  have hne : start.rest ≠ [] := by
    rw [heq]
    exact List.append_ne_nil_of_left_ne_nil h.spells.ne_nil _
  refine (scan_meets_lexeme hskips hne (readLexeme_longest hstarts heq h)).mono fun token s' hs' =>
    ?_
  obtain ⟨lexeme, ⟨hends, hnumeral⟩, rfl, hholds⟩ := hs'
  obtain ⟨hspan, hraw, -⟩ := hholds.extent heq hnumeral.length
  refine ⟨hends, hnumeral.token, hholds.token.trans hnumeral.token, hspan, hraw, ?_, ?_, ?_⟩
  · rw [hholds.legacyOctal]
    exact hnumeral.legacyOctal
  · rw [hholds.nonOctalDecimal]
    exact hnumeral.nonOctalDecimal
  · rw [hholds.value]
    exact hnumeral.value

/-- Where a digit stands, or a point before a digit, there is a longest numeral. The scan succeeds
if and only if no digit, backslash or character that starts a name follows that numeral, and its
token is then the numeral. -/
theorem scan_numeral (hskips : s.SkipsTo start) (hstarts : StartsNumeral start.rest) :
    (∃ form p rest, start.rest = p ++ rest ∧ Longest form p rest) ∧
    ∀ form p rest, start.rest = p ++ rest → Longest form p rest →
      ((∃ token s', scan s = .ok token s') ↔ ¬ Refused rest) ∧
      ∀ token s', scan s = .ok token s' → token = form.token ∧ s'.HasNumeral start form p := by
  constructor
  · obtain ⟨form, p, rest, heq, hlongest, -⟩ := isRead_numeral hstarts
    exact ⟨form, p, rest, heq, hlongest⟩
  · intro form p rest heq hlongest
    have hmeets := scan_meets_numeral hskips hstarts heq hlongest
    refine ⟨⟨fun ⟨token, s', hscan⟩ => (hmeets.result hscan).1, fun hends => ?_⟩,
      fun token s' hscan => (hmeets.result hscan).2⟩
    cases hscan : scan s with
    | ok token s' => exact ⟨token, s', rfl⟩
    | error failure s' => exact absurd (hmeets.failure hscan) hends

end Tokens

/-- A number that starts with a zero and is not octal, up to a second point. -/
theorem scan_numeral_nonOctal : ∃ (s : State) (start : Cursor), s.SkipsTo start ∧
    StartsNumeral start.rest ∧ start.offset = 1 ∧
    (∃ s', scan s = .ok .numericLiteral s' ∧ s'.span = ⟨1, 10⟩ ∧
      s'.flags.nonOctalDecimal = true) ∧
    ∃ form p rest, start.rest = p ++ rest ∧ Longest form p rest ∧ ¬ Refused rest := by
  have hskips : (State.initial " 08.5_1e+3.x".toList false false).SkipsTo
      ⟨1, "08.5_1e+3.x".toList⟩ := ⟨⟨[], false, true, 1⟩, by rfl, by rfl⟩
  have hstarts : StartsNumeral (Cursor.rest ⟨1, "08.5_1e+3.x".toList⟩) := .inl (by rfl)
  obtain ⟨⟨form, p, rest, heq, hlongest⟩, hscan⟩ := scan_numeral hskips hstarts
  obtain ⟨hiff, hresult⟩ := hscan form p rest heq hlongest
  have hrun : ∃ s', scan (State.initial " 08.5_1e+3.x".toList false false) =
      .ok .numericLiteral s' ∧ s'.span = ⟨1, 10⟩ ∧ s'.flags.nonOctalDecimal = true :=
    ⟨_, by rfl, by rfl, by rfl⟩
  obtain ⟨s', hok, hspan, hflag⟩ := hrun
  exact ⟨_, _, hskips, hstarts, rfl, ⟨s', hok, hspan, hflag⟩, form, p, rest, heq, hlongest,
    hiff.mp ⟨_, _, hok⟩⟩

end EcmaSyntax.Lexer
