import EcmaSyntax.Proofs.Lexer.CodeUnits
import EcmaSyntax.Proofs.Lexer.Tokens
import EcmaSyntax.Proofs.Lexer.Strings
import EcmaSyntax.Unicode.IdentifierRanges

/-!
Strings as tokens. The value of a string is the text that its code units spell, line by line: where
a line is continued, the unit before and the unit after do not make a pair.
-/

namespace EcmaSyntax.Lexer

open EcmaSyntax.Diagnostic EcmaSyntax.Text EcmaSyntax.Unicode

section

variable {version : Nat} [Unicode.IdentifierChars version]

section Extent

variable {quote c : Char} {v : Nat} {e : Escape} {text rest after body a b : List Char}
  {pieces : List Piece}

/-- Two texts that an escape before them does not tell apart. -/
def StartAlike (a b : List Char) : Prop :=
  ∀ c, (c = '\n' ∨ ∃ v, IsDigit 10 c v) → (c ∈ a.head? ↔ c ∈ b.head?)

theorem StartAlike.startsDigit (h : StartAlike a b) {base : Nat} (hbase : base ≤ 10) :
    StartsDigit base a ↔ StartsDigit base b := by
  refine exists_congr fun c => and_congr_left fun ⟨v, hv⟩ => ?_
  exact h c (.inr ⟨v, hv.mono hbase⟩)

theorem StartAlike.symm (h : StartAlike a b) : StartAlike b a := fun c hc => (h c hc).symm

/-- The marks that end a string or start an escape. -/
def stringMarks : List Char := ['"', '\'', '\\']

theorem IsDigit.not_mem_stringMarks (h : IsDigit 16 c v) : c ∉ stringMarks := by
  have hall : ∀ v < 16, v.digitChar ∉ stringMarks ∧ v.digitChar.toUpper ∉ stringMarks := by decide
  obtain ⟨hv, rfl | rfl⟩ := h
  · exact (hall v hv).1
  · exact (hall v hv).2

theorem SpellsCode.not_mem_stringMarks {spelled : List Char} {code : Nat}
    (h : SpellsCode spelled code) : ∀ d ∈ spelled, d ∉ stringMarks := by
  have hdigits : ∀ {digits values}, List.Forall₂ (IsDigit 16) digits values →
      ∀ d ∈ digits, d ∉ stringMarks := by
    intro digits values h
    induction h with
    | nil => exact nofun
    | cons hc _ ih => exact List.forall_mem_cons.mpr ⟨hc.not_mem_stringMarks, ih⟩
  cases h with
  | four h => exact hdigits h
  | braces h =>
    refine List.forall_mem_cons.mpr ⟨by decide, fun d hd => ?_⟩
    rcases List.mem_append.mp hd with hd | hd
    · exact hdigits h d hd
    · rw [List.mem_singleton.mp hd]
      decide

/-- An escape has a character, and none of those after it is a mark; it is the same escape before
any text that starts alike. -/
theorem IsEscape.exists_spelled (h : IsEscape text e after) :
    ∃ c more, text = c :: (more ++ after) ∧
    (∀ d ∈ more, d ∉ stringMarks) ∧
      ∀ other, StartAlike after other → IsEscape (c :: (more ++ other)) e other := by
  have hoctal : ∀ {b y}, IsDigit 8 b y → b ∉ stringMarks := fun hb =>
    (hb.mono (by decide)).not_mem_stringMarks
  cases h with
  | @single c d _ h => exact ⟨c, [], rfl, nofun, fun _ _ => .single h⟩
  | @other c _ h hc => exact ⟨c, [], rfl, nofun, fun _ _ => .other h hc⟩
  | null h =>
    refine ⟨'0', [], rfl, nofun, fun other hother => .null fun hdigit => h ?_⟩
    exact (hother.startsDigit (Nat.le_refl 10)).mpr hdigit
  | @hex a b x y _ ha hb =>
    refine ⟨'x', [a, b], rfl, ?_, fun _ _ => .hex ha hb⟩
    exact List.forall_mem_cons.mpr ⟨ha.not_mem_stringMarks,
      List.forall_mem_cons.mpr ⟨hb.not_mem_stringMarks, nofun⟩⟩
  | @unicode spelled code _ h =>
    exact ⟨'u', spelled, rfl, h.not_mem_stringMarks, fun _ _ => .unicode h⟩
  | @lineBreak c _ hc hnext =>
    refine ⟨c, [], rfl, nofun, fun other hother => .lineBreak hc fun hreturn hhead => ?_⟩
    exact hnext hreturn ((hother '\n' (.inl rfl)).mpr hhead)
  | lineBreakPair =>
    refine ⟨'\r', ['\n'], rfl, ?_, fun _ _ => .lineBreakPair⟩
    exact List.forall_mem_cons.mpr ⟨by decide, nofun⟩
  | octalZero h =>
    refine ⟨'0', [], rfl, nofun, fun other hother => .octalZero ?_⟩
    exact h.imp (hother '8' (.inr ⟨8, by decide⟩)).mp (hother '9' (.inr ⟨9, by decide⟩)).mp
  | @octal a x _ ha hpos hstop =>
    refine ⟨a, [], rfl, nofun, fun other hother => .octal ha hpos fun hdigit => hstop ?_⟩
    exact (hother.startsDigit (by decide : 8 ≤ 10)).mpr hdigit
  | @octalPair a b x y _ ha hb hstop =>
    refine ⟨a, [b], rfl, ?_, fun other hother => .octalPair ha hb fun hx hdigit => hstop hx ?_⟩
    · exact List.forall_mem_cons.mpr ⟨hoctal hb, nofun⟩
    · exact (hother.startsDigit (by decide : 8 ≤ 10)).mpr hdigit
  | @octalTriple a b c x y z _ ha hb hc hx =>
    refine ⟨a, [b, c], rfl, ?_, fun _ _ => .octalTriple ha hb hc hx⟩
    exact List.forall_mem_cons.mpr ⟨hoctal hb, List.forall_mem_cons.mpr ⟨hoctal hc, nofun⟩⟩
  | @nonOctal c _ hc => exact ⟨c, [], rfl, nofun, fun _ _ => .nonOctal hc⟩

/-- A quotation mark. -/
def IsQuote (c : Char) : Prop := c = '"' ∨ c = '\''

/-- An escape does not tell a quotation mark from the end. -/
theorem startAlike_quote (hquote : IsQuote quote) (body rest : List Char) :
    StartAlike (body ++ quote :: rest) body := by
  cases body with
  | nil =>
    rintro c hc
    refine iff_of_false (fun hmem => ?_) nofun
    obtain rfl : quote = c := Option.some.inj hmem
    rcases hc with rfl | ⟨v, hv⟩
    · rcases hquote with h | h <;> cases h
    · refine (hv.mono (by decide) : IsDigit 16 quote v).not_mem_stringMarks ?_
      rcases hquote with rfl | rfl <;> decide
  | cons d body => exact fun _ _ => Iff.rfl

/-- Nothing but a number starts with the letter of a number. -/
theorem IsEscape.unicode_of (h : IsEscape ('u' :: rest) e after) :
    ∃ spelled code, rest = spelled ++ after ∧ e = .codePoint code ∧ SpellsCode spelled code := by
  have hnot : ∀ {base x}, base ≤ 16 → ¬ IsDigit base 'u' x := fun hbase hx =>
    absurd (hexValue?_of_isDigit (hx.mono hbase)) nofun
  cases h with
  | single h => exact absurd h (by simp [singleEscapes])
  | other h => exact absurd h (by decide)
  | unicode h => exact ⟨_, _, rfl, rfl, h⟩
  | lineBreak hc => exact absurd hc (by decide)
  | octal ha => exact absurd ha (hnot (by decide))
  | octalPair ha => exact absurd ha (hnot (by decide))
  | octalTriple ha => exact absurd ha (hnot (by decide))
  | nonOctal hc => exact absurd hc (by decide)

theorem IsEscape.of_codePoint {code : Nat} (h : IsEscape text (.codePoint code) after) :
    ∃ spelled, text = 'u' :: (spelled ++ after) ∧ SpellsCode spelled code := by
  cases h with
  | unicode h => exact ⟨_, rfl, h⟩

/-- A low half behind a body is an escape of the body. -/
theorem IsStringBody.exists_low {second : List Char} {low : Nat} (hquote : IsQuote quote)
    (h : IsStringBody quote body pieces)
    (hlow : SpellsLow (body ++ quote :: rest) second low after) :
    ∃ more, pieces = .escape (.codePoint low) :: more := by
  have hrest := hlow.rest
  cases h with
  | nil =>
    obtain rfl := (List.cons.inj hrest).1
    rcases hquote with h | h <;> cases h
  | char hc =>
    obtain rfl := (List.cons.inj hrest).1
    simp at hc
  | @escape text e body pieces he =>
    obtain ⟨c, more, rfl, -, -⟩ := he.exists_spelled
    have htail := (List.cons.inj hrest).2
    obtain rfl : c = 'u' := (List.cons.inj htail).1
    have hmore : more ++ body ++ quote :: rest = second ++ after := (List.cons.inj htail).2
    obtain ⟨spelled, code, hspelled, rfl, hcode⟩ := he.unicode_of
    -- The number is read in one way only.
    have hread : readCodeUnit (second ++ after) = _ := readCodeUnit_of_spells hlow.spells
    rw [← hmore, List.append_cancel_right hspelled, List.append_assoc,
      readCodeUnit_of_spells hcode] at hread
    obtain ⟨rfl, -⟩ := Prod.mk.inj (Except.ok.inj hread)
    exact ⟨pieces, rfl⟩

end Extent

section Values

variable {quote c : Char} {e : Escape} {piece : Piece} {text rest after body : List Char}
  {pieces : List Piece}

/-- The code units that an escape contributes. -/
def Escape.units : Escape → List Nat
  | .char c | .legacy c => utf16 c.toNat
  | .codePoint code => utf16 code
  | .continuation => []

def Piece.units : Piece → List Nat
  | .plain c => utf16 c.toNat
  | .escape e => e.units
  | .lineBreak => utf16 '\n'.toNat
  | .invalid _ => []

/-- The code units of a string. -/
def codeUnits (pieces : List Piece) : List Nat := pieces.flatMap Piece.units

/-- The code units line by line, where a line ends if it is continued. -/
def lines : List Piece → List (List Nat)
  | [] => [[]]
  | .escape .continuation :: rest => [] :: lines rest
  | piece :: rest => (lines rest).modifyHead (piece.units ++ ·)

/-- The text that the lines spell one by one. -/
def spoken (pieces : List Piece) : List Char := (lines pieces).flatMap decodeUnits

theorem lines_cons (h : piece ≠ .escape .continuation) :
    lines (piece :: pieces) = (lines pieces).modifyHead (piece.units ++ ·) := by
  rw [lines]
  exact h

theorem exists_lines_cons (pieces : List Piece) : ∃ first more, lines pieces = first :: more := by
  induction pieces with
  | nil => exact ⟨[], [], rfl⟩
  | cons piece pieces ih =>
    obtain ⟨first, more, hlines⟩ := ih
    by_cases h : piece = .escape .continuation
    · exact ⟨[], lines pieces, by rw [h, lines]⟩
    · exact ⟨_, more, by rw [lines_cons h, hlines, List.modifyHead_cons]⟩

/-- Lines are cut out of the units of the string. -/
theorem flatten_lines (pieces : List Piece) : (lines pieces).flatten = codeUnits pieces := by
  induction pieces with
  | nil => rfl
  | cons piece pieces ih =>
    by_cases h : piece = .escape .continuation
    · rw [h, lines, List.flatten_cons, ih]
      rfl
    · obtain ⟨first, more, hlines⟩ := exists_lines_cons pieces
      rw [hlines, List.flatten_cons] at ih
      rw [lines_cons h, hlines, List.modifyHead_cons, List.flatten_cons, List.append_assoc, ih]
      rfl

theorem spoken_continuation (pieces : List Piece) :
    spoken (.escape .continuation :: pieces) = spoken pieces := by
  rw [spoken, lines, List.flatMap_cons]
  rfl

/-- A piece is spoken by itself unless it makes a pair with the unit after it on its line. -/
theorem spoken_cons (h : piece ≠ .escape .continuation)
    (halone : ∀ first more, lines pieces = first :: more →
      ¬(EndsHigh piece.units ∧ StartsLow first)) :
    spoken (piece :: pieces) = decodeUnits piece.units ++ spoken pieces := by
  obtain ⟨first, more, hlines⟩ := exists_lines_cons pieces
  rw [spoken, spoken, lines_cons h, hlines, List.modifyHead_cons, List.flatMap_cons,
    List.flatMap_cons, decodeUnits_append (halone first more hlines), List.append_assoc]

theorem utf16_of_surrogate {code : Nat} (h : code < 0xE000) : utf16 code = [code] :=
  if_pos (Nat.lt_trans h (by decide))

theorem spoken_pair {high low : Nat} (hhigh : isHighSurrogate high = true)
    (hlow : isLowSurrogate low = true) :
    spoken (.escape (.codePoint high) :: .escape (.codePoint low) :: pieces) =
      Char.ofNat (combineSurrogates high low) :: spoken pieces := by
  obtain ⟨first, more, hlines⟩ := exists_lines_cons pieces
  have hhighUnits : utf16 high = [high] :=
    utf16_of_surrogate (Nat.lt_trans (isHighSurrogate_iff.mp hhigh).2 (by decide))
  have hlowUnits : utf16 low = [low] := utf16_of_surrogate (isLowSurrogate_iff.mp hlow).2
  have hline : lines (.escape (.codePoint high) :: .escape (.codePoint low) :: pieces) =
      ([high] ++ ([low] ++ first)) :: more := by
    rw [lines_cons (by simp), lines_cons (by simp), hlines, List.modifyHead_cons,
      List.modifyHead_cons, ← hhighUnits, ← hlowUnits]
    rfl
  rw [spoken, spoken, hline, hlines, List.flatMap_cons, List.flatMap_cons, List.singleton_append,
    List.singleton_append, decodeUnits_pair hhigh hlow, List.cons_append]

/-- Only the escape of a code point ends with the first half of a pair. -/
theorem Escape.exists_high (h : EndsHigh e.units) :
    ∃ code, e = .codePoint code ∧ isHighSurrogate code = true := by
  cases e with
  | char c => exact absurd h (utf16_char c).1
  | legacy c => exact absurd h (utf16_char c).1
  | continuation => exact absurd h not_endsHigh_nil
  | codePoint code => exact ⟨code, rfl, endsHigh_utf16.mp h⟩

/-- What an escape stands for is what its units spell. -/
theorem IsEscape.decodeUnits_units (h : IsEscape text e after) :
    decodeUnits e.units = e.char?.toList := by
  cases e with
  | char c => exact decodeUnits_utf16_char c
  | legacy c => exact decodeUnits_utf16_char c
  | continuation => rfl
  | codePoint code =>
    obtain ⟨spelled, -, hcode⟩ := h.of_codePoint
    exact decodeUnits_utf16 hcode.le_max

/-- The first line of a body starts with the second half of a pair only if it is escaped. -/
theorem IsStringBody.exists_low_of_lines (h : IsStringBody quote body pieces) {first : List Nat}
    {more : List (List Nat)} (hlines : lines pieces = first :: more) (hlow : StartsLow first) :
    ∃ low others, pieces = .escape (.codePoint low) :: others ∧ isLowSurrogate low = true := by
  have hfirst : ∀ {piece rest}, lines (piece :: rest) = first :: more →
      piece ≠ .escape .continuation → ∃ others, first = piece.units ++ others := by
    intro piece rest hlines hpiece
    obtain ⟨others, more', hrest⟩ := exists_lines_cons rest
    rw [lines_cons hpiece, hrest, List.modifyHead_cons] at hlines
    exact ⟨others, (List.cons.inj hlines).1.symm⟩
  cases h with
  | nil =>
    obtain rfl := (List.cons.inj hlines).1
    exact absurd hlow not_startsLow_nil
  | char hc =>
    obtain ⟨others, rfl⟩ := hfirst hlines (by simp)
    exact absurd (startsLow_utf16_append.mp hlow) (utf16_char _).2
  | @escape text e body pieces he =>
    by_cases hcontinued : e = .continuation
    · subst hcontinued
      obtain rfl := (List.cons.inj hlines).1
      exact absurd hlow not_startsLow_nil
    obtain ⟨others, rfl⟩ := hfirst hlines (by simpa using hcontinued)
    cases e with
    | char c => exact absurd (startsLow_utf16_append.mp hlow) (utf16_char c).2
    | legacy c => exact absurd (startsLow_utf16_append.mp hlow) (utf16_char c).2
    | continuation => exact absurd rfl hcontinued
    | codePoint code =>
      obtain ⟨spelled, -, hcode⟩ := he.of_codePoint
      exact ⟨code, pieces, rfl, (startsLow_utf16 hcode.le_max).mp (startsLow_utf16_append.mp hlow)⟩

end Values

section Reading

variable {quote c : Char} {e : Escape} {text rest after body spelled : List Char}
  {pieces : List Piece} {index : Nat}

/-- Characters of an escape are passed over. -/
theorem readStringFrom_skip (spelled : List Char) : ∀ index,
    readStringFrom quote index spelled.length (spelled ++ after) =
      readStringFrom quote (index + spelled.length) 0 after := by
  induction spelled with
  | nil => exact fun index => rfl
  | cons c spelled ih =>
    intro index
    rw [List.cons_append, List.length_cons, readStringFrom, ih]
    congr 1
    omega

theorem IsQuote.ne_backslash (h : IsQuote quote) : quote ≠ '\\' := by
  rcases h with rfl | rfl <;> decide

theorem readStringFrom_escape (index : Nat) (hquote : IsQuote quote)
    (h : readEscape (spelled ++ after) = .ok (e, spelled.length)) :
    readStringFrom quote index 0 ('\\' :: (spelled ++ after)) = (do
      let (found, stop) ← readStringFrom quote (index + 1 + spelled.length) 0 after
      .ok (.escape e :: found, stop)) := by
  have hnot : ('\\' == quote) = false := by simpa using Ne.symm hquote.ne_backslash
  rw [readStringFrom, hnot, if_neg Bool.false_ne_true, if_pos (by decide), h]
  dsimp only
  rw [readStringFrom_skip]

theorem readStringFrom_char (hc : c ∉ [quote, '\\', '\n', '\r']) :
    readStringFrom quote index 0 (c :: text) = (do
      let (found, stop) ← readStringFrom quote (index + 1) 0 text
      .ok (.plain c :: found, stop)) := by
  simp only [List.mem_cons, List.not_mem_nil, or_false, not_or] at hc
  obtain ⟨hquote, hescape, hfeed, hreturn⟩ := hc
  rw [readStringFrom, if_neg (by simpa using hquote), if_neg (by simpa using hescape),
    if_neg (by simp [hfeed, hreturn])]

/-- A body is read up to the quotation mark behind it, and what is read has the value of the pieces
and a legacy escape if one of them is. -/
def ReadsAs (quote : Char) (body : List Char) (pieces : List Piece) : Prop :=
  ∀ index rest, ∃ found,
    readStringFrom quote index 0 (body ++ quote :: rest) = .ok (found, index + body.length + 1) ∧
      Piece.value found = spoken pieces ∧
        found.any Piece.isLegacyEscape = pieces.any Piece.isLegacyEscape

theorem ReadsAs.nil (quote : Char) : ReadsAs quote [] [] := by
  intro index rest
  refine ⟨[], ?_, rfl, rfl⟩
  rw [List.nil_append, readStringFrom, if_pos (by simp)]
  rfl

theorem ReadsAs.char (hc : c ∉ [quote, '\\', '\n', '\r']) (h : ReadsAs quote body pieces) :
    ReadsAs quote (c :: body) (.plain c :: pieces) := by
  intro index rest
  obtain ⟨found, hread, hvalue, hlegacy⟩ := h (index + 1) rest
  refine ⟨.plain c :: found, ?_, ?_, hlegacy⟩
  · rw [List.cons_append, readStringFrom_char hc, hread, List.length_cons]
    change Except.ok _ = _
    congr 2
    omega
  · have hspoken : spoken (.plain c :: pieces) = decodeUnits (utf16 c.toNat) ++ spoken pieces :=
      spoken_cons (by simp) fun _ _ _ hpair => (utf16_char c).1 hpair.1
    rw [hspoken, decodeUnits_utf16_char, ← hvalue]
    rfl

/-- An escape that is read before a body adds its character to the value. -/
theorem ReadsAs.of_readEscape {longer : List Piece} (hquote : IsQuote quote)
    (hread : ∀ rest, readEscape (spelled ++ (body ++ quote :: rest)) = .ok (e, spelled.length))
    (h : ReadsAs quote body pieces) (hvalue : spoken longer = e.char?.toList ++ spoken pieces)
    (hlegacy : longer.any Piece.isLegacyEscape = (.escape e :: pieces).any Piece.isLegacyEscape) :
    ReadsAs quote ('\\' :: (spelled ++ body)) longer := by
  intro index rest
  obtain ⟨found, hfound, hspoken, hany⟩ := h (index + 1 + spelled.length) rest
  refine ⟨.escape e :: found, ?_, ?_, ?_⟩
  · rw [List.cons_append, List.append_assoc,
      readStringFrom_escape index hquote (hread rest), hfound]
    change Except.ok _ = _
    congr 2
    simp only [List.length_cons, List.length_append]
    omega
  · have hfirst : Piece.value (.escape e :: found) = e.char?.toList ++ Piece.value found := by
      cases e <;> rfl
    rw [hfirst, hspoken, hvalue]
  · rw [hlegacy, List.any_cons, List.any_cons, hany]

/-- An escape that does not make a pair with the one after it. -/
theorem ReadsAs.escape (hquote : IsQuote quote) (he : IsEscape text e body)
    (hbody : IsStringBody quote body pieces)
    (halone : ∀ high, e = .codePoint high → isHighSurrogate high = true →
      ∀ low more, pieces = .escape (.codePoint low) :: more → isLowSurrogate low = false)
    (h : ReadsAs quote body pieces) : ReadsAs quote ('\\' :: text) (.escape e :: pieces) := by
  obtain ⟨c, more, rfl, -, hlocal⟩ := he.exists_spelled
  have hread : ∀ rest, readEscape (c :: more ++ (body ++ quote :: rest)) =
      .ok (e, (c :: more).length) := by
    intro rest
    have hsolo : IsAlone e (body ++ quote :: rest) := by
      rintro high he hhigh ⟨second, low, after, hlow⟩
      obtain ⟨others, hpieces⟩ := hbody.exists_low hquote hlow
      have hnot := halone high he hhigh low others hpieces
      rw [hlow.isLow] at hnot
      cases hnot
    have hbefore := hlocal _ (startAlike_quote hquote body rest).symm
    rw [← List.cons_append] at hbefore
    obtain ⟨spelled, htext, hread⟩ := readEscape_of_isEscape hbefore hsolo
    obtain rfl := List.append_cancel_right htext
    exact hread
  refine .of_readEscape hquote hread h ?_ rfl
  rw [← he.decodeUnits_units]
  by_cases hcontinued : e = .continuation
  · rw [hcontinued, spoken_continuation]
    rfl
  · have hpiece : Piece.escape e ≠ .escape .continuation := by simpa using hcontinued
    refine spoken_cons hpiece fun first others hlines hpair => ?_
    obtain ⟨high, rfl, hhigh⟩ := Escape.exists_high hpair.1
    obtain ⟨low, others, hpieces, hlow⟩ := hbody.exists_low_of_lines hlines hpair.2
    rw [halone high rfl hhigh low others hpieces] at hlow
    cases hlow

/-- Two escapes that make a pair. -/
theorem ReadsAs.pair {first second : List Char} {high low : Nat} (hquote : IsQuote quote)
    (hfirst : SpellsCode first high) (hhigh : isHighSurrogate high = true)
    (hsecond : SpellsCode second low) (hlow : isLowSurrogate low = true)
    (h : ReadsAs quote body pieces) :
    ReadsAs quote ('\\' :: 'u' :: (first ++ '\\' :: 'u' :: (second ++ body)))
      (.escape (.codePoint high) :: .escape (.codePoint low) :: pieces) := by
  have hread : ∀ rest, readEscape ('u' :: (first ++ '\\' :: 'u' :: second) ++
    (body ++ quote :: rest)) =
      .ok (.codePoint (combineSurrogates high low),
        ('u' :: (first ++ '\\' :: 'u' :: second)).length) := by
    intro rest
    have hpair := readCodePoint_pair hfirst hhigh
      ⟨show '\\' :: 'u' :: (second ++ (body ++ quote :: rest)) = _ from rfl, hsecond, hlow⟩
    rw [List.cons_append, List.append_assoc, List.cons_append, List.cons_append, readEscape_unicode,
      hpair]
    simp only [List.length_cons, List.length_append]
    congr 2
    omega
  have happend : '\\' :: 'u' :: (first ++ '\\' :: 'u' :: (second ++ body)) =
      '\\' :: ('u' :: (first ++ '\\' :: 'u' :: second) ++ body) := by simp
  rw [happend]
  refine .of_readEscape hquote hread h ?_ ?_
  · rw [spoken_pair hhigh hlow, ← scalarOrReplacement_combine hhigh hlow]
    rfl
  · simp only [List.any_cons, Piece.isLegacyEscape, Bool.false_or]

/-- Every body is read as its pieces, which are taken two at a time where they make a pair. -/
theorem readsAs (hquote : IsQuote quote) (h : IsStringBody quote body pieces) :
    ReadsAs quote body pieces := by
  -- A pair takes two escapes at once, so the induction is on the length.
  induction hlength : body.length using Nat.strong_induction_on generalizing body pieces with
  | h n ih =>
    cases h with
    | nil => exact .nil quote
    | @char c body pieces hc hbody =>
      exact .char hc (ih body.length (by simp [← hlength]) hbody rfl)
    | @escape text e body pieces he hbody =>
      obtain ⟨c, more, htext, -, -⟩ := he.exists_spelled
      have hshorter : body.length < n := by
        rw [← hlength, htext]
        simp only [List.length_cons, List.length_append]
        omega
      by_cases hpair : ∃ high low others, e = .codePoint high ∧ isHighSurrogate high = true ∧
          pieces = .escape (.codePoint low) :: others ∧ isLowSurrogate low = true
      · obtain ⟨high, low, others, rfl, hhigh, rfl, hlow⟩ := hpair
        obtain ⟨first, rfl, hfirst⟩ := he.of_codePoint
        cases hbody with
        | @escape text _ body _ hnext hrest =>
          obtain ⟨second, rfl, hsecond⟩ := hnext.of_codePoint
          refine .pair hquote hfirst hhigh hsecond hlow (ih body.length ?_ hrest rfl)
          simp only [List.length_cons, List.length_append] at hshorter
          omega
      · refine .escape hquote he hbody (fun high he hhigh low others hpieces => ?_)
          (ih body.length hshorter hbody rfl)
        exact Bool.eq_false_iff.mpr fun hlow => hpair ⟨high, low, others, he, hhigh, hpieces, hlow⟩

/-- An escape that is read is one of the grammar, or two of them make a pair. -/
theorem isEscape_of_readEscape {length : Nat} (h : readEscape text = .ok (e, length)) :
    (∃ e', IsEscape text e' (text.drop length)) ∨
      ∃ high middle low, IsEscape text (.codePoint high) ('\\' :: middle) ∧
        IsEscape middle (.codePoint low) (text.drop length) := by
  obtain ⟨e', after, he⟩ := exists_isEscape h
  by_cases halone : IsAlone e' after
  · obtain ⟨spelled, rfl, hread⟩ := readEscape_of_isEscape he halone
    cases h.symm.trans hread
    refine .inl ⟨e, ?_⟩
    rwa [List.drop_left]
  · unfold IsAlone at halone
    push Not at halone
    obtain ⟨high, rfl, hhigh, second, low, rest, hlow⟩ := halone
    obtain ⟨first, rfl, hfirst⟩ := he.of_codePoint
    have hread := readEscape_unicode (first ++ after)
    rw [readCodePoint_pair hfirst hhigh hlow] at hread
    cases h.symm.trans hread
    have hdrop : ('u' :: (first ++ after)).drop (first.length + 2 + second.length + 1) = rest := by
      have happend : 'u' :: (first ++ after) = 'u' :: (first ++ '\\' :: 'u' :: second) ++ rest := by
        simp [hlow.rest]
      rw [happend]
      refine List.drop_left' ?_
      simp only [List.length_cons, List.length_append]
      omega
    refine .inr ⟨high, 'u' :: (second ++ rest), low, ?_, ?_⟩
    · rw [← hlow.rest]
      exact he
    · rw [hdrop]
      exact .unicode hlow.spells

/-- What is read behind the letter of a number: two halves of a pair, or one number that no low half
follows if it is a high one. -/
theorem spells_of_readEscape {length : Nat} (h : readEscape ('u' :: text) = .ok (e, length)) :
    ∃ spelled first after, text = spelled ++ after ∧ SpellsCode spelled first ∧
      ((e = .codePoint first ∧ length = spelled.length + 1 ∧
        (isHighSurrogate first = true → ¬ ∃ second low rest, SpellsLow after second low rest)) ∨
      ∃ second low rest, isHighSurrogate first = true ∧ SpellsLow after second low rest ∧
        e = .codePoint (combineSurrogates first low) ∧
          length = spelled.length + 2 + second.length + 1) := by
  obtain ⟨e', after, he⟩ := exists_isEscape h
  obtain ⟨spelled, first, rfl, rfl, hfirst⟩ := he.unicode_of
  refine ⟨spelled, first, after, rfl, hfirst, ?_⟩
  rw [readEscape_unicode] at h
  by_cases hpair : isHighSurrogate first = true ∧ ∃ second low rest, SpellsLow after second low rest
  · obtain ⟨hhigh, second, low, rest, hlow⟩ := hpair
    rw [readCodePoint_pair hfirst hhigh hlow] at h
    cases h
    exact .inr ⟨second, low, rest, hhigh, hlow, rfl, rfl⟩
  · rw [readCodePoint_single hfirst hpair] at h
    cases h
    exact .inl ⟨rfl, rfl, fun hhigh hlow => hpair ⟨hhigh, hlow⟩⟩

theorem unicode_of_readEscape {code length : Nat}
    (h : readEscape text = .ok (.codePoint code, length)) :
    ∃ rest, text = 'u' :: rest := by
  obtain ⟨e, after, he⟩ := exists_isEscape h
  by_cases hcode : ∃ first, e = .codePoint first
  · obtain ⟨first, rfl⟩ := hcode
    obtain ⟨spelled, htext, -⟩ := he.of_codePoint
    exact ⟨spelled ++ after, htext⟩
  · obtain ⟨spelled, -, hread⟩ := readEscape_of_isEscape he fun first hfirst =>
      absurd ⟨first, hfirst⟩ hcode
    cases h.symm.trans hread
    exact absurd ⟨code, rfl⟩ hcode

/-- An escape that is read has at least one character. -/
theorem exists_cons_of_readEscape {length : Nat} (h : readEscape text = .ok (e, length)) :
    ∃ c more after, text = c :: (more ++ after) ∧ length = (c :: more).length := by
  by_cases hunicode : ∃ rest, text = 'u' :: rest
  · obtain ⟨rest, rfl⟩ := hunicode
    obtain ⟨spelled, first, after, rfl, -, hsingle | hpair⟩ := spells_of_readEscape h
    · exact ⟨'u', spelled, after, rfl, hsingle.2.1⟩
    · obtain ⟨second, low, rest, -, hlow, -, rfl⟩ := hpair
      refine ⟨'u', spelled ++ '\\' :: 'u' :: second, rest, by simp [hlow.rest], ?_⟩
      simp only [List.length_cons, List.length_append]
      omega
  · obtain ⟨e', after, he⟩ := exists_isEscape h
    obtain ⟨spelled, htext, hread⟩ := readEscape_of_isEscape he fun code hcode => by
      subst hcode
      obtain ⟨_, hcode, -⟩ := he.of_codePoint
      exact absurd ⟨_, hcode⟩ hunicode
    obtain ⟨c, more, rfl, -⟩ := he.exists_spelled
    cases h.symm.trans hread
    rw [← List.cons_append] at htext
    exact ⟨c, more, after, rfl, congrArg _ (List.append_cancel_right htext).symm⟩

/-- An escape before a body and its quotation mark is an escape of the body. -/
theorem IsStringBody.exists_cons (hquote : IsQuote quote)
    (he : IsEscape text e (body ++ quote :: rest))
    (h : IsStringBody quote body pieces) : ∃ longer, '\\' :: text = longer ++ quote :: rest ∧
      IsStringBody quote longer (.escape e :: pieces) := by
  obtain ⟨c, more, rfl, -, hlocal⟩ := he.exists_spelled
  refine ⟨'\\' :: c :: (more ++ body), by simp, .escape ?_ h⟩
  exact hlocal body (startAlike_quote hquote body rest)

/-- What is read as a string is a body with a quotation mark behind it. -/
theorem exists_isStringBody (hquote : IsQuote quote) (text : List Char) : ∀ index skip found,
    readStringFrom quote index skip text = .ok found → ∃ body pieces rest,
      text.drop skip = body ++ quote :: rest ∧ IsStringBody quote body pieces := by
  induction text with
  | nil =>
    intro index skip found h
    unfold readStringFrom at h
    cases h
  | cons c text ih =>
    intro index skip found h
    cases skip with
    | succ skip =>
      rw [readStringFrom] at h
      exact ih _ _ _ h
    | zero =>
      rw [readStringFrom] at h
      split at h
      · rename_i hend
        exact ⟨[], [], text, by rw [beq_iff_eq.mp hend]; rfl, .nil⟩
      rename_i hend
      split at h
      · rename_i hbackslash
        rw [List.drop_zero, beq_iff_eq.mp hbackslash]
        split at h
        · cases h
        · cases h
        · rename_i e length hread
          obtain ⟨found', hfound, -⟩ := except_bind_ok h
          obtain ⟨body, pieces, rest, hdrop, hbody⟩ := ih _ _ _ hfound
          -- A pair that is read is two escapes of the body.
          rcases isEscape_of_readEscape hread with ⟨e', he⟩ | ⟨high, middle, low, hhigh, hlow⟩
          · rw [hdrop] at he
            obtain ⟨longer, hlonger, hescape⟩ := hbody.exists_cons hquote he
            exact ⟨longer, _, rest, hlonger, hescape⟩
          · rw [hdrop] at hlow
            obtain ⟨longer, hlonger, hescape⟩ := hbody.exists_cons hquote hlow
            rw [hlonger] at hhigh
            obtain ⟨longest, hlongest, hpair⟩ := hescape.exists_cons hquote hhigh
            exact ⟨longest, _, rest, hlongest, hpair⟩
      rename_i hbackslash
      split at h
      · cases h
      · rename_i hbreak
        obtain ⟨found', hfound, -⟩ := except_bind_ok h
        obtain ⟨body, pieces, rest, hdrop, hbody⟩ := ih _ _ _ hfound
        rw [List.drop_zero] at hdrop
        refine ⟨c :: body, .plain c :: pieces, rest, by rw [hdrop]; rfl, .char ?_ hbody⟩
        simp only [beq_iff_eq, Bool.or_eq_true, not_or] at hend hbackslash hbreak
        simp [hend, hbackslash, hbreak]

end Reading

section Tokens

variable {s s' : State} {start : Cursor} {quote : Char} {text rest body : List Char}
  {pieces : List Piece} {lexeme : Lexeme}

/-- The lexeme is a string of these pieces. -/
structure Lexeme.IsString (lexeme : Lexeme) (body : List Char) (pieces : List Piece) : Prop where
  token : lexeme.token = .stringLiteral
  length : lexeme.length = body.length + 2
  value : lexeme.value.text.toList = spoken pieces
  octalEscape : lexeme.octalEscape = true ↔ ∃ piece ∈ pieces, piece.isLegacyEscape = true

theorem readLexeme_quote (hquote : IsQuote quote) (text : List Char) :
    readLexeme (quote :: text) = readStringLexeme quote (quote :: text) := by
  rcases hquote with rfl | rfl <;> rfl

/-- A body between two quotation marks is read as a string. -/
theorem readLexeme_string (hquote : IsQuote quote) (h : IsStringBody quote body pieces)
    (rest : List Char) : ∃ lexeme, readLexeme (quote :: (body ++ quote :: rest)) = .ok lexeme ∧
      lexeme.IsString body pieces := by
  obtain ⟨found, hfound, hvalue, hlegacy⟩ := readsAs hquote h 1 rest
  have hstring : readString quote (body ++ quote :: rest) = .ok (found, 1 + body.length + 1) :=
    hfound
  refine ⟨{ Lexeme.plain .stringLiteral (1 + body.length + 1) (TokenValue.ofPieces found) with
    octalEscape := found.any Piece.isLegacyEscape }, ?_, ?_⟩
  · rw [readLexeme_quote hquote, readStringLexeme, List.drop_succ_cons, List.drop_zero, hstring]
    rfl
  · refine ⟨rfl, ?_, ?_, ?_⟩
    · change 1 + body.length + 1 = _
      omega
    · change (String.ofList (Piece.value found)).toList = _
      rw [String.toList_ofList, hvalue]
    · change found.any Piece.isLegacyEscape = true ↔ _
      rw [hlegacy, List.any_eq_true]

/-- Only what stands between quotation marks is read as a string. -/
theorem string_of_readLexeme (h : readLexeme text = .ok lexeme)
    (htoken : lexeme.token = .stringLiteral) :
    ∃ quote body rest pieces, IsQuote quote ∧ text = quote :: (body ++ quote :: rest) ∧
      IsStringBody quote body pieces := by
  have hreader := readBy_of_readLexeme h
  rw [htoken] at hreader
  obtain ⟨quote, text, rfl, hmark, hread⟩ := hreader
  have hquote : IsQuote quote := hmark.symm
  obtain ⟨found, hfound, -⟩ := except_bind_ok hread
  obtain ⟨body, pieces, rest, htext, hbody⟩ := exists_isStringBody hquote text 1 0 found hfound
  exact ⟨quote, body, rest, pieces, hquote, congrArg (quote :: ·) htext, hbody⟩

/-- The current token is the string of these pieces, which starts at the cursor. -/
structure State.HasString (s : State) (start : Cursor) (raw : List Char) (pieces : List Piece) :
    Prop where
  token : s.token = .stringLiteral
  span : s.span = ⟨start.offset, start.offset + byteLength raw⟩
  raw : s.raw = raw
  value : s.value.text.toList = spoken pieces
  octalEscape : s.flags.octalEscape = true ↔ ∃ piece ∈ pieces, piece.isLegacyEscape = true

/-- Where a string stands, the scan takes it in. -/
theorem scan_of_isStringBody (hskips : s.SkipsTo start) (hquote : IsQuote quote)
    (heq : start.rest = quote :: body ++ quote :: rest) (h : IsStringBody quote body pieces) :
    ∃ s', scan s = .ok .stringLiteral s' ∧ s'.HasString start (quote :: body ++ [quote]) pieces ∧
      s'.cursor.rest = rest := by
  obtain ⟨lexeme, hread, hstring⟩ := readLexeme_string hquote h rest
  rw [← List.cons_append, ← heq] at hread
  have hne : start.rest ≠ [] := by
    rw [heq]
    nofun
  have hunless : (readLexeme start.rest).Unless False (· = lexeme) := by
    rw [hread]
    rfl
  obtain ⟨token, s', hscan, _, rfl, rfl, hholds⟩ :=
    (scan_meets_lexeme hskips hne hunless).exists_result
  have hraw : start.rest = (quote :: body ++ [quote]) ++ rest := by simp [heq]
  have hextent := hholds.extent hraw (by simp [hstring.length])
  refine ⟨s', ?_, ⟨?_, hextent.1, hextent.2.1, ?_, ?_⟩, hextent.2.2⟩
  · rw [← hstring.token]
    exact hscan
  · rw [hholds.token, hstring.token]
  · rw [hholds.value]
    exact hstring.value
  · rw [hholds.octalEscape]
    exact hstring.octalEscape

/-- Where the scan comes to a string, one stands. -/
theorem isStringBody_of_scan (h : scan s = .ok .stringLiteral s') : ∃ start quote body rest pieces,
    s.SkipsTo start ∧ IsQuote quote ∧ start.rest = quote :: body ++ quote :: rest ∧
      IsStringBody quote body pieces := by
  obtain ⟨start, hskips⟩ := (scan_yields_skipsTo s).result h
  by_cases hrest : start.rest = []
  · obtain ⟨end', hend⟩ := hskips.scan_atEnd hrest
    cases h.symm.trans hend
  · have hunless : (readLexeme start.rest).Unless True (readLexeme start.rest = .ok ·) := by
      cases readLexeme start.rest with
      | ok lexeme => rfl
      | error found => trivial
    obtain ⟨lexeme, hread, htoken, -⟩ := (scan_meets_lexeme hskips hrest hunless).result h
    obtain ⟨quote, body, rest, pieces, hquote, heq, hbody⟩ := string_of_readLexeme hread htoken.symm
    exact ⟨start, quote, body, rest, pieces, hskips, hquote, heq, hbody⟩

/-- The value of a string that is scanned is what its code units spell line by line, which is what
they spell together unless a line is continued within a pair. The mark of octal escapes tells
whether there is one. -/
theorem scan_string (h : scan s = .ok .stringLiteral s') : ∃ quote body, IsQuote quote ∧
    s'.raw = quote :: body ++ [quote] ∧ (∃ pieces, IsStringBody quote body pieces) ∧
    ∀ pieces, IsStringBody quote body pieces →
      s'.value.text.toList = (lines pieces).flatMap decodeUnits ∧
      (s'.value.text.toList = decodeUnits (codeUnits pieces) ↔ ¬ SplitsPair (lines pieces)) ∧
      (s'.flags.octalEscape = true ↔ ∃ piece ∈ pieces, piece.isLegacyEscape = true) := by
  obtain ⟨start, quote, body, rest, pieces, hskips, hquote, heq, hbody⟩ := isStringBody_of_scan h
  have hstring : ∀ pieces, IsStringBody quote body pieces →
      s'.HasString start (quote :: body ++ [quote]) pieces := by
    intro pieces hbody
    obtain ⟨found, hscan, hfound, -⟩ := scan_of_isStringBody hskips hquote heq hbody
    cases h.symm.trans hscan
    exact hfound
  refine ⟨quote, body, hquote, (hstring pieces hbody).raw, ⟨pieces, hbody⟩, fun pieces hbody => ?_⟩
  have hvalue := (hstring pieces hbody).value
  refine ⟨hvalue, ?_, (hstring pieces hbody).octalEscape⟩
  rw [hvalue, spoken, ← flatten_lines]
  exact flatMap_decodeUnits_eq_iff (lines pieces)

/-- The two halves of a pair in four digits each. -/
theorem isEscape_halves (after : List Char) :
    IsEscape ("uD83D".toList ++ after) (.codePoint 0xD83D) after ∧
      IsEscape ("uDE00".toList ++ after) (.codePoint 0xDE00) after := by
  have hhigh : SpellsCode "D83D".toList (Nat.ofDigits 16 [13, 8, 3, 13].reverse) :=
    .four (by decide) rfl
  have hlow : SpellsCode "DE00".toList (Nat.ofDigits 16 [13, 14, 0, 0].reverse) :=
    .four (by decide) rfl
  exact ⟨.unicode hhigh, .unicode hlow⟩

end Tokens

end

/-- A pair, and an octal escape that another digit follows. -/
theorem scan_string_pair : ∃ s' pieces,
    scan (State.initial "'\\uD83D\\uDE00\\08'".toList false false) = .ok .stringLiteral s' ∧
    IsStringBody '\'' "\\uD83D\\uDE00\\08".toList pieces ∧ ¬ SplitsPair (lines pieces) ∧
    s'.value.text.toList = decodeUnits (codeUnits pieces) ∧ s'.value.text = "😀\x008" ∧
    ∃ piece ∈ pieces, piece.isLegacyEscape = true := by
  have hrun : ∃ s', scan (State.initial "'\\uD83D\\uDE00\\08'".toList false false) =
      .ok .stringLiteral s' ∧ s'.raw = "'\\uD83D\\uDE00\\08'".toList ∧
        s'.value.text = "😀\x008" ∧ s'.flags.octalEscape = true :=
          ⟨_, by rfl, by rfl, by rfl, by rfl⟩
  obtain ⟨s', hscan, hraw, htext, hflag⟩ := hrun
  have hbody : IsStringBody '\'' "\\uD83D\\uDE00\\08".toList [.escape (.codePoint 0xD83D),
      .escape (.codePoint 0xDE00), .escape (.legacy '\x00'), .plain '8'] :=
    .escape (isEscape_halves _).1 (.escape (isEscape_halves _).2
      (.escape (.octalZero (.inl rfl)) (.char (by decide) .nil)))
  obtain ⟨quote, body, -, hquoted, -, hall⟩ := scan_string hscan
  rw [hraw] at hquoted
  obtain ⟨rfl, htail⟩ := List.cons.inj hquoted
  obtain rfl := List.append_cancel_right (show "\\uD83D\\uDE00\\08".toList ++ ['\''] = _ from htail)
  obtain ⟨-, hvalue, hlegacy⟩ := hall _ hbody
  have hwhole : ¬ SplitsPair (lines [.escape (.codePoint 0xD83D), .escape (.codePoint 0xDE00),
      .escape (.legacy '\x00'), .plain '8']) := (flatMap_decodeUnits_eq_iff _).mp (by decide)
  exact ⟨s', _, hscan, hbody, hwhole, hvalue.mpr hwhole, htext, hlegacy.mp hflag⟩

/-- A line that is continued within a pair: no code unit comes between its halves, and yet each of
them is replaced. -/
theorem exists_split_pair : ∃ s' pieces,
    scan (State.initial "\"\\uD83D\\\n\\uDE00\"".toList false false) = .ok .stringLiteral s' ∧
    IsStringBody '"' "\\uD83D\\\n\\uDE00".toList pieces ∧
    decodeUnits (codeUnits pieces) = ['😀'] ∧ s'.value.text = "\uFFFD\uFFFD" := by
  refine ⟨_, [.escape (.codePoint 0xD83D), .escape .continuation, .escape (.codePoint 0xDE00)],
    by rfl, ?_, by decide, by rfl⟩
  exact .escape (isEscape_halves _).1 (.escape (.lineBreak (by decide) nofun)
    (.escape (isEscape_halves _).2 .nil))

end EcmaSyntax.Lexer
