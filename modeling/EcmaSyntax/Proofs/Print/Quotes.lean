import EcmaSyntax.Grammar.Function
import EcmaSyntax.Print.Literal
import EcmaSyntax.Proofs.Lexer.StringTokens
import EcmaSyntax.Unicode.IdentifierRanges

/-!
Strings that are printed and scanned again. A value in double quotes is read back, and a directive
stays the string that it was, whichever of the two marks it is printed with.

Attribute values of markup, printed and scanned again. Every ampersand of the printed text starts a
reference that is written out, and what the references stand for is the value, whatever references
it seems to hold itself.
-/

namespace EcmaSyntax.Lexer

variable {version : Nat} [Unicode.IdentifierChars version]

section References

variable {c : Char} {name rest skipped : List Char}

theorem decodeEntitiesFrom_skip (skipped rest : List Char) :
    decodeEntitiesFrom skipped.length (skipped ++ rest) = decodeEntitiesFrom 0 rest := by
  induction skipped with
  | nil => rfl
  | cons d skipped ih => rw [List.length_cons, List.cons_append, decodeEntitiesFrom, ih]

/-- A reference goes up to the first semicolon. -/
theorem readEntity?_append (hname : ';' ∉ name) (hlength : name.length ≤ maxEntityLength) :
    readEntity? (name ++ ';' :: rest) = (entity? name).map fun c => (c, name.length + 1) := by
  have htake : (name ++ ';' :: rest).takeWhile (· != ';') = name := by
    have hall : ∀ d ∈ name, (d != ';') = true := fun d hd => by
      simpa using ne_of_mem_of_not_mem hd hname
    rw [List.takeWhile_append_of_pos hall, List.takeWhile_cons_of_neg (by simp), List.append_nil]
  rw [readEntity?, htake]
  exact if_pos (by simp [hlength])

/-- A reference of a known name is decoded as one character. -/
theorem decodeEntities_reference (h : entity? name = some c) (hname : ';' ∉ name)
    (hlength : name.length ≤ maxEntityLength) :
    decodeEntities ('&' :: (name ++ ';' :: rest)) = c :: decodeEntities rest := by
  have hskip := decodeEntitiesFrom_skip (name ++ [';']) rest
  rw [List.length_append, List.append_assoc] at hskip
  rw [decodeEntities, decodeEntitiesFrom, if_pos (by decide), readEntity?_append hname hlength, h]
  exact congrArg (c :: ·) hskip

theorem decodeEntities_cons (hc : c ≠ '&') :
    decodeEntities (c :: rest) = c :: decodeEntities rest := by
  rw [decodeEntities, decodeEntitiesFrom, if_neg (by simpa using hc)]
  rfl

end References

section Scanning

variable {s : State} {start : Cursor} {quote : Char} {body rest : List Char}

/-- What stands between two marks is taken in as it is and decoded. -/
theorem scanMarkupAttributeValue_of_quoted (hskips : s.SkipsTo start) (hquote : IsQuote quote)
    (hbody : quote ∉ body) (heq : start.rest = quote :: (body ++ quote :: rest)) :
    ∃ s', scanMarkupAttributeValue s = .ok .stringLiteral s' ∧ s'.start = start ∧
      s'.cursor = start.advance (body.length + 2) ∧ s'.token = .stringLiteral ∧
        s'.value.text.toList = decodeEntities body := by
  have htake : (body ++ quote :: rest).takeWhile (· != quote) = body := by
    have hall : ∀ d ∈ body, (d != quote) = true := fun d hd => by
      simpa using ne_of_mem_of_not_mem hd hbody
    rw [List.takeWhile_append_of_pos hall, List.takeWhile_cons_of_neg (by simp), List.append_nil]
  have hmeets : Meets (fun _ => False) scanMarkupAttributeValue (fun token s' =>
      token = .stringLiteral ∧ s'.start = start ∧ s'.cursor = start.advance (body.length + 2) ∧
        s'.token = .stringLiteral ∧ s'.value.text.toList = decodeEntities body) s := by
    unfold scanMarkupAttributeValue
    refine hskips.beginToken.bind fun _ s₁ ⟨hcursor, hstart, _⟩ => .run rfl ?_
    dsimp only
    rw [hcursor, heq]
    dsimp only
    rw [if_pos (by simpa [IsQuote] using hquote), htake, if_pos (by simp)]
    exact .run rfl (.pure ⟨rfl, hstart, rfl, rfl, String.toList_ofList⟩)
  obtain ⟨token, s', hscan, rfl, hholds⟩ := hmeets.exists_result
  exact ⟨s', hscan, hholds⟩

end Scanning

end EcmaSyntax.Lexer

namespace EcmaSyntax.Print

open EcmaSyntax.Lexer EcmaSyntax.Text

section

variable {version : Nat} [Unicode.IdentifierChars version]

section Scanning

variable {mark : Char} {body : List Char} {pieces : List Piece}

/-- A fresh lexer finds one string, which is the whole text, and then the end. -/
def ScansAsString (text : List Char) (value : String) (octalEscape : Bool) : Prop :=
  ∀ html collect, ∃ s s', scan (State.initial text html collect) = .ok .stringLiteral s ∧
    s.span = ⟨0, byteLength text⟩ ∧ s.raw = text ∧ s.value.text = value ∧
    s.flags.octalEscape = octalEscape ∧ scan s = .ok .endOfSource s'

/-- A quotation mark is no part of what can be skipped. -/
theorem skipsTo_quote (hmark : IsQuote mark) (text : List Char) (html collect : Bool) :
    (State.initial (mark :: text) html collect).SkipsTo (Cursor.ofText (mark :: text)) := by
  refine ⟨⟨[], false, true, 0⟩, ?_, rfl⟩
  rcases hmark with rfl | rfl <;> rfl

/-- A body between two marks is scanned as a string. -/
theorem scansAsString_of_isStringBody (hmark : IsQuote mark) (h : IsStringBody mark body pieces)
    {value : String} {octalEscape : Bool} (hvalue : value.toList = spoken pieces)
    (hoctal : octalEscape = true ↔ ∃ piece ∈ pieces, piece.isLegacyEscape = true) :
    ScansAsString (mark :: body ++ [mark]) value octalEscape := by
  intro html collect
  obtain ⟨s, hscan, hstring, hrest⟩ :=
    scan_of_isStringBody (skipsTo_quote hmark (body ++ [mark]) html collect) hmark rfl h
  obtain ⟨s', hend⟩ := (skipsTo_end hrest).scan_atEnd hrest
  refine ⟨s, s', hscan, ?_, hstring.raw, ?_, ?_, hend⟩
  · rw [hstring.span]
    exact congrArg (Span.mk 0) (Nat.zero_add _)
  · exact String.toList_injective (hstring.value.trans hvalue.symm)
  · rw [Bool.eq_iff_iff, hstring.octalEscape, hoctal]

end Scanning

section Values

variable {c : Char} {body : List Char} {pieces : List Piece}

theorem isDigit_digitChar {v : Nat} (h : v < 16) : IsDigit 16 v.digitChar v := ⟨h, .inl rfl⟩

/-- A number of two hexadecimal digits, with two zeros before them. -/
theorem spellsCode_small {code : Nat} (h : code < 0x100) :
    SpellsCode ['0', '0', (code / 16).digitChar, (code % 16).digitChar] code := by
  have hdigits : List.Forall₂ (IsDigit 16) ['0', '0', (code / 16).digitChar, (code % 16).digitChar]
      [0, 0, code / 16, code % 16] :=
    .cons (isDigit_digitChar (by decide)) (.cons (isDigit_digitChar (by decide))
      (.cons (isDigit_digitChar (by omega)) (.cons (isDigit_digitChar (by omega)) .nil)))
  have hcode : Nat.ofDigits 16 [0, 0, code / 16, code % 16].reverse = code := by
    simp only [List.reverse_cons, List.reverse_nil, List.nil_append, List.cons_append,
      Nat.ofDigits_cons, Nat.ofDigits_nil]
    omega
  have hspells := SpellsCode.four hdigits rfl
  rwa [hcode] at hspells

/-- What is written for a character is one piece, which stands for that character. -/
theorem exists_quotedPiece (c : Char) (h : IsStringBody '"' body pieces) :
    ∃ piece, IsStringBody '"' (quotedChar c ++ body) (piece :: pieces) ∧
      piece.units = utf16 c.toNat ∧ piece ≠ .escape .continuation ∧
        piece.isLegacyEscape = false := by
  have hsingle : ∀ {d}, (d, c) ∈ singleEscapes → ∃ piece,
      IsStringBody '"' (['\\', d] ++ body) (piece :: pieces) ∧ piece.units = utf16 c.toNat ∧
        piece ≠ .escape .continuation ∧ piece.isLegacyEscape = false :=
    fun hmem => ⟨.escape (.char c), .escape (.single hmem) h, rfl, nofun, rfl⟩
  have hcode : ∀ {spelled}, SpellsCode spelled c.toNat → ∃ piece,
      IsStringBody '"' ('\\' :: 'u' :: (spelled ++ body)) (piece :: pieces) ∧
        piece.units = utf16 c.toNat ∧ piece ≠ .escape .continuation ∧
          piece.isLegacyEscape = false :=
    fun hspells => ⟨.escape (.codePoint c.toNat), .escape (.unicode hspells) h, rfl, nofun, rfl⟩
  unfold quotedChar
  split
  · rename_i hc
    exact hsingle (by rw [beq_iff_eq.mp hc]; decide)
  split
  · rename_i hc
    exact hsingle (by rw [beq_iff_eq.mp hc]; decide)
  split
  · rename_i hc
    exact hsingle (by rw [beq_iff_eq.mp hc]; decide)
  split
  · rename_i hc
    exact hsingle (by rw [beq_iff_eq.mp hc]; decide)
  split
  · rename_i hc
    exact hsingle (by rw [beq_iff_eq.mp hc]; decide)
  split
  · rename_i hc
    rw [beq_iff_eq.mp hc] at hcode ⊢
    have hspells : SpellsCode "2028".toList (Nat.ofDigits 16 [2, 0, 2, 8].reverse) :=
      .four (by decide) rfl
    exact hcode hspells
  split
  · rename_i hc
    rw [beq_iff_eq.mp hc] at hcode ⊢
    have hspells : SpellsCode "2029".toList (Nat.ofDigits 16 [2, 0, 2, 9].reverse) :=
      .four (by decide) rfl
    exact hcode hspells
  split
  · rename_i hc
    refine hcode (spellsCode_small ?_)
    rw [Bool.or_eq_true, decide_eq_true_eq, beq_iff_eq] at hc
    rcases hc with hc | rfl
    · omega
    · decide
  · refine ⟨.plain c, .char ?_ h, rfl, nofun, rfl⟩
    simp_all

/-- What is written for a text is one line of its code units. -/
theorem exists_quotedBody (text : List Char) : ∃ pieces,
    IsStringBody '"' (text.flatMap quotedChar) pieces ∧
      lines pieces = [text.flatMap fun c => utf16 c.toNat] ∧
        ∀ piece ∈ pieces, piece.isLegacyEscape = false := by
  induction text with
  | nil => exact ⟨[], .nil, rfl, nofun⟩
  | cons c text ih =>
    obtain ⟨pieces, hbody, hlines, hlegacy⟩ := ih
    obtain ⟨piece, hcons, hunits, hpiece, hplain⟩ := exists_quotedPiece c hbody
    refine ⟨piece :: pieces, hcons, ?_, List.forall_mem_cons.mpr ⟨hplain, hlegacy⟩⟩
    rw [lines_cons hpiece, hlines, List.modifyHead_cons, hunits, List.flatMap_cons]

/-- A value in double quotes is scanned as a string of that value. -/
theorem scan_quoted (value : String) : ScansAsString (quoted value).toList value false := by
  obtain ⟨pieces, hbody, hlines, hlegacy⟩ := exists_quotedBody value.toList
  have hspoken : spoken pieces = value.toList := by
    rw [spoken, hlines, List.flatMap_singleton, decodeUnits_flatMap_utf16]
  have hscans : ScansAsString ('"' :: value.toList.flatMap quotedChar ++ ['"']) value false := by
    refine scansAsString_of_isStringBody (.inl rfl) hbody hspoken.symm ?_
    refine iff_of_false Bool.false_ne_true ?_
    rintro ⟨piece, hmem, hpiece⟩
    rw [hlegacy piece hmem] at hpiece
    cases hpiece
  rw [quoted, String.toList_ofList]
  exact hscans

end Values

section Directives

variable {quote mark c : Char} {e : Escape} {text body : List Char} {pieces : List Piece}

theorem hasUnescaped_cons (hc : c ≠ '\\') :
    hasUnescaped mark (c :: body) = (c == mark || hasUnescaped mark body) := by
  rw [hasUnescaped]
  rintro d rest rfl
  exact absurd rfl hc

/-- The characters of an escape are passed over, whatever it is. -/
theorem hasUnescaped_escape (hmark : IsQuote mark) (he : IsEscape text e body) :
    hasUnescaped mark ('\\' :: text) = hasUnescaped mark body := by
  obtain ⟨c, more, rfl, hmore, -⟩ := he.exists_spelled
  rw [hasUnescaped]
  clear he
  induction more with
  | nil => rfl
  | cons d more ih =>
    obtain ⟨hd, hmore⟩ := List.forall_mem_cons.mp hmore
    simp only [stringMarks, List.mem_cons, List.not_mem_nil, or_false, not_or] at hd
    have hne : (d == mark) = false := by
      rcases hmark with rfl | rfl
      · simpa using hd.1
      · simpa using hd.2.1
    rw [List.cons_append, hasUnescaped_cons hd.2.2, hne, Bool.false_or, ih hmore]

/-- Within its own marks a string has none that is not escaped. -/
theorem hasUnescaped_of_isStringBody (hmark : IsQuote mark) (h : IsStringBody mark body pieces) :
    hasUnescaped mark body = false := by
  induction h with
  | nil => rfl
  | char hc _ ih =>
    simp only [List.mem_cons, List.not_mem_nil, or_false, not_or] at hc
    rw [hasUnescaped_cons hc.2.1, ih, Bool.or_false, beq_eq_false_iff_ne]
    exact hc.1
  | escape he _ ih => rw [hasUnescaped_escape hmark he, ih]

/-- A string stands as well between marks that it has only as escapes. -/
theorem isStringBody_of_hasUnescaped (hmark : IsQuote mark) (h : IsStringBody quote body pieces)
    (hnot : hasUnescaped mark body = false) : IsStringBody mark body pieces := by
  induction h with
  | nil => exact .nil
  | char hc _ ih =>
    simp only [List.mem_cons, List.not_mem_nil, or_false, not_or] at hc
    rw [hasUnescaped_cons hc.2.1, Bool.or_eq_false_iff, beq_eq_false_iff_ne] at hnot
    exact .char (by simp [hc, hnot.1]) (ih hnot.2)
  | escape he _ ih =>
    rw [hasUnescaped_escape hmark he] at hnot
    exact .escape he (ih hnot)

/-- The mark that a directive is printed with. -/
theorem exists_mark (hquote : IsQuote quote) (h : IsStringBody quote body pieces) : ∃ mark,
    IsQuote mark ∧ IsStringBody mark body pieces ∧
      (directiveText (String.ofList body)).toList = mark :: body ++ [mark, ';'] := by
  by_cases hdouble : hasUnescaped '"' body = true
  · have hsingle : quote = '\'' := by
      refine hquote.resolve_left ?_
      rintro rfl
      rw [hasUnescaped_of_isStringBody (.inl rfl) h] at hdouble
      cases hdouble
    refine ⟨'\'', .inr rfl, hsingle ▸ h, ?_⟩
    simp [directiveText, hdouble]
  · refine ⟨'"', .inl rfl, isStringBody_of_hasUnescaped (.inl rfl) h
      (Bool.eq_false_iff.mpr hdouble), ?_⟩
    simp [directiveText, hdouble]

/-- A string that is printed as a directive is scanned again, up to the semicolon, as the same text
between marks, with the same value and the same mark of octal escapes. -/
theorem scan_directive {s s' : State} (h : scan s = .ok .stringLiteral s') : ∃ quote mark body,
    IsQuote quote ∧ IsQuote mark ∧ s'.raw = quote :: body ++ [quote] ∧
    Grammar.unquoted s'.raw = String.ofList body ∧
    (directiveText (Grammar.unquoted s'.raw)).toList = (mark :: body ++ [mark]) ++ [';'] ∧
    ScansAsString (mark :: body ++ [mark]) s'.value.text s'.flags.octalEscape := by
  obtain ⟨start, quote, body, rest, pieces, hskips, hquote, heq, hbody⟩ := isStringBody_of_scan h
  obtain ⟨found, hscan, hstring, -⟩ := scan_of_isStringBody hskips hquote heq hbody
  cases h.symm.trans hscan
  obtain ⟨mark, hmark, hremarked, htext⟩ := exists_mark hquote hbody
  have hunquoted : Grammar.unquoted s'.raw = String.ofList body := by
    rw [hstring.raw, Grammar.unquoted]
    simp
  refine ⟨quote, mark, body, hquote, hmark, hstring.raw, hunquoted, ?_, ?_⟩
  · rw [hunquoted, htext]
    simp
  · exact scansAsString_of_isStringBody hmark hremarked hstring.value hstring.octalEscape

end Directives

end

/-- An escaped mark stays escaped between the other marks. -/
theorem scan_directive_remarked : ∃ s',
    scan (State.initial "'it\\'s \\08'".toList false false) = .ok .stringLiteral s' ∧
    directiveText (Grammar.unquoted s'.raw) = "\"it\\'s \\08\";" ∧
    ScansAsString "\"it\\'s \\08\"".toList "it's \x008" true := by
  have hrun : ∃ s', scan (State.initial "'it\\'s \\08'".toList false false) =
    .ok .stringLiteral s' ∧
      s'.raw = "'it\\'s \\08'".toList ∧ s'.value.text = "it's \x008" ∧
        s'.flags.octalEscape = true :=
    ⟨_, by rfl, by rfl, by rfl, by rfl⟩
  obtain ⟨s', hscan, hraw, hvalue, hoctal⟩ := hrun
  have hprinted : directiveText (Grammar.unquoted s'.raw) = "\"it\\'s \\08\";" := by
    rw [hraw]
    rfl
  obtain ⟨quote, mark, body, -, -, -, -, htext, hscans⟩ := scan_directive hscan
  rw [hprinted] at htext
  have hsame := List.append_cancel_right (show "\"it\\'s \\08\"".toList ++ [';'] = _ from htext)
  rw [hvalue, hoctal, ← hsame] at hscans
  exact ⟨s', hscan, hprinted, hscans⟩

section

variable {version : Nat} [Unicode.IdentifierChars version]

section Substitution

variable {c d : Char} {replacement text : List Char}

/-- Every such character replaced by a text. -/
def substitute (c : Char) (replacement text : List Char) : List Char :=
  text.flatMap fun d => if d == c then replacement else [d]

theorem substitute_append (a b : List Char) :
    substitute c replacement (a ++ b) = substitute c replacement a ++ substitute c replacement b :=
  List.flatMap_append

@[simp] theorem substitute_cons_self (text : List Char) :
    substitute c replacement (c :: text) = replacement ++ substitute c replacement text := by
  simp [substitute]

theorem substitute_cons_ne (h : d ≠ c) :
    substitute c replacement (d :: text) = d :: substitute c replacement text := by
  simp [substitute, h]

theorem substitute_of_not_mem (h : c ∉ text) : substitute c replacement text = text := by
  induction text with
  | nil => rfl
  | cons d text ih =>
    simp only [List.mem_cons, not_or] at h
    rw [substitute_cons_ne (Ne.symm h.1), ih h.2]

theorem not_mem_substitute (h : c ∉ replacement) (text : List Char) :
    c ∉ substitute c replacement text := by
  intro hmem
  obtain ⟨d, -, hd⟩ := List.mem_flatMap.mp hmem
  split at hd
  · exact h hd
  · rename_i hne
    exact hne (by simpa using (List.mem_singleton.mp hd).symm)

end Substitution

section Attributes

/-- The references for the two characters that may not stand in an attribute value: ampersands
first, so that those of the other references stay. -/
def referenced (text : List Char) : List Char :=
  substitute '"' "&quot;".toList (substitute '&' "&amp;".toList text)

/-- References for both at once. -/
theorem referenced_cons (c : Char) (text : List Char) : referenced (c :: text) =
    (if c == '&' then "&amp;".toList else if c == '"' then "&quot;".toList else [c]) ++
      referenced text := by
  unfold referenced
  by_cases hamp : c = '&'
  · subst hamp
    rw [substitute_cons_self, substitute_append, substitute_of_not_mem (by decide)]
    rfl
  · rw [substitute_cons_ne hamp, if_neg (by simpa using hamp)]
    by_cases hquote : c = '"'
    · subst hquote
      rw [substitute_cons_self]
      rfl
    · rw [substitute_cons_ne hquote, if_neg (by simpa using hquote)]
      rfl

theorem attributeText_eq (value : String) :
    (attributeText value).toList = '"' :: (referenced value.toList ++ ['"']) := by
  have hbody : ∀ text : List Char, (text.flatMap fun c =>
      if c == '&' then "&amp;".toList else if c == '"' then "&quot;".toList else [c]) =
        referenced text := by
    intro text
    induction text with
    | nil => rfl
    | cons c text ih => rw [List.flatMap_cons, ih, referenced_cons]
  rw [attributeText, String.toList_ofList, hbody]

/-- References stand for the text that they were written for. -/
theorem decodeEntities_referenced (text : List Char) : decodeEntities (referenced text) = text := by
  induction text with
  | nil => rfl
  | cons c text ih =>
    rw [referenced_cons]
    split
    · rename_i hamp
      rw [beq_iff_eq.mp hamp]
      have hamp : entity? "amp".toList = some '&' := rfl
      exact (decodeEntities_reference hamp (by decide) (by decide)).trans (congrArg _ ih)
    split
    · rename_i hquote
      rw [beq_iff_eq.mp hquote]
      have hquot : entity? "quot".toList = some '"' := rfl
      exact (decodeEntities_reference hquot (by decide) (by decide)).trans (congrArg _ ih)
    · rename_i hamp _
      exact (decodeEntities_cons (by simpa using hamp)).trans (congrArg _ ih)

/-- Wherever a lexer stands before the text, it takes it in as an attribute value. -/
def ScansAsAttribute (text : List Char) (value : String) : Prop :=
  ∀ (s : State) (start : Cursor) (rest : List Char), s.SkipsTo start → start.rest = text ++ rest →
    ∃ s', scanMarkupAttributeValue s = .ok .stringLiteral s' ∧ s'.token = .stringLiteral ∧
      s'.span = ⟨start.offset, start.offset + byteLength text⟩ ∧ s'.raw = text ∧
      s'.cursor.rest = rest ∧ s'.value.text = value

/-- A string is printed as an attribute value with references for ampersands and then for quotation
marks, and is scanned as the string that it was. -/
theorem scan_attributeText (value : String) :
    (attributeText value).toList = '"' :: (substitute '"' "&quot;".toList
      (substitute '&' "&amp;".toList value.toList) ++ ['"']) ∧
    ScansAsAttribute (attributeText value).toList value ∧
    ∀ html collect, (State.initial (attributeText value).toList html collect).SkipsTo
      (Cursor.ofText (attributeText value).toList) := by
  rw [attributeText_eq]
  have hquote : '"' ∉ referenced value.toList := not_mem_substitute (by decide) _
  refine ⟨rfl, fun s start rest hskips heq => ?_, fun html collect => ?_⟩
  · have hquoted : start.rest = '"' :: (referenced value.toList ++ '"' :: rest) := by simp [heq]
    obtain ⟨s', hscan, hstart, hcursor, htoken, hvalue⟩ :=
      scanMarkupAttributeValue_of_quoted hskips (.inl rfl) hquote hquoted
    have hlength : ('"' :: (referenced value.toList ++ ['"'])).length =
        (referenced value.toList).length + 2 := by simp
    rw [← hlength] at hcursor
    obtain ⟨hspan, hraw, hrest⟩ := State.extent_of_advance hstart heq hcursor
    refine ⟨s', hscan, htoken, hspan, hraw, hrest, ?_⟩
    exact String.toList_injective (hvalue.trans (decodeEntities_referenced _))
  · exact State.skipsTo_initial collect (opensToken_of_not_mem (by decide) rfl rfl _)

end Attributes

end

end EcmaSyntax.Print
