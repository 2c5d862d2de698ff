import EcmaSyntax.Proofs.Lexer.StringTokens
import EcmaSyntax.Unicode.IdentifierRanges

/-!
Halves of surrogate pairs that are escaped alone. The walk over the text of a string, which notes a
high half and waits for a low one, finds such a half if and only if the reader of the string, which
looks ahead for the low half, has replaced one.
-/

namespace EcmaSyntax.Lexer

open EcmaSyntax.Text

section

variable {version : Nat} [Unicode.IdentifierChars version]

section Walk

variable {c quote : Char} {waiting found : Bool} {code fuel : Nat} {text spelled more : List Char}

/-- What the reader takes for the number of an escape, the walk takes for it too. -/
theorem escapedUnit?_of_readCodeUnit {found : Nat × Nat} (h : readCodeUnit text = .ok found) :
    escapedUnit? text = some found := by
  unfold readCodeUnit at h
  split at h
  · rename_i body
    dsimp only at h
    split at h
    · cases h
    rename_i hdigits
    split at h
    · cases h
    cases h
    simp only [Bool.or_eq_true, not_or, bne_iff_ne, ne_eq, Decidable.not_not] at hdigits
    exact if_pos (by simp [hdigits.2])
  · rename_i hbrace
    dsimp only at h
    split at h
    · rename_i hdigits
      cases h
      unfold escapedUnit?
      split
      · exact absurd rfl (hbrace _)
      · exact if_pos hdigits
    · cases h

theorem escapedUnit?_of_spells (h : SpellsCode spelled code) :
    escapedUnit? (spelled ++ text) = some (code, spelled.length) :=
  escapedUnit?_of_readCodeUnit (readCodeUnit_of_spells h)

theorem loneSurrogateWithin_char (hc : c ≠ '\\') :
    loneSurrogateWithin (fuel + 1) waiting (c :: text) =
    (waiting || loneSurrogateWithin fuel false text) := by
  rw [loneSurrogateWithin]
  · cases waiting <;> rfl
  · rintro rfl
    exact absurd rfl hc

theorem loneSurrogateWithin_escape (hc : c ≠ 'u') :
    loneSurrogateWithin (fuel + 1) waiting ('\\' :: c :: text) =
      (waiting || loneSurrogateWithin fuel false text) := by
  cases waiting <;> simp [loneSurrogateWithin, hc]

/-- A low half is due if and only if a high one is waiting. -/
theorem loneSurrogateWithin_unit (h : SpellsCode spelled code) :
    loneSurrogateWithin (fuel + 1) waiting ('\\' :: 'u' :: (spelled ++ text)) =
      (waiting != isLowSurrogate code || loneSurrogateWithin fuel (isHighSurrogate code) text) := by
  simp only [loneSurrogateWithin, escapedUnit?_of_spells h, List.drop_left]
  cases hlow : isLowSurrogate code with
  | true => cases waiting <;> simp [not_isHighSurrogate_of_low hlow]
  | false => cases waiting <;> simp

/-- With a step for each character, the walk over the text says whether it has found a lone half. -/
def Walks (waiting : Bool) (text : List Char) (found : Bool) : Prop :=
  ∀ fuel, text.length ≤ fuel → loneSurrogateWithin fuel waiting text = found

theorem Walks.nil (waiting : Bool) : Walks waiting [] waiting := by
  intro fuel _
  cases fuel <;> rfl

/-- One step of the walk. -/
theorem Walks.step (rest : List Char) (hlength : rest.length < text.length)
    (h : ∀ fuel, rest.length ≤ fuel → loneSurrogateWithin (fuel + 1) waiting text = found) :
    Walks waiting text found := by
  intro fuel hfuel
  obtain ⟨fuel, rfl⟩ := Nat.exists_eq_add_one_of_ne_zero (by omega : fuel ≠ 0)
  exact h fuel (by omega)

theorem Walks.char (hc : c ≠ '\\') (h : Walks false text found) : Walks false (c :: text) found :=
  .step text (Nat.lt_succ_self _) fun fuel hfuel => by
    rw [loneSurrogateWithin_char hc, h fuel hfuel, Bool.false_or]

theorem Walks.escape (hc : c ≠ 'u') (h : Walks false text found) :
    Walks false ('\\' :: c :: text) found :=
  .step text (Nat.lt_add_right 1 (Nat.lt_succ_self _)) fun fuel hfuel => by
    rw [loneSurrogateWithin_escape hc, h fuel hfuel, Bool.false_or]

/-- A low half that is due, or another unit where none is due. -/
theorem Walks.unit (hcode : SpellsCode spelled code) (hdue : waiting = isLowSurrogate code)
    (h : Walks (isHighSurrogate code) text found) :
    Walks waiting ('\\' :: 'u' :: (spelled ++ text)) found :=
  .step text (by simp; omega) fun fuel hfuel => by
    rw [loneSurrogateWithin_unit hcode, h fuel hfuel, hdue, bne_self_eq_false, Bool.false_or]

/-- A low half that is not due, or another unit where one is due. -/
theorem Walks.undue (hcode : SpellsCode spelled code) (hdue : waiting ≠ isLowSurrogate code) :
    Walks waiting ('\\' :: 'u' :: (spelled ++ text)) true :=
  .step [] (by simp) fun fuel _ => by
    rw [loneSurrogateWithin_unit hcode, bne_iff_ne.mpr hdue, Bool.true_or]

/-- What is no escape of a unit, where a low half is due. -/
theorem Walks.interrupted (hc : c ≠ '\\') : Walks true (c :: text) true :=
  .step [] (by simp) fun fuel _ => by rw [loneSurrogateWithin_char hc, Bool.true_or]

theorem Walks.interrupted_escape (hc : c ≠ 'u') : Walks true ('\\' :: c :: text) true :=
  .step [] (by simp) fun fuel _ => by rw [loneSurrogateWithin_escape hc, Bool.true_or]

/-- Characters that are no backslash are passed over. -/
theorem Walks.passed (hmore : '\\' ∉ more) (h : Walks false text found) :
    Walks false (more ++ text) found := by
  induction more with
  | nil => exact h
  | cons c more ih =>
    simp only [List.mem_cons, not_or] at hmore
    exact .char (Ne.symm hmore.1) (ih hmore.2)

end Walk

section Reading

variable {quote : Char} {found : Bool} {e : Escape} {text spelled rest after body : List Char}
  {code index length : Nat}

/-- Text before a quotation mark that the number of an escape starts is longer than that number. -/
theorem exists_append_of_spells (hquote : IsQuote quote)
    (hcode : SpellsCode spelled code) (heq : body ++ quote :: rest = spelled ++ after) :
    ∃ more, body = spelled ++ more ∧ after = more ++ quote :: rest := by
  rcases List.append_eq_append_iff.mp heq with ⟨more, hspelled, hrest⟩ | ⟨more, hbody, hafter⟩
  · cases more with
    | nil => exact ⟨[], by simpa using hspelled.symm, by simpa using hrest.symm⟩
    | cons d more =>
      -- A quotation mark is no part of a number.
      obtain rfl := (List.cons.inj hrest).1
      refine absurd ?_ (hcode.not_mem_stringMarks quote (by simp [hspelled]))
      rcases hquote with rfl | rfl <;> decide
  · exact ⟨more, hbody, hafter⟩

/-- Behind a high half that stands alone the walk finds that no low half comes. -/
theorem walks_waiting {next : List Piece × Nat} (hquote : IsQuote quote)
    (hread : readStringFrom quote index 0 (body ++ quote :: rest) = .ok next)
    (hnot : ¬ ∃ second low after, SpellsLow (body ++ quote :: rest) second low after) :
    Walks true (body ++ [quote]) true := by
  have hmark : quote ≠ 'u' := by
    rcases hquote with rfl | rfl <;> decide
  rcases body with - | ⟨c, body⟩
  · exact .interrupted hquote.ne_backslash
  by_cases hc : c = '\\'
  · subst hc
    rcases body with - | ⟨d, body⟩
    · exact .interrupted_escape hmark
    by_cases hd : d = 'u'
    · subst hd
      have hnot : ('\\' == quote) = false := by simpa using Ne.symm hquote.ne_backslash
      rw [List.cons_append, List.cons_append, readStringFrom, hnot, if_neg Bool.false_ne_true,
        if_pos (beq_self_eq_true '\\')] at hread
      split at hread
      · cases hread
      · cases hread
      · rename_i e length hescape
        obtain ⟨spelled, first, after, heq, hfirst, -⟩ := spells_of_readEscape hescape
        obtain ⟨more, rfl, rfl⟩ := exists_append_of_spells hquote hfirst heq
        rw [List.cons_append, List.cons_append, List.append_assoc]
        refine .undue hfirst fun hdue => hnot ⟨spelled, first, more ++ quote :: rest, ?_⟩
        exact ⟨by simp, hfirst, hdue.symm⟩
    · exact .interrupted_escape hd
  · exact .interrupted hc

/-- The escape of a unit that is half of a pair without the other half, which has no character. -/
def Piece.isLoneSurrogate : Piece → Bool
  | .escape (.codePoint code) => isSurrogate code
  | _ => false

theorem isSurrogate_eq (code : Nat) :
    isSurrogate code = (isHighSurrogate code || isLowSurrogate code) := by
  rw [Bool.eq_iff_iff, Bool.or_eq_true, isHighSurrogate_iff, isLowSurrogate_iff]
  simp only [isSurrogate, Bool.and_eq_true, decide_eq_true_eq]
  omega

theorem not_isSurrogate_combine {high : Nat} (hhigh : isHighSurrogate high = true) (low : Nat) :
    isSurrogate (combineSurrogates high low) = false := by
  obtain ⟨hhigh, -⟩ := isHighSurrogate_iff.mp hhigh
  have hbig : 0xE000 ≤ combineSurrogates high low := by
    unfold combineSurrogates
    omega
  rw [isSurrogate, Bool.and_eq_false_iff, decide_eq_false_iff_not, decide_eq_false_iff_not]
  exact .inr (Nat.not_lt.mpr hbig)

/-- Up to a quotation mark that ends the text the walk finds a lone half, or it finds none. -/
def WalksTo (quote : Char) (text rest : List Char) (found : Bool) : Prop :=
  ∃ body, text = body ++ quote :: rest ∧ Walks false (body ++ [quote]) found

/-- One number is half of a pair only if no other half belongs to it. -/
theorem WalksTo.single {next : List Piece × Nat} (hquote : IsQuote quote)
    (hcode : SpellsCode spelled code)
    (halone : isHighSurrogate code = true → ¬ ∃ second low after, SpellsLow text second low after)
    (hnext : readStringFrom quote index 0 text = .ok next) (h : WalksTo quote text rest found) :
    WalksTo quote ('\\' :: 'u' :: (spelled ++ text)) rest (isSurrogate code || found) := by
  obtain ⟨body, rfl, hwalks⟩ := h
  refine ⟨'\\' :: 'u' :: (spelled ++ body), by simp, ?_⟩
  rw [List.cons_append, List.cons_append, List.append_assoc, isSurrogate_eq]
  cases hlow : isLowSurrogate code with
  | true =>
    rw [Bool.or_true, Bool.true_or]
    exact .undue hcode (by simp [hlow])
  | false =>
    refine .unit hcode hlow.symm ?_
    cases hhigh : isHighSurrogate code with
    | true => exact walks_waiting hquote hnext (halone hhigh)
    | false => exact hwalks

theorem WalksTo.pair {second after : List Char} {low : Nat} (hcode : SpellsCode spelled code)
    (hhigh : isHighSurrogate code = true) (hlow : SpellsLow text second low after)
    (h : WalksTo quote after rest found) :
    WalksTo quote ('\\' :: 'u' :: (spelled ++ text)) rest found := by
  obtain ⟨body, rfl, hwalks⟩ := h
  refine ⟨'\\' :: 'u' :: (spelled ++ '\\' :: 'u' :: (second ++ body)), by simp [hlow.rest], ?_⟩
  simp only [List.cons_append, List.append_assoc]
  have hnot : isLowSurrogate code = false := by
    refine Bool.eq_false_iff.mpr fun hlow => ?_
    rw [not_isHighSurrogate_of_low hlow] at hhigh
    cases hhigh
  refine .unit hcode hnot.symm ?_
  rw [hhigh]
  refine .unit hlow.spells hlow.isLow.symm ?_
  rw [not_isHighSurrogate_of_low hlow.isLow]
  exact hwalks

theorem WalksTo.unicode {next : List Piece × Nat} (hquote : IsQuote quote)
    (hread : readEscape ('u' :: text) = .ok (e, length))
    (hnext : readStringFrom quote index length ('u' :: text) = .ok next)
    (h : WalksTo quote (('u' :: text).drop length) rest found) :
    WalksTo quote ('\\' :: 'u' :: text) rest ((Piece.escape e).isLoneSurrogate || found) := by
  obtain ⟨spelled, first, after, rfl, hfirst, hsingle | hpair⟩ := spells_of_readEscape hread
  · obtain ⟨rfl, rfl, halone⟩ := hsingle
    rw [List.drop_succ_cons, List.drop_left] at h
    rw [← List.cons_append, ← List.length_cons, readStringFrom_skip] at hnext
    exact h.single hquote hfirst halone hnext
  · obtain ⟨second, low, after, hhigh, hlow, rfl, rfl⟩ := hpair
    have hlength : spelled.length + 2 + second.length + 1 =
        ('u' :: (spelled ++ '\\' :: 'u' :: second)).length := by
      simp only [List.length_cons, List.length_append]
      omega
    have happend : 'u' :: (spelled ++ '\\' :: 'u' :: (second ++ after)) =
        'u' :: (spelled ++ '\\' :: 'u' :: second) ++ after := by simp
    rw [hlow.rest, hlength, happend, List.drop_left] at h
    rw [Piece.isLoneSurrogate, not_isSurrogate_combine hhigh, Bool.false_or]
    exact h.pair hfirst hhigh hlow

/-- An escape that is read before the rest of a string. -/
theorem WalksTo.escape {next : List Piece × Nat} (hquote : IsQuote quote)
    (hread : readEscape text = .ok (e, length))
    (hnext : readStringFrom quote index length text = .ok next)
    (h : WalksTo quote (text.drop length) rest found) :
    WalksTo quote ('\\' :: text) rest ((Piece.escape e).isLoneSurrogate || found) := by
  by_cases hunicode : ∃ rest, text = 'u' :: rest
  · obtain ⟨text, rfl⟩ := hunicode
    exact .unicode hquote hread hnext h
  obtain ⟨body, hbody, hwalks⟩ := h
  have hlone : (Piece.escape e).isLoneSurrogate = false := by
    cases e with
    | codePoint code => exact absurd (unicode_of_readEscape hread) hunicode
    | char | continuation | legacy => rfl
  rcases isEscape_of_readEscape hread with ⟨e', he⟩ | ⟨high, middle, low, he, -⟩
  · obtain ⟨c, more, htext, hmore, -⟩ := he.exists_spelled
    rw [hbody] at htext
    subst htext
    refine ⟨'\\' :: c :: (more ++ body), by simp, ?_⟩
    rw [hlone, Bool.false_or, List.cons_append, List.cons_append, List.append_assoc]
    refine .escape (fun hc => hunicode ⟨_, congrArg (· :: _) hc⟩) (.passed (fun hmem => ?_) hwalks)
    exact hmore '\\' hmem (by decide)
  · obtain ⟨spelled, htext, -⟩ := he.of_codePoint
    exact absurd ⟨_, htext⟩ hunicode

/-- The walk over what is read as a string finds a lone half if and only if one is among the pieces.
-/
theorem walksTo_of_readStringFrom (hquote : IsQuote quote) (text : List Char) :
    ∀ index skip pieces stop, readStringFrom quote index skip text = .ok (pieces, stop) →
      ∃ rest, WalksTo quote (text.drop skip) rest (pieces.any Piece.isLoneSurrogate) ∧
        stop + rest.length = index + text.length := by
  induction text with
  | nil =>
    intro index skip pieces stop h
    unfold readStringFrom at h
    cases h
  | cons c text ih =>
    intro index skip pieces stop h
    cases skip with
    | succ skip =>
      rw [readStringFrom] at h
      obtain ⟨rest, hwalks, hstop⟩ := ih _ _ _ _ h
      exact ⟨rest, hwalks, by rw [hstop, List.length_cons]; omega⟩
    | zero =>
      rw [readStringFrom] at h
      split at h
      · rename_i hend
        cases h
        obtain rfl := beq_iff_eq.mp hend
        refine ⟨text, ⟨[], rfl, .char hquote.ne_backslash (.nil false)⟩, ?_⟩
        rw [List.length_cons]
        omega
      split at h
      · rename_i hbackslash
        obtain rfl := beq_iff_eq.mp hbackslash
        split at h
        · cases h
        · cases h
        · rename_i e length hread
          obtain ⟨⟨found, stop'⟩, hfound, h⟩ := except_bind_ok h
          cases h
          obtain ⟨rest, hwalks, hstop⟩ := ih _ _ _ _ hfound
          refine ⟨rest, .escape hquote hread hfound hwalks, ?_⟩
          rw [hstop, List.length_cons]
          omega
      rename_i hbackslash
      split at h
      · cases h
      · obtain ⟨⟨found, stop'⟩, hfound, h⟩ := except_bind_ok h
        cases h
        obtain ⟨rest, ⟨body, hbody, hwalks⟩, hstop⟩ := ih _ _ _ _ hfound
        refine ⟨rest, ⟨c :: body, congrArg (c :: ·) hbody, .char ?_ hwalks⟩, ?_⟩
        · simpa using hbackslash
        · rw [hstop, List.length_cons]
          omega

end Reading

section Tokens

variable {s s' : State} {quote : Char} {text rest : List Char} {pieces : List Piece} {length : Nat}

theorem any_isLoneSurrogate : pieces.any Piece.isLoneSurrogate = true ↔
    ∃ code, Piece.escape (.codePoint code) ∈ pieces ∧ isSurrogate code = true := by
  rw [List.any_eq_true]
  constructor
  · rintro ⟨piece, hpiece, hlone⟩
    unfold Piece.isLoneSurrogate at hlone
    split at hlone
    · exact ⟨_, hpiece, hlone⟩
    · cases hlone
  · rintro ⟨code, hpiece, hlone⟩
    exact ⟨_, hpiece, hlone⟩

theorem scalarOrReplacement_of_surrogate {code : Nat} (h : isSurrogate code = true) :
    scalarOrReplacement code = '\ufffd' := by
  rw [scalarOrReplacement, scalar?, h]
  rfl

/-- The walk over the text of a string that is read. -/
theorem hasLoneSurrogate_of_readString (hquote : IsQuote quote)
    (h : readString quote text = .ok (pieces, length)) : ∃ body rest,
      text = body ++ quote :: rest ∧ length = (quote :: body ++ [quote]).length ∧
        hasLoneSurrogate (quote :: body ++ [quote]) = pieces.any Piece.isLoneSurrogate := by
  obtain ⟨rest, ⟨body, hbody, hwalks⟩, hlength⟩ := walksTo_of_readStringFrom hquote text 1 0 _ _ h
  rw [List.drop_zero] at hbody
  refine ⟨body, rest, hbody, ?_, Walks.char hquote.ne_backslash hwalks _ (Nat.le_refl _)⟩
  rw [hbody] at hlength
  simp only [List.length_append, List.length_cons, List.length_nil] at hlength ⊢
  omega

/-- Of a string that is scanned the walk over its text finds a lone half if and only if the reader
has replaced one when it made the value of the string. -/
theorem scan_hasLoneSurrogate (h : scan s = .ok .stringLiteral s') :
    ∃ quote body rest pieces, IsQuote quote ∧ s'.start.rest = quote :: body ++ quote :: rest ∧
      s'.raw = quote :: body ++ [quote] ∧
      readString quote (body ++ quote :: rest) = .ok (pieces, s'.raw.length) ∧
      s'.value = TokenValue.ofPieces pieces ∧
      (hasLoneSurrogate s'.raw = true ↔ ∃ code, Piece.escape (.codePoint code) ∈ pieces ∧
        isSurrogate code = true ∧ (Escape.codePoint code).char? = some '\ufffd') := by
  obtain ⟨start, lexeme, -, hread, htoken, htakes⟩ := readLexeme_of_scan h nofun
  obtain ⟨quote, _, _, _, hquote, heq, -⟩ := string_of_readLexeme hread htoken.symm
  rw [heq, readLexeme_quote hquote] at hread
  obtain ⟨⟨pieces, length⟩, hstring, hlexeme⟩ := except_bind_ok hread
  cases hlexeme
  rw [List.drop_succ_cons, List.drop_zero] at hstring
  obtain ⟨body, rest, htext, hlength, hlone⟩ := hasLoneSurrogate_of_readString hquote hstring
  rw [htext] at heq hstring
  have hrest : start.rest = (quote :: body ++ [quote]) ++ rest := by simp [heq]
  obtain ⟨-, hraw, -⟩ := htakes.extent hrest hlength
  refine ⟨quote, body, rest, pieces, hquote, ?_, hraw, ?_, htakes.value, ?_⟩
  · rw [htakes.start, heq]
    rfl
  · rw [hraw, ← hlength]
    exact hstring
  · rw [hraw, hlone, any_isLoneSurrogate]
    refine exists_congr fun code => and_congr_right fun _ => ⟨fun hcode => ⟨hcode, ?_⟩, And.left⟩
    exact congrArg some (scalarOrReplacement_of_surrogate hcode)

end Tokens

end

/-- A pair in both forms of escapes, a backslash that is escaped before what looks like a half, and
a high half that stands before an escape of one character. -/
theorem scan_hasLoneSurrogate_mixed : ∃ s',
    scan (State.initial "'\\uD83D\\u{DE00}\\\\uDE00\\u{D83D}\\n\\uDE00'".toList false false) =
      .ok .stringLiteral s' ∧ hasLoneSurrogate s'.raw = true ∧
    ∃ pieces code, s'.value = TokenValue.ofPieces pieces ∧
      Piece.escape (.codePoint code) ∈ pieces ∧ isSurrogate code = true := by
  have hrun : ∃ s', scan (State.initial
      "'\\uD83D\\u{DE00}\\\\uDE00\\u{D83D}\\n\\uDE00'".toList false false) =
        .ok .stringLiteral s' ∧ hasLoneSurrogate s'.raw = true := ⟨_, by rfl, by rfl⟩
  obtain ⟨s', hscan, hlone⟩ := hrun
  refine ⟨s', hscan, hlone, ?_⟩
  obtain ⟨_, _, _, pieces, -, -, -, -, hvalue, hiff⟩ := scan_hasLoneSurrogate hscan
  obtain ⟨code, hpiece, hcode, -⟩ := hiff.mp hlone
  exact ⟨pieces, code, hvalue, hpiece, hcode⟩

end EcmaSyntax.Lexer
