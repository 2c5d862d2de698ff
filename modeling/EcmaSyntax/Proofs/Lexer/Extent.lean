import EcmaSyntax.Proofs.Lexer.Words
import EcmaSyntax.Proofs.Outcome

/-!
How far the readers of the parts of tokens go. A fault or an invalid escape stands in the text or at
its end, and a value that is kept as it stands is a part of the token.
-/

namespace EcmaSyntax.Lexer

open EcmaSyntax.Diagnostic EcmaSyntax.Number EcmaSyntax.Text EcmaSyntax.Unicode

variable {version : Nat} [Unicode.IdentifierChars version]

variable {α β : Type}

/-- The result of a reading has a property; a fault stands no later than at an index, nor does an
invalid escape before it. -/
def Reading.Within (reading : Reading α) (last : Nat) (P : α → Prop) : Prop :=
  match reading with
  | .ok a => P a
  | .error found => found.index ≤ last ∧ ∀ index ∈ found.invalidEscape, index ≤ last

namespace Reading.Within

variable {reading : Reading α} {last : Nat} {P Q : α → Prop}

theorem ok {a : α} (h : P a) : Within (.ok a) last P := h

theorem fault {cause : Cause} {index : Nat} (h : index ≤ last) :
    Within (Lexer.fault cause index : Reading α) last P := ⟨h, nofun⟩

theorem mono (h : reading.Within last P) (hP : ∀ a, P a → Q a) : reading.Within last Q := by
  cases reading with
  | ok a => exact hP a h
  | error found => exact h

theorem bind {next : α → Reading β} {R : β → Prop} (h : reading.Within last P)
    (hnext : ∀ a, P a → (next a).Within last R) : Within (reading >>= next) last R := by
  cases reading with
  | ok a => exact hnext a h
  | error found => exact h

theorem and (h : reading.Within last P) (h' : reading.Within last Q) :
    reading.Within last fun a => P a ∧ Q a := by
  cases reading with
  | ok a => exact ⟨h, h'⟩
  | error found => exact h

theorem ite {c : Prop} [Decidable c] {a b : Reading α} (ha : c → a.Within last P)
    (hb : ¬c → b.Within last P) : Within (if c then a else b) last P := by
  split
  · exact ha ‹_›
  · exact hb ‹_›

end Reading.Within

section Pieces

/-- The pieces were read from the start of the text up to `closing`, which belongs to
the token too and ends at the index `stop`; if they are all plain they are the text
itself. The first `skip` characters belong to an earlier piece. -/
def Spans (skip index : Nat) (text closing : List Char) (pieces : List Piece) (stop : Nat) : Prop :=
  ∃ body rest, text = body ++ closing ++ rest ∧ stop = index + body.length + closing.length ∧
    (skip = 0 → Piece.areVerbatim pieces = true → body = Piece.value pieces)

namespace Spans

variable {skip index stop : Nat} {text closing : List Char} {pieces : List Piece}

theorem done (skip index : Nat) (closing rest : List Char) :
    Spans skip index (closing ++ rest) closing [] (index + closing.length) :=
  ⟨[], rest, rfl, rfl, fun _ _ => rfl⟩

theorem skipped (h : Spans skip (index + 1) text closing pieces stop) (c : Char) :
    Spans (skip + 1) index (c :: text) closing pieces stop := by
  obtain ⟨body, rest, htext, hstop, -⟩ := h
  refine ⟨c :: body, rest, by rw [htext]; rfl, ?_, fun hskip => absurd hskip (Nat.succ_ne_zero _)⟩
  rw [hstop, List.length_cons]
  omega

/-- A piece that starts with `c` and is not just that character. -/
theorem piece (h : Spans skip (index + 1) text closing pieces stop) (c : Char) {p : Piece}
    (hp : p.isPlain = false) : Spans 0 index (c :: text) closing (p :: pieces) stop := by
  obtain ⟨body, rest, htext, hstop, -⟩ := h
  refine ⟨c :: body, rest, by rw [htext]; rfl, ?_, fun _ hverbatim => ?_⟩
  · rw [hstop, List.length_cons]
    omega
  · simp [Piece.areVerbatim, hp] at hverbatim

theorem plain (h : Spans 0 (index + 1) text closing pieces stop) (c : Char) :
    Spans 0 index (c :: text) closing (.plain c :: pieces) stop := by
  obtain ⟨body, rest, htext, hstop, hvalue⟩ := h
  refine ⟨c :: body, rest, by rw [htext]; rfl, ?_, fun _ hverbatim => ?_⟩
  · rw [hstop, List.length_cons]
    omega
  · have hpieces : Piece.areVerbatim pieces = true := by
      simpa [Piece.areVerbatim, Piece.isPlain] using hverbatim
    rw [hvalue rfl hpieces]
    rfl

theorem le_stop (h : Spans skip index text closing pieces stop) :
    index + closing.length ≤ stop := by
  obtain ⟨body, rest, -, hstop, -⟩ := h
  omega

theorem stop_le (h : Spans skip index text closing pieces stop) : stop ≤ index + text.length := by
  obtain ⟨body, rest, htext, hstop, -⟩ := h
  rw [htext, hstop]
  simp only [List.length_append]
  omega

/-- The text of the token, which starts with characters that were read before. -/
theorem exists_take {opening : List Char} (h : Spans 0 opening.length text closing pieces stop) :
    ∃ body, (opening ++ text).take stop = opening ++ body ++ closing ∧
      (Piece.areVerbatim pieces = true → body = Piece.value pieces) := by
  obtain ⟨body, rest, htext, hstop, hvalue⟩ := h
  refine ⟨body, ?_, hvalue rfl⟩
  have hlength : stop = (opening ++ body ++ closing).length := by
    rw [hstop, List.length_append, List.length_append]
  have hsplit : opening ++ text = opening ++ body ++ closing ++ rest := by
    rw [htext]
    simp only [List.append_assoc]
  rw [hsplit, hlength, List.take_left]

end Spans

/-- A name ends with its last character. -/
theorem readWordFrom_within (text : List Char) : ∀ (first : Bool) (index skip : Nat),
    (readWordFrom first index skip text).Within (index + text.length) fun result =>
      Spans skip index text [] result.1 result.2 := by
  induction text with
  | nil =>
    intro first index skip
    unfold readWordFrom
    exact .ok (.done skip index [] [])
  | cons c rest ih =>
    intro first index skip
    have hlength : index + 1 + rest.length = index + (c :: rest).length := by
      simp only [List.length_cons]
      omega
    cases skip with
    | succ skip =>
      rw [readWordFrom, ← hlength]
      exact (ih first (index + 1) skip).mono fun _ h => h.skipped c
    | zero =>
      have hindex : index ≤ index + (c :: rest).length := Nat.le_add_right _ _
      unfold readWordFrom
      refine .ite (fun _ => ?_) fun _ => .ite (fun _ => ?_) fun _ => ?_
      · split
        · split
          · exact .fault hindex
          · refine .ite (fun _ => ?_) fun _ => .fault hindex
            rw [← hlength]
            exact (ih false (index + 1) _).bind fun result h => .ok (h.piece c rfl)
        · exact .fault hindex
      · rw [← hlength]
        exact (ih false (index + 1) 0).bind fun result h => .ok (h.plain c)
      · exact .ok (.done 0 index [] (c :: rest))

/-- A string ends with its quotation mark. -/
theorem readStringFrom_within (quote : Char) (text : List Char) : ∀ index skip : Nat,
    (readStringFrom quote index skip text).Within (index + text.length) fun result =>
      Spans skip index text [quote] result.1 result.2 := by
  induction text with
  | nil =>
    intro index skip
    unfold readStringFrom
    exact .fault (Nat.zero_le _)
  | cons c rest ih =>
    intro index skip
    have hlength : index + 1 + rest.length = index + (c :: rest).length := by
      simp only [List.length_cons]
      omega
    cases skip with
    | succ skip =>
      rw [readStringFrom, ← hlength]
      exact (ih (index + 1) skip).mono fun _ h => h.skipped c
    | zero =>
      rw [readStringFrom]
      refine .ite (fun hquote => ?_) fun _ => .ite (fun _ => ?_) fun _ =>
        .ite (fun _ => .fault (Nat.zero_le _)) fun _ => ?_
      · rw [beq_iff_eq.mp hquote]
        exact .ok (.done 0 index [quote] rest)
      · split
        · exact .fault (Nat.zero_le _)
        · exact .fault (Nat.le_add_right _ _)
        · rw [← hlength]
          exact (ih (index + 1) _).bind fun result h => .ok (h.piece c rfl)
      · rw [← hlength]
        exact (ih (index + 1) 0).bind fun result h => .ok (h.plain c)

/-- What ends a template chunk. -/
def ChunkEnd.delimiter : ChunkEnd → List Char
  | .closed => ['\x60']
  | .substitution => ['$', '\x7b']
  | .unterminated => []

/-- A template chunk ends with its delimiter. -/
theorem readChunkFrom_spans (text : List Char) : ∀ index skip : Nat,
    (readChunkFrom index skip text).ending ≠ .unterminated →
      Spans skip index text (readChunkFrom index skip text).ending.delimiter
        (readChunkFrom index skip text).pieces (readChunkFrom index skip text).stop := by
  induction text with
  | nil =>
    intro index skip h
    unfold readChunkFrom at h
    exact absurd rfl h
  | cons c rest ih =>
    intro index skip
    cases skip with
    | succ skip =>
      rw [readChunkFrom]
      exact fun h => (ih (index + 1) skip h).skipped c
    | zero =>
      have hpiece : ∀ (skip : Nat) (p : Piece), p.isPlain = false →
          ((readChunkFrom (index + 1) skip rest).cons p).ending ≠ .unterminated →
            Spans 0 index (c :: rest) ((readChunkFrom (index + 1) skip rest).cons
              p).ending.delimiter
              ((readChunkFrom (index + 1) skip rest).cons p).pieces
              ((readChunkFrom (index + 1) skip rest).cons p).stop :=
        fun skip p hp h => (ih (index + 1) skip h).piece c hp
      rw [readChunkFrom]
      split
      · rename_i hclose
        intro _
        rw [beq_iff_eq.mp hclose]
        exact .done 0 index ['\x60'] rest
      · split
        · rename_i hdollar
          simp only [Bool.and_eq_true, beq_iff_eq] at hdollar
          obtain ⟨rfl, hbrace⟩ := hdollar
          obtain ⟨rest', rfl⟩ := List.head?_eq_some_iff.mp hbrace
          exact fun _ => .done 0 index ['$', '\x7b'] rest'
        · split
          · split
            · exact fun h => absurd rfl h
            · exact hpiece _ _ rfl
            · exact hpiece _ _ rfl
            · exact hpiece _ _ rfl
          · split
            · exact hpiece _ _ rfl
            · exact fun h => (ih (index + 1) 0 h).plain c

/-- A first piece that is no invalid escape, or one at an index. -/
theorem Chunk.invalidEscape?_cons {p : Piece} {chunk : Chunk} {last : Nat}
    (hp : ∀ index ∈ p.invalidIndex?, index ≤ last)
    (hchunk : ∀ index ∈ chunk.invalidEscape?, index ≤ last) :
    ∀ index ∈ (chunk.cons p).invalidEscape?, index ≤ last := by
  intro index h
  simp only [Chunk.invalidEscape?, Chunk.cons, List.findSome?_cons] at h
  split at h
  · rename_i found hfound
    exact hp index (hfound.trans h)
  · exact hchunk index h

/-- An invalid escape stands in its template chunk. -/
theorem readChunkFrom_invalidEscape (text : List Char) : ∀ index skip : Nat,
    ∀ found ∈ (readChunkFrom index skip text).invalidEscape?, found ≤ index + text.length := by
  induction text with
  | nil =>
    intro index skip
    unfold readChunkFrom
    exact nofun
  | cons c rest ih =>
    intro index skip
    have hlength : index + 1 + rest.length = index + (c :: rest).length := by
      simp only [List.length_cons]
      omega
    rw [← hlength]
    cases skip with
    | succ skip =>
      rw [readChunkFrom]
      exact ih (index + 1) skip
    | zero =>
      have hinvalid : ∀ found ∈ (Piece.invalid index).invalidIndex?,
          found ≤ index + 1 + rest.length := by
        rintro _ ⟨⟩
        omega
      rw [readChunkFrom]
      split
      · exact nofun
      · split
        · exact nofun
        · split
          · split
            · exact nofun
            · exact Chunk.invalidEscape?_cons hinvalid (ih (index + 1) 1)
            · exact Chunk.invalidEscape?_cons hinvalid (ih (index + 1) 1)
            · exact Chunk.invalidEscape?_cons nofun (ih (index + 1) _)
          · split
            · exact Chunk.invalidEscape?_cons nofun (ih (index + 1) _)
            · exact Chunk.invalidEscape?_cons nofun (ih (index + 1) 0)

end Pieces

section Numerals

/-- Digits end in the text, and a first one is taken. -/
theorem readDigits_within (radix : Nat) (separators : Bool) (text : List Char) :
    ∀ (index : Nat) (any afterSeparator : Bool),
      (readDigits radix separators index any afterSeparator text).Within (index + text.length)
        fun result => index ≤ result.2 ∧ result.2 ≤ index + text.length ∧
          ((text.head?).any (isDigitIn radix) = true → index < result.2) := by
  induction text with
  | nil =>
    intro index any afterSeparator
    unfold readDigits
    refine .ite (fun _ => .fault (by omega)) fun _ => .ok ⟨Nat.le_refl _, Nat.le_refl _, ?_⟩
    simp
  | cons c rest ih =>
    intro index any afterSeparator
    have hlength : index + 1 + rest.length = index + (c :: rest).length := by
      simp only [List.length_cons]
      omega
    unfold readDigits
    rw [← hlength]
    refine .ite (fun _ => .ite (fun _ => .fault (by omega)) fun _ => ?_) fun _ =>
      .ite (fun _ => ?_) fun hdigit => .ite (fun _ => .fault (by omega)) fun _ => .ok ?_
    · exact (ih (index + 1) any true).mono fun result h => ⟨by omega, h.2.1, fun _ => by omega⟩
    · exact (ih (index + 1) true false).bind fun result h =>
        .ok ⟨by omega, h.2.1, fun _ => by omega⟩
    · refine ⟨Nat.le_refl _, by omega, fun h => absurd ?_ hdigit⟩
      simpa using h

theorem readFraction_within (index : Nat) (text : List Char) :
    (readFraction index text).Within (index + text.length) fun result =>
      index ≤ result.2 ∧ result.2 ≤ index + text.length ∧
        (text.head? = some '.' → index < result.2) := by
  unfold readFraction
  split
  · rename_i rest
    have hlength : index + 1 + rest.length = index + ('.' :: rest).length := by
      simp only [List.length_cons]
      omega
    rw [← hlength]
    exact (readDigits_within 10 true rest (index + 1) false false).bind fun result h =>
      .ok ⟨by omega, h.2.1, fun _ => by omega⟩
  · rename_i hpoint
    refine .ok ⟨Nat.le_refl _, by omega, fun h => ?_⟩
    obtain ⟨rest, rfl⟩ := List.head?_eq_some_iff.mp h
    exact absurd rfl (hpoint rest)

theorem readExponent_within (index : Nat) (text : List Char) :
    (readExponent index text).Within (index + text.length) fun result =>
      index ≤ result.2 ∧ result.2 ≤ index + text.length := by
  unfold readExponent
  split
  · rename_i c rest
    refine .ite (fun _ => ?_) fun _ => .ok ⟨Nat.le_refl _, by omega⟩
    generalize hsigned : (rest.head? == some '+' || rest.head? == some '-') = signed
    -- The sign, if there is one, is a character of the text.
    have hlength : (if signed then index + 2 else index + 1) +
        (if signed then rest.drop 1 else rest).length = index + (c :: rest).length := by
      cases signed with
      | false =>
        simp only [Bool.false_eq_true, if_false, List.length_cons]
        omega
      | true =>
        cases rest with
        | nil => cases hsigned
        | cons d rest =>
          simp only [if_true, List.drop_one, List.tail_cons, List.length_cons]
          omega
    have hdigits := readDigits_within 10 true (if signed then rest.drop 1 else rest)
      (if signed then index + 2 else index + 1) false false
    rw [hlength] at hdigits
    have hstart : index ≤ if signed then index + 2 else index + 1 := by
      split <;> omega
    refine hdigits.bind fun result h => .ite (fun _ => .fault h.2.1) fun _ => .ok ⟨?_, h.2.1⟩
    exact Nat.le_trans hstart h.1
  · exact .ok ⟨Nat.le_refl _, by omega⟩

/-- Fraction and exponent end in the text, and a point is taken. -/
theorem readDecimalTail_within (whole : List Char) (index : Nat) (text : List Char) :
    (readDecimalTail whole index text).Within (index + text.length) fun result =>
      index ≤ result.2.2 ∧ result.2.2 ≤ index + text.length ∧
        (text.head? = some '.' → index < result.2.2) := by
  unfold readDecimalTail
  refine (readFraction_within index text).bind fun fraction hfraction => ?_
  have hexponent := readExponent_within fraction.2 (text.drop (fraction.2 - index))
  have hlength : fraction.2 + (text.drop (fraction.2 - index)).length = index + text.length := by
    rw [List.length_drop]
    omega
  rw [hlength] at hexponent
  refine hexponent.bind fun exponent h => .ok ⟨?_, h.2, fun hpoint => ?_⟩
  · exact Nat.le_trans hfraction.1 h.1
  · exact Nat.lt_of_lt_of_le (hfraction.2.2 hpoint) h.1

/-- What is refused after a number stands in the text. -/
theorem checkAfterNumber_within (text : List Char) {numeral : Numeral} {P : Numeral → Prop}
    (h : P numeral) : (checkAfterNumber text numeral).Within text.length P := by
  unfold checkAfterNumber
  split
  · rename_i c hc
    obtain ⟨hlt, -⟩ := List.getElem?_eq_some_iff.mp hc
    exact .ite (fun _ => .fault (by omega)) fun _ => .ok h
  · exact .ok h

/-- The mark of a bigint is a character of the text. -/
theorem finishBigint_within {text : List Char} {index : Nat}
    (h : hasBigintMark text index = true) : (finishBigint text index).Within text.length
      fun numeral => 0 < numeral.stop ∧ numeral.stop ≤ text.length := by
  have hmark := beq_iff_eq.mp h
  obtain ⟨hlt, -⟩ := List.getElem?_eq_some_iff.mp hmark
  exact checkAfterNumber_within text ⟨Nat.succ_pos _, hlt⟩

theorem readRadixNumber_within (radix : Nat) (missing : Cause) {text : List Char}
    (h : 2 ≤ text.length) : (readRadixNumber radix missing text).Within text.length
      fun numeral => 0 < numeral.stop ∧ numeral.stop ≤ text.length := by
  have hdigits := readDigits_within radix true (text.drop 2) 2 false false
  have hlength : 2 + (text.drop 2).length = text.length := by
    rw [List.length_drop]
    omega
  rw [hlength] at hdigits
  unfold readRadixNumber
  refine hdigits.bind fun result hresult => .ite (fun _ => .fault hresult.2.1) fun _ => ?_
  refine .ite finishBigint_within fun _ => checkAfterNumber_within text ⟨?_, hresult.2.1⟩
  exact Nat.lt_of_lt_of_le Nat.two_pos hresult.1

/-- The whole digits of a number. -/
theorem readDigits_whole (separators : Bool) (text : List Char) :
    (readDigits 10 separators 0 false false text).Within text.length fun result =>
      result.2 ≤ text.length ∧ (text.head?.any isAsciiDigit = true → 0 < result.2) := by
  have hdigits := readDigits_within 10 separators text 0 false false
  rw [Nat.zero_add] at hdigits
  exact hdigits.mono fun result h => h.2

/-- Fraction and exponent after the whole digits end in the text. -/
theorem readDecimalTail_within_drop (whole : List Char) {index : Nat} {text : List Char}
    (h : index ≤ text.length) : (readDecimalTail whole index (text.drop index)).Within text.length
      fun result => index ≤ result.2.2 ∧ result.2.2 ≤ text.length ∧
        ((text.drop index).head? = some '.' → index < result.2.2) := by
  have htail := readDecimalTail_within whole index (text.drop index)
  have hlength : index + (text.drop index).length = text.length := by
    rw [List.length_drop]
    omega
  rwa [hlength] at htail

theorem readLegacyNumber_within {text : List Char} (h : text.head?.any isAsciiDigit = true) :
    (readLegacyNumber text).Within text.length
      fun numeral => 0 < numeral.stop ∧ numeral.stop ≤ text.length := by
  unfold readLegacyNumber
  refine (readDigits_whole false text).bind fun result hresult => .ite (fun _ => ?_) fun _ => ?_
  · refine .ite (fun _ => .fault (Nat.zero_le _)) fun _ => ?_
    exact checkAfterNumber_within text ⟨hresult.2 h, hresult.1⟩
  · refine (readDecimalTail_within_drop result.1 hresult.1).bind fun tail htail => ?_
    refine .ite (fun _ => .fault (Nat.zero_le _)) fun _ =>
      checkAfterNumber_within text ⟨?_, htail.2.1⟩
    exact Nat.lt_of_lt_of_le (hresult.2 h) htail.1

theorem readDecimalNumber_within {text : List Char}
    (h : text.head?.any (fun c => isAsciiDigit c || c == '.') = true) :
    (readDecimalNumber text).Within text.length
      fun numeral => 0 < numeral.stop ∧ numeral.stop ≤ text.length := by
  unfold readDecimalNumber readDecimalDigits
  refine (readDigits_whole true text).bind fun whole hwhole => ?_
  refine (readDecimalTail_within_drop whole.1 hwhole.1).bind fun tail htail => ?_
  refine .ite (fun hmark => .ite (fun _ => finishBigint_within hmark) fun _ =>
    .fault (Nat.zero_le _)) fun _ => checkAfterNumber_within text ⟨?_, htail.2.1⟩
  -- The number starts with a digit or with a point.
  by_cases hdigit : text.head?.any isAsciiDigit = true
  · exact Nat.lt_of_lt_of_le (hwhole.2 hdigit) htail.1
  · by_cases hstop : whole.2 = 0
    · refine Nat.lt_of_le_of_lt (Nat.zero_le _) (htail.2.2 ?_)
      rw [hstop, List.drop_zero]
      cases text with
      | nil => cases h
      | cons c rest =>
        simp only [List.head?_cons, Option.any_some] at hdigit
        simpa [hdigit] using h
    · exact Nat.lt_of_lt_of_le (Nat.pos_of_ne_zero hstop) htail.1

/-- A number has a character and no more than there are. -/
theorem readNumeral_within {text : List Char}
    (h : text.head?.any (fun c => isAsciiDigit c || c == '.') = true) :
    (readNumeral text).Within text.length
      fun numeral => 0 < numeral.stop ∧ numeral.stop ≤ text.length := by
  unfold readNumeral
  split
  · rename_i c rest
    have hlength : 2 ≤ ('0' :: c :: rest).length := by simp
    refine .ite (fun _ => readRadixNumber_within _ _ hlength) fun _ => ?_
    refine .ite (fun _ => readRadixNumber_within _ _ hlength) fun _ => ?_
    refine .ite (fun _ => readRadixNumber_within _ _ hlength) fun _ => ?_
    refine .ite (fun _ => readLegacyNumber_within rfl) fun _ => ?_
    exact .ite (fun _ => .fault (by omega)) fun _ => readDecimalNumber_within h
  · exact readDecimalNumber_within h

end Numerals

end EcmaSyntax.Lexer
