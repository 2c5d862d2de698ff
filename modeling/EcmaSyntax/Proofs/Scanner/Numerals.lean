import EcmaSyntax.Proofs.Scanner.Decimals

/-!
Numbers on bytes: decimals, numbers of another radix, those with a leading zero, and large integers
with the mark after them.
-/

namespace EcmaSyntax.Scanner

open EcmaSyntax.Diagnostic EcmaSyntax.Lexer EcmaSyntax.Number EcmaSyntax.Text EcmaSyntax.Unicode

variable {version : Nat} [Unicode.IdentifierChars version]

variable {s s' : State} {lead token rest : List Char} {c : Char} {index : Nat}

section Numbers

/-- The token that is a numeral. -/
def numeralLexeme (numeral : Numeral) : Lexeme :=
  match numeral.value with
  | .number value =>
    { Lexeme.plain .numericLiteral numeral.stop .empty with
      legacyOctal := numeral.legacyOctal
      nonOctalDecimal := numeral.nonOctalDecimal
      number := some value }
  | .bigint digits => Lexeme.plain .bigIntLiteral numeral.stop ⟨String.ofList digits, false⟩

theorem readNumberLexeme_eq (text : List Char) :
    readNumberLexeme text = (do
      let numeral ← readNumeral text
      .ok (numeralLexeme numeral)) := by
  unfold readNumberLexeme numeralLexeme
  cases readNumeral text with
  | error found => rfl
  | ok numeral =>
    obtain ⟨value | digits, legacyOctal, nonOctalDecimal, stop⟩ := numeral <;> rfl

/-- What is left when a numeral has been read. -/
def HasNumeral (s : State) (lead token : List Char) (numeral : Numeral) (found : Token)
    (s' : State) :
    Prop :=
  HasTaken s lead token (numeralLexeme numeral) found s'

theorem checkAfterNumber_follows (s : State) {s₁ : State} (numeral : Numeral)
    (h : At s₁ (lead ++ token.take numeral.stop) (token.drop numeral.stop))
    (hinvalid : s₁.invalidEscape = s.invalidEscape) (hcomments : s₁.comments = s.comments) :
    Follows (FailsAs s lead token) (Lexer.checkAfterNumber token numeral) checkAfterNumber
      (fun result _ s' => result = numeral ∧ s' = s₁) s₁ := by
  unfold Lexer.checkAfterNumber checkAfterNumber
  refine .run h.currentChar ?_
  rw [List.head?_drop]
  cases token[numeral.stop]? with
  | none => exact .pure ⟨rfl, rfl⟩
  | some c =>
    dsimp only
    split
    · refine .run rfl (.fail rfl h.pos_mod ⟨?_, hinvalid, hcomments⟩)
      rw [h.pos]
    · exact .pure ⟨rfl, rfl⟩

/-- A number ends where its digits end. -/
theorem endNumber_follows (h : At s lead token) (hempty : Holds s [] true) {value : Binary64}
    (numeral : Numeral) (hvalue : numeral.value = .number value) {s₁ : State}
    (hs₁ : s₁ = { s.past token numeral.stop with
      number := value
      flags := flagsAfter s.flags (numeralLexeme numeral) }) :
    Follows (FailsAs s lead token) (Lexer.checkAfterNumber token numeral)
      (do checkAfterNumber
          return .numericLiteral)
      (HasNumeral s lead token) s₁ := by
  subst hs₁
  have hplace : At { s.past token numeral.stop with
      number := value
      flags := flagsAfter s.flags (numeralLexeme numeral) } (lead ++ token.take numeral.stop)
      (token.drop numeral.stop) := (h.past numeral.stop).of_eq rfl rfl
  refine (checkAfterNumber_follows s numeral hplace rfl rfl).finish fun result _ s' hresult => ?_
  obtain ⟨rfl, rfl⟩ := hresult
  refine ⟨_, _, rfl, ?_, ?_, ?_⟩
  · unfold numeralLexeme
    rw [hvalue]
    rfl
  · unfold numeralLexeme
    rw [hvalue, ← h.past_pos]
    rfl
  · unfold numeralLexeme
    rw [hvalue]
    exact hempty

theorem finishNumber_follows (h : At s lead token) (hempty : Holds s [] true)
    (hflags : s.flags.invalidTemplateEscape = false) (value : Binary64) (stop : Nat) :
    Follows (FailsAs s lead token)
      (Lexer.checkAfterNumber token ⟨.number value, false, false, stop⟩) (finishNumber value)
      (HasNumeral s lead token) (s.past token stop) := by
  refine .run rfl (endNumber_follows h hempty ⟨.number value, false, false, stop⟩ rfl ?_)
  have hplain : flagsAfter s.flags (numeralLexeme ⟨.number value, false, false, stop⟩) =
    s.flags := by
    exact flagsAfter_plain hflags .numericLiteral stop .empty
  rw [hplain]
  rfl

theorem hasBigintMark_eq (stop : Nat) :
    hasBigintMark token stop = ((token.drop stop).head? == some 'n') := by
  rw [hasBigintMark, List.head?_drop]

/-- The mark of a bigint is asked for where the digits end. -/
theorem At.byteAt_mark (h : At s lead token) (stop : Nat) :
    Scanner.byteAt 0 (s.past token stop) =
      .ok (ahead (token.drop stop) 0) (s.past token stop) ∧
    (ahead (token.drop stop) 0 == 'n') = hasBigintMark token stop := by
  refine ⟨(h.past stop).byteAt_eq 0, ?_⟩
  rw [hasBigintMark_eq, ahead_beq (by decide) (by decide)]

/-- The value of the token is in the buffer. -/
def State.buffering (s : State) (text : List Char) : State :=
  { s with buffer := text, value := .buffer }

theorem finishBigint_follows (h : At s lead token) (hflags : s.flags.invalidTemplateEscape = false)
    {stop : Nat} (hmark : hasBigintMark token stop = true) :
    Follows (FailsAs s lead token) (Lexer.finishBigint token stop) (finishBigint s.pos)
      (HasNumeral s lead token) (s.past token stop) := by
  rw [hasBigintMark_eq, beq_iff_eq] at hmark
  obtain ⟨rest, hrest⟩ := List.head?_eq_some_iff.mp hmark
  have hplace := h.past stop
  have hslice : slice s.pos (s.past token stop).pos (s.past token stop) =
      .ok (token.take stop) (s.past token stop) := by
    rw [h.pos]
    exact slice_eq hplace.slice?
  generalize hdigits : (token.take stop).filter (· != '_') = digits
  have hbump : ((s.past token stop).buffering digits).bump 1 =
      (s.past token (stop + 1)).buffering digits :=
    congrArg (State.buffering · digits) (State.past_bump_one hrest (by decide))
  have hnext : At ((s.past token (stop + 1)).buffering digits) (lead ++ token.take (stop + 1))
      (token.drop (stop + 1)) := (h.past (stop + 1)).of_eq rfl rfl
  unfold Lexer.finishBigint finishBigint
  rw [hdigits]
  refine .run rfl (.run hslice ?_)
  rw [hdigits]
  refine .run rfl (.run rfl (.run rfl (.run (congrArg (EStateM.Result.ok ()) hbump) ?_)))
  refine (checkAfterNumber_follows (s := s) ⟨.bigint digits, false, false, stop + 1⟩ hnext rfl
    rfl).finish fun result _ s' hresult => ?_
  obtain ⟨rfl, rfl⟩ := hresult
  refine ⟨_, _, rfl, rfl, ?_, ?_⟩
  · rw [← h.past_pos]
    exact congrArg (fun flags => { (s.past token (stop + 1)).buffering digits with flags := flags })
      (flagsAfter_plain hflags _ _ _).symm
  · exact ⟨rfl, (String.toList_ofList).symm⟩

/-- An integer after its radix mark. -/
theorem scanRadixNumber_follows (h : At s lead token) (hempty : Holds s [] true)
    (hflags : s.flags.invalidTemplateEscape = false) (hlead : ∀ c ∈ token.take 2, isAscii c = true)
    (hlength : 2 ≤ token.length) (radix : Nat) (missing : Cause) :
    Follows (FailsAs s lead token) (readRadixNumber radix missing token)
      (scanRadixNumber radix missing) (HasNumeral s lead token) s := by
  have hpast : s.past token 2 = s.bump 2 := s.past_of_isAscii hlead hlength
  unfold scanRadixNumber
  refine .run rfl (.run (congrArg (EStateM.Result.ok ()) hpast.symm) ?_)
  refine .run ((h.past 2).byteAt_eq 0) ?_
  rw [ahead_beq (by decide) (by decide)]
  unfold readRadixNumber
  cases hseparator : (token.drop 2).head? == some '_' with
  | true =>
    obtain ⟨rest, hrest⟩ := List.head?_eq_some_iff.mp (beq_iff_eq.mp hseparator)
    simp only [if_true]
    refine .run rfl (h.fails_past ?_)
    rw [hrest]
    rfl
  | false =>
    simp only [Bool.false_eq_true, if_false]
    refine (scanDigits_follows h 2).bind fun result digits s' hresult => ?_
    obtain rfl : digits = result.1 := hresult.digits
    obtain rfl := hresult.state
    obtain ⟨hbyte, hmark⟩ := h.byteAt_mark result.2
    split
    · exact .run rfl (h.fails_past rfl)
    · refine .run hbyte ?_
      rw [hmark]
      split
      · exact finishBigint_follows h hflags ‹_›
      · exact finishNumber_follows h hempty hflags _ _

theorem scanDecimalNumber_follows (h : At s lead token) (hempty : Holds s [] true)
    (hflags : s.flags.invalidTemplateEscape = false) :
    Follows (FailsAs s lead token) (readDecimalNumber token) scanDecimalNumber
      (HasNumeral s lead token) s := by
  unfold readDecimalNumber scanDecimalNumber
  refine .run rfl ?_
  refine (scanDecimalDigits_follows h 0).bind fun whole digits s' hwhole => ?_
  obtain ⟨rfl, hdigits, rfl, -⟩ := hwhole
  refine (scanDecimalTail_follows h whole.2 hdigits).bind fun tail found s' htail => ?_
  obtain ⟨text, isInteger⟩ := found
  obtain rfl : isInteger = tail.2.1 := htail.isInteger
  obtain rfl := htail.state
  have hvalue : parseDecimal text = tail.1.toBinary64 := htail.value
  obtain ⟨hbyte, hmark⟩ := h.byteAt_mark tail.2.2
  dsimp only
  refine .run hbyte ?_
  rw [hmark, hvalue]
  split
  · split
    · exact finishBigint_follows h hflags ‹_›
    · refine .fail rfl h.pos_mod ⟨?_, rfl, rfl⟩
      rw [List.take_zero, List.append_nil, h.pos]
  · exact finishNumber_follows h hempty hflags _ _

/-- A number that starts with a zero is no bigint. -/
theorem endLegacyNumber_follows (h : At s lead token) (hempty : Holds s [] true) {value : Binary64}
    (numeral : Numeral) (hvalue : numeral.value = .number value) {s₁ : State}
    (hs₁ : s₁ = { s.past token numeral.stop with
      flags := flagsAfter s.flags (numeralLexeme numeral) }) :
    Follows (FailsAs s lead token)
      (if hasBigintMark token numeral.stop then fault .invalidBigint 0
        else Lexer.checkAfterNumber token numeral)
      (do setNumber value
          if (← byteAt 0) == 'n' then fail .invalidBigint s.pos
          else
            checkAfterNumber
            return .numericLiteral)
      (HasNumeral s lead token) s₁ := by
  have hmark := (h.byteAt_mark numeral.stop).2
  have hplace : At { s₁ with number := value } (lead ++ token.take numeral.stop)
      (token.drop numeral.stop) := by
    rw [hs₁]
    exact (h.past numeral.stop).of_eq rfl rfl
  refine .run rfl (.run (hplace.byteAt_eq 0) ?_)
  rw [hmark]
  split
  · refine .fail rfl h.pos_mod ⟨?_, ?_, ?_⟩
    · rw [List.take_zero, List.append_nil, h.pos]
    · rw [hs₁]
      rfl
    · rw [hs₁]
      rfl
  · refine endNumber_follows h hempty numeral hvalue ?_
    rw [hs₁]

theorem flagsAfter_legacyOctal {flags : TokenFlags} (h : flags.invalidTemplateEscape = false)
    (value : Binary64) (stop : Nat) :
    flagsAfter flags (numeralLexeme ⟨.number value, true, false, stop⟩) =
      { flags with legacyOctal := true } := by
  obtain ⟨lineBreakBefore, escaped, octalEscape, legacyOctal, nonOctalDecimal, _⟩ := flags
  subst h
  simp [flagsAfter, numeralLexeme, Lexeme.plain]

theorem flagsAfter_nonOctalDecimal {flags : TokenFlags} (h : flags.invalidTemplateEscape = false)
    (value : Binary64) (stop : Nat) :
    flagsAfter flags (numeralLexeme ⟨.number value, false, true, stop⟩) =
      { flags with nonOctalDecimal := true } := by
  obtain ⟨lineBreakBefore, escaped, octalEscape, legacyOctal, nonOctalDecimal, _⟩ := flags
  subst h
  simp [flagsAfter, numeralLexeme, Lexeme.plain]

theorem scanLegacyNumber_follows (h : At s lead token) (hempty : Holds s [] true)
    (hflags : s.flags.invalidTemplateEscape = false) :
    Follows (FailsAs s lead token) (readLegacyNumber token) scanLegacyNumber
      (HasNumeral s lead token) s := by
  unfold readLegacyNumber scanLegacyNumber
  refine .run rfl ?_
  refine (scanDigits_follows (s := s) h 0).bind fun whole digits s' hwhole => ?_
  obtain rfl : digits = whole.1 := hwhole.digits
  obtain rfl := hwhole.state
  dsimp only
  split
  · refine .run rfl (.run rfl ?_)
    refine endLegacyNumber_follows h hempty
      ⟨.number (foldDigits 8 whole.1), true, false, whole.2⟩ rfl ?_
    rw [flagsAfter_legacyOctal hflags]
    rfl
  · have hdigits : AreDigits whole.1 := hwhole.radix
    -- The flag is set before the rest of the number is read.
    let flagged : State := { s with flags := { s.flags with nonOctalDecimal := true } }
    have htail : Follows (FailsAs s lead token)
        (readDecimalTail whole.1 whole.2 (token.drop whole.2)) (scanDecimalTail whole.1)
        (HasTail flagged token whole.2) (flagged.past token whole.2) :=
      (scanDecimalTail_follows (s := flagged) (h.of_eq rfl rfl) whole.2 hdigits).rebase s rfl rfl
    refine .run rfl (htail.bind fun tail found s' hresult => ?_)
    obtain rfl := hresult.state
    rw [hresult.value]
    refine .run rfl ?_
    refine endLegacyNumber_follows h hempty
      ⟨.number tail.1.toBinary64, false, true, tail.2.2⟩ rfl ?_
    rw [flagsAfter_nonOctalDecimal hflags]
    rfl

/-- What is left when the number at the position has been read. -/
theorem scanNumeral_follows (h : At s lead (c :: rest))
    (hc : isAscii c = true) (hempty : Holds s [] true)
    (hflags : s.flags.invalidTemplateEscape = false) :
    Follows (FailsAs s lead (c :: rest)) (readNumeral (c :: rest)) scanNumber
      (HasNumeral s lead (c :: rest)) s := by
  have hdecimal := scanDecimalNumber_follows h hempty hflags
  unfold scanNumber
  refine .run rfl (.run (congrArg (EStateM.Result.ok · s) (h.byteAt_succ hc 0))
    (.run (h.byte_ascii hc) ?_))
  cases hzero : c == '0' with
  | false =>
    have hread : readNumeral (c :: rest) = readDecimalNumber (c :: rest) := by
      unfold readNumeral
      split
      · rename_i heq
        rw [(List.cons.inj heq).1] at hzero
        cases hzero
      · rfl
    rw [hread, if_pos (by simp [bne, hzero])]
    exact hdecimal
  | true =>
    obtain rfl := beq_iff_eq.mp hzero
    rw [if_neg (by simp)]
    cases rest with
    | nil => exact hdecimal
    | cons mark rest =>
      have hhead : ∀ x, isAscii x = true → x ≠ '\x00' →
          (ahead (mark :: rest) 0 == x) = (mark == x) := fun x hx hne => by
        rw [ahead_beq hx hne]
        simp
      have hdigit : isAsciiDigit (ahead (mark :: rest) 0) = isAsciiDigit mark :=
        any_ahead (by decide) (fun _ hwide => isAsciiDigit_wide hwide) _
      have hradix : ∀ radix missing {x y : Char}, (mark == x || mark == y) = true →
          isAscii x = true → isAscii y = true →
          Follows (FailsAs s lead ('0' :: mark :: rest))
            (readRadixNumber radix missing ('0' :: mark :: rest)) (scanRadixNumber radix missing)
            (HasNumeral s lead ('0' :: mark :: rest)) s := fun radix missing x y hmark hx hy => by
        have hascii : isAscii mark = true := by
          rw [Bool.or_eq_true, beq_iff_eq, beq_iff_eq] at hmark
          rcases hmark with rfl | rfl
          · exact hx
          · exact hy
        exact scanRadixNumber_follows h hempty hflags (by simp [hc, hascii]) (by simp) radix missing
      rw [readNumeral, hhead 'x' (by decide) (by decide), hhead 'X' (by decide) (by decide),
        hhead 'o' (by decide) (by decide), hhead 'O' (by decide) (by decide),
        hhead 'b' (by decide) (by decide), hhead 'B' (by decide) (by decide), hdigit,
        hhead '_' (by decide) (by decide)]
      split
      · exact hradix 16 _ ‹_› (by decide) (by decide)
      split
      · exact hradix 8 _ ‹_› (by decide) (by decide)
      split
      · exact hradix 2 _ ‹_› (by decide) (by decide)
      split
      · exact scanLegacyNumber_follows h hempty hflags
      split
      · have hstart : (s.pos + 1) % UInt32.size = s.pos + 1 := by
          refine h.mod_eq ?_
          have hsize := mark.utf8Size_pos
          simp only [h.pos, byteLength]
          omega
        refine .fail rfl hstart ⟨?_, rfl, rfl⟩
        rw [h.pos, byteLength_append]
        rfl
      · exact hdecimal

/-- What the scanner leaves when it has read the number at the position. -/
theorem scanNumber_follows (h : At s lead (c :: rest)) (hc : isAscii c = true)
    (hempty : Holds s [] true) (hflags : s.flags.invalidTemplateEscape = false) :
    Follows (FailsAs s lead (c :: rest)) (readNumberLexeme (c :: rest)) scanNumber
      (HasTaken s lead (c :: rest)) s := by
  rw [readNumberLexeme_eq]
  exact (scanNumeral_follows h hc hempty hflags).map fun _ _ _ hresult => hresult

end Numbers

end EcmaSyntax.Scanner
