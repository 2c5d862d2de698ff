import EcmaSyntax.Proofs.Lexer.Extent
import EcmaSyntax.Proofs.Scanner.Words
import EcmaSyntax.Scanner.Numeral

/-!
Digits and decimals on bytes. All of a number is ASCII, so the scanner is past as many characters as
bytes; the text that it collects spells the parts of the decimal that the reader finds.
-/

namespace EcmaSyntax.Scanner

open EcmaSyntax.Diagnostic EcmaSyntax.Lexer EcmaSyntax.Number EcmaSyntax.Text EcmaSyntax.Unicode

variable {version : Nat} [Unicode.IdentifierChars version]

variable {s s' : State} {lead token rest : List Char} {c : Char} {index : Nat}

section Digits

variable {radix : Nat} {separators : Bool} {d : DigitsState}

theorem isAscii_of_isDigitIn (h : isDigitIn radix c = true) : isAscii c = true := by
  cases hc : isAscii c with
  | true => rfl
  | false =>
    rw [isDigitIn_wide hc] at h
    cases h

theorem isDigitIn_zero (radix : Nat) : isDigitIn radix '\x00' = false := by
  unfold isDigitIn
  split <;> decide

/-- What `scanDigits` does after its rounds. -/
def endDigits (d : DigitsState) : Scanner (List Char) := do
  if d.afterSeparator then fail .trailingNumericSeparator ((← position) - 1) else return d.digits

/-- What is left when digits have been read, of which `earlier` were known before. -/
structure HasDigits (s : State) (token : List Char) (radix index : Nat) (earlier : List Char)
    (result : List Char × Nat) (digits : List Char) (s' : State) : Prop where
  digits : digits = earlier ++ result.1
  radix : ∀ c ∈ result.1, isDigitIn radix c = true
  state : s' = s.past token result.2
  stop : index ≤ result.2

/-- The digits end here, and a separator may not be the last one of them. -/
theorem rounds_endDigits (h : At s lead token) (fuel : Nat) (hrest : token.drop index = rest)
    (hafter : d.afterSeparator = true → ∃ before, index = before + 1 ∧ token[before]? = some '_')
    (hseparator : rest.head? ≠ some '_') (hdigit : rest.head?.any (isDigitIn radix) = false) :
    Follows (FailsAs s lead token)
      (readDigits radix separators index (!d.digits.isEmpty) d.afterSeparator rest)
      (rounds (scanDigitsRound radix separators) (fuel + 1) d >>= endDigits)
      (HasDigits s token radix index d.digits) (s.past token index) := by
  have hplace := h.past index
  rw [hrest] at hplace
  have hend : readDigits radix separators index (!d.digits.isEmpty) d.afterSeparator rest =
      if d.afterSeparator then fault .trailingNumericSeparator (index - 1) else .ok
        ([], index) := by
    cases rest with
    | nil => rfl
    | cons c rest =>
      have hc : isDigitIn radix c = false := hdigit
      rw [readDigits, hc, if_neg (by simpa using hseparator), if_neg Bool.false_ne_true]
  have hround : scanDigitsRound radix separators d (s.past token index) =
      .ok (.inr d) (s.past token index) := by
    unfold scanDigitsRound
    refine (bind_of_ok (hplace.byteAt_eq 0)).trans ?_
    rw [ahead_beq (by decide) (by decide),
      any_ahead (isDigitIn_zero radix) (fun _ hc => isDigitIn_wide hc radix), hdigit,
      if_neg (by simpa using hseparator), if_neg Bool.false_ne_true]
    rfl
  refine .run (rounds_inr hround) ?_
  rw [hend]
  unfold endDigits
  cases hflag : d.afterSeparator with
  | false => exact .pure ⟨(List.append_nil _).symm, List.forall_mem_nil _, rfl, Nat.le_refl _⟩
  | true =>
    obtain ⟨before, rfl, hlast⟩ := hafter hflag
    obtain ⟨hlt, hget⟩ := List.getElem?_eq_some_iff.mp hlast
    have hpos : (s.past token (before + 1)).pos - 1 = (s.past token before).pos := by
      have hstep := State.past_bump_one (s := s) (hget ▸ List.drop_eq_getElem_cons hlt) (by decide)
      rw [← hstep]
      rfl
    simp only [if_true, Nat.add_sub_cancel]
    refine .run rfl (.fail rfl ?_ ⟨?_, rfl, rfl⟩)
    · rw [hpos]
      exact (h.past before).pos_mod
    · rw [hpos, h.past_pos]

theorem rounds_scanDigitsRound (h : At s lead token) (rest : List Char) :
    ∀ (index fuel : Nat) (d : DigitsState), token.drop index = rest → byteLength rest < fuel →
      (d.afterSeparator = true → ∃ before, index = before + 1 ∧ token[before]? = some '_') →
      Follows (FailsAs s lead token)
        (readDigits radix separators index (!d.digits.isEmpty) d.afterSeparator rest)
        (rounds (scanDigitsRound radix separators) fuel d >>= endDigits)
        (HasDigits s token radix index d.digits) (s.past token index) := by
  induction rest with
  | nil =>
    intro index fuel d hrest hfuel hafter
    obtain ⟨fuel, rfl⟩ := Nat.exists_eq_succ_of_ne_zero (Nat.ne_of_gt (Nat.zero_lt_of_lt hfuel))
    exact rounds_endDigits h fuel hrest hafter (by simp) rfl
  | cons c rest ih =>
    intro index fuel d hrest hfuel hafter
    obtain ⟨fuel, rfl⟩ := Nat.exists_eq_succ_of_ne_zero (Nat.ne_of_gt (Nat.zero_lt_of_lt hfuel))
    have hplace := h.past index
    rw [hrest] at hplace
    have hshort : byteLength rest < fuel := by
      rw [byteLength] at hfuel
      have hsize := c.utf8Size_pos
      omega
    have hnext := drop_succ_of_eq hrest
    cases hseparator : c == '_' with
    | true =>
      obtain rfl := beq_iff_eq.mp hseparator
      have hbyte := hplace.byteAt_eq 0
      rw [ahead, byteOf?_cons_zero (by decide), Option.getD_some] at hbyte
      rw [readDigits, if_pos hseparator]
      cases hallowed : !separators || d.digits.isEmpty || d.afterSeparator with
      | true =>
        have hround : scanDigitsRound radix separators d (s.past token index) =
            (fail .numericSeparatorNotAllowed (s.past token index).pos :
              Scanner (DigitsState ⊕ DigitsState)) (s.past token index) := by
          unfold scanDigitsRound
          refine (bind_of_ok hbyte).trans ?_
          rw [if_pos hseparator, if_pos hallowed]
          rfl
        rw [Bool.not_not, if_pos hallowed]
        refine .fails rfl (rounds_error (hround.trans rfl)) ⟨?_, rfl, rfl⟩
        rw [(h.past index).pos_mod, h.past_pos]
      | false =>
        have hround : scanDigitsRound radix separators d (s.past token index) =
            .ok (.inl { d with afterSeparator := true }) (s.past token (index + 1)) := by
          unfold scanDigitsRound
          refine (bind_of_ok hbyte).trans ?_
          rw [if_pos hseparator, hallowed, if_neg Bool.false_ne_true,
            ← State.past_bump_one hrest (by decide)]
          rfl
        have hlast : token[index]? = some '_' := by
          rw [← List.head?_drop, hrest]
          rfl
        have hmore := ih (index + 1) fuel { d with afterSeparator := true } hnext hshort
          fun _ => ⟨index, rfl, hlast⟩
        rw [Bool.not_not, hallowed, if_neg Bool.false_ne_true]
        refine (hmore.mono fun result digits s' hresult => ?_).of_step ?_
        · exact ⟨hresult.digits, hresult.radix, hresult.state, Nat.le_of_succ_le hresult.stop⟩
        · exact bind_of_eq (rounds_inl hround)
    | false =>
      cases hdigit : isDigitIn radix c with
      | false => exact rounds_endDigits h fuel hrest hafter (by simpa using hseparator) hdigit
      | true =>
        have hascii := isAscii_of_isDigitIn hdigit
        have hround : scanDigitsRound radix separators d (s.past token index) =
            .ok (.inl ⟨d.digits ++ [c], false⟩) (s.past token (index + 1)) := by
          unfold scanDigitsRound
          refine (bind_of_ok (hplace.byteAt_eq 0)).trans ?_
          rw [ahead, byteOf?_cons_zero hascii, Option.getD_some, hseparator, hdigit,
            if_neg Bool.false_ne_true, if_pos rfl, ← State.past_bump_one hrest hascii]
          rfl
        have hmore := ih (index + 1) fuel ⟨d.digits ++ [c], false⟩ hnext hshort
          (absurd · Bool.false_ne_true)
        have hany : (!(d.digits ++ [c]).isEmpty) = true := by simp
        rw [readDigits, hseparator, hdigit, if_neg Bool.false_ne_true, if_pos rfl]
        simp only [hany] at hmore
        refine (hmore.map fun result digits s' hresult => ?_).of_step ?_
        · refine ⟨?_, ?_, hresult.state, Nat.le_of_succ_le hresult.stop⟩
          · rw [hresult.digits, List.append_assoc]
            rfl
          · exact List.forall_mem_cons.mpr ⟨hdigit, hresult.radix⟩
        · exact bind_of_eq (rounds_inl hround)

theorem scanDigits_follows (h : At s lead token) (index : Nat) :
    Follows (FailsAs s lead token)
      (readDigits radix separators index false false (token.drop index))
      (scanDigits radix separators) (HasDigits s token radix index []) (s.past token index) := by
  have hfuel : byteLength (token.drop index) < (s.past token index).bytes.length + 1 := by
    rw [(h.past index).length_bytes]
    omega
  exact rounds_scanDigitsRound h _ index _ ⟨[], false⟩ rfl hfuel nofun

end Digits

section Decimals

variable {whole part : List Char} {fractional : Option (List Char)}
  {exponent : Option (Bool × List Char)}

/-- The characters are digits of a decimal. -/
def AreDigits (digits : List Char) : Prop := ∀ c ∈ digits, isAsciiDigit c = true

theorem AreDigits.takeWhile (h : AreDigits whole) (hrest : rest.head?.any isAsciiDigit = false) :
    (whole ++ rest).takeWhile isAsciiDigit = whole := by
  rw [List.takeWhile_append_of_pos h]
  cases rest with
  | nil => exact List.append_nil _
  | cons c rest =>
    have hc : isAsciiDigit c = false := hrest
    rw [List.takeWhile_cons_of_neg (by simp [hc]), List.append_nil]

theorem AreDigits.ne (h : AreDigits whole) (hc : isAsciiDigit c = false) : ∀ d ∈ whole, d ≠ c := by
  rintro d hd rfl
  rw [h d hd] at hc
  cases hc

/-- A point with digits, or nothing. -/
inductive SpellsFraction : List Char → Option (List Char) → Prop
  | none : SpellsFraction [] none
  | digits {ds} (h : AreDigits ds) : SpellsFraction ('.' :: ds) (some ds)

/-- The mark of an exponent, perhaps a sign, and digits, or nothing. -/
inductive SpellsExponent : List Char → Option (Bool × List Char) → Prop
  | none : SpellsExponent [] none
  | digits {sign ds} (hsign : sign = [] ∨ sign = ['+'] ∨ sign = ['-']) (h : AreDigits ds) :
    SpellsExponent ('e' :: sign ++ ds) (some (sign == ['-'], ds))

theorem SpellsExponent.head_not_digit (h : SpellsExponent part exponent) :
    part.head?.any isAsciiDigit = false := by
  cases h <;> rfl

theorem exponentDigits_eq {before : List Char} (hbefore : ∀ c ∈ before, c ≠ 'e')
    (h : SpellsExponent part exponent) :
    exponentDigits (before ++ part) = exponent.getD (false, []) := by
  have hdrop : (before ++ part).dropWhile (· != 'e') = part := by
    rw [List.dropWhile_append_of_pos (by simpa using hbefore)]
    cases h <;> rfl
  unfold exponentDigits
  rw [hdrop]
  cases h with
  | none => rfl
  | digits hsign hdigits =>
    rename_i sign ds
    rcases hsign with rfl | rfl | rfl
    · cases ds with
      | nil => rfl
      | cons d ds =>
        have hd := List.forall_mem_cons.mp hdigits
        have hminus : d ≠ '-' := hdigits.ne (by decide) d List.mem_cons_self
        have hplus : d ≠ '+' := hdigits.ne (by decide) d List.mem_cons_self
        split
        · rename_i heq
          exact absurd (List.cons.inj (List.cons.inj heq).2).1 hminus
        · rename_i heq
          exact absurd (List.cons.inj (List.cons.inj heq).2).1 hplus
        · rename_i heq
          exact congrArg (Prod.mk false) (List.cons.inj heq).2.symm
        · rename_i heq
          cases heq
    · rfl
    · rfl

/-- The text of a decimal is put together from its parts. -/
theorem parseDecimal_eq {fraction : List Char} (hwhole : AreDigits whole)
    (hfraction : SpellsFraction fraction fractional) (hexponent : SpellsExponent part exponent) :
    parseDecimal (whole ++ fraction ++ part) = Decimal.toBinary64
      ⟨whole, fractional.getD [], (exponent.getD (false, [])).1,
        (exponent.getD (false, [])).2⟩ := by
  have hpart := hexponent.head_not_digit
  have hhead : (fraction ++ part).head?.any isAsciiDigit = false := by
    cases hfraction with
    | none => exact hpart
    | digits => rfl
  have hdigits : fractionDigits (fraction ++ part) = fractional.getD [] := by
    cases hfraction with
    | none => cases hexponent <;> rfl
    | digits h => exact h.takeWhile hpart
  have hmark : ∀ c ∈ fraction, c ≠ 'e' := by
    cases hfraction with
    | none => nofun
    | digits h => exact List.forall_mem_cons.mpr ⟨by decide, h.ne (by decide)⟩
  unfold parseDecimal
  simp only [List.append_assoc, hwhole.takeWhile hhead, List.drop_left, hdigits,
    exponentDigits_eq hmark hexponent]

/-- A point comes next, or any character of ASCII. -/
theorem head?_drop_or (token : List Char) (x : Char) (index : Nat) :
    (∃ rest, token.drop index = x :: rest) ∨ (token.drop index).head? ≠ some x := by
  cases h : (token.drop index).head? == some x with
  | true => exact .inl (List.head?_eq_some_iff.mp (beq_iff_eq.mp h))
  | false => exact .inr (beq_eq_false_iff_ne.mp h)

theorem scanDecimalDigits_follows (h : At s lead token) (index : Nat) :
    Follows (FailsAs s lead token) (readDecimalDigits index (token.drop index)) (scanDigits 10 true)
      (fun result digits s' => digits = result.1 ∧ AreDigits digits ∧
        s' = s.past token result.2 ∧ index ≤ result.2) (s.past token index) :=
  (scanDigits_follows h index).mono fun result digits s' hresult => by
    have hdigits : digits = result.1 := hresult.digits
    exact ⟨hdigits, fun c hc => hresult.radix c (hdigits ▸ hc), hresult.state, hresult.stop⟩

theorem scanFraction_follows (h : At s lead token) (index : Nat) (text : List Char) :
    Follows (FailsAs s lead token) (readFraction index (token.drop index)) (scanFraction text)
      (fun result found s' => (∃ fraction, SpellsFraction fraction result.1 ∧
        found = (text ++ fraction, result.1.isNone)) ∧ s' = s.past token result.2 ∧
        index ≤ result.2) (s.past token index) := by
  have hplace := h.past index
  unfold scanFraction
  refine .run (hplace.byteAt_eq 0) ?_
  rw [ahead_beq (by decide) (by decide)]
  rcases head?_drop_or token '.' index with ⟨rest, hrest⟩ | hne
  · have hread : readFraction index (token.drop index) = (do
        let found ← readDecimalDigits (index + 1) (token.drop (index + 1))
        .ok (some found.1, found.2)) := by
      rw [hrest, drop_succ_of_eq hrest]
      rfl
    rw [hread, hrest, List.head?_cons, if_pos (beq_self_eq_true _)]
    refine .run (congrArg (EStateM.Result.ok ()) (State.past_bump_one hrest (by decide))) ?_
    refine .run ((h.past (index + 1)).byteAt_eq 0) ?_
    rw [ahead_beq (by decide) (by decide)]
    rcases head?_drop_or token '_' (index + 1) with ⟨rest, hseparator⟩ | hne
    · rw [hseparator, List.head?_cons, if_pos (beq_self_eq_true _)]
      refine .run rfl (h.fails_past ?_)
      rfl
    · rw [if_neg (by simpa using hne)]
      refine (scanDecimalDigits_follows h (index + 1)).bind fun result digits s' hresult => ?_
      obtain ⟨rfl, hdigits, rfl, hle⟩ := hresult
      exact .pure ⟨⟨_, .digits hdigits, rfl⟩, rfl, Nat.le_of_succ_le hle⟩
  · have hread : readFraction index (token.drop index) = .ok (none, index) := by
      unfold readFraction
      split
      · rename_i heq
        rw [heq] at hne
        exact absurd rfl hne
      · rfl
    rw [hread, if_neg (by simpa using hne)]
    exact .pure ⟨⟨[], .none, by rw [List.append_nil]; rfl⟩, rfl, Nat.le_refl _⟩

/-- What is left when an exponent has been added to a text. -/
structure HasExponent (s : State) (token : List Char) (index : Nat) (text : List Char)
    (isInteger : Bool) (result : Option (Bool × List Char) × Nat) (found : List Char × Bool)
    (s' : State) : Prop where
  found : ∃ part, SpellsExponent part result.1 ∧
    found = (text ++ part, isInteger && result.1.isNone)
  state : s' = s.past token result.2
  stop : index ≤ result.2

/-- The digits of an exponent after its sign. -/
theorem scanExponentDigits_follows (h : At s lead token) {start : Nat} (hstart : index ≤ start)
    {sign : List Char} (hsign : sign = [] ∨ sign = ['+'] ∨ sign = ['-']) (text : List Char)
    (isInteger : Bool) :
    Follows (FailsAs s lead token)
      (do let (digits, stop) ← readDecimalDigits start (token.drop start)
          if digits.isEmpty then fault .digitExpected stop
          else .ok (some (sign == ['-'], digits), stop))
      (do let digits ← scanDigits 10 true
          if digits.isEmpty then fail .digitExpected (← position)
          else return (text ++ 'e' :: sign ++ digits, false))
      (HasExponent s token index text isInteger) (s.past token start) := by
  refine (scanDecimalDigits_follows h start).bind fun result digits s' hresult => ?_
  obtain ⟨rfl, hdigits, rfl, hle⟩ := hresult
  cases hempty : result.1.isEmpty with
  | true =>
    simp only [hempty, if_true]
    exact .run rfl (h.fails_past rfl)
  | false =>
    simp only [hempty, Bool.false_eq_true, if_false]
    refine .pure ⟨⟨_, .digits hsign hdigits, ?_⟩, rfl, Nat.le_trans hstart hle⟩
    rw [Option.isNone_some, Bool.and_false, List.append_assoc]

theorem scanExponent_follows (h : At s lead token) (index : Nat) (text : List Char)
    (isInteger : Bool) :
    Follows (FailsAs s lead token) (readExponent index (token.drop index))
      (scanExponent text isInteger) (HasExponent s token index text isInteger)
      (s.past token index) := by
  have hplace := h.past index
  unfold scanExponent
  refine .run (hplace.byteAt_eq 0) ?_
  rw [ahead_beq (by decide) (by decide), ahead_beq (by decide) (by decide)]
  have hnone : HasExponent s token index text isInteger (none, index) (text, isInteger)
      (s.past token index) :=
    ⟨⟨[], .none, by rw [List.append_nil, Option.isNone_none, Bool.and_true]⟩, rfl, Nat.le_refl _⟩
  cases hrest : token.drop index with
  | nil => exact .pure hnone
  | cons c rest =>
    have hmark : ((c :: rest).head? == some 'e' || (c :: rest).head? == some 'E') =
        (c == 'e' || c == 'E') := by simp
    rw [hmark, readExponent]
    cases hc : c == 'e' || c == 'E' with
    | false => exact .pure hnone
    | true =>
      have hascii : isAscii c = true := by
        rw [Bool.or_eq_true, beq_iff_eq, beq_iff_eq] at hc
        rcases hc with rfl | rfl <;> decide
      have hnext := drop_succ_of_eq hrest
      have hbyte := (h.past (index + 1)).byteAt_eq 0
      rw [hnext] at hbyte
      simp only [if_true]
      refine .run (congrArg (EStateM.Result.ok ()) (State.past_bump_one hrest hascii)) ?_
      -- A sign is passed before the digits.
      have hsigned : ∀ {x : Char} {more : List Char}, (x = '+' ∨ x = '-') → rest = x :: more →
          (s.past token (index + 1)).bump 1 = s.past token (index + 2) ∧
            more = token.drop (index + 2) := fun {x more} hx hmore => by
        rw [hmore] at hnext
        refine ⟨State.past_bump_one hnext ?_, (drop_succ_of_eq hnext).symm⟩
        rcases hx with rfl | rfl <;> decide
      rcases head?_drop_or rest '+' 0 with ⟨more, hplus⟩ | hplus
      · obtain ⟨hbump, rfl⟩ := hsigned (.inl rfl) hplus
        rw [List.drop_zero] at hplus
        subst hplus
        refine .run hbyte (.run (congrArg (EStateM.Result.ok ()) hbump) ?_)
        exact scanExponentDigits_follows h (Nat.le_add_right _ _) (.inr (.inl rfl)) text isInteger
      · rcases head?_drop_or rest '-' 0 with ⟨more, hminus⟩ | hminus
        · obtain ⟨hbump, rfl⟩ := hsigned (.inr rfl) hminus
          rw [List.drop_zero] at hminus
          subst hminus
          refine .run hbyte (.run (congrArg (EStateM.Result.ok ()) hbump) ?_)
          exact scanExponentDigits_follows h (Nat.le_add_right _ _) (.inr (.inr rfl)) text isInteger
        · rw [List.drop_zero] at hplus hminus
          refine .run hbyte ?_
          have hplus' : (rest.head? == some '+') = false := beq_eq_false_iff_ne.mpr hplus
          have hminus' : (rest.head? == some '-') = false := beq_eq_false_iff_ne.mpr hminus
          rw [ahead_beq (by decide) (by decide), ahead_beq (by decide) (by decide), hplus', hminus',
            ← hnext]
          exact scanExponentDigits_follows h (Nat.le_add_right _ _) (.inl rfl) text isInteger

/-- What is left when fraction and exponent have been added to whole digits. -/
structure HasTail (s : State) (token : List Char) (index : Nat)
    (result : Decimal × Bool × Nat) (found : List Char × Bool) (s' : State) : Prop where
  value : parseDecimal found.1 = result.1.toBinary64
  isInteger : found.2 = result.2.1
  state : s' = s.past token result.2.2
  stop : index ≤ result.2.2

theorem scanDecimalTail_follows (h : At s lead token) (index : Nat) (hwhole : AreDigits whole) :
    Follows (FailsAs s lead token) (readDecimalTail whole index (token.drop index))
      (scanDecimalTail whole) (HasTail s token index) (s.past token index) := by
  unfold readDecimalTail scanDecimalTail
  refine (scanFraction_follows h index whole).bind fun result found s' hresult => ?_
  obtain ⟨⟨fraction, hfraction, rfl⟩, rfl, hle⟩ := hresult
  have hdrop : (token.drop index).drop (result.2 - index) = token.drop result.2 := by
    rw [List.drop_drop, Nat.add_sub_cancel' hle]
  dsimp only
  rw [hdrop]
  refine (scanExponent_follows h result.2 (whole ++ fraction) result.1.isNone).map
    fun exponent found s' hexponent => ?_
  obtain ⟨part, hpart, hfound⟩ := hexponent.found
  refine ⟨?_, ?_, hexponent.state, Nat.le_trans hle hexponent.stop⟩
  · rw [hfound]
    exact parseDecimal_eq hwhole hfraction hpart
  · rw [hfound]

end Decimals

end EcmaSyntax.Scanner
