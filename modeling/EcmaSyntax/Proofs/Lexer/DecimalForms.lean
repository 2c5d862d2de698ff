import EcmaSyntax.Proofs.Lexer.NumeralForms

/-!
Decimals and the words of the grammar, and with them all numerals. The digits before a point are an
integer, or there are none and the tail has some.
-/

namespace EcmaSyntax.Lexer

open EcmaSyntax.Diagnostic EcmaSyntax.Number EcmaSyntax.Text EcmaSyntax.Unicode

variable {version : Nat} [Unicode.IdentifierChars version]

variable {text p rest : List Char} {form : NumeralForm}

/-- Numerals at the start of the text are digits with a tail, or with the mark of a big integer. -/
def AreDecimal (text : List Char) : Prop :=
  ∀ form q y, IsNumeral form q → q ++ y = text →
    (form = .number ∧ ∃ whole tail, IsRun 10 whole ∧ IsTail tail ∧ q = whole ++ tail) ∨
      form = .bigint ∧ ∃ whole, Digits 10 whole ∧ q = whole ++ ['n']

/-- The digits before a tail are an integer, or there are none and the tail has some. -/
structure StartsDecimal (whole rest : List Char) : Prop where
  run : LongestRun 10 whole rest
  words : AreDecimal (whole ++ rest)
  integer : whole ≠ [] → IsDecimalInteger whole
  spells : whole = [] → ∀ tail y, IsTail tail → tail ++ y = rest →
    (∀ q y, IsTail q → q ++ y = rest → q.length ≤ tail.length) → IsNumeral .number tail

/-- Digits with a fraction and an exponent are read, or digits with the mark of a big integer. -/
theorem isRead_decimal {text : List Char}
    (hstarts : ∀ whole rest, text = whole ++ rest → LongestRun 10 whole rest →
      StartsDecimal whole rest) : IsRead text (readDecimalNumber text) := by
  obtain ⟨whole, rest, rfl, hrun, hread⟩ := readDigits_run 10 text 0
  obtain ⟨-, hwords, hinteger, hspells⟩ := hstarts whole rest rfl hrun
  obtain ⟨tail, others, rfl, htail, hlongest, hread'⟩ :=
    readDecimalTail_longest (withoutSeparators whole) rest whole.length
  have htext : whole ++ (tail ++ others) = whole ++ tail ++ others := (List.append_assoc ..).symm
  rw [Nat.zero_add] at hread
  -- A word whose digits are not all of the digits has nothing after them.
  have hnumber : ∀ run q y, IsRun 10 run → IsTail q → run ++ q ++ y = whole ++ (tail ++ others) →
      (run ++ q).length ≤ (whole ++ tail).length := by
    intro run q y hother hq heq
    rw [List.append_assoc] at heq
    rcases hrun.longest run _ hother heq with rfl | ⟨hlt, hcontinues⟩
    · simpa using hlongest q y hq (List.append_cancel_left heq)
    · rw [(noTail_of_continues hcontinues).eq_nil hq rfl]
      simp only [List.length_append, List.length_nil]
      omega
  have hbigint : ∀ run y, Digits 10 run → run ++ ['n'] ++ y = whole ++ (tail ++ others) →
      run = whole ∧ tail ++ others = 'n' :: y := by
    intro run y hother heq
    rw [List.append_assoc] at heq
    rcases hrun.longest run _ (.inr hother) heq with rfl | ⟨-, hcontinues⟩
    · exact ⟨rfl, (List.append_cancel_left heq).symm⟩
    · exact absurd hcontinues not_continues_bigintMark
  by_cases hmark : others.head? = some 'n' ∧ tail = [] ∧ whole ≠ []
  · obtain ⟨hhead, rfl, hwhole⟩ := hmark
    obtain ⟨others, rfl⟩ := List.head?_eq_some_iff.mp hhead
    rw [List.nil_append] at *
    have htext : whole ++ 'n' :: others = whole ++ ['n'] ++ others := by simp
    refine ⟨.bigint, whole ++ ['n'], others, htext, ⟨.bigint (hinteger hwhole), ?_⟩, ?_⟩
    · intro other q y hq heq
      rw [← htext] at heq
      rcases hwords other q y hq heq with ⟨-, run, tail, hrun', htail', rfl⟩ |
        ⟨rfl, run, hrun', rfl⟩
      · refine .inr (Nat.lt_of_le_of_lt (hnumber run tail y hrun' htail' heq) ?_)
        simp
      · exact .inl ⟨rfl, congrArg (· ++ ['n']) (hbigint run y hrun' heq).1⟩
    · refine hread.bind nofun fun found hfound => ?_
      subst hfound
      dsimp only
      rw [List.drop_left]
      have hunstuck : ¬ Stuck ('n' :: others) := by
        rintro ⟨c, hc, hstuck⟩
        obtain rfl := Option.some.inj hc
        revert hstuck
        decide
      refine hread'.bind (fun h => absurd h hunstuck) fun found hfound => ?_
      obtain ⟨decimal, isInteger, stop⟩ := found
      obtain ⟨rfl, rfl⟩ := hfound
      dsimp only
      rw [List.length_nil, Nat.add_zero, if_pos (hasBigintMark_iff.mpr rfl), List.isEmpty_nil,
        if_pos rfl, htext]
      exact finishBigint_unless (hrun.run.resolve_left hwhole).ne_bigintMark
  · have hspelled : IsNumeral .number (whole ++ tail) := by
      by_cases hwhole : whole = []
      · subst hwhole
        exact hspells rfl tail others htail rfl hlongest
      · obtain ⟨fraction, exponent, hfraction, hexponent, rfl⟩ := htail
        exact .decimal (hinteger hwhole) hfraction hexponent
    have hunmarked : tail = [] → others.head? = some 'n' → False := fun htail hhead =>
      hmark ⟨hhead, htail, fun hwhole => hspelled.ne_nil (by rw [hwhole, htail]; rfl)⟩
    refine ⟨.number, whole ++ tail, others, htext, ⟨hspelled, fun other q y hq heq => ?_⟩, ?_⟩
    · rw [← htext] at heq
      rcases hwords other q y hq heq with ⟨rfl, run, tail', hrun', htail', rfl⟩ |
        ⟨-, run, hrun', rfl⟩
      · have hle := hnumber run tail' y hrun' htail' heq
        rw [htext] at heq
        exact (eq_or_length_lt heq hle).imp_left fun h => ⟨rfl, h⟩
      · obtain ⟨-, hrest⟩ := hbigint run y hrun' heq
        have hnone : NoTail (tail ++ others) := by
          rw [hrest]
          rintro c hc
          obtain rfl := Option.some.inj hc
          decide
        have hnil := hnone.eq_nil htail rfl
        rw [hnil, List.nil_append] at hrest
        exact (hunmarked hnil (by rw [hrest]; rfl)).elim
    · refine hread.bind (fun h => (htail.stuck_of_separator h).2.refused) fun found hfound => ?_
      subst hfound
      dsimp only
      rw [List.drop_left]
      refine hread'.bind Stuck.refused fun found hfound => ?_
      obtain ⟨decimal, isInteger, stop⟩ := found
      obtain ⟨rfl, rfl⟩ := hfound
      dsimp only
      rw [htext, ← List.length_append]
      split
      · rename_i hmarked
        split
        · rename_i hempty
          exact (hunmarked (List.isEmpty_iff.mp hempty) (hasBigintMark_iff.mp hmarked)).elim
        · exact refused_bigintMark hmarked
      · exact checkAfterNumber_unless ⟨rfl, by simp, by simp, nofun, nofun⟩

theorem IsDecimalInteger.digits_of (h : IsDecimalInteger p) : Digits 10 p := by
  rcases h with _ | ⟨hds, -⟩
  · exact .mk rfl .nil
  · exact hds

/-- A text that starts with a digit starts with a run of them. -/
theorem LongestRun.ne_nil {c : Char} {text : List Char} (h : LongestRun 10 p rest)
    (heq : c :: text = p ++ rest) (hc : isDigitIn 10 c = true) : ∃ more, p = c :: more := by
  rcases h.longest [c] text (.inr (.mk hc .nil)) heq with rfl | ⟨hlt, -⟩
  · exact ⟨[], rfl⟩
  · cases p with
    | nil => cases hlt
    | cons d more =>
      obtain ⟨rfl, -⟩ := List.cons.inj heq
      exact ⟨more, rfl⟩

/-- A digit other than zero starts a decimal number. -/
theorem startsDecimal_digit {c : Char} {text : List Char} (hc : isDigitIn 10 c = true)
    (hzero : c ≠ '0') {whole : List Char} (heq : c :: text = whole ++ rest)
    (hrun : LongestRun 10 whole rest) : StartsDecimal whole rest := by
  obtain ⟨more, rfl⟩ := hrun.ne_nil heq hc
  refine ⟨hrun, fun form q y hq hqy => ?_, fun hwhole => ?_, nofun⟩
  · cases hq with
    | decimal hwhole hfraction hexponent =>
      exact .inl ⟨rfl, _, _, .inr hwhole.digits_of, ⟨_, _, hfraction, hexponent, rfl⟩, rfl⟩
    | fraction =>
      obtain rfl := (List.cons.inj hqy).1
      cases hc
    | bigint hwhole => exact .inr ⟨rfl, _, hwhole.digits_of, rfl⟩
    | radix h | radixBigint h =>
      obtain ⟨-, -⟩ := h
      exact absurd (List.cons.inj hqy).1.symm hzero
    | legacyOctal | nonOctalDecimal => exact absurd (List.cons.inj hqy).1.symm hzero
  · exact .digits (hrun.run.resolve_left hwhole) fun h => hzero (Option.some.inj h)

/-- A zero starts a decimal number if no digit, separator or mark of a radix follows. -/
theorem startsDecimal_zero {text : List Char}
    (hnext : ∀ c ∈ text.head?, radixOf? c = none ∧ isDigitIn 10 c = false ∧ c ≠ '_')
    {whole : List Char} (heq : '0' :: text = whole ++ rest) (hrun : LongestRun 10 whole rest) :
    StartsDecimal whole rest := by
  obtain ⟨more, rfl⟩ := hrun.ne_nil heq rfl
  obtain rfl : more = [] := by
    obtain ⟨-, htext⟩ := List.cons.inj heq
    rcases hrun.longest ['0'] text (.inr (.mk rfl .nil)) heq with h | ⟨-, c, hc, hdigit⟩
    · exact (List.cons.inj h).2.symm
    · obtain ⟨-, hnot, hseparator⟩ := hnext c hc
      rw [hnot] at hdigit
      exact absurd hdigit (by simpa using hseparator)
  refine ⟨hrun, fun form q y hq hqy => ?_, fun _ => .zero, nofun⟩
  rw [← heq] at hqy
  cases spellsZero hq hqy with
  | tail htail => exact .inl ⟨rfl, ['0'], _, .inr (.mk rfl .nil), htail, rfl⟩
  | bigint => exact .inr ⟨rfl, ['0'], .mk rfl .nil, rfl⟩
  | radix hmark | radixBigint hmark =>
    have hnone := (hnext _ (by rw [← show _ = text from (List.cons.inj hqy).2]; rfl)).1
    rw [hmark] at hnone
    cases hnone
  | legacyOctal hne hes =>
    obtain ⟨e, es, rfl⟩ := List.exists_cons_of_ne_nil hne
    have hnot := (hnext e (by rw [← show _ = text from (List.cons.inj hqy).2]; rfl)).2.1
    rw [isDigitIn_of_octal (hes e List.mem_cons_self)] at hnot
    cases hnot
  | nonOctalDecimal hes hoctal =>
    obtain ⟨e, he, -⟩ := hoctal
    obtain ⟨e, es, rfl⟩ := List.exists_cons_of_ne_nil (List.ne_nil_of_mem he)
    have hnot := (hnext e (by rw [← show _ = text from (List.cons.inj hqy).2]; rfl)).2.1
    rw [hes e List.mem_cons_self] at hnot
    cases hnot

/-- A point and a digit start a decimal number without an integer. -/
theorem startsDecimal_point {d : Char} {text : List Char} (hd : isDigitIn 10 d = true)
    {whole : List Char} (heq : '.' :: d :: text = whole ++ rest) (hrun : LongestRun 10 whole rest) :
    StartsDecimal whole rest := by
  have hdigits : ∀ {p q : List Char}, Digits 10 p → p ++ q ≠ '.' :: d :: text := by
    rintro p q hp heq
    obtain ⟨c, p, rfl, hc⟩ := hp.exists_cons
    obtain rfl := (List.cons.inj heq).1
    cases hc
  obtain rfl : whole = [] := hrun.run.resolve_right fun h => hdigits h heq.symm
  rw [List.nil_append] at heq
  subst heq
  refine ⟨hrun, fun form q y hq hqy => ?_, fun h => absurd rfl h, fun _ tail y htail hty hmost =>
    ?_⟩
  · cases hq with
    | decimal hwhole hfraction hexponent =>
      rw [List.append_assoc] at hqy
      exact absurd hqy (hdigits hwhole.digits_of)
    | fraction hds hexponent =>
      exact .inl ⟨rfl, [], _, .inl rfl, ⟨_, _, .digits hds, hexponent, rfl⟩, rfl⟩
    | bigint hwhole =>
      rw [List.append_assoc] at hqy
      exact absurd hqy (hdigits hwhole.digits_of)
    | radix h | radixBigint h =>
      obtain ⟨-, -⟩ := h
      cases (List.cons.inj hqy).1
    | legacyOctal | nonOctalDecimal => cases (List.cons.inj hqy).1
  · obtain ⟨fraction, exponent, hfraction, hexponent, rfl⟩ := htail
    have hlength := hmost ['.', d] text ⟨_, [], .digits (.mk hd .nil), .none, rfl⟩ rfl
    rw [List.append_assoc] at hty
    cases hfraction with
    | none =>
      have hnone : NoExponent ('.' :: d :: text) := by
        rintro c ⟨⟩
        decide
      rw [hnone.eq_nil hexponent hty] at hlength
      cases hlength
    | point =>
      have hnone : NoExponent (d :: text) := noExponent_of_continues ⟨d, rfl, .inl hd⟩
      rw [hnone.eq_nil hexponent (List.cons.inj hty).2] at hlength
      exact absurd hlength (Nat.not_succ_le_self 1)
    | digits hds => exact .fraction hds hexponent

/-- After a zero and a separator nothing is read. -/
theorem isRead_separator (text : List Char) :
    IsRead ('0' :: '_' :: text) (fault .numericSeparatorNotAllowed 1) := by
  refine ⟨.number, ['0'], '_' :: text, rfl, ⟨.decimal .zero .none .none, ?_⟩,
    (stuck_of_separator rfl).refused⟩
  intro other q y hq heq
  cases spellsZero hq heq with
  | tail htail =>
    have hnone : NoTail ('_' :: text) := by
      rintro c ⟨⟩
      decide
    exact .inl ⟨rfl, congrArg _ (hnone.eq_nil htail (List.cons.inj heq).2)⟩
  | bigint => cases (List.cons.inj (List.cons.inj heq).2).1
  | radix hmark | radixBigint hmark =>
    obtain rfl := (List.cons.inj (List.cons.inj heq).2).1
    cases hmark
  | legacyOctal hne hes =>
    obtain ⟨e, es, rfl⟩ := List.exists_cons_of_ne_nil hne
    obtain rfl := (List.cons.inj (List.cons.inj heq).2).1
    cases hes '_' List.mem_cons_self
  | nonOctalDecimal hes hoctal =>
    obtain ⟨e, he, -⟩ := hoctal
    obtain ⟨e, es, rfl⟩ := List.exists_cons_of_ne_nil (List.ne_nil_of_mem he)
    obtain rfl := (List.cons.inj (List.cons.inj heq).2).1
    cases hes '_' List.mem_cons_self

/-- A digit stands at the start of the text, or a point before a digit. -/
def StartsNumeral (text : List Char) : Prop :=
  text.head?.any isAsciiDigit = true ∨ ∃ d rest, text = '.' :: d :: rest ∧ isAsciiDigit d = true

/-- After a zero the next character tells what kind of number it is. -/
theorem isRead_zero (c : Char) (text : List Char) :
    IsRead ('0' :: c :: text) (readNumeral ('0' :: c :: text)) := by
  have hradix : ∀ {low high : Char}, (c == low || c == high) = true → c = low ∨ c = high := by
    intro low high h
    simpa using h
  rw [readNumeral]
  split
  · rename_i hmark
    exact isRead_radix (by rcases hradix hmark with rfl | rfl <;> rfl) _ _
  split
  · rename_i hmark
    exact isRead_radix (by rcases hradix hmark with rfl | rfl <;> rfl) _ _
  split
  · rename_i hmark
    exact isRead_radix (by rcases hradix hmark with rfl | rfl <;> rfl) _ _
  split
  · rename_i hdigit
    exact isRead_legacy hdigit text
  split
  · rename_i hseparator
    rw [beq_iff_eq.mp hseparator]
    exact isRead_separator text
  · rename_i hhex hoctal hbinary hdigit hseparator
    refine isRead_decimal fun whole others heq => startsDecimal_zero ?_ heq
    rintro d ⟨⟩
    refine ⟨?_, Bool.eq_false_iff.mpr hdigit, by simpa using hseparator⟩
    simp only [Bool.or_eq_true, beq_iff_eq] at hhex hoctal hbinary
    simp [radixOf?, hhex, hoctal, hbinary]

/-- The reader takes the longest numeral. -/
theorem isRead_numeral {text : List Char} (h : StartsNumeral text) :
    IsRead text (readNumeral text) := by
  rcases h with hdigit | ⟨d, rest, rfl, hd⟩
  · obtain ⟨c, hhead, hc⟩ := (Option.any_eq_true _ _).mp hdigit
    obtain ⟨text, rfl⟩ := List.head?_eq_some_iff.mp hhead
    by_cases hzero : c = '0'
    · subst hzero
      cases text with
      | nil =>
        have hnext : ∀ c ∈ ([] : List Char).head?,
            radixOf? c = none ∧ isDigitIn 10 c = false ∧ c ≠ '_' := nofun
        exact isRead_decimal fun whole others heq => startsDecimal_zero hnext heq
      | cons d text => exact isRead_zero d text
    · have hread : readNumeral (c :: text) = readDecimalNumber (c :: text) := by
        unfold readNumeral
        split
        · rename_i heq
          exact absurd (List.cons.inj heq).1 hzero
        · rfl
      rw [hread]
      exact isRead_decimal fun whole others heq => startsDecimal_digit hc hzero heq
  · exact isRead_decimal fun whole others heq => startsDecimal_point hd heq

end EcmaSyntax.Lexer
