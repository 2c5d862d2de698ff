import EcmaSyntax.Lexer.Scan
import EcmaSyntax.Proofs.Lexer.Numerals
import EcmaSyntax.Proofs.Lexer.Words
import EcmaSyntax.Proofs.Outcome

/-!
The reader of numerals and the words of the grammar. Of the words at the start of a text the reader
takes the longest, and it refuses the text if the character after that word is one that may not
follow a number. Here are numerals of another radix and those with a leading zero.
-/

namespace EcmaSyntax.Lexer

open EcmaSyntax.Diagnostic EcmaSyntax.Number EcmaSyntax.Text EcmaSyntax.Unicode

variable {version : Nat} [Unicode.IdentifierChars version]

variable {text p rest : List Char} {form : NumeralForm}

/-- No other numeral at the start of the text is as long as this one. -/
structure Longest (form : NumeralForm) (p rest : List Char) : Prop where
  spells : IsNumeral form p
  longest : ∀ other q y, IsNumeral other q → q ++ y = p ++ rest →
    other = form ∧ q = p ∨ q.length < p.length

/-- The numeral is of the form and ends with the word. -/
structure Numeral.Is (numeral : Numeral) (form : NumeralForm) (p : List Char) : Prop where
  stop : numeral.stop = p.length
  legacyOctal : numeral.legacyOctal = true ↔ form = .legacyOctal
  nonOctalDecimal : numeral.nonOctalDecimal = true ↔ form = .nonOctalDecimal
  bigint : ∀ digits, numeral.value = .bigint digits →
    form = .bigint ∧ digits = p.filter fun c => c != '_' && c != 'n'
  number : ∀ value, numeral.value = .number value → form ≠ .bigint

/-- The number at the start of the text is the longest numeral there, and it is refused if something
follows that may not. -/
def IsRead (text : List Char) (reading : Reading Numeral) : Prop :=
  ∃ form p rest, text = p ++ rest ∧ Longest form p rest ∧
    reading.Unless (Refused rest) fun numeral => ¬ Refused rest ∧ numeral.Is form p

theorem getElem?_length_append (p rest : List Char) : (p ++ rest)[p.length]? = rest.head? := by
  rw [List.getElem?_append_right (Nat.le_refl _), Nat.sub_self, List.head?_eq_getElem?]

/-- What follows a number decides if it is refused. -/
theorem checkAfterNumber_unless {numeral : Numeral} (h : numeral.Is form p) :
    (checkAfterNumber (p ++ rest) numeral).Unless (Refused rest)
      fun found => ¬ Refused rest ∧ found.Is form p := by
  unfold checkAfterNumber
  rw [h.stop, getElem?_length_append]
  cases hhead : rest.head? with
  | none =>
    refine ⟨?_, h⟩
    rintro ⟨c, hc, -⟩
    rw [hhead] at hc
    cases hc
  | some c =>
    dsimp only
    split
    · rename_i hextends
      refine ⟨c, hhead, ?_⟩
      simpa [NeverFollows, or_assoc] using hextends
    · rename_i hextends
      refine ⟨?_, h⟩
      rintro ⟨d, hd, hextends'⟩
      obtain rfl := Option.some.inj (hhead.symm.trans hd)
      exact hextends (by simpa [NeverFollows, or_assoc] using hextends')

/-- Two words at the start of a text of which the first is no longer than the second. -/
theorem eq_or_length_lt {q y : List Char} (heq : q ++ y = p ++ rest) (hle : q.length ≤ p.length) :
    q = p ∨ q.length < p.length := by
  rcases Nat.lt_or_eq_of_le hle with hlt | hlength
  · exact .inr hlt
  · exact .inl (List.append_inj_left heq hlength)

/-- The marks of a radix start no tail, and are no digits. -/
theorem radixOf?_spec {mark : Char} {radix : Nat} (h : radixOf? mark = some radix) :
    (mark ≠ '.' ∧ mark ≠ 'e' ∧ mark ≠ 'E') ∧ mark ≠ 'n' ∧ isDigitIn 10 mark = false := by
  unfold radixOf? at h
  split at h
  · rename_i hmark
    rcases hmark with rfl | rfl <;> exact ⟨by decide, by decide, rfl⟩
  · split at h
    · rename_i hmark
      rcases hmark with rfl | rfl <;> exact ⟨by decide, by decide, rfl⟩
    · split at h
      · rename_i hmark
        rcases hmark with rfl | rfl <;> exact ⟨by decide, by decide, rfl⟩
      · cases h

/-- A name can start with the mark of a radix. -/
theorem isIdentifierStart_of_radixOf? {mark : Char} {radix : Nat} (h : radixOf? mark = some radix) :
    isIdentifierStart mark = true := by
  unfold radixOf? at h
  split at h
  · rename_i hmark
    rcases hmark with rfl | rfl <;> rfl
  · split at h
    · rename_i hmark
      rcases hmark with rfl | rfl <;> rfl
    · split at h
      · rename_i hmark
        rcases hmark with rfl | rfl <;> rfl
      · cases h

theorem isDigitIn_of_octal {c : Char} (h : isDigitIn 8 c = true) : isDigitIn 10 c = true := by
  change (decide ('0' ≤ c) && decide (c ≤ '7')) = true at h
  change (decide ('0' ≤ c) && decide (c ≤ '9')) = true
  simp only [Bool.and_eq_true, decide_eq_true_eq] at h ⊢
  exact ⟨h.1, Char.le_trans h.2 (by decide)⟩

theorem IsNumeral.ne_nil (h : IsNumeral form p) : p ≠ [] := by
  cases h with
  | decimal hwhole =>
    rcases hwhole with _ | ⟨hds, -⟩
    · exact List.cons_ne_nil _ _
    · obtain ⟨c, q, rfl, -⟩ := hds.exists_cons
      exact List.cons_ne_nil _ _
  | radix h =>
    obtain ⟨-, -⟩ := h
    exact List.cons_ne_nil _ _
  | fraction | legacyOctal | nonOctalDecimal => exact List.cons_ne_nil _ _
  | bigint | radixBigint => exact List.append_ne_nil_of_right_ne_nil _ (List.cons_ne_nil _ _)

/-- What a numeral that starts with a zero can be. -/
inductive SpellsZero : NumeralForm → List Char → Prop
  | tail {tail} (h : IsTail tail) : SpellsZero .number ('0' :: tail)
  | bigint : SpellsZero .bigint ['0', 'n']
  | radix {mark radix ds} (hmark : radixOf? mark = some radix) (h : Digits radix ds) :
    SpellsZero .number ('0' :: mark :: ds)
  | radixBigint {mark radix ds} (hmark : radixOf? mark = some radix) (h : Digits radix ds) :
    SpellsZero .bigint ('0' :: mark :: (ds ++ ['n']))
  | legacyOctal {ds} (hne : ds ≠ []) (h : ∀ d ∈ ds, isDigitIn 8 d = true) :
    SpellsZero .legacyOctal ('0' :: ds)
  | nonOctalDecimal {ds tail} (h : ∀ d ∈ ds, isDigitIn 10 d = true)
    (hnot : ∃ d ∈ ds, isDigitIn 8 d = false) (htail : IsTail tail) :
    SpellsZero .nonOctalDecimal ('0' :: ds ++ tail)

theorem spellsZero {q y : List Char} (h : IsNumeral form q) (heq : q ++ y = '0' :: rest) :
    SpellsZero form q := by
  have hwhole : ∀ {whole others : List Char}, IsDecimalInteger whole →
      whole ++ others = '0' :: rest → whole = ['0'] := by
    rintro whole others (_ | ⟨hds, hzero⟩) heq
    · rfl
    · obtain ⟨d, ds, rfl, -⟩ := hds.exists_cons
      exact absurd (congrArg some (List.cons.inj heq).1) hzero
  cases h with
  | decimal hinteger hfraction hexponent =>
    rw [List.append_assoc] at heq
    obtain rfl := hwhole hinteger heq
    exact .tail ⟨_, _, hfraction, hexponent, rfl⟩
  | fraction => cases heq
  | radix h =>
    obtain ⟨hmark, hds⟩ := h
    exact .radix hmark hds
  | bigint hinteger =>
    rw [List.append_assoc] at heq
    obtain rfl := hwhole hinteger heq
    exact .bigint
  | radixBigint h =>
    obtain ⟨hmark, hds⟩ := h
    exact .radixBigint hmark hds
  | legacyOctal hne h => exact .legacyOctal hne h
  | nonOctalDecimal h hnot hfraction hexponent =>
    exact .nonOctalDecimal h hnot ⟨_, _, hfraction, hexponent, rfl⟩

theorem isDigitIn_bigintMark (radix : Nat) : isDigitIn radix 'n' = false := by
  unfold isDigitIn
  split <;> decide

theorem not_continues_bigintMark {radix : Nat} {y : List Char} : ¬ Continues radix ('n' :: y) := by
  rintro ⟨c, ⟨⟩, hdigit | hseparator⟩
  · rw [isDigitIn_bigintMark] at hdigit
    cases hdigit
  · revert hseparator
    decide

theorem MoreDigits.ne_bigintMark {radix : Nat} (h : MoreDigits radix p) : ∀ c ∈ p, c ≠ 'n' := by
  have hdigit : ∀ {c}, isDigitIn radix c = true → c ≠ 'n' := by
    rintro c hc rfl
    rw [isDigitIn_bigintMark] at hc
    cases hc
  induction h with
  | nil => exact nofun
  | digit hc _ ih => exact List.forall_mem_cons.mpr ⟨hdigit hc, ih⟩
  | separated hc _ ih =>
    exact List.forall_mem_cons.mpr ⟨by decide, List.forall_mem_cons.mpr ⟨hdigit hc, ih⟩⟩

theorem Digits.ne_bigintMark {radix : Nat} (h : Digits radix p) : ∀ c ∈ p, c ≠ 'n' := by
  obtain ⟨hc, hmore⟩ := h
  exact (MoreDigits.digit hc hmore).ne_bigintMark

/-- An integer with the mark after it. -/
theorem finishBigint_unless (hp : ∀ c ∈ p, c ≠ 'n') :
    (finishBigint (p ++ ['n'] ++ rest) p.length).Unless (Refused rest)
      fun found => ¬ Refused rest ∧ found.Is .bigint (p ++ ['n']) := by
  refine checkAfterNumber_unless ⟨?_, by simp, by simp, ?_, nofun⟩
  · rw [List.length_append]
    rfl
  · rintro digits ⟨⟩
    refine ⟨rfl, ?_⟩
    rw [List.append_assoc, List.take_left, List.filter_append]
    simp only [List.filter_cons, List.filter_nil]
    refine (List.filter_congr fun c hc => ?_).trans (List.append_nil _).symm
    simp [hp c hc]

theorem hasBigintMark_iff : hasBigintMark (p ++ rest) p.length = true ↔ rest.head? = some 'n' := by
  unfold hasBigintMark
  rw [getElem?_length_append, beq_iff_eq]

/-- After a zero and the mark of a radix the digits of an integer are read. -/
theorem isRead_radix {mark : Char} {radix : Nat} (hmark : radixOf? mark = some radix)
    (missing : Cause) (text : List Char) :
    IsRead ('0' :: mark :: text) (readRadixNumber radix missing ('0' :: mark :: text)) := by
  obtain ⟨hmarkTail, hmarkBigint, hmarkDigit⟩ := radixOf?_spec hmark
  obtain ⟨ds, rest, rfl, hlongest, hread⟩ := readDigits_run radix text 2
  -- Words of the grammar are the zero alone, or an integer with this mark.
  have hwords : ∀ other q y, IsNumeral other q → q ++ y = '0' :: mark :: (ds ++ rest) →
      other = .number ∧ q = ['0'] ∨ ∃ es, Digits radix es ∧
        (other = .number ∧ q = '0' :: mark :: es ∧ es ++ y = ds ++ rest ∨
          other = .bigint ∧ q = '0' :: mark :: (es ++ ['n']) ∧ es ++ 'n' :: y = ds ++ rest) := by
    intro other q y hq heq
    cases spellsZero hq heq with
    | tail htail =>
      have hnone : NoTail (mark :: (ds ++ rest)) := by
        rintro c ⟨⟩
        exact hmarkTail
      exact .inl ⟨rfl, congrArg _ (hnone.eq_nil htail (List.cons.inj heq).2)⟩
    | bigint => exact absurd (List.cons.inj (List.cons.inj heq).2).1.symm hmarkBigint
    | radix hother hes =>
      obtain ⟨rfl, htail⟩ := List.cons.inj (List.cons.inj heq).2
      obtain rfl := Option.some.inj (hother.symm.trans hmark)
      exact .inr ⟨_, hes, .inl ⟨rfl, rfl, htail⟩⟩
    | radixBigint hother hes =>
      obtain ⟨rfl, htail⟩ := List.cons.inj (List.cons.inj heq).2
      obtain rfl := Option.some.inj (hother.symm.trans hmark)
      exact .inr ⟨_, hes, .inr ⟨rfl, rfl, by simpa using htail⟩⟩
    | @legacyOctal es hne hes =>
      obtain ⟨e, es, rfl⟩ := List.exists_cons_of_ne_nil hne
      obtain ⟨rfl, -⟩ := List.cons.inj (List.cons.inj heq).2
      have hdigit := isDigitIn_of_octal (hes e List.mem_cons_self)
      rw [hmarkDigit] at hdigit
      cases hdigit
    | @nonOctalDecimal es tail hes hnot =>
      obtain ⟨e, he, -⟩ := hnot
      obtain ⟨e, es, rfl⟩ := List.exists_cons_of_ne_nil (List.ne_nil_of_mem he)
      obtain ⟨rfl, -⟩ := List.cons.inj (List.cons.inj heq).2
      have hdigit := hes e List.mem_cons_self
      rw [hmarkDigit] at hdigit
      cases hdigit
  have hmarkRefused : Refused (mark :: (ds ++ rest)) :=
    ⟨mark, rfl, .inr (.inl (isIdentifierStart_of_radixOf? hmark))⟩
  unfold readRadixNumber
  rcases hlongest.run with rfl | hds
  · refine ⟨.number, ['0'], mark :: rest, rfl, ⟨.decimal .zero .none .none, ?_⟩, ?_⟩
    · intro other q y hq heq
      rcases hwords other q y hq heq with h | ⟨es, hes, h⟩
      · exact .inl h
      · have hcontra : ∀ {y}, es ++ y ≠ [] ++ rest := fun heq => by
          rcases hlongest.longest es _ (.inr hes) heq with rfl | ⟨hlt, -⟩
          · cases hes
          · cases hlt
        rcases h with ⟨-, -, h⟩ | ⟨-, -, h⟩ <;> exact absurd h hcontra
    · refine hread.bind (fun _ => hmarkRefused) fun _ hdigits => ?_
      subst hdigits
      exact hmarkRefused
  have hdigits : (withoutSeparators ds).isEmpty = false := by
    rw [List.isEmpty_eq_false_iff]
    exact fun hnil => by
      rw [(withoutSeparators_eq_nil hlongest.run).mp hnil] at hds
      cases hds
  have hindex : 2 + ds.length = ('0' :: mark :: ds).length := Nat.add_comm _ _
  by_cases hbigint : rest.head? = some 'n'
  · obtain ⟨others, rfl⟩ := List.head?_eq_some_iff.mp hbigint
    have htext : '0' :: mark :: (ds ++ 'n' :: others) =
        '0' :: mark :: ds ++ ['n'] ++ others := by simp
    refine ⟨.bigint, '0' :: mark :: ds ++ ['n'], others, htext,
      ⟨.radixBigint ⟨hmark, hds⟩, fun other q y hq heq => ?_⟩, ?_⟩
    · rw [← htext] at heq
      rcases hwords other q y hq heq with ⟨-, rfl⟩ | ⟨es, hes, ⟨-, rfl, hrun⟩ | ⟨rfl, rfl, hrun⟩⟩
      · exact .inr (by simp)
      · refine .inr ?_
        simp only [List.length_append, List.length_cons]
        rcases hlongest.longest es _ (.inr hes) hrun with rfl | ⟨hlt, -⟩ <;> omega
      · rcases hlongest.longest es _ (.inr hes) hrun with rfl | ⟨-, hcontinues⟩
        · exact .inl ⟨rfl, rfl⟩
        · exact absurd hcontinues not_continues_bigintMark
    · refine hread.bind nofun fun found hfound => ?_
      subst hfound
      have hmarked : hasBigintMark ('0' :: mark :: (ds ++ 'n' :: others))
        (2 + ds.length) = true := by
        rw [hindex]
        exact hasBigintMark_iff.mpr rfl
      dsimp only
      rw [hdigits, hmarked, if_neg Bool.false_ne_true, if_pos rfl, hindex, htext]
      have hmarkDigits : ∀ c ∈ '0' :: mark :: ds, c ≠ 'n' :=
        List.forall_mem_cons.mpr ⟨by decide,
          List.forall_mem_cons.mpr ⟨hmarkBigint, hds.ne_bigintMark⟩⟩
      exact finishBigint_unless hmarkDigits
  · refine ⟨.number, '0' :: mark :: ds, rest, rfl,
      ⟨.radix ⟨hmark, hds⟩, fun other q y hq heq => ?_⟩, ?_⟩
    · rcases hwords other q y hq heq with ⟨-, rfl⟩ | ⟨es, hes, ⟨rfl, rfl, hrun⟩ | ⟨-, -, hrun⟩⟩
      · exact .inr (by simp)
      · rcases hlongest.longest es _ (.inr hes) hrun with rfl | ⟨hlt, -⟩
        · exact .inl ⟨rfl, rfl⟩
        · exact .inr (by simpa using hlt)
      · rcases hlongest.longest es _ (.inr hes) hrun with rfl | ⟨-, hcontinues⟩
        · rw [← List.append_cancel_left hrun] at hbigint
          exact absurd rfl hbigint
        · exact absurd hcontinues not_continues_bigintMark
    · refine hread.bind (fun h => (stuck_of_separator h).refused) fun found hfound => ?_
      subst hfound
      have hmarked : hasBigintMark ('0' :: mark :: (ds ++ rest)) (2 + ds.length) = false := by
        rw [hindex]
        exact Bool.eq_false_iff.mpr fun h => hbigint (hasBigintMark_iff.mp h)
      dsimp only
      rw [hdigits, hmarked, if_neg Bool.false_ne_true, if_neg Bool.false_ne_true, hindex]
      exact checkAfterNumber_unless (p := '0' :: mark :: ds) ⟨rfl, by simp, by simp, nofun, nofun⟩

/-- Digits in a row, and what comes after them. -/
structure LongestPlain (p rest : List Char) : Prop where
  all : ∀ c ∈ p, isDigitIn 10 c = true
  ends : ∀ c ∈ rest.head?, isDigitIn 10 c = false

theorem LongestPlain.longest (h : LongestPlain p rest) {q y : List Char}
    (hq : ∀ c ∈ q, isDigitIn 10 c = true) (heq : q ++ y = p ++ rest) :
    q = p ∨ q.length < p.length ∧ Continues 10 y := by
  obtain ⟨more, rfl, hy⟩ | ⟨more, rfl, hrest⟩ := List.append_eq_append_iff.mp heq
  · cases more with
    | nil => exact .inl (List.append_nil q).symm
    | cons c more =>
      refine .inr ⟨by simp, c, by rw [hy]; rfl, .inl (h.all c ?_)⟩
      exact List.mem_append_right _ List.mem_cons_self
  · cases more with
    | nil => exact .inl (List.append_nil p)
    | cons c more =>
      have hends := h.ends c (by rw [hrest]; rfl)
      rw [hq c (List.mem_append_right _ List.mem_cons_self)] at hends
      cases hends

/-- Without separators digits are read up to the last of them. -/
theorem readDigits_plain (text : List Char) (index : Nat) (any : Bool) :
    ∃ p rest, text = p ++ rest ∧ LongestPlain p rest ∧
      (readDigits 10 false index any false text).Unless (rest.head? = some '_')
        (· = (p, index + p.length)) := by
  induction text generalizing index any with
  | nil => exact ⟨[], [], rfl, ⟨nofun, nofun⟩, rfl⟩
  | cons c text ih =>
    by_cases hc : isDigitIn 10 c = true
    · obtain ⟨p, rest, rfl, hplain, hread⟩ := ih (index + 1) true
      refine ⟨c :: p, rest, rfl, ⟨List.forall_mem_cons.mpr ⟨hc, hplain.all⟩, hplain.ends⟩, ?_⟩
      rw [readDigits_digit hc, List.length_cons]
      refine hread.bind id fun _ hdigits => ?_
      subst hdigits
      exact congrArg (Prod.mk _) (by omega)
    · refine ⟨[], c :: text, rfl, ⟨nofun, ?_⟩, ?_⟩
      · rintro d ⟨⟩
        exact Bool.eq_false_iff.mpr hc
      · by_cases hseparator : c = '_'
        · subst hseparator
          exact rfl
        · rw [readDigits, if_neg (by simpa using hseparator), if_neg hc]
          rfl

/-- Numerals at the start of digits that come after a zero. -/
theorem words_legacy {c : Char} {ds q y : List Char} (hplain : LongestPlain ('0' :: c :: ds) rest)
    (h : IsNumeral form q) (heq : q ++ y = '0' :: c :: ds ++ rest) :
    q.length < ('0' :: c :: ds).length ∨
      (form = .legacyOctal ∧ q = '0' :: c :: ds ∧ ∀ d ∈ '0' :: c :: ds, isDigitIn 8 d = true) ∨
      (form = .nonOctalDecimal ∧ (∃ d ∈ '0' :: c :: ds, isDigitIn 8 d = false) ∧
        ∃ tail, IsTail tail ∧ q = '0' :: c :: ds ++ tail) := by
  have hc : isDigitIn 10 c = true := hplain.all c (by simp)
  cases spellsZero h heq with
  | tail htail =>
    have hnone : NoTail (c :: ds ++ rest) := noTail_of_continues ⟨c, rfl, .inl hc⟩
    rw [hnone.eq_nil htail (List.cons.inj heq).2]
    exact .inl (by simp)
  | bigint =>
    obtain rfl := (List.cons.inj (List.cons.inj heq).2).1
    rw [isDigitIn_bigintMark] at hc
    cases hc
  | radix hmark | radixBigint hmark =>
    obtain rfl := (List.cons.inj (List.cons.inj heq).2).1
    rw [(radixOf?_spec hmark).2.2] at hc
    cases hc
  | @legacyOctal es hne hes =>
    have hall : ∀ d ∈ '0' :: es, isDigitIn 8 d = true := List.forall_mem_cons.mpr ⟨rfl, hes⟩
    rcases hplain.longest (fun d hd => isDigitIn_of_octal (hall d hd)) heq with hfull | ⟨hlt, -⟩
    · exact .inr (.inl ⟨rfl, hfull, hfull ▸ hall⟩)
    · exact .inl hlt
  | @nonOctalDecimal es tail hes hnot htail =>
    rw [List.append_assoc] at heq
    rcases hplain.longest (List.forall_mem_cons.mpr ⟨rfl, hes⟩) heq with hfull | ⟨hlt, hcontinues⟩
    · obtain ⟨d, hd, hoctal⟩ := hnot
      refine .inr (.inr ⟨rfl, ⟨d, ?_, hoctal⟩, tail, htail, ?_⟩)
      · rw [← hfull]
        exact List.mem_cons_of_mem _ hd
      · rw [← hfull]
    · rw [(noTail_of_continues hcontinues).eq_nil htail rfl, List.append_nil]
      exact .inl hlt

/-- Where a numeral may not end with the mark of a big integer, the mark is refused. -/
theorem refused_bigintMark (h : hasBigintMark (p ++ rest) p.length = true) : Refused rest :=
  ⟨'n', hasBigintMark_iff.mp h, .inr (.inl rfl)⟩

/-- A zero before other digits makes a number octal, or decimal if one of the digits is no octal
digit. -/
theorem isRead_legacy {c : Char} (hc : isDigitIn 10 c = true) (text : List Char) :
    IsRead ('0' :: c :: text) (readLegacyNumber ('0' :: c :: text)) := by
  obtain ⟨p, rest, heq, hplain, hread⟩ := readDigits_plain ('0' :: c :: text) 0 false
  obtain ⟨ds, rfl⟩ : ∃ ds, p = '0' :: c :: ds := by
    match p with
    | [] => exact absurd (hplain.ends '0' (by rw [← show _ = rest from heq]; rfl)) (by decide)
    | [d] =>
      have hends := hplain.ends c (by rw [← show _ = rest from (List.cons.inj heq).2]; rfl)
      rw [hc] at hends
      cases hends
    | d :: e :: ds =>
      obtain ⟨rfl, htail⟩ := List.cons.inj heq
      obtain ⟨rfl, -⟩ := List.cons.inj htail
      exact ⟨ds, rfl⟩
  rw [heq] at hread ⊢
  generalize hp : '0' :: c :: ds = p at hplain hread ⊢
  have hwords : ∀ other q y, IsNumeral other q → q ++ y = p ++ rest → q.length < p.length ∨
      (other = .legacyOctal ∧ q = p ∧ ∀ d ∈ p, isDigitIn 8 d = true) ∨
      (other = .nonOctalDecimal ∧ (∃ d ∈ p, isDigitIn 8 d = false) ∧
        ∃ tail, IsTail tail ∧ q = p ++ tail) := by
    subst hp
    exact fun other q y => words_legacy hplain
  rw [Nat.zero_add] at hread
  by_cases hoctal : p.all (isDigitIn 8) = true
  · have hall := List.all_eq_true.mp hoctal
    refine ⟨.legacyOctal, p, rest, rfl, ⟨?_, fun other q y hq heq => ?_⟩, ?_⟩
    · subst hp
      exact .legacyOctal (List.cons_ne_nil _ _) fun d hd => hall d (List.mem_cons_of_mem _ hd)
    · rcases hwords other q y hq heq with hlt | ⟨rfl, rfl, -⟩ | ⟨-, ⟨d, hd, hnot⟩, -⟩
      · exact .inr hlt
      · exact .inl ⟨rfl, rfl⟩
      · rw [hall d hd] at hnot
        cases hnot
    · refine hread.bind (fun h => (stuck_of_separator h).refused) fun found hfound => ?_
      subst hfound
      dsimp only
      rw [if_pos hoctal]
      split
      · rename_i hmarked
        exact refused_bigintMark hmarked
      · exact checkAfterNumber_unless ⟨rfl, by simp, by simp, nofun, nofun⟩
  · obtain ⟨tail, others, rfl, htail, hlongest, hread'⟩ := readDecimalTail_longest p rest p.length
    have htext : p ++ (tail ++ others) = p ++ tail ++ others := (List.append_assoc ..).symm
    refine ⟨.nonOctalDecimal, p ++ tail, others, htext, ⟨?_, fun other q y hq heq => ?_⟩, ?_⟩
    · obtain ⟨fraction, exponent, hfraction, hexponent, rfl⟩ := htail
      obtain ⟨d, hd, hnot⟩ : ∃ d ∈ p, isDigitIn 8 d = false := by simpa using hoctal
      subst hp
      refine .nonOctalDecimal (fun d hd => hplain.all d (List.mem_cons_of_mem _ hd)) ?_ hfraction
        hexponent
      rcases List.mem_cons.mp hd with rfl | hd
      · cases hnot
      · exact ⟨d, hd, hnot⟩
    · rw [← htext] at heq
      rcases hwords other q y hq heq with hlt | ⟨-, -, hall⟩ | ⟨rfl, -, tail', htail', rfl⟩
      · refine .inr (Nat.lt_of_lt_of_le hlt ?_)
        simp
      · exact absurd (List.all_eq_true.mpr hall) hoctal
      · rw [List.append_assoc] at heq
        have hle := hlongest tail' y htail' (List.append_cancel_left heq)
        have hle' : (p ++ tail').length ≤ (p ++ tail).length := by simpa using hle
        rw [← List.append_assoc, htext] at heq
        exact (eq_or_length_lt heq hle').imp_left fun h => ⟨rfl, h⟩
    · refine hread.bind (fun h => (htail.stuck_of_separator h).2.refused) fun found hfound => ?_
      subst hfound
      dsimp only
      rw [if_neg hoctal, List.drop_left]
      refine hread'.bind Stuck.refused fun found hfound => ?_
      obtain ⟨decimal, isInteger, stop⟩ := found
      obtain ⟨rfl, -⟩ := hfound
      dsimp only
      rw [htext, ← List.length_append]
      split
      · rename_i hmarked
        exact refused_bigintMark hmarked
      · exact checkAfterNumber_unless ⟨rfl, by simp, by simp, nofun, nofun⟩

end EcmaSyntax.Lexer
