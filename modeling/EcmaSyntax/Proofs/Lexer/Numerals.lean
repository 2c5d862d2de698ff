import EcmaSyntax.Lexer.Numeral

/-!
The grammar of numerals, and how their parts are read. Digits are read up to the last of them, and
so are a fraction and an exponent; what stops them early is a separator or a mark of an exponent
that belongs to no numeral.
-/

namespace EcmaSyntax.Lexer

open EcmaSyntax.Diagnostic EcmaSyntax.Number EcmaSyntax.Unicode

variable {version : Nat} [Unicode.IdentifierChars version]

section Grammar

/-- More digits of a radix, with at most one separator before each. -/
inductive MoreDigits (radix : Nat) : List Char → Prop
  | nil : MoreDigits radix []
  | digit {c rest} (hc : isDigitIn radix c = true) (h : MoreDigits radix rest) :
    MoreDigits radix (c :: rest)
  | separated {c rest} (hc : isDigitIn radix c = true) (h : MoreDigits radix rest) :
    MoreDigits radix ('_' :: c :: rest)

/-- Digits of a radix, with single separators between them. -/
inductive Digits (radix : Nat) : List Char → Prop
  | mk {c rest} (hc : isDigitIn radix c = true) (h : MoreDigits radix rest) :
    Digits radix (c :: rest)

/-- A point with or without digits, or nothing at all. -/
inductive IsFraction : List Char → Prop
  | none : IsFraction []
  | point : IsFraction ['.']
  | digits {ds} (h : Digits 10 ds) : IsFraction ('.' :: ds)

/-- A mark, perhaps a sign, and digits, or nothing at all. -/
inductive IsExponent : List Char → Prop
  | none : IsExponent []
  | digits {mark sign ds} (hmark : mark = 'e' ∨ mark = 'E') (hsign : sign ∈ [[], ['+'], ['-']])
    (h : Digits 10 ds) : IsExponent (mark :: sign ++ ds)

/-- Zero, or digits that do not start with a zero. -/
inductive IsDecimalInteger : List Char → Prop
  | zero : IsDecimalInteger ['0']
  | digits {ds} (h : Digits 10 ds) (hzero : ds.head? ≠ some '0') : IsDecimalInteger ds

/-- The radix that a letter after a zero stands for. -/
def radixOf? (mark : Char) : Option Nat :=
  if mark = 'x' ∨ mark = 'X' then some 16
  else if mark = 'o' ∨ mark = 'O' then some 8
  else if mark = 'b' ∨ mark = 'B' then some 2
  else none

inductive IsRadixInteger : List Char → Prop
  | mk {mark radix ds} (hmark : radixOf? mark = some radix) (h : Digits radix ds) :
    IsRadixInteger ('0' :: mark :: ds)

inductive NumeralForm where
  | number
  | bigint
  | legacyOctal
  | nonOctalDecimal
deriving DecidableEq, Repr

/-- The text is a numeral of the form. -/
inductive IsNumeral : NumeralForm → List Char → Prop
  | decimal {whole fraction exponent} (hwhole : IsDecimalInteger whole)
    (hfraction : IsFraction fraction) (hexponent : IsExponent exponent) :
    IsNumeral .number (whole ++ (fraction ++ exponent))
  | fraction {ds exponent} (h : Digits 10 ds) (hexponent : IsExponent exponent) :
    IsNumeral .number ('.' :: ds ++ exponent)
  | radix {p} (h : IsRadixInteger p) : IsNumeral .number p
  | bigint {p} (h : IsDecimalInteger p) : IsNumeral .bigint (p ++ ['n'])
  | radixBigint {p} (h : IsRadixInteger p) : IsNumeral .bigint (p ++ ['n'])
  | legacyOctal {ds} (hne : ds ≠ []) (h : ∀ d ∈ ds, isDigitIn 8 d = true) :
    IsNumeral .legacyOctal ('0' :: ds)
  | nonOctalDecimal {ds fraction exponent} (h : ∀ d ∈ ds, isDigitIn 10 d = true)
    (hnot : ∃ d ∈ ds, isDigitIn 8 d = false) (hfraction : IsFraction fraction)
    (hexponent : IsExponent exponent) :
    IsNumeral .nonOctalDecimal ('0' :: ds ++ (fraction ++ exponent))

/-- The character may not follow a number. -/
def NeverFollows (c : Char) : Prop := isAsciiDigit c = true ∨ isIdentifierStart c = true ∨ c = '\\'

/-- The text goes on with a character that may not follow a number. -/
def Refused (rest : List Char) : Prop := ∃ c ∈ rest.head?, NeverFollows c

end Grammar

section Readings

variable {α β : Type}

/-- The reading fails only if something blocks it, and else its result has a property. -/
def Reading.Unless (reading : Reading α) (blocked : Prop) (P : α → Prop) : Prop :=
  match reading with
  | .ok a => P a
  | .error _ => blocked

namespace Reading.Unless

variable {reading : Reading α} {blocked blocked' : Prop} {P : α → Prop}

theorem bind {next : α → Reading β} {Q : β → Prop} (h : reading.Unless blocked P)
    (hblocked : blocked → blocked') (hnext : ∀ a, P a → (next a).Unless blocked' Q) :
    Unless (reading >>= next) blocked' Q := by
  cases reading with
  | ok a => exact hnext a h
  | error found => exact hblocked h

theorem fault {cause : Cause} {index : Nat} (h : blocked) :
    Unless (Lexer.fault cause index : Reading α) blocked P := h

end Reading.Unless

end Readings

section Digits

variable {radix : Nat} {text rest : List Char} {c : Char}

/-- The text goes on with a digit or a separator. -/
def Continues (radix : Nat) (rest : List Char) : Prop :=
  ∃ c ∈ rest.head?, isDigitIn radix c = true ∨ c = '_'

theorem isDigitIn_separator (radix : Nat) : isDigitIn radix '_' = false := by
  unfold isDigitIn
  split <;> decide

/-- What is left after more digits is what comes after all of them, or starts with more of them. -/
structure LongestMore (radix : Nat) (p rest : List Char) : Prop where
  more : MoreDigits radix p
  longest : ∀ q y, MoreDigits radix q → q ++ y = p ++ rest →
    q = p ∨ q.length < p.length ∧ Continues radix y

namespace LongestMore

variable {p : List Char}

theorem nil (h : ∀ c ∈ rest.head?, isDigitIn radix c = false)
    (hseparator : ∀ c others, rest = '_' :: c :: others → isDigitIn radix c = false) :
    LongestMore radix [] rest := by
  refine ⟨.nil, fun q y hq heq => .inl ?_⟩
  cases hq with
  | nil => rfl
  | digit hc _ =>
    rw [← show _ = rest from heq] at h
    exact absurd hc (Bool.eq_false_iff.mp (h _ rfl))
  | separated hc _ => exact absurd hc (Bool.eq_false_iff.mp (hseparator _ _ heq.symm))

theorem digit (hc : isDigitIn radix c = true) (h : LongestMore radix p rest) :
    LongestMore radix (c :: p) rest := by
  refine ⟨.digit hc h.more, fun q y hq heq => ?_⟩
  cases hq with
  | nil =>
    obtain rfl : y = c :: p ++ rest := heq
    exact .inr ⟨Nat.zero_lt_succ _, c, rfl, .inl hc⟩
  | digit hd hq =>
    obtain ⟨rfl, htail⟩ := List.cons.inj heq
    rcases h.longest _ y hq htail with rfl | ⟨hlt, hy⟩
    · exact .inl rfl
    · exact .inr ⟨Nat.succ_lt_succ hlt, hy⟩
  | separated hd hq =>
    obtain ⟨rfl, -⟩ := List.cons.inj heq
    rw [isDigitIn_separator] at hc
    cases hc

theorem separated (hc : isDigitIn radix c = true) (h : LongestMore radix p rest) :
    LongestMore radix ('_' :: c :: p) rest := by
  refine ⟨.separated hc h.more, fun q y hq heq => ?_⟩
  cases hq with
  | nil =>
    obtain rfl : y = '_' :: c :: p ++ rest := heq
    exact .inr ⟨Nat.zero_lt_succ _, '_', rfl, .inr rfl⟩
  | digit hd hq =>
    obtain ⟨rfl, -⟩ := List.cons.inj heq
    rw [isDigitIn_separator] at hd
    cases hd
  | separated hd hq =>
    obtain ⟨rfl, htail⟩ := List.cons.inj (List.cons.inj heq).2
    rcases h.longest _ y hq htail with rfl | ⟨hlt, hy⟩
    · exact .inl rfl
    · exact .inr ⟨Nat.succ_lt_succ (Nat.succ_lt_succ hlt), hy⟩

end LongestMore

/-- The characters of digits without the separators. -/
def withoutSeparators (p : List Char) : List Char := p.filter (· != '_')

theorem ne_separator (hc : isDigitIn radix c = true) : (c == '_') = false := by
  rw [beq_eq_false_iff_ne]
  rintro rfl
  rw [isDigitIn_separator] at hc
  cases hc

theorem readDigits_digit {separators any afterSeparator : Bool} {index : Nat}
    (hc : isDigitIn radix c = true) :
    readDigits radix separators index any afterSeparator (c :: text) = (do
      let (digits, stop) ← readDigits radix separators (index + 1) true false text
      .ok (c :: digits, stop)) := by
  rw [readDigits, ne_separator hc, hc]
  rfl

/-- After a separator there has to be a digit. -/
theorem readDigits_separator {any : Bool} {index : Nat}
    (h : ∀ c ∈ text.head?, isDigitIn radix c = false) {blocked : Prop} (hblocked : blocked)
    {P : List Char × Nat → Prop} :
    (readDigits radix true index any false ('_' :: text)).Unless blocked P := by
  cases any with
  | false => exact hblocked
  | true =>
    cases text with
    | nil => exact hblocked
    | cons c text =>
      rw [readDigits, readDigits, h c rfl]
      by_cases hc : c = '_' <;> simp [hc, Reading.Unless, fault, hblocked]

/-- Where no digit follows, none is read. -/
theorem readDigits_other {any : Bool} {index : Nat}
    (h : ∀ c ∈ text.head?, isDigitIn radix c = false)
    (hseparator : text.head? ≠ some '_') :
    readDigits radix true index any false text = .ok ([], index) := by
  cases text with
  | nil => rfl
  | cons c text =>
    rw [readDigits, h c rfl, if_neg (by simpa using hseparator)]
    rfl

theorem withoutSeparators_digit (hc : isDigitIn radix c = true) (p : List Char) :
    withoutSeparators (c :: p) = c :: withoutSeparators p := by
  rw [withoutSeparators, List.filter_cons, bne, ne_separator hc]
  rfl

/-- Digits after a first one are read up to the last of them, if no separator follows. -/
theorem readDigits_more (radix : Nat) : ∀ (text : List Char) (index : Nat),
    ∃ p rest, text = p ++ rest ∧ LongestMore radix p rest ∧
      (readDigits radix true index true false text).Unless (rest.head? = some '_')
        (· = (withoutSeparators p, index + p.length))
  | [], index => ⟨[], [], rfl, .nil nofun nofun, rfl⟩
  | c :: text, index => by
    by_cases hc : isDigitIn radix c = true
    · obtain ⟨p, rest, rfl, hlongest, hread⟩ := readDigits_more radix text (index + 1)
      refine ⟨c :: p, rest, rfl, hlongest.digit hc, ?_⟩
      rw [readDigits_digit hc, withoutSeparators_digit hc, List.length_cons]
      refine hread.bind id fun _ hdigits => ?_
      subst hdigits
      exact congrArg (Prod.mk _) (by omega)
    have hnone : ∀ d ∈ (c :: text).head?, isDigitIn radix d = false := by
      rintro d ⟨⟩
      exact Bool.eq_false_iff.mpr hc
    by_cases hseparator : c = '_'
    · subst hseparator
      match text with
      | [] => exact ⟨[], ['_'], rfl, .nil hnone nofun, rfl⟩
      | c :: text =>
        by_cases hc : isDigitIn radix c = true
        · obtain ⟨p, rest, rfl, hlongest, hread⟩ := readDigits_more radix text (index + 2)
          refine ⟨'_' :: c :: p, rest, rfl, hlongest.separated hc, ?_⟩
          have heq : readDigits radix true index true false ('_' :: c :: (p ++ rest)) = (do
              let (digits, stop) ← readDigits radix true (index + 2) true false (p ++ rest)
              .ok (c :: digits, stop)) := by
            rw [readDigits]
            exact readDigits_digit hc
          have hdigits : withoutSeparators ('_' :: c :: p) = c :: withoutSeparators p :=
            withoutSeparators_digit hc p
          rw [heq, hdigits, List.length_cons, List.length_cons]
          refine hread.bind id fun _ hdigits => ?_
          subst hdigits
          exact congrArg (Prod.mk _) (by omega)
        · have hc' := Bool.eq_false_iff.mpr hc
          refine ⟨[], '_' :: c :: text, rfl, .nil hnone ?_, ?_⟩
          · rintro d others ⟨⟩
            exact hc'
          · exact readDigits_separator (by rintro d ⟨⟩; exact hc') rfl
    · refine ⟨[], c :: text, rfl, .nil hnone ?_, ?_⟩
      · rintro d others ⟨⟩
        exact absurd rfl hseparator
      · rw [readDigits_other hnone (by simpa using hseparator)]
        rfl

/-- Digits, or none. -/
def IsRun (radix : Nat) (p : List Char) : Prop := p = [] ∨ Digits radix p

theorem Digits.exists_cons {p : List Char} (h : Digits radix p) :
    ∃ c q, p = c :: q ∧ isDigitIn radix c = true := by
  obtain ⟨hc, _⟩ := h
  exact ⟨_, _, rfl, hc⟩

/-- Runs at the start of the text are this one, or shorter ones that go on. -/
structure LongestRun (radix : Nat) (p rest : List Char) : Prop where
  run : IsRun radix p
  longest : ∀ q y, IsRun radix q → q ++ y = p ++ rest →
    q = p ∨ q.length < p.length ∧ Continues radix y

theorem withoutSeparators_eq_nil {p : List Char} (h : IsRun radix p) :
    withoutSeparators p = [] ↔ p = [] := by
  rcases h with rfl | ⟨hc, _⟩
  · exact Iff.rfl
  · rw [withoutSeparators_digit hc]
    simp

/-- Digits are read up to the last of them, if no separator follows. -/
theorem readDigits_run (radix : Nat) (text : List Char) (index : Nat) :
    ∃ p rest, text = p ++ rest ∧ LongestRun radix p rest ∧
      (readDigits radix true index false false text).Unless (rest.head? = some '_')
        (· = (withoutSeparators p, index + p.length)) := by
  by_cases hfirst : ∃ c ∈ text.head?, isDigitIn radix c = true
  · obtain ⟨c, hhead, hc⟩ := hfirst
    obtain ⟨text, rfl⟩ := List.head?_eq_some_iff.mp hhead
    obtain ⟨p, rest, rfl, hlongest, hread⟩ := readDigits_more radix text (index + 1)
    refine ⟨c :: p, rest, rfl, ⟨.inr ⟨hc, hlongest.more⟩, ?_⟩, ?_⟩
    · rintro q y (rfl | ⟨hd, hq⟩) heq
      · obtain rfl : y = c :: p ++ rest := heq
        exact .inr ⟨Nat.zero_lt_succ _, c, rfl, .inl hc⟩
      · obtain ⟨rfl, htail⟩ := List.cons.inj heq
        rcases hlongest.longest _ y hq htail with rfl | ⟨hlt, hy⟩
        · exact .inl rfl
        · exact .inr ⟨Nat.succ_lt_succ hlt, hy⟩
    · rw [readDigits_digit hc, withoutSeparators_digit hc, List.length_cons]
      refine hread.bind id fun _ hdigits => ?_
      subst hdigits
      exact congrArg (Prod.mk _) (by omega)
  · have hnone : ∀ c ∈ text.head?, isDigitIn radix c = false := fun c hc =>
      Bool.eq_false_iff.mpr fun hdigit => hfirst ⟨c, hc, hdigit⟩
    refine ⟨[], text, rfl, ⟨.inl rfl, ?_⟩, ?_⟩
    · rintro q y (rfl | hq) heq
      · exact .inl rfl
      · obtain ⟨c, q, rfl, hc⟩ := hq.exists_cons
        rw [← show _ = text from heq] at hfirst
        exact absurd ⟨c, rfl, hc⟩ hfirst
    · by_cases hseparator : text.head? = some '_'
      · obtain ⟨text, rfl⟩ := List.head?_eq_some_iff.mp hseparator
        exact rfl
      · rw [readDigits_other hnone hseparator]
        rfl

end Digits

section Tails

/-- No exponent starts the text. -/
def NoExponent (rest : List Char) : Prop := ∀ c ∈ rest.head?, c ≠ 'e' ∧ c ≠ 'E'

theorem NoExponent.eq_nil {p y rest : List Char} (h : NoExponent rest) (hp : IsExponent p)
    (heq : p ++ y = rest) : p = [] := by
  cases hp with
  | none => rfl
  | digits hmark _ _ =>
    obtain ⟨hlower, hupper⟩ := h _ (by rw [← heq]; rfl)
    exact absurd hmark (not_or.mpr ⟨hlower, hupper⟩)

theorem noExponent_of_continues {rest : List Char} (h : Continues 10 rest) : NoExponent rest := by
  obtain ⟨c, hhead, hc⟩ := h
  rintro d hd
  obtain rfl := Option.some.inj (hd.symm.trans hhead)
  constructor <;> (rintro rfl; revert hc; decide)

/-- A fraction is read up to its last digit, if no separator follows. -/
theorem readFraction_longest (text : List Char) (index : Nat) :
    ∃ p rest, text = p ++ rest ∧ IsFraction p ∧
      (∀ q y, IsFraction q → q ++ y = text → q = p ∨ q.length < p.length ∧ NoExponent y) ∧
      (readFraction index text).Unless (rest.head? = some '_')
        (fun found => found.2 = index + p.length ∧ found.1.isNone = p.isEmpty) := by
  by_cases hpoint : text.head? = some '.'
  · obtain ⟨text, rfl⟩ := List.head?_eq_some_iff.mp hpoint
    obtain ⟨p, rest, rfl, hlongest, hread⟩ := readDigits_run 10 text (index + 1)
    have hrun : ∀ q y, IsRun 10 q → '.' :: q ++ y = '.' :: (p ++ rest) →
        '.' :: q = '.' :: p ∨ ('.' :: q).length < ('.' :: p).length ∧ NoExponent y := by
      intro q y hq heq
      rcases hlongest.longest q y hq (List.cons.inj heq).2 with rfl | ⟨hlt, hy⟩
      · exact .inl rfl
      · exact .inr ⟨Nat.succ_lt_succ hlt, noExponent_of_continues hy⟩
    refine ⟨'.' :: p, rest, rfl, ?_, ?_, ?_⟩
    · rcases hlongest.run with rfl | hp
      · exact .point
      · exact .digits hp
    · intro q y hq heq
      cases hq with
      | none =>
        obtain rfl : y = '.' :: (p ++ rest) := heq
        refine .inr ⟨Nat.zero_lt_succ _, ?_⟩
        rintro c ⟨⟩
        decide
      | point => exact hrun [] y (.inl rfl) heq
      | digits hds => exact hrun _ y (.inr hds) heq
    · refine hread.bind id fun _ hdigits => ?_
      subst hdigits
      refine ⟨?_, rfl⟩
      rw [List.length_cons]
      omega
  · refine ⟨[], text, rfl, .none, fun q y hq heq => .inl ?_, ?_⟩
    · cases hq with
      | none => rfl
      | point | digits =>
        rw [← heq] at hpoint
        exact absurd rfl hpoint
    · unfold readFraction
      split
      · exact absurd rfl hpoint
      · exact ⟨rfl, rfl⟩

/-- The text goes on with a separator or a mark of an exponent that belong to no numeral. -/
def Stuck (rest : List Char) : Prop := ∃ c ∈ rest.head?, c = '_' ∨ c = 'e' ∨ c = 'E'

theorem Stuck.refused {rest : List Char} (h : Stuck rest) : Refused rest := by
  obtain ⟨c, hhead, hc⟩ := h
  refine ⟨c, hhead, .inr (.inl ?_)⟩
  rcases hc with rfl | rfl | rfl <;> rfl

theorem stuck_of_separator {rest : List Char} (h : rest.head? = some '_') : Stuck rest :=
  ⟨'_', h, .inl rfl⟩

/-- The sign that the text starts with, and what is left of the text. -/
theorem exists_sign (rest : List Char) : ∃ sign after, rest = sign ++ after ∧
    sign ∈ [[], ['+'], ['-']] ∧
    (rest.head? == some '+' || rest.head? == some '-') = !sign.isEmpty ∧
    ∀ other ds y, other ∈ [[], ['+'], ['-']] → Digits 10 ds → other ++ ds ++ y = rest →
      other = sign ∧ ds ++ y = after := by
  have hunsigned : ∀ {ds y : List Char}, Digits 10 ds → ds ++ y = rest →
      ∀ c ∈ rest.head?, c ≠ '+' ∧ c ≠ '-' := by
    rintro ds y hds rfl c hc
    obtain ⟨d, q, rfl, hd⟩ := hds.exists_cons
    obtain rfl := Option.some.inj hc
    constructor <;> (rintro rfl; revert hd; decide)
  by_cases hsigned : ∃ c ∈ rest.head?, c = '+' ∨ c = '-'
  · obtain ⟨c, hhead, hc⟩ := hsigned
    obtain ⟨after, rfl⟩ := List.head?_eq_some_iff.mp hhead
    refine ⟨[c], after, rfl, by simpa using hc, by simpa using hc, ?_⟩
    intro other ds y hother hds heq
    obtain rfl | ⟨d, rfl⟩ : other = [] ∨ ∃ d, other = [d] := by
      simp only [List.mem_cons, List.not_mem_nil, or_false] at hother
      grind
    · obtain ⟨hplus, hminus⟩ := hunsigned hds heq c rfl
      exact absurd hc (not_or.mpr ⟨hplus, hminus⟩)
    · obtain ⟨rfl, hafter⟩ := List.cons.inj heq
      exact ⟨rfl, hafter⟩
  · refine ⟨[], rest, rfl, List.mem_cons_self, ?_, ?_⟩
    · simp only [not_exists, not_and, not_or] at hsigned
      cases rest with
      | nil => rfl
      | cons c rest => simpa using hsigned c rfl
    · intro other ds y hother hds heq
      simp only [List.mem_cons, List.not_mem_nil, or_false] at hother
      rcases hother with rfl | rfl | rfl
      · exact ⟨rfl, heq⟩
      · rw [← heq] at hsigned
        exact absurd ⟨'+', rfl, .inl rfl⟩ hsigned
      · rw [← heq] at hsigned
        exact absurd ⟨'-', rfl, .inr rfl⟩ hsigned

/-- After its mark and sign an exponent has to have digits. -/
theorem readExponent_mark {mark : Char} {sign after : List Char} {index : Nat}
    (hmark : mark = 'e' ∨ mark = 'E') (hsign : sign ∈ [[], ['+'], ['-']])
    (hsigned : ((sign ++ after).head? == some '+' || (sign ++ after).head? == some '-') =
      !sign.isEmpty) :
    readExponent index (mark :: (sign ++ after)) = (do
      let (digits, stop) ← readDecimalDigits (index + 1 + sign.length) after
      if digits.isEmpty then fault .digitExpected stop
      else .ok (some ((sign ++ after).head? == some '-', digits), stop)) := by
  rw [readExponent, if_pos (by simpa using hmark), hsigned]
  simp only [List.mem_cons, List.not_mem_nil, or_false] at hsign
  rcases hsign with rfl | rfl | rfl <;> rfl

/-- An exponent is read up to its last digit, if nothing is wrong with it. -/
theorem readExponent_longest (text : List Char) (index : Nat) :
    ∃ p rest, text = p ++ rest ∧ IsExponent p ∧
      (∀ q y, IsExponent q → q ++ y = text → q.length ≤ p.length) ∧
      (readExponent index text).Unless (Stuck rest)
        (fun found => found.2 = index + p.length ∧ found.1.isNone = p.isEmpty) := by
  by_cases hmark : ∃ c ∈ text.head?, c = 'e' ∨ c = 'E'
  · obtain ⟨mark, hhead, hmark⟩ := hmark
    obtain ⟨text, rfl⟩ := List.head?_eq_some_iff.mp hhead
    obtain ⟨sign, after, rfl, hsign, hsigned, hwords⟩ := exists_sign text
    obtain ⟨p, rest, rfl, hlongest, hread⟩ :=
      readDigits_run 10 after (index + 1 + sign.length)
    rw [readExponent_mark hmark hsign hsigned]
    rcases hlongest.run with rfl | hp
    · refine ⟨[], mark :: (sign ++ ([] ++ rest)), rfl, .none, fun q y hq heq => ?_, ?_⟩
      · cases hq with
        | none => exact Nat.le_refl _
        | digits _ hother hds =>
          obtain ⟨-, hafter⟩ := hwords _ _ y hother hds (List.cons.inj heq).2
          rcases hlongest.longest _ y (.inr hds) hafter with rfl | ⟨hlt, -⟩
          · cases hds
          · cases hlt
      · refine hread.bind (fun _ => ⟨mark, rfl, .inr hmark⟩) fun _ hdigits => ?_
        subst hdigits
        exact ⟨mark, rfl, .inr hmark⟩
    · refine ⟨mark :: sign ++ p, rest, ?_, .digits hmark hsign hp, fun q y hq heq => ?_, ?_⟩
      · simp
      · cases hq with
        | none => exact Nat.zero_le _
        | digits _ hother hds =>
          obtain ⟨rfl, hafter⟩ := hwords _ _ y hother hds (List.cons.inj heq).2
          have hle : ∀ {q : List Char}, q = p ∨ q.length < p.length ∧ Continues 10 y →
              q.length ≤ p.length := by
            rintro q (rfl | ⟨hlt, -⟩)
            · exact Nat.le_refl _
            · exact Nat.le_of_lt hlt
          simpa using hle (hlongest.longest _ y (.inr hds) hafter)
      · refine hread.bind stuck_of_separator fun _ hdigits => ?_
        subst hdigits
        have hdigits : (withoutSeparators p).isEmpty = false := by
          rw [List.isEmpty_eq_false_iff]
          exact fun hnil => by
            rw [(withoutSeparators_eq_nil hlongest.run).mp hnil] at hp
            cases hp
        dsimp only
        rw [hdigits]
        refine ⟨?_, rfl⟩
        simp only [List.length_append, List.length_cons]
        omega
  · refine ⟨[], text, rfl, .none, fun q y hq heq => ?_, ?_⟩
    · cases hq with
      | none => exact Nat.le_refl _
      | digits hm _ _ =>
        rw [← heq] at hmark
        exact absurd ⟨_, rfl, hm⟩ hmark
    · cases text with
      | nil => exact ⟨rfl, rfl⟩
      | cons c rest =>
        rw [readExponent, if_neg (by simpa using hmark)]
        exact ⟨rfl, rfl⟩

/-- A fraction and an exponent. -/
def IsTail (p : List Char) : Prop :=
  ∃ fraction exponent, IsFraction fraction ∧ IsExponent exponent ∧ p = fraction ++ exponent

/-- Nothing that starts a tail starts the text. -/
def NoTail (rest : List Char) : Prop := ∀ c ∈ rest.head?, c ≠ '.' ∧ c ≠ 'e' ∧ c ≠ 'E'

theorem NoTail.eq_nil {p y rest : List Char} (h : NoTail rest) (hp : IsTail p)
    (heq : p ++ y = rest) : p = [] := by
  obtain ⟨fraction, exponent, hfraction, hexponent, rfl⟩ := hp
  have hnone : NoExponent rest := fun c hc => (h c hc).2
  cases hfraction with
  | none => exact hnone.eq_nil hexponent heq
  | point | digits => exact absurd rfl (h '.' (by rw [← heq]; rfl)).1

theorem noTail_of_continues {rest : List Char} (h : Continues 10 rest) : NoTail rest := by
  refine fun c hc => ⟨?_, noExponent_of_continues h c hc⟩
  obtain ⟨d, hhead, hd⟩ := h
  obtain rfl := Option.some.inj (hc.symm.trans hhead)
  rintro rfl
  revert hd
  decide

/-- A separator where a tail could start blocks it. -/
theorem IsTail.stuck_of_separator {p y : List Char} (hp : IsTail p)
    (h : (p ++ y).head? = some '_') : p = [] ∧ Stuck y := by
  have hnone : NoTail (p ++ y) := by
    rintro c hc
    obtain rfl := Option.some.inj (h.symm.trans hc)
    decide
  obtain rfl := hnone.eq_nil hp rfl
  exact ⟨rfl, Lexer.stuck_of_separator h⟩

/-- Fraction and exponent are read as far as they go, if nothing is wrong with them. -/
theorem readDecimalTail_longest (whole text : List Char) (index : Nat) :
    ∃ p rest, text = p ++ rest ∧ IsTail p ∧
      (∀ q y, IsTail q → q ++ y = text → q.length ≤ p.length) ∧
      (readDecimalTail whole index text).Unless (Stuck rest)
        (fun found => found.2.2 = index + p.length ∧ found.2.1 = p.isEmpty) := by
  obtain ⟨fraction, others, rfl, hfraction, hlongest, hread⟩ := readFraction_longest text index
  obtain ⟨exponent, rest, rfl, hexponent, hlonger, hread'⟩ :=
    readExponent_longest others (index + fraction.length)
  refine ⟨fraction ++ exponent, rest, (List.append_assoc ..).symm,
    ⟨_, _, hfraction, hexponent, rfl⟩, ?_, ?_⟩
  · rintro q y ⟨fraction', exponent', hfraction', hexponent', rfl⟩ heq
    rw [List.append_assoc] at heq
    rw [List.length_append, List.length_append]
    rcases hlongest fraction' _ hfraction' heq with rfl | ⟨hlt, hnone⟩
    · exact Nat.add_le_add_left (hlonger exponent' y hexponent' (List.append_cancel_left heq)) _
    · rw [hnone.eq_nil hexponent' rfl, List.length_nil]
      omega
  · unfold readDecimalTail
    refine hread.bind (fun hseparator => ?_) fun found hfound => ?_
    · have hnone : NoExponent (exponent ++ rest) := by
        rintro c hc
        obtain rfl := Option.some.inj (hseparator.symm.trans hc)
        decide
      rw [hnone.eq_nil hexponent rfl] at hseparator
      exact stuck_of_separator hseparator
    · obtain ⟨part, stop⟩ := found
      obtain ⟨rfl, hnone⟩ := hfound
      have hdrop : (fraction ++ (exponent ++ rest)).drop (index + fraction.length - index) =
          exponent ++ rest := by
        rw [Nat.add_sub_cancel_left, List.drop_left]
      dsimp only
      rw [hdrop]
      refine hread'.bind id fun found hfound => ?_
      obtain ⟨part', stop'⟩ := found
      obtain ⟨rfl, hnone'⟩ := hfound
      refine ⟨?_, ?_⟩
      · rw [List.length_append, Nat.add_assoc]
      · rw [show (fraction ++ exponent).isEmpty = (fraction.isEmpty && exponent.isEmpty) by
          cases fraction <;> rfl]
        exact congr (congrArg and hnone) hnone'

end Tails

end EcmaSyntax.Lexer
