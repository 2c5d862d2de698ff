import EcmaSyntax.Proofs.Lexer.NumeralTokens
import Mathlib.Data.List.Forall2
import Mathlib.Data.Nat.Digits.Defs

/-!
The grammar of strings, and how escapes are read. An escape may depend on the character after it,
which is never part of it.
-/

namespace EcmaSyntax.Lexer

open EcmaSyntax.Diagnostic EcmaSyntax.Number EcmaSyntax.Unicode

variable {version : Nat} [Unicode.IdentifierChars version]

section Grammar

/-- The character is a digit, its letter in either case. -/
def IsDigit (base : Nat) (c : Char) (value : Nat) : Prop :=
  value < base ∧ (c = value.digitChar ∨ c = value.digitChar.toUpper)

instance (base : Nat) (c : Char) (value : Nat) : Decidable (IsDigit base c value) :=
  inferInstanceAs (Decidable (_ ∧ _))

/-- The text starts with a digit. -/
def StartsDigit (base : Nat) (text : List Char) : Prop := ∃ c ∈ text.head?, ∃ v, IsDigit base c v

/-- The number of an escape, as it is written after the letter. -/
inductive SpellsCode : List Char → Nat → Prop
  | four {digits values} (h : List.Forall₂ (IsDigit 16) digits values)
    (hlength : digits.length = 4) : SpellsCode digits (Nat.ofDigits 16 values.reverse)
  | braces {digits values} (h : List.Forall₂ (IsDigit 16) digits values) (hne : digits ≠ [])
    (hmax : Nat.ofDigits 16 values.reverse ≤ 0x10FFFF) :
    SpellsCode ('\x7b' :: (digits ++ ['\x7d'])) (Nat.ofDigits 16 values.reverse)

/-- The characters that are escaped by a letter, and the marks that are escaped by themselves. -/
def singleEscapes : List (Char × Char) :=
  [('\'', '\''), ('"', '"'), ('\\', '\\'), ('b', '\x08'), ('f', '\x0c'), ('n', '\n'), ('r', '\r'),
    ('t', '\t'), ('v', '\x0b')]

/-- The characters that start an escape with a meaning of its own. -/
def startsEscape (c : Char) : Bool :=
  singleEscapes.any (·.1 == c) || isAsciiDigit c || c == 'x' || c == 'u'

/-- What an escape stands for, given the text after its backslash and what follows the escape. -/
inductive IsEscape : List Char → Escape → List Char → Prop
  | single {c d rest} (h : (c, d) ∈ singleEscapes) : IsEscape (c :: rest) (.char d) rest
  | other {c rest} (h : startsEscape c = false) (hc : isLineTerminator c = false) :
    IsEscape (c :: rest) (.char c) rest
  | null {rest} (h : ¬ StartsDigit 10 rest) : IsEscape ('0' :: rest) (.char '\x00') rest
  | hex {a b x y rest} (ha : IsDigit 16 a x) (hb : IsDigit 16 b y) :
    IsEscape ('x' :: a :: b :: rest) (.char (Char.ofNat (16 * x + y))) rest
  | unicode {spelled code rest} (h : SpellsCode spelled code) :
    IsEscape ('u' :: (spelled ++ rest)) (.codePoint code) rest
  | lineBreak {c rest} (hc : isLineTerminator c = true)
    (hnext : c = '\r' → rest.head? ≠ some '\n') : IsEscape (c :: rest) .continuation rest
  | lineBreakPair {rest} : IsEscape ('\r' :: '\n' :: rest) .continuation rest
  | octalZero {rest} (h : rest.head? = some '8' ∨ rest.head? = some '9') :
    IsEscape ('0' :: rest) (.legacy '\x00') rest
  | octal {a x rest} (ha : IsDigit 8 a x) (hpos : 0 < x) (hstop : ¬ StartsDigit 8 rest) :
    IsEscape (a :: rest) (.legacy (Char.ofNat x)) rest
  | octalPair {a b x y rest} (ha : IsDigit 8 a x) (hb : IsDigit 8 b y)
    (hstop : x ≤ 3 → ¬ StartsDigit 8 rest) :
    IsEscape (a :: b :: rest) (.legacy (Char.ofNat (8 * x + y))) rest
  | octalTriple {a b c x y z rest} (ha : IsDigit 8 a x) (hb : IsDigit 8 b y) (hc : IsDigit 8 c z)
    (hx : x ≤ 3) : IsEscape (a :: b :: c :: rest) (.legacy (Char.ofNat (64 * x + 8 * y + z))) rest
  | nonOctal {c rest} (hc : c = '8' ∨ c = '9') : IsEscape (c :: rest) (.legacy c) rest

/-- The text between two such quotation marks, and its parts. -/
inductive IsStringBody (quote : Char) : List Char → List Piece → Prop
  | nil : IsStringBody quote [] []
  | char {c body pieces} (hc : c ∉ [quote, '\\', '\n', '\r']) (h : IsStringBody quote body pieces) :
    IsStringBody quote (c :: body) (.plain c :: pieces)
  | escape {text e body pieces} (he : IsEscape text e body) (h : IsStringBody quote body pieces) :
    IsStringBody quote ('\\' :: text) (.escape e :: pieces)

end Grammar

section Digits

variable {c : Char} {v : Nat} {digits : List Char} {values : List Nat}

theorem IsDigit.mono {base base' : Nat} (h : IsDigit base c v) (hle : base ≤ base') :
    IsDigit base' c v := ⟨Nat.lt_of_lt_of_le h.1 hle, h.2⟩

theorem hexValue?_of_isDigit (h : IsDigit 16 c v) : hexValue? c = some v := by
  have hall : ∀ v < 16, hexValue? v.digitChar = some v ∧
    hexValue? v.digitChar.toUpper = some v := by
    decide
  obtain ⟨hv, rfl | rfl⟩ := h
  · exact (hall v hv).1
  · exact (hall v hv).2

/-- A character of a range, by its place in it. -/
theorem exists_ofNat_of_range {low high : Char} (h : (low ≤ c && c ≤ high) = true) :
    ∃ k, k ≤ high.toNat - low.toNat ∧ c.toNat - low.toNat = k ∧ c = Char.ofNat (low.toNat + k) := by
  simp only [Bool.and_eq_true, decide_eq_true_eq, Char.le_def, UInt32.le_iff_toNat_le] at h
  have hlow : low.toNat ≤ c.toNat := h.1
  have hhigh : c.toNat ≤ high.toNat := h.2
  refine ⟨c.toNat - low.toNat, by omega, rfl, ?_⟩
  rw [Nat.add_sub_cancel' hlow, Char.ofNat_toNat]

theorem isDigit_of_isAsciiDigit (h : isAsciiDigit c = true) :
    IsDigit 10 c (c.toNat - '0'.toNat) := by
  have hall : ∀ k ≤ 9, IsDigit 10 (Char.ofNat ('0'.toNat + k)) k := by decide
  obtain ⟨k, hk, hc, rfl⟩ := exists_ofNat_of_range h
  rw [hc]
  exact hall k hk

theorem isDigit_of_hexValue? (h : hexValue? c = some v) : IsDigit 16 c v := by
  unfold hexValue? at h
  split at h
  · rename_i hdigit
    cases h
    exact (isDigit_of_isAsciiDigit hdigit).mono (by decide)
  split at h
  · rename_i hlower
    have hall : ∀ k ≤ 5, IsDigit 16 (Char.ofNat ('a'.toNat + k)) (k + 10) := by decide
    obtain ⟨k, hk, hc, rfl⟩ := exists_ofNat_of_range hlower
    cases h
    rw [hc]
    exact hall k hk
  split at h
  · rename_i hupper
    have hall : ∀ k ≤ 5, IsDigit 16 (Char.ofNat ('A'.toNat + k)) (k + 10) := by decide
    obtain ⟨k, hk, hc, rfl⟩ := exists_ofNat_of_range hupper
    cases h
    rw [hc]
    exact hall k hk
  · cases h

theorem isOctalDigit_iff : isOctalDigit c = true ↔ ∃ v, IsDigit 8 c v := by
  constructor
  · intro h
    have hall : ∀ k ≤ 7, IsDigit 8 (Char.ofNat ('0'.toNat + k)) k := by decide
    obtain ⟨k, hk, -, rfl⟩ := exists_ofNat_of_range h
    exact ⟨k, hall k hk⟩
  · have hall : ∀ v < 8, isOctalDigit v.digitChar = true ∧
      isOctalDigit v.digitChar.toUpper = true := by
      decide
    rintro ⟨v, hv, rfl | rfl⟩
    · exact (hall v hv).1
    · exact (hall v hv).2

theorem isAsciiDigit_iff : isAsciiDigit c = true ↔ ∃ v, IsDigit 10 c v := by
  refine ⟨fun h => ⟨_, isDigit_of_isAsciiDigit h⟩, ?_⟩
  have hall : ∀ v < 10, isAsciiDigit v.digitChar = true ∧
    isAsciiDigit v.digitChar.toUpper = true := by
    decide
  rintro ⟨v, hv, rfl | rfl⟩
  · exact (hall v hv).1
  · exact (hall v hv).2

theorem digitValue_of_isDigit (h : IsDigit 8 c v) : digitValue c = v := by
  have hall : ∀ v < 8, digitValue v.digitChar = v ∧ digitValue v.digitChar.toUpper = v := by decide
  obtain ⟨hv, rfl | rfl⟩ := h
  · exact (hall v hv).1
  · exact (hall v hv).2

theorem startsDigit_ten {text : List Char} : StartsDigit 10 text ↔
    text.head?.any isAsciiDigit = true := by
  simp only [StartsDigit, Option.any_eq_true, ← isAsciiDigit_iff, Option.mem_def]

theorem startsDigit_eight {text : List Char} :
    StartsDigit 8 text ↔ text.head?.any isOctalDigit = true := by
  simp only [StartsDigit, Option.any_eq_true, ← isOctalDigit_iff, Option.mem_def]

/-- Hexadecimal digits and their number. -/
theorem hexNumber_of_forall (h : List.Forall₂ (IsDigit 16) digits values) :
    hexNumber digits = Nat.ofDigits 16 values.reverse := by
  have hfold : ∀ acc, digits.foldl (fun acc c => acc * 16 + (hexValue? c).getD 0) acc =
      values.foldl (fun acc v => acc * 16 + v) acc := by
    induction h with
    | nil => exact fun _ => rfl
    | cons hc _ ih =>
      intro acc
      rw [List.foldl_cons, List.foldl_cons, hexValue?_of_isDigit hc, ih]
      rfl
  rw [hexNumber, hfold, Nat.ofDigits_eq_foldr, List.foldr_reverse]
  simp only [Nat.mul_comm, Nat.add_comm, Nat.cast_id]

theorem all_isHexDigit_iff :
    digits.all isHexDigit = true ↔ ∃ values, List.Forall₂ (IsDigit 16) digits values := by
  constructor
  · intro h
    induction digits with
    | nil => exact ⟨[], .nil⟩
    | cons c digits ih =>
      rw [List.all_cons, Bool.and_eq_true] at h
      obtain ⟨v, hv⟩ := Option.isSome_iff_exists.mp h.1
      obtain ⟨values, hvalues⟩ := ih h.2
      exact ⟨v :: values, .cons (isDigit_of_hexValue? hv) hvalues⟩
  · rintro ⟨values, h⟩
    induction h with
    | nil => rfl
    | cons hc _ ih => simp [isHexDigit, hexValue?_of_isDigit hc, ih]

end Digits

section Codes

variable {text spelled rest : List Char} {code length : Nat}

/-- Hexadecimal digits up to something else. -/
theorem takeWhile_isHexDigit {digits : List Char} {c : Char} (h : digits.all isHexDigit = true)
    (hc : isHexDigit c = false) : (digits ++ c :: rest).takeWhile isHexDigit = digits := by
  rw [List.takeWhile_append_of_pos (List.all_eq_true.mp h),
    List.takeWhile_cons_of_neg (by simp [hc]), List.append_nil]

theorem readCodeUnit_of_spells (h : SpellsCode spelled code) :
    readCodeUnit (spelled ++ rest) = .ok (code, spelled.length) := by
  cases h with
  | @four digits values h hlength =>
    have hall := all_isHexDigit_iff.mpr ⟨values, h⟩
    have htake : (spelled ++ rest).take 4 = spelled := by rw [← hlength, List.take_left]
    unfold readCodeUnit
    split
    · rename_i body heq
      -- A brace is no digit.
      obtain ⟨c, digits, rfl⟩ := List.exists_cons_of_length_pos (by omega : 0 < spelled.length)
      obtain rfl := (List.cons.inj heq).1
      rw [List.all_cons, Bool.and_eq_true] at hall
      cases hall.1
    · rw [htake, if_pos (by simp [hlength, hall]), hexNumber_of_forall h, hlength]
  | @braces digits values h hne hmax =>
    have hall := all_isHexDigit_iff.mpr ⟨values, h⟩
    have htake : (digits ++ '\x7d' :: rest).takeWhile isHexDigit = digits :=
      takeWhile_isHexDigit hall (by decide)
    have hbrace : (digits ++ '\x7d' :: rest)[digits.length]? = some '\x7d' := by simp
    have hempty : digits.isEmpty = false := by simpa using hne
    rw [List.cons_append, List.append_assoc, List.singleton_append, readCodeUnit, htake, hbrace,
      if_neg (by simp [hempty]), hexNumber_of_forall h, if_neg (Nat.not_lt.mpr hmax)]
    simp

theorem spells_of_readCodeUnit (h : readCodeUnit text = .ok (code, length)) :
    ∃ spelled rest, text = spelled ++ rest ∧ length = spelled.length ∧ SpellsCode spelled code := by
  unfold readCodeUnit at h
  split at h
  · rename_i body
    have hall : (body.takeWhile isHexDigit).all isHexDigit = true := List.all_takeWhile
    have hbody := List.takeWhile_append_dropWhile (p := isHexDigit) (l := body)
    dsimp only at h
    generalize body.takeWhile isHexDigit = digits at h hall hbody
    obtain ⟨values, hvalues⟩ := all_isHexDigit_iff.mp hall
    rw [hexNumber_of_forall hvalues] at h
    split at h
    · cases h
    rename_i hdigits
    split at h
    · cases h
    rename_i hmax
    cases h
    simp only [Bool.or_eq_true, not_or, bne_iff_ne, ne_eq, Decidable.not_not] at hdigits
    obtain ⟨hne, hbrace⟩ := hdigits
    rw [← hbody, getElem?_length_append] at hbrace
    obtain ⟨rest, hrest⟩ := List.head?_eq_some_iff.mp hbrace
    refine ⟨'\x7b' :: (digits ++ ['\x7d']), rest, ?_, by simp, .braces hvalues (by simpa using hne)
      (Nat.not_lt.mp hmax)⟩
    rw [← hbody, hrest]
    simp
  · dsimp only at h
    split at h
    · rename_i hdigits
      cases h
      rw [Bool.and_eq_true, beq_iff_eq] at hdigits
      obtain ⟨values, hvalues⟩ := all_isHexDigit_iff.mp hdigits.2
      rw [hexNumber_of_forall hvalues]
      exact ⟨_, text.drop 4, (List.take_append_drop 4 text).symm, hdigits.1.symm,
        .four hvalues hdigits.1⟩
    · cases h

/-- A number of four digits, or one in braces, is at most the last code point. -/
theorem SpellsCode.le_max (h : SpellsCode spelled code) : code ≤ 0x10FFFF := by
  cases h with
  | @four _ values h hlength =>
    have hdigits : ∀ v ∈ values, v < 16 := by
      clear hlength
      induction h with
      | nil => exact nofun
      | cons hc _ ih => exact List.forall_mem_cons.mpr ⟨hc.1, ih⟩
    have hlt := Nat.ofDigits_lt_base_pow_length (by decide : 1 < 16)
      fun v hv => hdigits v (List.mem_reverse.mp hv)
    rw [List.length_reverse, ← h.length_eq, hlength] at hlt
    omega
  | braces _ _ hmax => exact hmax

/-- Another unit right after a high half, spelled as the low half of the pair. -/
structure SpellsLow (rest spelled : List Char) (low : Nat) (after : List Char) : Prop where
  rest : rest = '\\' :: 'u' :: (spelled ++ after)
  spells : SpellsCode spelled low
  isLow : isLowSurrogate low = true

theorem readCodePoint_pair {high low : Nat} {second after : List Char} (h : SpellsCode spelled high)
    (hhigh : isHighSurrogate high = true) (hlow : SpellsLow rest second low after) :
    readCodePoint (spelled ++ rest) =
      .ok (combineSurrogates high low, spelled.length + 2 + second.length) := by
  rw [hlow.rest, readCodePoint, readCodeUnit_of_spells h]
  simp only [if_pos hhigh, List.drop_left, readCodeUnit_of_spells hlow.spells, if_pos hlow.isLow]

/-- What is read is one number, or the halves of a pair. -/
theorem spells_of_readCodePoint (h : readCodePoint text = .ok (code, length)) :
    ∃ spelled rest first, text = spelled ++ rest ∧ SpellsCode spelled first ∧
      (length = spelled.length ∨ ∃ second low after, SpellsLow rest second low after ∧
        length = spelled.length + 2 + second.length) := by
  unfold readCodePoint at h
  split at h
  · cases h
  rename_i first firstLength hfirst
  obtain ⟨spelled, rest, rfl, rfl, hspells⟩ := spells_of_readCodeUnit hfirst
  rw [List.drop_left] at h
  refine ⟨spelled, rest, first, rfl, hspells, ?_⟩
  split at h
  · split at h
    · split at h
      · split at h
        · rename_i low lowLength hread hlow
          obtain ⟨-, rfl⟩ := Prod.mk.inj (Except.ok.inj h)
          obtain ⟨second, after, rfl, rfl, hsecond⟩ := spells_of_readCodeUnit hread
          exact .inr ⟨second, low, after, ⟨rfl, hsecond, hlow⟩, rfl⟩
        · cases h
          exact .inl rfl
      · cases h
        exact .inl rfl
    · cases h
      exact .inl rfl
  · cases h
    exact .inl rfl

theorem readCodePoint_single (h : SpellsCode spelled code)
    (hnot : ¬(isHighSurrogate code = true ∧ ∃ second low after, SpellsLow rest second low after)) :
    readCodePoint (spelled ++ rest) = .ok (code, spelled.length) := by
  rw [readCodePoint, readCodeUnit_of_spells h]
  simp only [List.drop_left]
  split
  · rename_i hhigh
    split
    · split
      · rename_i low lowLength hread
        split
        · rename_i hlow
          obtain ⟨second, after, rfl, -, hsecond⟩ := spells_of_readCodeUnit hread
          exact absurd ⟨hhigh, second, low, after, rfl, hsecond, hlow⟩ hnot
        · rfl
      · rfl
    · rfl
  · rfl

end Codes

section Escapes

variable {a c : Char} {x : Nat} {e : Escape} {text rest after : List Char}

/-- An octal escape starts with an octal digit; a zero starts one if another digit follows. -/
theorem readEscape_octal (ha : isOctalDigit a = true)
    (hzero : a = '0' → rest.head?.any isAsciiDigit = true) :
    readEscape (a :: rest) = .ok (readLegacyOctal a rest) := by
  have hdigits : ∀ v < 8, v.digitChar.toUpper = v.digitChar ∧
      v.digitChar ∈ ['0', '1', '2', '3', '4', '5', '6', '7'] := by decide
  obtain ⟨v, hv, hchar⟩ := isOctalDigit_iff.mp ha
  rw [(hdigits v hv).1, or_self] at hchar
  have hmem := (hdigits v hv).2
  rw [← hchar] at hmem
  simp only [List.mem_cons, List.not_mem_nil, or_false] at hmem
  rcases hmem with rfl | rfl | rfl | rfl | rfl | rfl | rfl | rfl
  · have hread : readEscape ('0' :: rest) =
        if (!rest.head?.any isAsciiDigit) = true then .ok (.char '\x00', 1)
        else .ok (readLegacyOctal '0' rest) := rfl
    rw [hread, hzero rfl]
    rfl
  all_goals rfl

/-- Digits after the first are taken while there are any, up to two or one. -/
theorem readLegacyOctal_eq (ha : IsDigit 8 a x) (more : List Char)
    (h : (rest.take (if x ≤ 3 then 2 else 1)).takeWhile isOctalDigit = more) :
    readLegacyOctal a rest = (.legacy (Char.ofNat (natOfDigits 8 (a :: more))),
      1 + more.length) := by
  have hall : ∀ v < 8, (v.digitChar ≤ '3' ↔ v ≤ 3) ∧ (v.digitChar.toUpper ≤ '3' ↔ v ≤ 3) := by
      decide
  have hlow : a ≤ '3' ↔ x ≤ 3 := by
    obtain ⟨hx, rfl | rfl⟩ := ha
    · exact (hall x hx).1
    · exact (hall x hx).2
  unfold readLegacyOctal
  simp only [hlow, h]

theorem takeWhile_isOctalDigit (h : ¬ StartsDigit 8 rest) (n : Nat) :
    (rest.take n).takeWhile isOctalDigit = [] := by
  cases rest with
  | nil => simp
  | cons c rest =>
    have hc : isOctalDigit c = false := by simpa [startsDigit_eight] using h
    cases n with
    | zero => rfl
    | succ n => simp [hc]

/-- A character that starts no other escape stands for itself. -/
theorem readEscape_other (h : startsEscape c = false) (hc : isLineTerminator c = false) :
    readEscape (c :: rest) = .ok (.char c, 1) := by
  simp only [startsEscape, singleEscapes, Bool.or_eq_false_iff, List.any_cons, List.any_nil,
    beq_eq_false_iff_ne, ne_eq, and_true] at h
  obtain ⟨⟨⟨⟨-, -, -, hb, hf, hn, hr, ht, hv⟩, hdigit⟩, hx⟩, hu⟩ := h
  have hoctal : isOctalDigit c = false := by
    rw [Bool.eq_false_iff, Ne, isOctalDigit_iff]
    rintro ⟨v, hv⟩
    rw [isAsciiDigit_iff.mpr ⟨v, hv.mono (by decide)⟩] at hdigit
    cases hdigit
  have hnot : ∀ d, isAsciiDigit d = true → c ≠ d := by
    rintro d hd rfl
    rw [hd] at hdigit
    cases hdigit
  have hline : c ≠ '\r' := by
    rintro rfl
    cases hc
  simp [readEscape, Ne.symm hb, Ne.symm hf, Ne.symm hn, Ne.symm hr, Ne.symm ht, Ne.symm hv, hx, hu,
    hline, hc, hoctal, hnot '0' rfl, hnot '8' rfl, hnot '9' rfl]

theorem readEscape_hex (a b : Char) (rest : List Char) :
    readEscape ('x' :: a :: b :: rest) = match hexValue? a, hexValue? b with
      | some high, some low => .ok (.char (Char.ofNat (high * 16 + low)), 3)
      | _, _ => .error (.malformed .invalidHexEscape) := rfl

theorem readEscape_unicode (rest : List Char) :
    readEscape ('u' :: rest) = match readCodePoint rest with
      | .ok (code, length) => .ok (.codePoint code, length + 1)
      | .error cause => .error (.malformed cause) := rfl

/-- The escape is not the first half of a pair that goes on behind it. -/
def IsAlone (e : Escape) (after : List Char) : Prop :=
  ∀ code, e = .codePoint code → isHighSurrogate code = true →
    ¬ ∃ second low rest, SpellsLow after second low rest

/-- An escape that stands alone is read as what it stands for. -/
theorem readEscape_of_isEscape (h : IsEscape text e after) (halone : IsAlone e after) :
    ∃ spelled, text = spelled ++ after ∧ readEscape text = .ok (e, spelled.length) := by
  cases h with
  | @single c d _ h =>
    simp only [singleEscapes, List.mem_cons, Prod.mk.injEq, List.not_mem_nil, or_false] at h
    rcases h with ⟨rfl, rfl⟩ | ⟨rfl, rfl⟩ | ⟨rfl, rfl⟩ | ⟨rfl, rfl⟩ | ⟨rfl, rfl⟩ | ⟨rfl, rfl⟩ |
      ⟨rfl, rfl⟩ | ⟨rfl, rfl⟩ | ⟨rfl, rfl⟩
    all_goals exact ⟨[_], rfl, rfl⟩
  | @other c _ h hc =>
    refine ⟨[c], rfl, ?_⟩
    exact readEscape_other h hc
  | null h =>
    refine ⟨['0'], rfl, ?_⟩
    rw [startsDigit_ten] at h
    have hread : readEscape ('0' :: after) =
        if (!after.head?.any isAsciiDigit) = true then .ok (.char '\x00', 1)
        else .ok (readLegacyOctal '0' after) := rfl
    rw [hread, if_pos (by simpa using h)]
    rfl
  | @hex a b x y _ ha hb =>
    refine ⟨['x', a, b], rfl, ?_⟩
    rw [readEscape_hex, hexValue?_of_isDigit ha, hexValue?_of_isDigit hb, Nat.mul_comm]
    rfl
  | @unicode spelled code _ h =>
    refine ⟨'u' :: spelled, rfl, ?_⟩
    have hread : readCodePoint (spelled ++ after) = .ok (code, spelled.length) := by
      refine readCodePoint_single h ?_
      rintro ⟨hhigh, hlow⟩
      exact halone code rfl hhigh hlow
    rw [readEscape_unicode, hread]
    rfl
  | @lineBreak c _ hc hnext =>
    refine ⟨[c], rfl, ?_⟩
    simp only [isLineTerminator, Bool.or_eq_true, beq_iff_eq] at hc
    rcases hc with ((rfl | rfl) | rfl) | rfl
    · rfl
    · have hread : readEscape ('\r' :: after) =
          .ok (.continuation, if after.head? == some '\n' then 2 else 1) := rfl
      rw [hread, if_neg (by simpa using hnext rfl)]
      rfl
    · rfl
    · rfl
  | lineBreakPair => exact ⟨['\r', '\n'], rfl, rfl⟩
  | octalZero h =>
    refine ⟨['0'], rfl, ?_⟩
    have hdigit : after.head?.any isAsciiDigit = true := by
      rcases h with h | h <;> rw [h] <;> rfl
    have hstop : ¬ StartsDigit 8 after := by
      rw [startsDigit_eight]
      rcases h with h | h <;> rw [h] <;> decide
    rw [readEscape_octal rfl fun _ => hdigit,
      readLegacyOctal_eq (x := 0) (by decide) [] (takeWhile_isOctalDigit hstop _)]
    rfl
  | @octal a x _ ha hpos hstop =>
    refine ⟨[a], rfl, ?_⟩
    have hzero : a = '0' → after.head?.any isAsciiDigit = true := by
      rintro rfl
      have hx := digitValue_of_isDigit ha
      exact absurd hx (Nat.ne_of_lt hpos)
    rw [readEscape_octal (isOctalDigit_iff.mpr ⟨x, ha⟩) hzero,
      readLegacyOctal_eq ha [] (takeWhile_isOctalDigit hstop _), natOfDigits, List.foldl_cons,
      List.foldl_nil, digitValue_of_isDigit ha, Nat.zero_mul, Nat.zero_add]
    rfl
  | @octalPair a b x y _ ha hb hstop =>
    refine ⟨[a, b], rfl, ?_⟩
    have hoctal := isOctalDigit_iff.mpr ⟨y, hb⟩
    have hdigit : (b :: after).head?.any isAsciiDigit = true :=
      isAsciiDigit_iff.mpr ⟨y, hb.mono (by decide)⟩
    have hmore : ((b :: after).take (if x ≤ 3 then 2 else 1)).takeWhile isOctalDigit = [b] := by
      split
      · rename_i hx
        rw [List.take_succ_cons, List.takeWhile_cons_of_pos hoctal,
          takeWhile_isOctalDigit (hstop hx)]
      · rw [List.take_succ_cons, List.takeWhile_cons_of_pos hoctal]
        rfl
    rw [readEscape_octal (isOctalDigit_iff.mpr ⟨x, ha⟩) fun _ =>
      hdigit, readLegacyOctal_eq ha _ hmore]
    simp [natOfDigits, digitValue_of_isDigit ha, digitValue_of_isDigit hb, Nat.mul_comm]
  | @octalTriple a b c x y z _ ha hb hc hx =>
    refine ⟨[a, b, c], rfl, ?_⟩
    have hdigit : (b :: c :: after).head?.any isAsciiDigit = true :=
      isAsciiDigit_iff.mpr ⟨y, hb.mono (by decide)⟩
    have hmore : ((b :: c :: after).take (if x ≤ 3 then 2 else 1)).takeWhile
      isOctalDigit = [b, c] := by
      rw [if_pos hx]
      simp [isOctalDigit_iff.mpr ⟨y, hb⟩, isOctalDigit_iff.mpr ⟨z, hc⟩]
    rw [readEscape_octal (isOctalDigit_iff.mpr ⟨x, ha⟩) fun _ =>
      hdigit, readLegacyOctal_eq ha _ hmore]
    have hvalue : natOfDigits 8 [a, b, c] = 64 * x + 8 * y + z := by
      simp only [natOfDigits, List.foldl_cons, List.foldl_nil, digitValue_of_isDigit ha,
        digitValue_of_isDigit hb, digitValue_of_isDigit hc]
      omega
    rw [hvalue]
    rfl
  | @nonOctal c _ hc =>
    refine ⟨[c], rfl, ?_⟩
    rcases hc with rfl | rfl <;> rfl

theorem exists_isEscape_octal (ha : IsDigit 8 a x)
    (hzero : a = '0' → rest.head?.any isAsciiDigit = true) :
    ∃ e after, IsEscape (a :: rest) e after := by
  by_cases hnext : StartsDigit 8 rest
  · obtain ⟨b, hhead, y, hb⟩ := hnext
    obtain ⟨rest, rfl⟩ := List.head?_eq_some_iff.mp hhead
    by_cases hlast : x ≤ 3 ∧ StartsDigit 8 rest
    · obtain ⟨hx, c, hhead, z, hc⟩ := hlast
      obtain ⟨rest, rfl⟩ := List.head?_eq_some_iff.mp hhead
      exact ⟨_, _, .octalTriple ha hb hc hx⟩
    · exact ⟨_, _, .octalPair ha hb fun hx hstarts => hlast ⟨hx, hstarts⟩⟩
  · by_cases hx : x = 0
    · have ha : a = '0' := by
        subst hx
        rcases ha.2 with rfl | rfl <;> rfl
      have hdigit := hzero ha
      subst ha
      refine ⟨_, _, .octalZero ?_⟩
      obtain ⟨c, hhead, hc⟩ := (Option.any_eq_true _ _).mp hdigit
      have hnot : isOctalDigit c = false := by simpa [startsDigit_eight, hhead] using hnext
      have hdigits := mem_of_isAsciiDigit hc
      simp only [List.mem_cons, List.not_mem_nil, or_false] at hdigits
      rw [hhead]
      rcases hdigits with rfl | rfl | rfl | rfl | rfl | rfl | rfl | rfl | rfl | rfl
      all_goals first | exact .inl rfl | exact .inr rfl | cases hnot
    · exact ⟨_, _, .octal ha (Nat.pos_of_ne_zero hx) hnext⟩

theorem exists_isEscape_hex {found : Escape × Nat} (h : readEscape ('x' :: rest) = .ok found) :
    ∃ e after, IsEscape ('x' :: rest) e after := by
  rcases rest with - | ⟨a, - | ⟨b, rest⟩⟩
  · cases h
  · cases h
  · rw [readEscape_hex] at h
    split at h
    · rename_i high low ha hb
      exact ⟨_, _, .hex (isDigit_of_hexValue? ha) (isDigit_of_hexValue? hb)⟩
    · cases h

theorem exists_isEscape_unicode {found : Escape × Nat} (h : readEscape ('u' :: rest) = .ok found) :
    ∃ e after, IsEscape ('u' :: rest) e after := by
  rw [readEscape_unicode] at h
  split at h
  · rename_i code length hcode
    obtain ⟨spelled, after, first, rfl, hspells, -⟩ := spells_of_readCodePoint hcode
    exact ⟨_, _, .unicode hspells⟩
  · cases h

/-- What is read as an escape is one. -/
theorem exists_isEscape {found : Escape × Nat} (h : readEscape text = .ok found) :
    ∃ e after, IsEscape text e after := by
  cases text with
  | nil => cases h
  | cons c rest =>
    by_cases hline : isLineTerminator c = true
    · by_cases hpair : c = '\r' ∧ rest.head? = some '\n'
      · obtain ⟨rfl, hhead⟩ := hpair
        obtain ⟨rest, rfl⟩ := List.head?_eq_some_iff.mp hhead
        exact ⟨_, _, .lineBreakPair⟩
      · exact ⟨_, _, .lineBreak hline fun hc hhead => hpair ⟨hc, hhead⟩⟩
    have hline := Bool.eq_false_iff.mpr hline
    by_cases hstarts : startsEscape c = true
    · simp only [startsEscape, Bool.or_eq_true, List.any_eq_true, beq_iff_eq] at hstarts
      rcases hstarts with ((⟨⟨_, d⟩, hsingle, rfl⟩ | hdigit) | rfl) | rfl
      · exact ⟨_, _, .single hsingle⟩
      · by_cases hnull : c = '0' ∧ ¬ StartsDigit 10 rest
        · obtain ⟨rfl, hnext⟩ := hnull
          exact ⟨_, _, .null hnext⟩
        · by_cases hoctal : isOctalDigit c = true
          · obtain ⟨x, hx⟩ := isOctalDigit_iff.mp hoctal
            refine exists_isEscape_octal hx fun hc => ?_
            rw [← startsDigit_ten]
            exact Classical.not_not.mp fun hnext => hnull ⟨hc, hnext⟩
          · have hdigits := mem_of_isAsciiDigit hdigit
            simp only [List.mem_cons, List.not_mem_nil, or_false] at hdigits
            refine ⟨_, _, .nonOctal ?_⟩
            rcases hdigits with rfl | rfl | rfl | rfl | rfl | rfl | rfl | rfl | rfl | rfl
            all_goals first | exact .inl rfl | exact .inr rfl | exact absurd rfl hoctal
      · exact exists_isEscape_hex h
      · exact exists_isEscape_unicode h
    · exact ⟨_, _, .other (Bool.eq_false_iff.mpr hstarts) hline⟩

end Escapes

end EcmaSyntax.Lexer
