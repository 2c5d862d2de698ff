import EcmaSyntax.Proofs.Scanner.Words
import EcmaSyntax.Scanner.Quoted
import Mathlib.Algebra.Group.Nat.Defs

/-!
Escapes in strings and templates on bytes. The digits of an octal escape and of a hexadecimal one
are all of ASCII, and so is every character that a template goes back over.
-/

namespace EcmaSyntax.Scanner

open EcmaSyntax.Diagnostic EcmaSyntax.Lexer EcmaSyntax.Number EcmaSyntax.Text EcmaSyntax.Unicode

variable {s s' : State} {before rest : List Char} {c : Char}

section Values

theorem scalarOrReplacement_of_lt {n : Nat} (h : n < 0xD800) :
    scalarOrReplacement n = Char.ofNat n := by
  have hscalar : (isSurrogate n || decide (n > 0x10FFFF)) = false := by
    simp only [isSurrogate, Bool.or_eq_false_iff, Bool.and_eq_false_iff, decide_eq_false_iff_not]
    omega
  unfold scalarOrReplacement scalar?
  rw [hscalar]
  rfl

theorem hexValue?_lt {d : Nat} (h : hexValue? c = some d) : d < 16 := by
  unfold hexValue? at h
  split at h
  · rename_i hdigit
    have hle : c.toNat ≤ 57 := of_decide_eq_true (Bool.and_eq_true _ _ ▸ hdigit).2
    rw [← Option.some.inj h]
    change c.toNat - 48 < 16
    omega
  · split at h
    · rename_i hlower
      have hle : c.toNat ≤ 102 := of_decide_eq_true (Bool.and_eq_true _ _ ▸ hlower).2
      rw [← Option.some.inj h]
      change c.toNat - 97 + 10 < 16
      omega
    · split at h
      · rename_i hupper
        have hle : c.toNat ≤ 70 := of_decide_eq_true (Bool.and_eq_true _ _ ▸ hupper).2
        rw [← Option.some.inj h]
        change c.toNat - 65 + 10 < 16
        omega
      · cases h

theorem isAscii_of_isOctalDigit (h : isOctalDigit c = true) : isAscii c = true := by
  cases hc : isAscii c with
  | true => rfl
  | false =>
    rw [isOctalDigit, isDigitIn_wide hc] at h
    cases h

theorem digitValue_of_isOctalDigit (h : isOctalDigit c = true) : digitValue c < 8 := by
  have hrange : ('0' ≤ c && c ≤ '7') = true := h
  rw [Bool.and_eq_true, decide_eq_true_eq, decide_eq_true_eq] at hrange
  have hle : c.toNat ≤ 55 := hrange.2
  have hnine : c ≤ '9' := by
    change c.toNat ≤ 57
    omega
  rw [digitValue, if_pos hnine]
  change c.toNat - 48 < 8
  omega

/-- The number that octal digits spell after a number. -/
def octalFrom (value : Nat) (digits : List Char) : Nat :=
  digits.foldl (fun acc c => acc * 8 + digitValue c) value

theorem octalFrom_lt {digits : List Char} (h : ∀ c ∈ digits, isOctalDigit c = true) (value : Nat) :
    octalFrom value digits < (value + 1) * 8 ^ digits.length := by
  induction digits generalizing value with
  | nil => simp [octalFrom]
  | cons c digits ih =>
    rw [List.forall_mem_cons] at h
    have hdigit := digitValue_of_isOctalDigit h.1
    have hle : value * 8 + digitValue c + 1 ≤ (value + 1) * 8 := by omega
    refine Nat.lt_of_lt_of_le (ih h.2 (value * 8 + digitValue c)) ?_
    rw [List.length_cons, Nat.pow_succ, Nat.mul_comm (8 ^ digits.length), ← Nat.mul_assoc]
    exact Nat.mul_le_mul_right _ hle

/-- Digits up to a number of them. -/
theorem scanOctalDigits_eq (h : At s before rest) (count value : Nat) :
    scanOctalDigits count value s =
      .ok (octalFrom value ((rest.take count).takeWhile isOctalDigit))
        (s.bump ((rest.take count).takeWhile isOctalDigit).length) := by
  induction count generalizing s before rest value with
  | zero => rfl
  | succ count ih =>
    have hbyte : isOctalDigit (s.byteAt 0) = rest.head?.any isOctalDigit := by
      rw [h.byteAt, any_ahead (p := isOctalDigit) (by decide) fun _ hc => isDigitIn_wide hc 8]
    unfold scanOctalDigits
    refine (bind_of_ok rfl).trans ?_
    rw [hbyte]
    cases rest with
    | nil => rfl
    | cons c rest =>
      rw [List.head?_cons, Option.any_some, List.take_succ_cons]
      cases hc : isOctalDigit c with
      | true =>
        have hascii := isAscii_of_isOctalDigit hc
        have hdigit : s.byteAt 0 = c := by
          rw [h.byteAt, ahead, byteOf?_cons_zero hascii, Option.getD_some]
        have hrest := ih (h.bump_one hascii) (value * 8 + digitValue c)
        rw [if_pos rfl, hdigit, List.takeWhile_cons_of_pos hc, List.length_cons]
        refine (bind_of_ok rfl).trans (hrest.trans ?_)
        simp only [State.bump, Nat.add_assoc, Nat.add_comm 1]
        rfl
      | false =>
        rw [List.takeWhile_cons_of_neg (by simp [hc])]
        rfl

end Values

section Readings

/-- A letter that stands for another character. -/
theorem readEscape_simple {meaning : Char} (h : simpleEscapes.lookup c = some meaning) :
    readEscape (c :: rest) = .ok (.char meaning, 1) := by
  obtain ⟨first, more, hsplit, -⟩ := List.lookup_eq_some_iff.mp h
  have hmem : (c, meaning) ∈ simpleEscapes := by
    rw [hsplit]
    exact List.mem_append_right _ (.head _)
  simp only [simpleEscapes, List.mem_cons, Prod.mk.injEq, List.not_mem_nil, or_false] at hmem
  rcases hmem with ⟨rfl, rfl⟩ | ⟨rfl, rfl⟩ | ⟨rfl, rfl⟩ | ⟨rfl, rfl⟩ | ⟨rfl, rfl⟩ | ⟨rfl, rfl⟩ <;>
    rfl

theorem readEscape_notSimple (rest : List Char) (h : simpleEscapes.lookup c = none) :
    readEscape (c :: rest) =
    if c == '\r' then .ok (.continuation, if rest.head? == some '\n' then 2 else 1)
    else if isLineTerminator c then .ok (.continuation, 1)
    else if c == '0' && !(rest.head?.any isAsciiDigit) then .ok (.char '\x00', 1)
    else if isOctalDigit c then .ok (readLegacyOctal c rest)
    else if c == '8' || c == '9' then .ok (.legacy c, 1)
    else if c == 'x' then readEscape ('x' :: rest)
    else if c == 'u' then readEscape ('u' :: rest)
    else .ok (.char c, 1) := by
  rw [List.lookup_eq_none_iff] at h
  simp only [simpleEscapes, List.forall_mem_cons, List.not_mem_nil, false_imp_iff, implies_true,
    and_true, bne_iff_ne, ne_eq] at h
  obtain ⟨hn, ht, hr, hb, hf, hv⟩ := h
  simp only [readEscape, beq_iff_eq, hn, ht, hr, hb, hf, hv, if_false]
  rfl

theorem readEscape_hexadecimal (rest : List Char) : readEscape ('x' :: rest) =
    match rest.head?.bind hexValue?, (rest.drop 1).head?.bind hexValue? with
      | some high, some low => .ok (.char (Char.ofNat (high * 16 + low)), 3)
      | _, _ => .error (.malformed .invalidHexEscape) := by
  match rest with
  | [] => rfl
  | [a] =>
    rw [List.head?_cons, Option.bind_some]
    cases hexValue? a <;> rfl
  | a :: b :: rest => rfl

theorem readEscape_codePoint (rest : List Char) : readEscape ('u' :: rest) =
    match readCodePoint rest with
      | .ok (code, n) => .ok (.codePoint code, n + 1)
      | .error cause => .error (.malformed cause) := rfl

/-- An escape ends in the text. -/
theorem readEscape_le {body : List Char} {e : Escape} {n : Nat} (h : readEscape body = .ok (e, n)) :
    1 ≤ n ∧ n ≤ body.length := by
  cases body with
  | nil => cases h
  | cons c rest =>
    rw [List.length_cons]
    cases hlookup : simpleEscapes.lookup c with
    | some meaning =>
      rw [readEscape_simple hlookup] at h
      cases h
      omega
    | none =>
      rw [readEscape_notSimple rest hlookup] at h
      split at h
      · cases h
        split
        · rename_i hfeed
          obtain ⟨tail, rfl⟩ := List.head?_eq_some_iff.mp (beq_iff_eq.mp hfeed)
          rw [List.length_cons]
          omega
        · omega
      · split at h
        · cases h
          omega
        · split at h
          · cases h
            omega
          · split at h
            · cases h
              have hdigits : (rest.take (if c ≤ '3' then 2 else 1)).takeWhile isOctalDigit <+: _ :=
                List.takeWhile_prefix isOctalDigit
              have hle := hdigits.length_le
              rw [List.length_take] at hle
              omega
            · split at h
              · cases h
                omega
              · split at h
                · rw [readEscape_hexadecimal] at h
                  split at h
                  · rename_i hlow
                    obtain ⟨b, hb, -⟩ := Option.bind_eq_some_iff.mp hlow
                    obtain ⟨tail, htail⟩ := List.head?_eq_some_iff.mp hb
                    have hlength := congrArg List.length htail
                    rw [List.length_drop, List.length_cons] at hlength
                    cases h
                    omega
                  · cases h
                · split at h
                  · cases hpoint : readCodePoint rest with
                    | error cause =>
                      rw [readEscape_codePoint, hpoint] at h
                      cases h
                    | ok found =>
                      obtain ⟨code, n⟩ := found
                      have hle := readCodePoint_le hpoint
                      rw [readEscape_codePoint, hpoint] at h
                      cases h
                      omega
                  · cases h
                    omega

/-- The escape whose backslash is at an index, and its characters with the backslash. A template
takes one that is malformed or octal as the backslash with the character after it. -/
def readQuotedEscape (inTemplate : Bool) (index : Nat) (body : List Char) :
    Except EscapeFault (Piece × Nat) :=
  match readEscape body with
  | .error .unterminated => .error .unterminated
  | .error (.malformed cause) =>
    if inTemplate then .ok (.invalid index, 2) else .error (.malformed cause)
  | .ok (.legacy c, n) =>
    if inTemplate then .ok (.invalid index, 2) else .ok (.escape (.legacy c), n + 1)
  | .ok (e, n) => .ok (.escape e, n + 1)

theorem readQuotedEscape_ok {body : List Char} {e : Escape} {n : Nat} (inTemplate : Bool)
    (index : Nat) (h : readEscape body = .ok (e, n))
    (hlegacy : (Piece.escape e).isLegacyEscape = false) :
    readQuotedEscape inTemplate index body = .ok (.escape e, n + 1) := by
  unfold readQuotedEscape
  rw [h]
  cases e with
  | legacy c => cases hlegacy
  | char | codePoint | continuation => rfl

theorem readQuotedEscape_legacy {body : List Char} {n : Nat} (inTemplate : Bool) (index : Nat)
    (h : readEscape body = .ok (.legacy c, n)) : readQuotedEscape inTemplate index body =
      if inTemplate then .ok (.invalid index, 2) else .ok (.escape (.legacy c), n + 1) := by
  unfold readQuotedEscape
  rw [h]

theorem readQuotedEscape_malformed {body : List Char} {cause : Cause} (inTemplate : Bool)
    (index : Nat) (h : readEscape body = .error (.malformed cause)) :
    readQuotedEscape inTemplate index body =
      if inTemplate then .ok (.invalid index, 2) else .error (.malformed cause) := by
  unfold readQuotedEscape
  rw [h]

theorem readQuotedEscape_le {inTemplate : Bool} {index n : Nat} {body : List Char} {piece : Piece}
    (h : readQuotedEscape inTemplate index body = .ok (piece, n)) :
    2 ≤ n ∧ n ≤ body.length + 1 := by
  have hnil : readEscape body ≠ .error .unterminated → 1 ≤ body.length := by
    intro hread
    cases body with
    | nil => exact absurd rfl hread
    | cons c rest => exact Nat.succ_pos _
  unfold readQuotedEscape at h
  split at h
  · cases h
  · rename_i hread
    rw [hread] at hnil
    have hlength := hnil nofun
    split at h
    · cases h
      omega
    · cases h
  · rename_i hread
    have hle := readEscape_le hread
    split at h
    · cases h
      omega
    · cases h
      omega
  · rename_i hread
    have hle := readEscape_le hread
    cases h
    omega

end Readings

section Steps

/-- What the pieces of a token tell about it. -/
structure Notes where
  flags : TokenFlags
  invalidEscape : Nat

def State.notes (s : State) : Notes := ⟨s.flags, s.invalidEscape⟩

/-- A legacy escape is noted, and so is the place of the first escape without value. -/
def Notes.add (offset : Nat → Nat) (notes : Notes) : Piece → Notes
  | .escape (.legacy _) => { notes with flags := { notes.flags with octalEscape := true } }
  | .invalid index =>
    ⟨{ notes.flags with invalidTemplateEscape := true },
      if notes.flags.invalidTemplateEscape then notes.invalidEscape else offset index⟩
  | _ => notes

def State.noting (s : State) (notes : Notes) : State :=
  { s with flags := notes.flags, invalidEscape := notes.invalidEscape }

/-- The state after a piece of a token, at the start of a text. -/
def State.afterPiece (offset : Nat → Nat) (s : State) (rest : List Char) (piece : Piece) (n : Nat) :
    State :=
  ((s.past rest n).push piece.char?.toList).noting (s.notes.add offset piece)

/-- What a step leaves that has failed in an escape. -/
def FailsInQuotes (s : State) (inTemplate : Bool) (found : EscapeFault) : Stop → State → Prop :=
  match found with
  | .unterminated => FailsAt s s.tokenStart
      (if inTemplate then .unterminatedTemplateLiteral else .unterminatedStringLiteral)
  | .malformed cause => FailsAt s s.pos cause

variable {offset : Nat → Nat} {index : Nat} {body : List Char}

theorem noteInvalidEscape_eq (rest : List Char) (hoffset : offset index = s.pos) :
    noteInvalidEscape s.pos (s.past rest 2) =
      .ok () (s.afterPiece offset rest (.invalid index) 2) := by
  have hbuffer : s.buffer ++ [] = s.buffer := List.append_nil _
  change EStateM.Result.ok () { s.past rest 2 with
    invalidEscape := if s.flags.invalidTemplateEscape then s.invalidEscape else s.pos
    flags := { s.flags with invalidTemplateEscape := true } } = .ok () { s.past rest 2 with
      buffer := s.buffer ++ []
      invalidEscape := if s.flags.invalidTemplateEscape then s.invalidEscape else offset index
      flags := { s.flags with invalidTemplateEscape := true } }
  rw [hbuffer, hoffset]
  rfl

theorem past_two (s : State) (c : Char) (rest : List Char) :
    s.past ('\\' :: c :: rest) 2 = (s.bump 1).bump c.utf8Size := by
  simp only [State.past, List.take_succ_cons, List.take_zero, byteLength, State.bump, Nat.add_zero,
    Nat.add_assoc]
  rfl

/-- The escape `c`, whose value is in the buffer. -/
theorem afterPiece_two {e : Escape} (s : State) (c : Char) (rest : List Char)
    (hlegacy : (Piece.escape e).isLegacyEscape = false) :
    s.afterPiece offset ('\\' :: c :: rest) (.escape e) 2 =
      ((s.bump 1).bump c.utf8Size).push e.char?.toList := by
  rw [State.afterPiece, past_two]
  cases e with
  | legacy d => cases hlegacy
  | char | codePoint | continuation => rfl

/-- An octal escape, or an escaped eight or nine. -/
theorem scanLegacyEscape_follows (inTemplate : Bool) (h : At s before ('\\' :: c :: rest))
    (hoffset : offset index = s.pos) (hread : readEscape (c :: rest) =
      .ok (if isOctalDigit c then readLegacyOctal c rest else (.legacy c, 1))) :
    Follows (FailsInQuotes s inTemplate) (readQuotedEscape inTemplate index (c :: rest))
      (scanLegacyEscape inTemplate s.pos c)
      (fun result _ s' => s' = s.afterPiece offset ('\\' :: c :: rest) result.1 result.2)
      (s.past ('\\' :: c :: rest) 2) := by
  have hrest : At (s.past ('\\' :: c :: rest) 2) (before ++ ['\\', c]) rest := h.past 2
  cases hc : isOctalDigit c with
  | true =>
    rw [hc, if_pos rfl, readLegacyOctal] at hread
    rw [readQuotedEscape_legacy inTemplate index hread]
    unfold scanLegacyEscape
    cases inTemplate with
    | true => exact .of_ok rfl (noteInvalidEscape_eq _ hoffset) rfl
    | false =>
      have hnoted : At { s.past ('\\' :: c :: rest) 2 with
          flags := { s.flags with octalEscape := true } } (before ++ ['\\', c]) rest :=
        hrest.of_eq rfl rfl
      have hdigits := scanOctalDigits_eq hnoted (if c ≤ '3' then 2 else 1) (digitValue c)
      have hoctal : ∀ d ∈ (rest.take (if c ≤ '3' then 2 else 1)).takeWhile isOctalDigit,
          isOctalDigit d = true := fun d hd => List.all_eq_true.mp List.all_takeWhile d hd
      have hinitial : (rest.take (if c ≤ '3' then 2 else 1)).takeWhile isOctalDigit <+: _ :=
        List.takeWhile_prefix isOctalDigit
      generalize (rest.take (if c ≤ '3' then 2 else 1)).takeWhile isOctalDigit = more
        at hdigits hoctal hinitial ⊢
      have hcount : more.length ≤ 2 ∧ more.length ≤ rest.length := by
        have hle := hinitial.length_le
        rw [List.length_take] at hle
        split at hle <;> omega
      have hvalue : natOfDigits 8 (c :: more) = octalFrom (digitValue c) more := by
        rw [natOfDigits, List.foldl_cons, Nat.zero_mul, Nat.zero_add, octalFrom]
      have hlt : octalFrom (digitValue c) more < 0xD800 := by
        have hbound := octalFrom_lt hoctal (digitValue c)
        have hfirst := digitValue_of_isOctalDigit hc
        have hpow : 8 ^ more.length ≤ 8 ^ 2 := Nat.pow_le_pow_right (by decide) hcount.1
        have hmul : (digitValue c + 1) * 8 ^ more.length ≤ 8 * 8 ^ 2 := Nat.mul_le_mul hfirst hpow
        omega
      refine .run rfl ?_
      rw [if_pos hc]
      refine .run hdigits (.of_ok rfl rfl ?_)
      have hmore : rest.take more.length = more :=
        (List.prefix_iff_eq_take.mp (hinitial.trans (List.take_prefix _ _))).symm
      have hpast : s.past ('\\' :: c :: rest) (1 + more.length + 1) =
          (s.past ('\\' :: c :: rest) 2).bump more.length := by
        rw [show 1 + more.length + 1 = 2 + more.length by omega, ← State.past_past]
        refine State.past_of_isAscii _ (fun d hd => ?_) hcount.2
        have hd' : d ∈ rest.take more.length := hd
        rw [hmore] at hd'
        exact isAscii_of_isOctalDigit (hoctal d hd')
      rw [hvalue, scalarOrReplacement_of_lt hlt, State.afterPiece, hpast]
      rfl
  | false =>
    rw [hc] at hread
    rw [readQuotedEscape_legacy inTemplate index hread]
    unfold scanLegacyEscape
    cases inTemplate with
    | true => exact .of_ok rfl (noteInvalidEscape_eq _ hoffset) rfl
    | false =>
      refine .run rfl ?_
      rw [hc]
      exact .of_ok rfl rfl rfl

/-- Two hexadecimal digits. -/
theorem scanHexEscape_follows (inTemplate : Bool) (h : At s before ('\\' :: 'x' :: rest))
    (hoffset : offset index = s.pos) :
    Follows (FailsInQuotes s inTemplate) (readQuotedEscape inTemplate index ('x' :: rest))
      (scanHexEscape inTemplate s.pos)
      (fun result _ s' => s' = s.afterPiece offset ('\\' :: 'x' :: rest) result.1 result.2)
      (s.past ('\\' :: 'x' :: rest) 2) := by
  have hread := readEscape_hexadecimal rest
  have hrest : At (s.past ('\\' :: 'x' :: rest) 2) (before ++ ['\\', 'x']) rest := h.past 2
  unfold scanHexEscape
  refine .run (hrest.byteAt_eq 0) (.run (hrest.byteAt_eq 1) ?_)
  rw [hexValue?_ahead]
  have hmissing : readEscape ('x' :: rest) = .error (.malformed .invalidHexEscape) →
      Follows (FailsInQuotes s inTemplate) (readQuotedEscape inTemplate index ('x' :: rest))
        (if inTemplate then noteInvalidEscape s.pos else fail .invalidHexEscape s.pos)
        (fun result _ s' => s' = s.afterPiece offset ('\\' :: 'x' :: rest) result.1 result.2)
        (s.past ('\\' :: 'x' :: rest) 2) := by
    intro hmalformed
    rw [readQuotedEscape_malformed inTemplate index hmalformed]
    cases inTemplate with
    | true => exact .of_ok rfl (noteInvalidEscape_eq _ hoffset) rfl
    | false => exact .fail rfl h.pos_mod ⟨rfl, rfl, rfl⟩
  cases hhigh : rest.head?.bind hexValue? with
  | none =>
    rw [hhigh] at hread
    exact hmissing hread
  | some high =>
    obtain ⟨a, ha, hvalue⟩ := Option.bind_eq_some_iff.mp hhigh
    obtain ⟨tail, rfl⟩ := List.head?_eq_some_iff.mp ha
    have hdigit : isHexDigit a = true := by rw [isHexDigit, hvalue, Option.isSome_some]
    have hascii := isAscii_of_isHexDigit hdigit
    rw [ahead_cons_succ hascii, hexValue?_ahead]
    rw [hhigh, List.drop_succ_cons, List.drop_zero] at hread
    cases hlow : tail.head?.bind hexValue? with
    | none =>
      rw [hlow] at hread
      exact hmissing hread
    | some low =>
      obtain ⟨b, hb, hvalue'⟩ := Option.bind_eq_some_iff.mp hlow
      obtain ⟨tail, rfl⟩ := List.head?_eq_some_iff.mp hb
      have hdigit' : isHexDigit b = true := by rw [isHexDigit, hvalue', Option.isSome_some]
      rw [hlow] at hread
      have hlt : high * 16 + low < 0xD800 := by
        have hhigh := hexValue?_lt hvalue
        have hlow := hexValue?_lt hvalue'
        omega
      have hpast : s.past ('\\' :: 'x' :: a :: b :: tail) 4 =
          (s.past ('\\' :: 'x' :: a :: b :: tail) 2).bump 2 := by
        rw [show 4 = 2 + 2 from rfl, ← State.past_past]
        refine State.past_of_isAscii _ (List.forall_mem_cons.mpr ⟨hascii, ?_⟩) (Nat.le_add_left _ _)
        exact List.forall_mem_cons.mpr ⟨isAscii_of_isHexDigit hdigit', List.forall_mem_nil _⟩
      rw [readQuotedEscape_ok inTemplate index hread rfl]
      refine .of_ok rfl rfl ?_
      rw [scalarOrReplacement_of_lt hlt, State.afterPiece, hpast]
      rfl

/-- A code point after `u`. -/
theorem scanUnicodeEscape_follows (inTemplate : Bool) (h : At s before ('\\' :: 'u' :: rest))
    (hoffset : offset index = s.pos) :
    Follows (FailsInQuotes s inTemplate) (readQuotedEscape inTemplate index ('u' :: rest))
      (scanUnicodeEscape inTemplate s.pos)
      (fun result _ s' => s' = s.afterPiece offset ('\\' :: 'u' :: rest) result.1 result.2)
      (s.past ('\\' :: 'u' :: rest) 2) := by
  have hrest : At (s.past ('\\' :: 'u' :: rest) 2) (before ++ ['\\', 'u']) rest := h.past 2
  have hpoint := scanCodePoint_follows s.pos hrest
  have hread := readEscape_codePoint rest
  unfold scanUnicodeEscape
  refine .run rfl ?_
  cases hfound : readCodePoint rest with
  | error cause =>
    rw [hfound] at hpoint hread
    obtain ⟨stop, s', hrun, rfl, pos, rfl⟩ := hpoint.error
    have hattempt : attempt (scanCodePoint s.pos) (s.past ('\\' :: 'u' :: rest) 2) =
        .ok (.error ⟨cause, s.pos % UInt32.size⟩) ((s.past ('\\' :: 'u' :: rest) 2).goTo pos) := by
      unfold attempt
      rw [hrun]
    rw [readQuotedEscape_malformed inTemplate index hread]
    refine .run hattempt ?_
    cases inTemplate with
    | true => exact .run rfl (.of_ok rfl (noteInvalidEscape_eq _ hoffset) rfl)
    | false => exact .of_error rfl rfl ⟨by rw [h.pos_mod], rfl, rfl⟩
  | ok found =>
    obtain ⟨code, n⟩ := found
    rw [hfound] at hpoint hread
    obtain ⟨code', s', hrun, hcode, hs'⟩ := hpoint.ok
    obtain rfl : code' = code := hcode
    have hattempt : attempt (scanCodePoint s.pos) (s.past ('\\' :: 'u' :: rest) 2) =
        .ok (.ok code') s' := by
      unfold attempt
      rw [hrun]
    have hpast : s' = s.past ('\\' :: 'u' :: rest) (n + 1 + 1) := by
      rw [hs', Nat.add_comm n 1, Nat.add_right_comm, ← State.past_past]
      rfl
    rw [readQuotedEscape_ok inTemplate index hread rfl]
    refine .run hattempt (.of_ok rfl rfl ?_)
    rw [hpast]
    rfl

theorem afterPiece_continuation (s : State) (rest : List Char) (n : Nat) :
    s.afterPiece offset rest (.escape .continuation) n = s.past rest n := by
  have hbuffer : s.buffer ++ [] = s.buffer := List.append_nil _
  change { s.past rest n with buffer := s.buffer ++ [] } = s.past rest n
  rw [hbuffer]
  rfl

/-- The escape after a backslash in a string or template. -/
theorem scanEscape_follows (inTemplate : Bool) (index : Nat) (h : At s before ('\\' :: body))
    (hoffset : offset index = s.pos) (hstart : s.tokenStart ≤ s.pos) :
    Follows (FailsInQuotes s inTemplate) (readQuotedEscape inTemplate index body)
      (scanEscape inTemplate)
      (fun result _ s' => s' = s.afterPiece offset ('\\' :: body) result.1 result.2) s := by
  have hbody := h.bump_one (by decide)
  unfold scanEscape
  refine .run rfl (.run rfl (.run hbody.currentChar ?_))
  cases body with
  | nil =>
    have hmod : s.tokenStart % UInt32.size = s.tokenStart :=
      h.mod_eq (Nat.le_trans hstart (h.pos ▸ Nat.le_add_right _ _))
    exact .run rfl (.fail rfl hmod ⟨rfl, rfl, rfl⟩)
  | cons c rest =>
    have hrest : At (s.past ('\\' :: c :: rest) 2) (before ++ ['\\', c]) rest := h.past 2
    have hpush : ∀ d, (s.past ('\\' :: c :: rest) 2).push [d] =
        s.afterPiece offset ('\\' :: c :: rest) (.escape (.char d)) 2 := fun d => by
      rw [afterPiece_two (e := .char d) s c rest rfl, past_two]
      rfl
    have hbump : bump c.utf8Size (s.bump 1) = .ok () (s.past ('\\' :: c :: rest) 2) := by
      rw [past_two]
      rfl
    refine .run hbump ?_
    cases hlookup : simpleEscapes.lookup c with
    | some meaning =>
      rw [readQuotedEscape_ok inTemplate index (readEscape_simple hlookup) rfl]
      exact .of_ok rfl rfl (hpush meaning)
    | none =>
      have hread := readEscape_notSimple rest hlookup
      dsimp only
      split
      · rename_i hc
        rw [if_pos hc] at hread
        rw [readQuotedEscape_ok inTemplate index hread rfl]
        refine .run (hrest.byteAt_eq 0) ?_
        rw [ahead_beq (by decide) (by decide)]
        split
        · rename_i hfeed
          obtain ⟨tail, rfl⟩ := List.head?_eq_some_iff.mp (beq_iff_eq.mp hfeed)
          refine .of_ok rfl rfl ?_
          rw [afterPiece_continuation, ← State.past_past s _ 2 1]
          rfl
        · exact .of_ok rfl rfl (afterPiece_continuation s _ 2).symm
      · rename_i hc
        rw [if_neg hc] at hread
        split
        · rename_i hline
          rw [if_pos hline] at hread
          rw [readQuotedEscape_ok inTemplate index hread rfl]
          exact .of_ok rfl rfl (afterPiece_continuation s _ 2).symm
        · rename_i hline
          rw [if_neg hline] at hread
          refine .run (hrest.byteAt_eq 0) ?_
          rw [any_ahead (by decide) fun _ => isAsciiDigit_wide]
          split
          · rename_i hzero
            rw [if_pos hzero] at hread
            rw [readQuotedEscape_ok inTemplate index hread rfl]
            exact .of_ok rfl rfl (hpush _)
          · rename_i hzero
            rw [if_neg hzero] at hread
            split
            · rename_i hdigit
              refine scanLegacyEscape_follows inTemplate h hoffset (hread.trans ?_)
              cases hoctal : isOctalDigit c with
              | true => rfl
              | false =>
                rw [hoctal, Bool.false_or] at hdigit
                rw [if_neg Bool.false_ne_true, if_pos hdigit, if_neg Bool.false_ne_true]
            · rename_i hdigit
              rw [Bool.not_eq_true, Bool.or_assoc, Bool.or_eq_false_iff] at hdigit
              rw [if_neg (Bool.eq_false_iff.mp hdigit.1), if_neg (Bool.eq_false_iff.mp hdigit.2)]
                at hread
              split
              · rename_i hx
                obtain rfl : c = 'x' := beq_iff_eq.mp hx
                exact scanHexEscape_follows inTemplate h hoffset
              · rename_i hx
                rw [if_neg hx] at hread
                split
                · rename_i hu
                  obtain rfl : c = 'u' := beq_iff_eq.mp hu
                  exact scanUnicodeEscape_follows inTemplate h hoffset
                · rename_i hu
                  rw [if_neg hu] at hread
                  rw [readQuotedEscape_ok inTemplate index hread rfl]
                  exact .of_ok rfl rfl (hpush c)

end Steps

end EcmaSyntax.Scanner
