import EcmaSyntax.Proofs.Scanner.Place
import EcmaSyntax.Scanner.Word

/-!
Escaped code points on bytes. Their digits are all of ASCII, so that as many bytes are passed as
characters. A number that does not fit into 32 bits is beyond the greatest code point either way.
-/

namespace EcmaSyntax.Scanner

open EcmaSyntax.Diagnostic EcmaSyntax.Lexer EcmaSyntax.Text EcmaSyntax.Unicode

variable {s : State} {before rest : List Char}

section CodeUnits

theorem saturate_step (n d : Nat) :
    saturate (saturate (saturate n * 16) + d) = saturate (n * 16 + d) := by
  unfold saturate
  omega

theorem isAscii_of_isHexDigit {c : Char} (h : isHexDigit c = true) : isAscii c = true := by
  cases hc : isAscii c with
  | true => rfl
  | false =>
    rw [isHexDigit, hexValue?_wide hc] at h
    cases h

theorem isAscii_of_takeWhile_isHexDigit (text : List Char) :
    ∀ c ∈ text.takeWhile isHexDigit, isAscii c = true :=
  fun c hc => isAscii_of_isHexDigit (List.all_eq_true.mp List.all_takeWhile c hc)

/-- The number that digits spell after a number. -/
def hexNumberFrom (value : Nat) (digits : List Char) : Nat :=
  digits.foldl (fun acc c => acc * 16 + (hexValue? c).getD 0) value

theorem hexValue?_ahead (text : List Char) : hexValue? (ahead text 0) = text.head?.bind hexValue? :=
  bind_ahead (by decide) (fun _ => hexValue?_wide) text

theorem scanHexRound_digit (h : At s before rest) {d : Nat}
    (hd : rest.head?.bind hexValue? = some d)
    (value count : Nat) : scanHexRound (value, count) s =
      .ok (.inl (saturate (saturate (value * 16) + d), count + 1)) (s.bump 1) := by
  unfold scanHexRound
  refine (bind_of_ok rfl).trans ?_
  rw [h.byteAt, hexValue?_ahead, hd]
  rfl

theorem scanHexRound_end (h : At s before rest) (hd : rest.head?.bind hexValue? = none)
    (value count : Nat) : scanHexRound (value, count) s = .ok (.inr (value, count)) s := by
  unfold scanHexRound
  refine (bind_of_ok rfl).trans ?_
  rw [h.byteAt, hexValue?_ahead, hd]
  rfl

/-- The digits in braces. -/
theorem rounds_scanHexRound (h : At s before rest) (fuel : Nat) (hfuel : byteLength rest < fuel)
    (value count : Nat) : rounds scanHexRound fuel (saturate value, count) s =
      .ok (saturate (hexNumberFrom value (rest.takeWhile isHexDigit)),
        count + (rest.takeWhile isHexDigit).length)
          (s.bump (rest.takeWhile isHexDigit).length) := by
  induction rest generalizing s before fuel value count with
  | nil =>
    obtain ⟨fuel, rfl⟩ := Nat.exists_eq_succ_of_ne_zero (Nat.ne_of_gt hfuel)
    exact rounds_inr (scanHexRound_end h rfl _ _)
  | cons c rest ih =>
    obtain ⟨fuel, rfl⟩ := Nat.exists_eq_succ_of_ne_zero (Nat.ne_zero_of_lt hfuel)
    cases hc : hexValue? c with
    | none =>
      have hnot : isHexDigit c = false := by rw [isHexDigit, hc, Option.isSome_none]
      rw [List.takeWhile_cons_of_neg (by simp [hnot])]
      exact rounds_inr (scanHexRound_end h hc _ _)
    | some d =>
      have hdigit : isHexDigit c = true := by rw [isHexDigit, hc, Option.isSome_some]
      have hascii := isAscii_of_isHexDigit hdigit
      rw [List.takeWhile_cons_of_pos hdigit, rounds_inl (scanHexRound_digit h hc _ _),
        saturate_step]
      rw [byteLength, utf8Size_of_isAscii hascii] at hfuel
      rw [ih (h.bump_one hascii) fuel (by omega), List.length_cons, hexNumberFrom, hexNumberFrom,
        List.foldl_cons, hc, Option.getD_some, Nat.add_right_comm count, Nat.add_assoc count]
      simp only [State.bump, Nat.add_assoc, Nat.add_comm 1]

/-- What a step leaves that has failed in an escape: nothing but the position has changed. -/
def FailsAtEscape (s : State) (escapePos : Nat) (cause : Cause) (stop : Stop) (s' : State) : Prop :=
  stop = .failure ⟨cause, escapePos % UInt32.size⟩ ∧ ∃ pos, s' = s.goTo pos

/-- What a step leaves that has read an escape of `length` characters. -/
def HasRead {α : Type} (s : State) (rest : List Char) (result : α × Nat) (a : α) (s' : State) :
    Prop :=
  a = result.1 ∧ s' = s.past rest result.2

/-- A number of digits, all of which are there. -/
theorem scanHexDigits_eq {digits : List Char} (escapePos : Nat) (h : At s before (digits ++ rest))
    (hdigits : digits.all isHexDigit = true) (value : Nat) :
    scanHexDigits escapePos digits.length value s =
      .ok (hexNumberFrom value digits) (s.bump digits.length) := by
  induction digits generalizing s before value with
  | nil => rfl
  | cons c digits ih =>
    rw [List.all_cons, Bool.and_eq_true] at hdigits
    obtain ⟨hdigit, hmore⟩ := hdigits
    obtain ⟨d, hd⟩ := Option.isSome_iff_exists.mp hdigit
    have hrest := ih (h.bump_one (isAscii_of_isHexDigit hdigit)) hmore (value * 16 + d)
    unfold scanHexDigits
    refine (bind_of_ok rfl).trans ?_
    rw [h.byteAt, hexValue?_ahead, List.cons_append, List.head?_cons, Option.bind_some, hd]
    refine (bind_of_ok rfl).trans (hrest.trans ?_)
    rw [hexNumberFrom, hexNumberFrom, List.foldl_cons, hd, Option.getD_some, List.length_cons]
    simp only [State.bump, Nat.add_assoc, Nat.add_comm 1]

/-- Some of the digits are missing. -/
theorem scanHexDigits_fails (escapePos : Nat) (h : At s before rest) {count : Nat}
    (hdigits : ((rest.take count).length == count && (rest.take count).all isHexDigit) = false)
    (value : Nat) : ∃ stop s', scanHexDigits escapePos count value s = .error stop s' ∧
      FailsAtEscape s escapePos .invalidUnicodeEscape stop s' := by
  induction count generalizing s before rest value with
  | zero => cases hdigits
  | succ count ih =>
    unfold scanHexDigits
    have hbyte : hexValue? (s.byteAt 0) = rest.head?.bind hexValue? := by
      rw [h.byteAt, hexValue?_ahead]
    cases hc : rest.head?.bind hexValue? with
    | none =>
      refine ⟨_, s, (bind_of_ok rfl).trans ?_, rfl, s.pos, rfl⟩
      rw [hbyte, hc]
      rfl
    | some d =>
      obtain ⟨c, hhead, hd⟩ := Option.bind_eq_some_iff.mp hc
      obtain ⟨rest, rfl⟩ := List.head?_eq_some_iff.mp hhead
      have hdigit : isHexDigit c = true := by rw [isHexDigit, hd, Option.isSome_some]
      have hmissing : ((rest.take count).length == count && (rest.take count).all isHexDigit) =
          false := by
        simpa [List.take_succ_cons, hdigit] using hdigits
      obtain ⟨stop, s', hrun, hstop, pos, rfl⟩ :=
        ih (h.bump_one (isAscii_of_isHexDigit hdigit)) hmissing (value * 16 + d)
      refine ⟨stop, _, (bind_of_ok rfl).trans ?_, hstop, pos, rfl⟩
      rw [hbyte, hc]
      exact (bind_of_ok rfl).trans hrun

theorem readCodeUnit_braced {body digits tail : List Char} (hbody : body = digits ++ tail)
    (hdigits : body.takeWhile isHexDigit = digits) : readCodeUnit ('\x7b' :: body) =
      if digits.isEmpty || tail.head? != some '\x7d' then .error .invalidUnicodeEscape
      else if hexNumber digits > 0x10FFFF then .error .undefinedCodePoint
      else .ok (hexNumber digits, digits.length + 2) := by
  have hend : body[digits.length]? = tail.head? := by
    rw [hbody, List.getElem?_append_right (Nat.le_refl _), Nat.sub_self, List.head?_eq_getElem?]
  subst hdigits
  rw [← hend]
  rfl

/-- Digits in braces. -/
theorem scanBracedUnit_follows (escapePos : Nat) {body : List Char}
    (h : At s before ('\x7b' :: body)) :
    Follows (FailsAtEscape s escapePos) (readCodeUnit ('\x7b' :: body)) (scanBracedUnit escapePos)
      (HasRead s ('\x7b' :: body)) s := by
  have hbody := h.bump_one (by decide)
  have hloop := rounds_scanHexRound hbody ((s.bump 1).bytes.length + 1)
    (by rw [hbody.length_bytes]; omega) 0 0
  obtain ⟨tail, hsplit⟩ := List.takeWhile_prefix (p := isHexDigit) (l := body)
  have hascii := isAscii_of_takeWhile_isHexDigit body
  rw [readCodeUnit_braced hsplit.symm rfl]
  generalize body.takeWhile isHexDigit = digits at hloop hsplit hascii ⊢
  subst hsplit
  have hlength := byteLength_of_isAscii hascii
  have hend : At ((s.bump 1).bump digits.length) (before ++ ['\x7b'] ++ digits) tail :=
    hbody.passed rfl (by rw [hlength]; rfl)
  have hcount : (0 + digits.length == 0) = digits.isEmpty := by
    cases digits <;> simp
  have hgreater : saturate (hexNumberFrom 0 digits) > 0x10FFFF ↔ hexNumber digits > 0x10FFFF := by
    change min (hexNumber digits) 0xFFFFFFFF > _ ↔ _
    omega
  unfold scanBracedUnit
  refine .run rfl (.run hloop (.run rfl ?_))
  rw [hend.byteAt, ahead_bne (by decide) (by decide), hcount]
  split
  · exact .of_error rfl rfl ⟨rfl, _, rfl⟩
  · simp only [hgreater]
    split
    · exact .of_error rfl rfl ⟨rfl, _, rfl⟩
    · rename_i hclosed hle
      rw [Bool.not_eq_true, Bool.or_eq_false_iff, bne_eq_false_iff_eq] at hclosed
      obtain ⟨tail, rfl⟩ := List.head?_eq_some_iff.mp hclosed.2
      refine .of_ok rfl rfl ⟨?_, ?_⟩
      · change min (hexNumber digits) 0xFFFFFFFF = hexNumber digits
        omega
      · have htake : ('\x7b' :: (digits ++ '\x7d' :: tail)).take (digits.length + 2) =
            '\x7b' :: (digits ++ ['\x7d']) := by
          rw [List.take_succ_cons, List.take_length_add_append]
          rfl
        rw [State.past, htake, byteLength, byteLength_append, hlength]
        simp only [State.bump, Nat.add_assoc]
        rfl

/-- Four digits, or any number of digits in braces. -/
theorem scanCodeUnit_follows (escapePos : Nat) (h : At s before rest) :
    Follows (FailsAtEscape s escapePos) (readCodeUnit rest) (scanCodeUnit escapePos)
      (HasRead s rest) s := by
  have hbrace : (s.byteAt 0 == '\x7b') = (rest.head? == some '\x7b') := by
    rw [h.byteAt, ahead_beq (by decide) (by decide)]
  unfold readCodeUnit scanCodeUnit
  refine .run rfl ?_
  rw [hbrace]
  split
  · exact scanBracedUnit_follows escapePos h
  · rename_i hne
    have hnot : ¬(rest.head? == some '\x7b') = true := by
      rw [beq_iff_eq, List.head?_eq_some_iff]
      rintro ⟨body, rfl⟩
      exact hne body rfl
    rw [if_neg hnot]
    dsimp only
    split
    · rename_i hfour
      rw [Bool.and_eq_true, beq_iff_eq] at hfour
      have hrest : At s before (rest.take 4 ++ rest.drop 4) := by rwa [List.take_append_drop]
      have hrun := scanHexDigits_eq escapePos hrest hfour.2 0
      rw [hfour.1] at hrun
      refine .of_ok rfl hrun ⟨rfl, ?_⟩
      rw [State.past, byteLength_of_isAscii fun c hc =>
        isAscii_of_isHexDigit (List.all_eq_true.mp hfour.2 c hc), hfour.1]
    · rename_i hfour
      obtain ⟨stop, s', hrun, hstop⟩ :=
        scanHexDigits_fails escapePos h (Bool.eq_false_iff.mpr hfour) 0
      exact .of_error rfl hrun hstop

end CodeUnits

section CodePoints

theorem readCodeUnit_le {n code : Nat} (h : readCodeUnit rest = .ok (code, n)) :
    n ≤ rest.length := by
  unfold readCodeUnit at h
  split at h
  · rename_i body
    dsimp only at h
    split at h
    · cases h
    · rename_i hclosed
      split at h
      · cases h
      · rw [Bool.not_eq_true, Bool.or_eq_false_iff, bne_eq_false_iff_eq] at hclosed
        obtain ⟨hlt, -⟩ := List.getElem?_eq_some_iff.mp hclosed.2
        rw [← (Prod.mk.inj (Except.ok.inj h)).2, List.length_cons]
        exact Nat.succ_le_succ hlt
  · dsimp only at h
    split at h
    · rename_i hfour
      cases h
      rw [Bool.and_eq_true, beq_iff_eq, List.length_take] at hfour
      omega
    · cases h

/-- The escape of a code point ends in the text. -/
theorem readCodePoint_le {n code : Nat} (h : readCodePoint rest = .ok (code, n)) :
    n ≤ rest.length := by
  unfold readCodePoint at h
  split at h
  · cases h
  · rename_i first k hunit
    have hfirst := readCodeUnit_le hunit
    split at h
    · split at h
      · rename_i tail htail
        have hlength := congrArg List.length htail
        rw [List.length_drop, List.length_cons, List.length_cons] at hlength
        split at h
        · rename_i low m hlow
          have hsecond := readCodeUnit_le hlow
          split at h
          · rw [← (Prod.mk.inj (Except.ok.inj h)).2]
            omega
          · cases h
            exact hfirst
        · cases h
          exact hfirst
      · cases h
        exact hfirst
    · cases h
      exact hfirst

/-- Two halves of a pair, the second of which is written right after the first. -/
theorem readCodePoint_both {n low k code : Nat} {tail : List Char}
    (hunit : readCodeUnit rest = .ok (code, n)) (hhigh : isHighSurrogate code = true)
    (hrest : rest.drop n = '\\' :: 'u' :: tail) (hlow : readCodeUnit tail = .ok (low, k)) :
    readCodePoint rest = .ok (if isLowSurrogate low then (combineSurrogates code low, n + 2 + k)
      else (code, n)) := by
  unfold readCodePoint
  simp only [hunit, hhigh, if_true, hrest, hlow]
  split <;> rfl

/-- Nothing that can be a low half comes after the first number. -/
theorem readCodePoint_alone {n code : Nat} (hunit : readCodeUnit rest = .ok (code, n))
    (h : isHighSurrogate code = true → ∀ tail, rest.drop n = '\\' :: 'u' :: tail →
      ∃ cause, readCodeUnit tail = .error cause) : readCodePoint rest = .ok (code, n) := by
  unfold readCodePoint
  simp only [hunit]
  split
  · rename_i hhigh
    split
    · rename_i tail hrest
      obtain ⟨cause, hcause⟩ := h hhigh tail hrest
      rw [hcause]
    · rfl
  · rfl

/-- The code point after a backslash and `u`. -/
theorem scanCodePoint_follows (escapePos : Nat) (h : At s before rest) :
    Follows (FailsAtEscape s escapePos) (readCodePoint rest) (scanCodePoint escapePos)
      (HasRead s rest) s := by
  have hunit := scanCodeUnit_follows escapePos h
  unfold scanCodePoint
  cases hread : readCodeUnit rest with
  | error cause =>
    rw [hread] at hunit
    obtain ⟨stop, s', hrun, hstop⟩ := hunit.error
    have hpoint : readCodePoint rest = .error cause := by
      unfold readCodePoint
      rw [hread]
    exact .of_error hpoint (bind_of_error hrun) hstop
  | ok found =>
    obtain ⟨code, n⟩ := found
    rw [hread] at hunit
    obtain ⟨code', s₁, hrun, hcode, hs₁⟩ := hunit.ok
    obtain rfl : code' = code := hcode
    have hpast : At s₁ (before ++ rest.take n) (rest.drop n) := hs₁ ▸ h.past n
    refine .run hrun (.run rfl ?_)
    split
    · rename_i hnext
      rw [Bool.and_eq_true, Bool.and_eq_true, beq_iff_eq, beq_iff_eq, and_assoc,
        hpast.byteAt_one_iff (by decide) (by decide) (by decide) (by decide)] at hnext
      obtain ⟨hhigh, tail, htail⟩ := hnext
      rw [htail] at hpast
      have hafter := (hpast.bump_one (by decide)).bump_one (by decide)
      have hsecond := scanCodeUnit_follows s₁.pos hafter
      refine .run rfl ?_
      cases hlow : readCodeUnit tail with
      | error cause =>
        rw [hlow] at hsecond
        obtain ⟨stop, s₂, hrun₂, rfl, pos, rfl⟩ := hsecond.error
        have hattempt : attempt (scanCodeUnit s₁.pos) (s₁.bump 2) =
            .ok (.error ⟨cause, s₁.pos % UInt32.size⟩) ((s₁.bump 2).goTo pos) := by
          unfold attempt
          rw [show s₁.bump 2 = (s₁.bump 1).bump 1 from rfl, hrun₂]
        refine .run hattempt ?_
        have hpoint := readCodePoint_alone hread fun _ tail' htail' => by
          rw [htail] at htail'
          cases htail'
          exact ⟨cause, hlow⟩
        refine .of_ok hpoint rfl ⟨rfl, ?_⟩
        rw [← hs₁]
        rfl
      | ok found =>
        obtain ⟨low, k⟩ := found
        rw [hlow] at hsecond
        obtain ⟨low', s₂, hrun₂, hlow', hs₂⟩ := hsecond.ok
        obtain rfl : low' = low := hlow'
        have hattempt : attempt (scanCodeUnit s₁.pos) (s₁.bump 2) = .ok (.ok low') s₂ := by
          unfold attempt
          rw [show s₁.bump 2 = (s₁.bump 1).bump 1 from rfl, hrun₂]
        have hpoint := readCodePoint_both hread hhigh htail hlow
        refine .run hattempt ?_
        dsimp only
        cases hlower : isLowSurrogate low' with
        | true =>
          rw [hlower, if_pos rfl] at hpoint
          refine .of_ok hpoint rfl ⟨rfl, ?_⟩
          have hpair : (s₁.bump 1).bump 1 = s₁.past (rest.drop n) 2 := by
            rw [htail]
            rfl
          have htail₂ : tail = rest.drop (n + 2) := by
            rw [← List.drop_drop, htail]
            rfl
          rw [hs₂, hpair, hs₁, State.past_past, htail₂]
          exact State.past_past s rest (n + 2) k
        | false =>
          rw [hlower, if_neg (by simp)] at hpoint
          refine .of_ok hpoint rfl ⟨rfl, ?_⟩
          rw [← hs₁, hs₂]
          rfl
    · rename_i hnext
      have hpoint := readCodePoint_alone hread fun hhigh tail htail => absurd
        ((hpast.byteAt_one_iff (by decide) (by decide) (by decide) (by decide)).mpr ⟨tail, htail⟩)
        (by simpa [hhigh] using hnext)
      exact .of_ok hpoint rfl ⟨rfl, hs₁⟩

end CodePoints

end EcmaSyntax.Scanner
