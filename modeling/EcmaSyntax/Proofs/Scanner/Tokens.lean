import EcmaSyntax.Proofs.Scanner.Numerals
import EcmaSyntax.Proofs.Scanner.Templates
import EcmaSyntax.Scanner.Scan

/-!
Tokens on bytes. The first byte of a token tells of what kind it is: within ASCII it is the first
character, and any other one can only begin a name. A punctuator is the longest one that the next
bytes allow.
-/

namespace EcmaSyntax.Scanner

open EcmaSyntax.Diagnostic EcmaSyntax.Lexer EcmaSyntax.Text EcmaSyntax.Unicode

variable {version : Nat} [Unicode.IdentifierChars version]

variable {s : State} {lead token rest : List Char} {c x y : Char}

/-- The scanner stands before a token, of which nothing is known yet. -/
structure Begins (s : State) (lead token : List Char) : Prop where
  place : At s lead token
  start : s.tokenStart = s.pos
  value : Holds s [] true
  flags : s.flags.invalidTemplateEscape = false

/-- A step takes the token that is read, and fails where there is none. -/
abbrev Takes (s : State) (lead token : List Char) (reading : Reading Lexeme)
    (step : Scanner Token) :
    Prop :=
  Follows (FailsAs s lead token) reading step (HasTaken s lead token) s

section Bytes

theorem At.byteAt_one_beq (h : At s lead (c :: rest)) (hc : isAscii c = true)
    (hx : isAscii x = true)
    (hzero : x ≠ '\x00') : (s.byteAt 1 == x) = (rest.head? == some x) := by
  rw [h.byteAt_succ hc, ahead_beq hx hzero]

/-- What the next two bytes after a character of ASCII are. -/
theorem At.byteAt_two_beq (h : At s lead (c :: rest)) (hc : isAscii c = true)
    (hx : isAscii x = true)
    (hzero : x ≠ '\x00') (hy : isAscii y = true) (hyzero : y ≠ '\x00') :
    (s.byteAt 1 == x && s.byteAt 2 == y) = (rest.take 2 == [x, y]) := by
  rw [h.byteAt_one_beq hc hx hzero, h.byteAt_succ hc]
  cases rest with
  | nil => rfl
  | cons d rest =>
    cases hd : d == x with
    | false => simp [hd]
    | true =>
      obtain rfl := beq_iff_eq.mp hd
      rw [ahead_cons_succ hx, ahead_beq hy hyzero]
      cases rest <;> simp

theorem eq_cons_of_take_two (h : (rest.take 2 == [x, y]) = true) :
    ∃ tail, rest = x :: y :: tail :=
  ⟨rest.drop 2, by rw [← List.take_append_drop 2 rest, beq_iff_eq.mp h]; rfl⟩

theorem eq_cons_of_head (h : (rest.head? == some x) = true) : ∃ tail, rest = x :: tail :=
  List.head?_eq_some_iff.mp (beq_iff_eq.mp h)

end Bytes

section Punctuators

/-- All characters of punctuators belong to ASCII. -/
theorem readPunctuator?_isAscii {sign : Token} {length : Nat}
    (h : readPunctuator? token = some (sign, length)) :
      ∀ c ∈ token.take length, isAscii c = true := by
  unfold readPunctuator? at h
  -- Two signs depend on whether a digit follows, and their branches split once more.
  split at h
  all_goals (try split at h) <;> cases h <;> simp [isAscii]

theorem op_takes {sign : Token} {length : Nat} (h : Begins s lead token)
    (hread : readPunctuator? token = some (sign, length)) :
    Takes s lead token (readLexeme token) (op length sign) := by
  have hpast : s.bump length = s.past token length :=
    (s.past_of_isAscii (readPunctuator?_isAscii hread) (readPunctuator?_isSign hread).le).symm
  have hlexeme : readLexeme token = .ok (Lexeme.plain sign length .empty) := by
    unfold readLexeme
    rw [hread]
  refine .of_ok hlexeme rfl ⟨rfl, ?_, h.value⟩
  rw [flagsAfter_plain h.flags]
  change s.bump length = _
  rw [hpast, ← h.place.past_pos]
  rfl

variable {single assigned double doubleAssign : Token}

/-- A punctuator that an equals sign can follow. -/
theorem scanCompound_takes (h : Begins s lead (c :: rest)) (hc : isAscii c = true)
    (hassigned : ∀ tail, readPunctuator? (c :: '=' :: tail) = some (assigned, 2))
    (hsingle : rest.head? ≠ some '=' → readPunctuator? (c :: rest) = some (single, 1)) :
    Takes s lead (c :: rest) (readLexeme (c :: rest)) (scanCompound single assigned) := by
  unfold scanCompound
  refine .run rfl ?_
  rw [h.place.byteAt_one_beq hc (by decide) (by decide)]
  split
  · rename_i hnext
    obtain ⟨tail, rfl⟩ := eq_cons_of_head hnext
    exact op_takes h (hassigned tail)
  · rename_i hnext
    exact op_takes h (hsingle (by simpa using hnext))

/-- A punctuator that its first character or an equals sign can follow. -/
theorem scanRepeatable_takes (h : Begins s lead (c :: rest)) (hc : isAscii c = true)
    (hzero : c ≠ '\x00')
    (hdouble : ∀ tail, readPunctuator? (c :: c :: tail) = some (double, 2))
    (hassigned : ∀ tail, readPunctuator? (c :: '=' :: tail) = some (assigned, 2))
    (hsingle : rest.head? ≠ some c → rest.head? ≠ some '=' →
      readPunctuator? (c :: rest) = some (single, 1)) :
    Takes s lead (c :: rest) (readLexeme (c :: rest))
      (scanRepeatable c single double assigned) := by
  unfold scanRepeatable
  refine .run rfl ?_
  rw [h.place.byteAt_one_beq hc hc hzero, h.place.byteAt_one_beq hc (by decide) (by decide)]
  split
  · rename_i hnext
    obtain ⟨tail, rfl⟩ := eq_cons_of_head hnext
    exact op_takes h (hdouble tail)
  · rename_i hother
    split
    · rename_i hnext
      obtain ⟨tail, rfl⟩ := eq_cons_of_head hnext
      exact op_takes h (hassigned tail)
    · rename_i hnext
      exact op_takes h (hsingle (by simpa using hother) (by simpa using hnext))

/-- A punctuator that can be doubled, and an equals sign can follow either. -/
theorem scanDoubled_takes (h : Begins s lead (c :: rest)) (hc : isAscii c = true)
    (hzero : c ≠ '\x00')
    (hdoubleAssign : ∀ tail, readPunctuator? (c :: c :: '=' :: tail) = some (doubleAssign, 3))
    (hdouble : ∀ tail : List Char, tail.head? ≠ some '=' →
      readPunctuator? (c :: c :: tail) = some (double, 2))
    (hassigned : ∀ tail, readPunctuator? (c :: '=' :: tail) = some (assigned, 2))
    (hsingle : rest.head? ≠ some c → rest.head? ≠ some '=' →
      readPunctuator? (c :: rest) = some (single, 1)) :
    Takes s lead (c :: rest) (readLexeme (c :: rest))
      (scanDoubled c single assigned double doubleAssign) := by
  unfold scanDoubled
  refine .run rfl ?_
  rw [h.place.byteAt_two_beq hc hc hzero (by decide) (by decide),
    h.place.byteAt_one_beq hc hc hzero, h.place.byteAt_one_beq hc (by decide) (by decide)]
  split
  · rename_i hnext
    obtain ⟨tail, rfl⟩ := eq_cons_of_take_two hnext
    exact op_takes h (hdoubleAssign tail)
  · rename_i hnot
    split
    · rename_i hnext
      obtain ⟨tail, rfl⟩ := eq_cons_of_head hnext
      refine op_takes h (hdouble tail ?_)
      intro hhead
      obtain ⟨tail, rfl⟩ := List.head?_eq_some_iff.mp hhead
      exact hnot (by simp)
    · rename_i hother
      split
      · rename_i hnext
        obtain ⟨tail, rfl⟩ := eq_cons_of_head hnext
        exact op_takes h (hassigned tail)
      · rename_i hnext
        exact op_takes h (hsingle (by simpa using hother) (by simpa using hnext))

theorem ne_cons_of_head (h : rest.head? ≠ some x) (tail : List Char) : rest ≠ x :: tail := by
  rintro rfl
  exact h rfl

/-- Two characters do not come next, where the first one does. -/
theorem head_ne_of_take_two (h : ¬((x :: rest).take 2 == [x, y]) = true) : rest.head? ≠ some y := by
  intro hhead
  obtain ⟨tail, rfl⟩ := List.head?_eq_some_iff.mp hhead
  exact h (by simp)

theorem scanEquals_takes (h : Begins s lead ('=' :: rest)) :
    Takes s lead ('=' :: rest) (readLexeme ('=' :: rest)) scanEquals := by
  have hone := fun x hx hzero => h.place.byteAt_one_beq (x := x) (by decide) hx hzero
  unfold scanEquals
  refine .run rfl ?_
  rw [h.place.byteAt_two_beq (by decide) (by decide) (by decide) (by decide) (by decide),
    hone '=' (by decide) (by decide), hone '>' (by decide) (by decide)]
  split
  · rename_i hnext
    obtain ⟨tail, rfl⟩ := eq_cons_of_take_two hnext
    exact op_takes h rfl
  rename_i hnot
  split
  · rename_i hnext
    obtain ⟨tail, rfl⟩ := eq_cons_of_head hnext
    have hne := ne_cons_of_head (head_ne_of_take_two hnot)
    exact op_takes h (by simp [readPunctuator?])
  rename_i hother
  split
  · rename_i hnext
    obtain ⟨tail, rfl⟩ := eq_cons_of_head hnext
    exact op_takes h rfl
  · rename_i hlast
    have hne := ne_cons_of_head (by simpa using hother)
    have hne' := ne_cons_of_head (by simpa using hlast)
    exact op_takes h (by simp [readPunctuator?, hne])

theorem scanExclamation_takes (h : Begins s lead ('!' :: rest)) :
    Takes s lead ('!' :: rest) (readLexeme ('!' :: rest)) scanExclamation := by
  unfold scanExclamation
  refine .run rfl ?_
  rw [h.place.byteAt_two_beq (by decide) (by decide) (by decide) (by decide) (by decide),
    h.place.byteAt_one_beq (by decide) (by decide) (by decide)]
  split
  · rename_i hnext
    obtain ⟨tail, rfl⟩ := eq_cons_of_take_two hnext
    exact op_takes h rfl
  rename_i hnot
  split
  · rename_i hnext
    obtain ⟨tail, rfl⟩ := eq_cons_of_head hnext
    have hne := ne_cons_of_head (head_ne_of_take_two hnot)
    exact op_takes h (by simp [readPunctuator?])
  · rename_i hother
    have hne := ne_cons_of_head (by simpa using hother)
    exact op_takes h (by simp [readPunctuator?, hne])

theorem At.isAsciiDigit_byteAt (h : At s lead (c :: rest)) (hc : isAscii c = true) :
    isAsciiDigit (s.byteAt 1) = rest.head?.any isAsciiDigit := by
  rw [h.byteAt_succ hc]
  exact any_ahead (by decide) (fun _ hwide => isAsciiDigit_wide hwide) rest

theorem scanQuestion_takes (h : Begins s lead ('?' :: rest)) :
    Takes s lead ('?' :: rest) (readLexeme ('?' :: rest)) scanQuestion := by
  have hone := fun x hx hzero => h.place.byteAt_one_beq (x := x) (by decide) hx hzero
  unfold scanQuestion
  refine .run rfl ?_
  rw [h.place.byteAt_two_beq (by decide) (by decide) (by decide) (by decide) (by decide),
    hone '?' (by decide) (by decide), hone '.' (by decide) (by decide)]
  split
  · rename_i hnext
    obtain ⟨tail, rfl⟩ := eq_cons_of_take_two hnext
    exact op_takes h rfl
  rename_i hnot
  split
  · rename_i hnext
    obtain ⟨tail, rfl⟩ := eq_cons_of_head hnext
    have hne := ne_cons_of_head (head_ne_of_take_two hnot)
    exact op_takes h (by simp [readPunctuator?])
  rename_i hother
  have hne := ne_cons_of_head (by simpa using hother)
  cases hpoint : rest.head? == some '.' with
  | false =>
    have hne' := ne_cons_of_head (beq_eq_false_iff_ne.mp hpoint)
    exact op_takes h (by simp [readPunctuator?, hne])
  | true =>
    obtain ⟨tail, rfl⟩ := eq_cons_of_head hpoint
    -- A digit after the point makes it part of a number.
    have hdigit : isAsciiDigit (s.byteAt 2) = tail.head?.any isAsciiDigit := by
      rw [h.place.byteAt_succ (by decide), ahead_cons_succ (by decide)]
      exact any_ahead (by decide) (fun _ hwide => isAsciiDigit_wide hwide) tail
    have hread : readPunctuator? ('?' :: '.' :: tail) = if tail.head?.any isAsciiDigit then
        some (.question, 1) else some (.questionDot, 2) := rfl
    rw [hdigit]
    cases hany : tail.head?.any isAsciiDigit with
    | false =>
      rw [hany] at hread
      exact op_takes h hread
    | true =>
      rw [hany] at hread
      exact op_takes h hread

theorem scanDot_takes (h : Begins s lead ('.' :: rest)) :
    Takes s lead ('.' :: rest) (readLexeme ('.' :: rest)) scanDot := by
  unfold scanDot
  refine .run rfl ?_
  rw [h.place.byteAt_two_beq (by decide) (by decide) (by decide) (by decide) (by decide),
    h.place.isAsciiDigit_byteAt (by decide)]
  split
  · rename_i hnext
    obtain ⟨tail, rfl⟩ := eq_cons_of_take_two hnext
    exact op_takes h rfl
  rename_i hnot
  have hread : readPunctuator? ('.' :: rest) =
      if rest.head?.any isAsciiDigit then none else some (.dot, 1) := by
    have hne : ∀ tail, rest ≠ '.' :: '.' :: tail := by
      rintro tail rfl
      exact hnot (by simp)
    simp [readPunctuator?]
  cases hdigit : rest.head?.any isAsciiDigit with
  | false =>
    rw [hdigit] at hread
    exact op_takes h hread
  | true =>
    rw [hdigit] at hread
    have hlexeme : readLexeme ('.' :: rest) = readNumberLexeme ('.' :: rest) := by
      unfold readLexeme
      rw [hread]
      rfl
    rw [hlexeme]
    exact scanNumber_follows h.place (by decide) h.value h.flags

end Punctuators

section Tokens

/-- A name that starts with a character beyond ASCII. -/
theorem scanWideWord_takes (h : Begins s lead (c :: rest)) (hc : isAscii c = false)
    (hread : readPunctuator? (c :: rest) = none) :
    Takes s lead (c :: rest) (readLexeme (c :: rest)) scanWideWord := by
  unfold scanWideWord
  refine .run h.place.currentChar ?_
  have hlexeme : readLexeme (c :: rest) =
      if isIdentifierStart c then readWordLexeme (c :: rest) else fault .invalidCharacter 0 := by
    unfold readLexeme
    rw [hread]
    simp only [beq_wide hc (by decide : isAscii '\'' = true),
      beq_wide hc (by decide : isAscii '"' = true),
      beq_wide hc (by decide : isAscii '\x60' = true), beq_wide hc (by decide : isAscii '.' = true),
      beq_wide hc (by decide : isAscii '#' = true), beq_wide hc (by decide : isAscii '\\' = true),
      isAsciiDigit_wide hc, Bool.or_false, Bool.false_or, Bool.false_eq_true, if_false]
  rw [hlexeme, List.head?_cons, Option.any_some]
  cases hstart : isIdentifierStart c with
  | true => exact scanWord_follows h.place (.inr hstart) h.flags
  | false =>
    refine .run rfl (.fail rfl h.place.pos_mod ⟨?_, rfl, rfl⟩)
    rw [List.take_zero, List.append_nil, h.place.pos]

/-- No punctuator starts beyond ASCII. -/
theorem readPunctuator?_wide (hc : isAscii c = false) : readPunctuator? (c :: rest) = none := by
  cases hread : readPunctuator? (c :: rest) with
  | none => rfl
  | some found =>
    have hpos : 0 < found.2 := (readPunctuator?_isSign hread).pos
    have hmem : c ∈ (c :: rest).take found.2 := by
      obtain ⟨n, hn⟩ := Nat.exists_eq_succ_of_ne_zero (Nat.pos_iff_ne_zero.mp hpos)
      rw [hn, List.take_succ_cons]
      exact List.mem_cons_self
    rw [readPunctuator?_isAscii hread c hmem] at hc
    cases hc

/-- A number or a name that starts within ASCII. -/
theorem scanOther_takes (h : Begins s lead (c :: rest)) (hc : isAscii c = true)
    (hread : readPunctuator? (c :: rest) = none)
    (hnot : c ≠ '\'' ∧ c ≠ '"' ∧ c ≠ '\x60' ∧ c ≠ '.' ∧ c ≠ '#' ∧ c ≠ '\\') :
    Takes s lead (c :: rest) (readLexeme (c :: rest)) (scanOther c) := by
  have hlexeme : readLexeme (c :: rest) =
      if isAsciiDigit c then readNumberLexeme (c :: rest)
      else if isIdentifierStart c then readWordLexeme (c :: rest)
      else fault .invalidCharacter 0 := by
    unfold readLexeme
    rw [hread]
    simp [hnot]
  have hstart : isIdentifierStart c = (isAsciiLetter c || c == '$' || c == '_') := by
    unfold isIdentifierStart
    rw [hc]
    rfl
  unfold scanOther
  rw [hlexeme, hstart, hc]
  split
  · exact scanNumber_follows h.place hc h.value h.flags
  split
  · rename_i hname
    exact scanWord_follows h.place (.inr (hstart.trans hname)) h.flags
  · refine .run rfl (.fail rfl h.place.pos_mod ⟨?_, rfl, rfl⟩)
    rw [List.take_zero, List.append_nil, h.place.pos]

/-- Every token is read as its first byte tells. -/
theorem scanToken_takes (h : Begins s lead (c :: rest)) :
    Takes s lead (c :: rest) (readLexeme (c :: rest)) scanToken := by
  unfold scanToken
  cases hc : isAscii c with
  | false =>
    obtain ⟨b, hb, hwide⟩ := h.place.byte_wide hc
    refine .run hb ?_
    split
    case h_31 =>
      have hother : @scanOther version _ b = scanWideWord := by
        unfold scanOther
        rw [isAsciiDigit_wide hwide, isAsciiLetter_wide hwide, beq_wide hwide (by decide),
          beq_wide hwide (by decide), hwide]
        rfl
      rw [hother]
      exact scanWideWord_takes h hc (readPunctuator?_wide hc)
    all_goals exact absurd hwide (by decide)
  | true =>
    refine .run (h.place.byte_ascii hc) ?_
    split
    -- Of one character each.
    iterate 12 exact op_takes h rfl
    · exact scanDot_takes h
    · exact scanQuestion_takes h
    · exact scanDoubled_takes h (by decide) (by decide) (fun _ => rfl)
        (fun _ hne => by simp [readPunctuator?, ne_cons_of_head hne]) (fun _ => rfl)
        fun hdouble hequals => by
          simp [readPunctuator?, ne_cons_of_head hdouble, ne_cons_of_head hequals]
    · exact scanEquals_takes h
    · exact scanExclamation_takes h
    · exact scanRepeatable_takes h (by decide) (by decide) (fun _ => rfl) (fun _ => rfl)
        fun hdouble hequals => by
          simp [readPunctuator?, ne_cons_of_head hdouble, ne_cons_of_head hequals]
    · exact scanRepeatable_takes h (by decide) (by decide) (fun _ => rfl) (fun _ => rfl)
        fun hdouble hequals => by
          simp [readPunctuator?, ne_cons_of_head hdouble, ne_cons_of_head hequals]
    · exact scanDoubled_takes h (by decide) (by decide) (fun _ => rfl)
        (fun _ hne => by simp [readPunctuator?, ne_cons_of_head hne]) (fun _ => rfl)
        fun hdouble hequals => by
          simp [readPunctuator?, ne_cons_of_head hdouble, ne_cons_of_head hequals]
    · exact scanCompound_takes h (by decide) (fun _ => rfl)
        fun hequals => by simp [readPunctuator?, ne_cons_of_head hequals]
    · exact scanCompound_takes h (by decide) (fun _ => rfl)
        fun hequals => by simp [readPunctuator?, ne_cons_of_head hequals]
    · exact scanCompound_takes h (by decide) (fun _ => rfl)
        fun hequals => by simp [readPunctuator?, ne_cons_of_head hequals]
    · exact scanDoubled_takes h (by decide) (by decide) (fun _ => rfl)
        (fun _ hne => by simp [readPunctuator?, ne_cons_of_head hne]) (fun _ => rfl)
        fun hdouble hequals => by
          simp [readPunctuator?, ne_cons_of_head hdouble, ne_cons_of_head hequals]
    · exact scanDoubled_takes h (by decide) (by decide) (fun _ => rfl)
        (fun _ hne => by simp [readPunctuator?, ne_cons_of_head hne]) (fun _ => rfl)
        fun hdouble hequals => by
          simp [readPunctuator?, ne_cons_of_head hdouble, ne_cons_of_head hequals]
    · exact scanStringLiteral_follows h.place (by decide) h.start h.flags
    · exact scanStringLiteral_follows h.place (by decide) h.start h.flags
    · have hchunk := scanTemplateChunk_follows (s := s.bump 1) (c := '\x60') true
        (h.place.bump_one (by decide)) (h.start.trans h.place.pos) h.flags
      refine .run rfl ((hchunk.rebase s rfl rfl).mono fun _ _ _ htaken => ?_)
      exact ⟨htaken.found, htaken.state, htaken.value⟩
    · exact scanPrivateName_follows h.place h.flags
    · exact scanWord_follows h.place (.inl rfl) h.flags
    · refine scanOther_takes h hc ?_ ⟨‹_›, ‹_›, ‹_›, ‹_›, ‹_›, ‹_›⟩
      unfold readPunctuator?
      split
      all_goals first
        | rfl
        | exact absurd (List.cons.inj ‹c :: rest = _›).1 ‹_›

end Tokens

end EcmaSyntax.Scanner
