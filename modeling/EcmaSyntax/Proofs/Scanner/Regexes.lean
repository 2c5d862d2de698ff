import EcmaSyntax.Lexer.Scan
import EcmaSyntax.Proofs.Scanner.Quoted
import EcmaSyntax.Scanner.Scan

/-!
Regular expressions on bytes. The body is gone through byte by byte, where a line separator is told
by the bytes that it begins with; the flags are read as characters.
-/

namespace EcmaSyntax.Scanner

open EcmaSyntax.Diagnostic EcmaSyntax.Lexer EcmaSyntax.Text EcmaSyntax.Unicode

variable {version : Nat} [Unicode.IdentifierChars version]

variable {s s' : State} {before rest lead token done : List Char} {c : Char} {count : Nat}

section Bodies

/-- What the bytes of a character tell about line terminators: the first one tells whether the
character is one, and no other one does. -/
theorem At.lineTerminator (h : At s before (c :: rest)) (hcount : count < c.utf8Size) :
    ∃ b, byte (s.bump count) = .ok b (s.bump count) ∧
      (b == '\n' || b == '\r' || startsSeparator ((s.bump count).bytesFrom (s.bump count).pos)) =
        (count == 0 && isLineTerminator c) ∧
      ∀ x, isAscii x = true → (c == x) = false → (b == x) = false := by
  obtain ⟨b, more, hdrop, hline, hne⟩ := exists_drop rest hcount
  have hfrom : (s.bump count).bytesFrom (s.bump count).pos = b :: more := by
    have hbytes := h.bytesFrom
    unfold State.bytesFrom at hbytes ⊢
    rw [← hdrop, ← hbytes, List.drop_drop]
    rfl
  have hbyte : (s.bump count).byte? (s.bump count).pos = some (Char.ofUInt8 b) := by
    unfold State.bytesFrom at hfrom
    rw [State.byte?, ← Nat.add_zero (s.bump count).pos, ← List.getElem?_drop, hfrom]
    rfl
  refine ⟨Char.ofUInt8 b, byte_eq hbyte, ?_, fun x hx hcx => ?_⟩
  · rw [hfrom, ← isLineBreakByte_eq, hline]
  · rw [beq_ofUInt8 b hx, hne x hx hcx]

theorem At.firstByte (h : At s before (c :: rest)) : ∃ b, byte s = .ok b s ∧
    (b == '\n' || b == '\r' || startsSeparator (s.bytesFrom s.pos)) = isLineTerminator c ∧
    (isAscii c = true → b = c) := by
  obtain ⟨b, hb, hline, -⟩ := h.lineTerminator c.utf8Size_pos
  refine ⟨b, hb, hline, fun hc => ?_⟩
  exact (EStateM.Result.ok.inj (hb.symm.trans (h.byte_ascii hc))).1

variable {start : Nat} {inClass : Bool}

theorem scanRegexBodyRound_end (h : At s before []) : scanRegexBodyRound start inClass s =
    .error (.failure ⟨.unterminatedRegex, start % UInt32.size⟩) s := by
  unfold scanRegexBodyRound
  exact bind_of_ok h.isEof_eq

theorem scanRegexBodyRound_line (h : At s before (c :: rest)) (hc : isLineTerminator c = true) :
    scanRegexBodyRound start inClass s =
      .error (.failure ⟨.unterminatedRegex, start % UInt32.size⟩) s := by
  obtain ⟨b, hb, hline, -⟩ := h.firstByte
  unfold scanRegexBodyRound
  refine (bind_of_ok h.isEof_eq).trans ((bind_of_ok hb).trans ((bind_of_ok rfl).trans ?_))
  rw [hline, hc]
  rfl

/-- A backslash is read with the character after it. -/
theorem scanRegexBodyRound_backslash (start : Nat) (inClass : Bool) {body : List Char}
    (h : At s before ('\\' :: body)) :
    scanRegexBodyRound start inClass s = match body with
      | [] => .error (.failure ⟨.unterminatedRegex, start % UInt32.size⟩) (s.bump 1)
      | c :: _ =>
        if isLineTerminator c then
          .error (.failure ⟨.unterminatedRegex, start % UInt32.size⟩) (s.bump 1)
        else .ok (.inl inClass) ((s.bump 1).bump c.utf8Size) := by
  have hbody := h.bump_one (by decide)
  obtain ⟨b, hb, hline, hc⟩ := h.firstByte
  obtain rfl := hc (by decide)
  unfold scanRegexBodyRound
  refine (bind_of_ok h.isEof_eq).trans ((bind_of_ok hb).trans ((bind_of_ok rfl).trans ?_))
  rw [hline, if_neg (by decide), if_pos (by rfl)]
  refine (bind_of_ok rfl).trans ((bind_of_ok hbody.currentChar).trans ?_)
  cases body with
  | nil => rfl
  | cons c rest =>
    dsimp only [List.head?_cons]
    split <;> rfl

theorem scanRegexBodyRound_close (h : At s before ('/' :: rest)) (hclass : inClass = false) :
    scanRegexBodyRound start inClass s = .ok (.inr ()) s := by
  obtain ⟨b, hb, hline, hc⟩ := h.firstByte
  obtain rfl := hc (by decide)
  subst hclass
  unfold scanRegexBodyRound
  refine (bind_of_ok h.isEof_eq).trans ((bind_of_ok hb).trans ((bind_of_ok rfl).trans ?_))
  rw [hline]
  rfl

/-- The class of a character begins with an opening bracket and ends with a closing one. -/
def classAfter (inClass : Bool) (c : Char) : Bool := c == '[' || (inClass && c != ']')

/-- The rounds through another character. -/
theorem rounds_scanRegexBodyRound_char (start : Nat) (h : At s before (c :: rest))
    (hline : isLineTerminator c = false)
    (hescape : (c == '\\') = false) (hclose : (c == '/' && !inClass) = false) (fuel : Nat) :
    rounds (scanRegexBodyRound start) (fuel + c.utf8Size) inClass s =
      rounds (scanRegexBodyRound start) fuel (classAfter inClass c) (s.bump c.utf8Size) := by
  have hround : ∀ k < c.utf8Size, ∃ b,
    (∀ x, isAscii x = true → (c == x) = false → (b == x) = false) ∧
      byte (s.bump k) = .ok b (s.bump k) ∧ ((b == '/' && !inClass) = false →
        scanRegexBodyRound start inClass (s.bump k) =
          .ok (.inl (b == '[' || (inClass && b != ']'))) (s.bump (k + 1))) := fun k hk => by
    obtain ⟨heof, -⟩ := h.within hk
    obtain ⟨b, hb, hnot, hne⟩ := h.lineTerminator hk
    rw [hline, Bool.and_false] at hnot
    refine ⟨b, hne, hb, fun hopen => ?_⟩
    unfold scanRegexBodyRound
    refine (bind_of_ok heof).trans ((bind_of_ok hb).trans ((bind_of_ok rfl).trans ?_))
    rw [hnot, if_neg Bool.false_ne_true, hne _ (by decide) hescape, if_neg Bool.false_ne_true,
      hopen]
    rfl
  cases hc : isAscii c with
  | true =>
    obtain ⟨b, -, hb, hrun⟩ := hround 0 c.utf8Size_pos
    obtain ⟨rfl, -⟩ := EStateM.Result.ok.inj ((h.byte_ascii hc).symm.trans hb)
    rw [utf8Size_of_isAscii hc]
    exact rounds_inl (hrun hclose)
  | false =>
    have hclass : classAfter inClass c = inClass := by
      rw [classAfter, bne, beq_wide hc (by decide), beq_wide hc (by decide), Bool.not_false,
        Bool.and_true, Bool.false_or]
    rw [hclass]
    refine rounds_bump fuel fun k hk => ?_
    obtain ⟨b, hne, -, hrun⟩ := hround k hk
    have hbracket := hne '[' (by decide) (beq_wide hc (by decide))
    have hclosing := hne ']' (by decide) (beq_wide hc (by decide))
    have hslash := hne '/' (by decide) (beq_wide hc (by decide))
    rw [hrun (by rw [hslash, Bool.false_and]), bne, hbracket, hclosing, Bool.not_false,
      Bool.and_true,
      Bool.false_or]

theorem readRegexBody_line (hc : isLineTerminator c = true) (inClass : Bool) (index : Nat) :
    readRegexBody inClass false index (c :: rest) = fault .unterminatedRegex 0 := by
  rw [readRegexBody, if_pos hc]

theorem readRegexBody_backslash (inClass : Bool) (index : Nat) (body : List Char) :
    readRegexBody inClass false index ('\\' :: body) = match body with
      | [] => fault .unterminatedRegex 0
      | c :: rest =>
        if isLineTerminator c then fault .unterminatedRegex 0
        else readRegexBody inClass false (index + 2) rest := by
  cases body with
  | nil => rfl
  | cons c rest => rfl

theorem readRegexBody_other (hline : isLineTerminator c = false) (hescape : (c == '\\') = false)
    (hclose : (c == '/' && !inClass) = false) (index : Nat) :
    readRegexBody inClass false index (c :: rest) =
      readRegexBody (classAfter inClass c) false (index + 1) rest := by
  rw [readRegexBody, hline, if_neg Bool.false_ne_true, if_neg Bool.false_ne_true, hescape,
    if_neg Bool.false_ne_true, classAfter]
  cases hopening : c == '[' with
  | true => rfl
  | false =>
    rw [if_neg Bool.false_ne_true, bne]
    cases hclosing : c == ']' with
    | true =>
      rw [if_pos rfl, Bool.not_true, Bool.and_false]
      rfl
    | false =>
      rw [if_neg Bool.false_ne_true, hclose, if_neg Bool.false_ne_true, Bool.not_false,
        Bool.and_true,
        Bool.false_or]

/-- What the rounds through a body leave: the scanner stands at the closing slash. -/
structure HasBody (s : State) (lead token : List Char) (first close : Nat) (s' : State) : Prop where
  state : s' = s.goTo (offsetIn lead token close)
  le : first ≤ close
  slash : ∃ tail, token.drop close = '/' :: tail

/-- The rounds have gone on over a part of the body. -/
theorem Follows.body_more {step : Scanner Unit} {reading : Reading Nat} {s₁ : State}
    {first first' : Nat}
    (h : Follows (FailsAs s₁ lead token) reading step
      (fun close _ => HasBody s₁ lead token first' close) s')
    (hstate : s₁ = s.goTo s₁.pos) (hle : first ≤ first') :
    Follows (FailsAs s lead token) reading step
      (fun close _ => HasBody s lead token first close) s' := by
  have hfailing := h.rebase s (by rw [hstate]; rfl) (by rw [hstate]; rfl)
  refine hfailing.mono fun close _ s' hbody => ⟨?_, Nat.le_trans hle hbody.le, hbody.slash⟩
  rw [hbody.state, hstate]
  rfl

/-- The rounds through a body. -/
theorem rounds_scanRegexBodyRound {length : Nat} :
    ∀ (fuel : Nat) (inClass : Bool) {s : State} {done rest : List Char}, rest.length = length →
      done ++ rest = token → At s (lead ++ done) rest → byteLength rest < fuel →
      Follows (FailsAs s lead token) (readRegexBody inClass false done.length rest)
        (rounds (scanRegexBodyRound (byteLength lead)) fuel inClass)
        (fun close _ => HasBody s lead token done.length close) s := by
  induction length using Nat.strongRecOn with
  | ind length ih =>
    intro fuel inClass s done rest hlength hsplit h hfuel
    have hmod : byteLength lead % UInt32.size = byteLength lead := h.mod_eq (by
      rw [byteLength_append]
      omega)
    have hfails : ∀ pos, FailsAs s lead token ⟨.unterminatedRegex, 0, none⟩
        (.failure ⟨.unterminatedRegex, byteLength lead % UInt32.size⟩) (s.goTo pos) := fun pos =>
      ⟨by rw [hmod, List.take_zero, List.append_nil], rfl, rfl⟩
    obtain ⟨fuel, rfl⟩ := Nat.exists_eq_succ_of_ne_zero (Nat.ne_zero_of_lt hfuel)
    cases rest with
    | nil => exact .of_error rfl (rounds_error (scanRegexBodyRound_end h)) (hfails s.pos)
    | cons c rest =>
      cases hline : isLineTerminator c with
      | true =>
        exact .of_error (readRegexBody_line hline _ _)
          (rounds_error (scanRegexBodyRound_line h hline))
          (hfails s.pos)
      | false =>
        cases hescape : c == '\\' with
        | true =>
          obtain rfl : c = '\\' := beq_iff_eq.mp hescape
          have hround := scanRegexBodyRound_backslash (byteLength lead) inClass h
          rw [readRegexBody_backslash]
          cases rest with
          | nil => exact .of_error rfl (rounds_error hround) (hfails (s.pos + 1))
          | cons c rest =>
            dsimp only at hround ⊢
            cases hc : isLineTerminator c with
            | true =>
              rw [hc, if_pos rfl] at hround
              exact .of_error rfl (rounds_error hround) (hfails (s.pos + 1))
            | false =>
              rw [hc, if_neg Bool.false_ne_true] at hround
              have hnext : At ((s.bump 1).bump c.utf8Size) (lead ++ (done ++ ['\\', c])) rest := by
                have hboth := (h.bump_one (by decide)).bump_char
                rwa [List.append_assoc, List.append_assoc] at hboth
              have hbytes := byteLength_drop_lt ('\\' :: c :: rest) Nat.two_pos
                (Nat.le_add_left _ _)
              change byteLength rest < _ at hbytes
              have hrest := ih rest.length (by rw [← hlength]; simp only [List.length_cons]; omega)
                fuel inClass rfl (by rw [← hsplit, List.append_assoc]; rfl) hnext (by omega)
              rw [List.length_append] at hrest
              rw [if_neg Bool.false_ne_true]
              exact .of_step (.body_more hrest rfl (Nat.le_add_right _ _)) (rounds_inl hround)
        | false =>
          cases hclose : c == '/' && !inClass with
          | true =>
            rw [Bool.and_eq_true, beq_iff_eq, Bool.not_eq_true'] at hclose
            obtain ⟨rfl, hclass⟩ := hclose
            have hread : readRegexBody inClass false done.length ('/' :: rest) =
              .ok done.length := by
              rw [hclass]
              rfl
            refine .of_ok hread (rounds_inr (scanRegexBodyRound_close h hclass))
              ⟨?_, Nat.le_refl _, rest, ?_⟩
            · rw [← hsplit, offsetIn, List.take_left, ← h.pos]
              rfl
            · rw [← hsplit, List.drop_left]
          | false =>
            rw [byteLength] at hfuel
            obtain ⟨fuel', hfuel'⟩ := Nat.exists_eq_add_of_le' (Nat.le_of_lt
              (Nat.lt_of_le_of_lt (Nat.le_add_right _ _) hfuel))
            have hround := rounds_scanRegexBodyRound_char (byteLength lead) h hline hescape
              hclose fuel'
            have hnext : At (s.bump c.utf8Size) (lead ++ (done ++ [c])) rest := by
              rw [← List.append_assoc]
              exact h.bump_char
            have hrest := ih rest.length (by rw [← hlength]; exact Nat.lt_succ_self _) fuel'
              (classAfter inClass c) rfl (by rw [← hsplit, List.append_assoc]; rfl) hnext
              (by omega)
            rw [List.length_append] at hrest
            rw [readRegexBody_other hline hescape hclose]
            exact .of_step (.body_more hrest rfl (Nat.le_add_right _ _))
              ((congrArg (rounds _ · inClass s) hfuel').trans hround)

end Bodies

section Flags

variable {seen : List Char}

theorem isAscii_of_regexFlag (h : regexFlagLetters.contains c = true) : isAscii c = true := by
  have hall : regexFlagLetters.all isAscii = true := rfl
  exact List.all_eq_true.mp hall c (List.contains_iff_mem.mp h)

/-- What the rounds through flags leave. -/
def HasFlags (s : State) (rest seen flags : List Char) (s' : State) : Prop :=
  ∃ more, flags = seen ++ more ∧ more <+: rest ∧ s' = s.bump (byteLength more)

/-- The rounds through flags. -/
theorem rounds_scanRegexFlagsRound (rest : List Char) :
    ∀ (fuel : Nat) (seen : List Char) {s : State} {done : List Char}, done ++ rest = token →
      At s (lead ++ done) rest → byteLength rest < fuel →
      Follows (FailsAs s lead token) (readRegexFlagsFrom done.length seen rest)
        (rounds scanRegexFlagsRound fuel seen)
        (fun flags flags' s' => flags' = flags ∧ HasFlags s rest seen flags s') s := by
  induction rest with
  | nil =>
    intro fuel seen s done hsplit h hfuel
    obtain ⟨fuel, rfl⟩ := Nat.exists_eq_succ_of_ne_zero (Nat.ne_zero_of_lt hfuel)
    have hround : scanRegexFlagsRound seen s = .ok (.inr seen) s := by
      unfold scanRegexFlagsRound
      exact (bind_of_ok h.currentChar).trans rfl
    exact .of_ok rfl (rounds_inr hround) ⟨rfl, [], (List.append_nil _).symm, List.nil_prefix, rfl⟩
  | cons c rest ih =>
    intro fuel seen s done hsplit h hfuel
    obtain ⟨fuel, rfl⟩ := Nat.exists_eq_succ_of_ne_zero (Nat.ne_zero_of_lt hfuel)
    have hfails : ∀ cause, FailsAs s lead token ⟨cause, done.length, none⟩
        (.failure ⟨cause, s.pos % UInt32.size⟩) s := fun cause =>
      ⟨by rw [h.pos_mod, h.pos, ← hsplit, List.take_left], rfl, rfl⟩
    have hround : scanRegexFlagsRound seen s = (do
        if !isIdentifierPart c then
          if c == '\\' then fail (.invalidRegexFlag "\\") (← position)
          else return .inr seen
        else if !regexFlagLetters.contains c then
          fail (.invalidRegexFlag (String.singleton c)) (← position)
        else if seen.contains c then fail (.duplicateRegexFlag (String.singleton c)) (← position)
        else
          bump 1
          return .inl (seen ++ [c]) : Scanner _) s := by
      unfold scanRegexFlagsRound
      exact (bind_of_ok h.currentChar).trans rfl
    rw [readRegexFlagsFrom]
    cases hpart : isIdentifierPart c with
    | false =>
      rw [hpart, Bool.not_false, if_pos rfl] at hround
      rw [if_neg Bool.false_ne_true]
      split
      · rename_i hc
        rw [if_pos hc] at hround
        exact .of_error rfl (rounds_error hround) (hfails _)
      · rename_i hc
        rw [if_neg hc] at hround
        exact .of_ok rfl (rounds_inr hround)
          ⟨rfl, [], (List.append_nil _).symm, List.nil_prefix, rfl⟩
    | true =>
      rw [hpart, Bool.not_true, if_neg Bool.false_ne_true] at hround
      rw [if_pos rfl]
      split
      · rename_i hletter
        rw [if_pos hletter] at hround
        exact .of_error rfl (rounds_error hround) (hfails _)
      · rename_i hletter
        rw [if_neg hletter] at hround
        split
        · rename_i hseen
          rw [if_pos hseen] at hround
          exact .of_error rfl (rounds_error hround) (hfails _)
        · rename_i hseen
          rw [if_neg hseen] at hround
          have hascii : isAscii c = true := isAscii_of_regexFlag (by simpa using hletter)
          have hnext : At (s.bump 1) (lead ++ (done ++ [c])) rest := by
            rw [← List.append_assoc]
            exact h.bump_one hascii
          rw [byteLength, utf8Size_of_isAscii hascii] at hfuel
          have hrest := ih fuel (seen ++ [c]) (by rw [← hsplit, List.append_assoc]; rfl) hnext
            (by omega)
          rw [List.length_append] at hrest
          have hfailing := hrest.rebase s rfl rfl
          refine .of_step (hfailing.mono fun flags flags' s' hflags => ⟨hflags.1, ?_⟩)
            (rounds_inl hround)
          obtain ⟨-, more, hmore, hinitial, hs'⟩ := hflags
          refine ⟨c :: more, by rw [hmore, List.append_assoc]; rfl,
            List.cons_prefix_cons.mpr ⟨rfl, hinitial⟩,
            hs'.trans ?_⟩
          rw [byteLength, utf8Size_of_isAscii hascii]
          simp only [State.bump, Nat.add_assoc]

/-- What a step leaves that has read the flags of a regular expression. -/
structure HasRegexFlags (s : State) (flags : List Char) (s' : State) : Prop where
  state : s' = { s with pos := s.pos + byteLength flags, regexFlags := s'.regexFlags }
  flags : s'.regexFlags? = some flags

theorem scanRegexFlags_follows (hsplit : done ++ rest = token) (h : At s (lead ++ done) rest) :
    Follows (FailsAs s lead token) (readRegexFlags done.length rest) scanRegexFlags
      (fun flags _ s' => flags <+: rest ∧ HasRegexFlags s flags s') s := by
  have hrounds := rounds_scanRegexFlagsRound rest (s.bytes.length + 1) [] hsplit h
    (by rw [h.length_bytes]; omega)
  unfold scanRegexFlags readRegexFlags
  refine .run rfl ((Follows.of_step hrounds (loop_eq _ _)).bind fun flags flags' s' hflags => ?_)
  obtain ⟨rfl, more, hmore, hinitial, rfl⟩ := hflags
  rw [List.nil_append] at hmore
  subst hmore
  split
  · refine .fail rfl h.pos_mod ⟨?_, rfl, rfl⟩
    rw [h.pos, ← hsplit, List.take_left]
  · refine .of_ok rfl rfl ⟨hinitial, rfl, ?_⟩
    obtain ⟨tail, rfl⟩ := hinitial
    rw [State.regexFlags?, h.pos]
    exact (h.bump).slice?

/-- What a step leaves that has read a regular expression. -/
structure HasRegex (s : State) (lead token : List Char) (literal : RegexLiteral) (found : Token)
    (s' : State) : Prop where
  found : found = .regularExpression
  state : s' = { s with
    pos := offsetIn lead token literal.stop
    token := .regularExpression
    value := s'.value
    regexFlags := s'.regexFlags }
  value : Holds s' literal.body true
  flags : s'.regexFlags? = some literal.flags

/-- A regular expression that is read from its slash on. -/
theorem rescanRegex_follows (h : At (s.goTo s.tokenStart) lead ('/' :: rest))
    (htoken : (s.token == .divide || s.token == .divideAssign) = true) :
    Follows (FailsAs s lead ('/' :: rest)) (readRegex ('/' :: rest)) rescanRegex
      (HasRegex s lead ('/' :: rest)) s := by
  have hstart : s.tokenStart = byteLength lead := h.pos
  have hbody : At (s.goTo (s.tokenStart + 1)) (lead ++ ['/']) rest := h.bump_one (by decide)
  have hrounds := rounds_scanRegexBodyRound ((s.goTo (s.tokenStart + 1)).bytes.length + 1) false
    rfl List.singleton_append hbody
    (by rw [hbody.length_bytes]; omega)
  have hloop := Follows.of_step (hrounds.rebase s rfl rfl) (loop_eq _ _)
  have hensure : ensure (s.token == .divide || s.token == .divideAssign) s = .ok () s := by
    rw [htoken]
    rfl
  rw [← hstart] at hloop
  unfold rescanRegex readRegex
  refine .run rfl (.run hensure (.run rfl (hloop.bind fun close _ s₁ hclose => ?_)))
  obtain ⟨hs₁, hle, tail, hslash⟩ := hclose
  have hat : At s₁ (lead ++ ('/' :: rest).take close) (('/' :: rest).drop close) :=
    h.goTo rfl close (by rw [hs₁]; rfl) (by rw [hs₁]; rfl)
  obtain ⟨body, hbodyEq⟩ : ∃ body, ('/' :: rest).take close = '/' :: body := by
    cases close with
    | zero => cases hle
    | succ close => exact ⟨_, List.take_succ_cons⟩
  rw [hbodyEq, hslash] at hat
  have hsplit : '/' :: rest = ('/' :: body) ++ '/' :: tail := by
    rw [← hbodyEq, ← hslash, List.take_append_drop]
  have hlength : ('/' :: body).length = close := by
    have hdrop := congrArg List.length hslash
    rw [← hbodyEq, List.length_take]
    simp only [List.length_drop, List.length_cons] at hdrop ⊢
    omega
  have hvalue : slice? s.source (s.tokenStart + 1) s₁.pos = some body := by
    have hpassed : At s₁ (lead ++ ['/'] ++ body) ('/' :: tail) := by
      rwa [List.append_assoc]
    have hopen : s.tokenStart + 1 = byteLength (lead ++ ['/']) := hbody.pos
    have hsource : s₁.source = s.source := by
      rw [hs₁]
      rfl
    rw [hopen, ← hsource]
    exact hpassed.slice?
  have hnext : At ({ s₁ with value := .slice (s.tokenStart + 1) s₁.pos }.bump 1)
      (lead ++ ('/' :: body ++ ['/'])) tail := by
    rw [← List.append_assoc]
    exact (hat.bump_one (by decide)).of_eq rfl rfl
  have htoken : '/' :: body ++ ['/'] ++ tail = '/' :: rest := by
    rw [hsplit, List.append_assoc]
    rfl
  have hflags := scanRegexFlags_follows htoken hnext
  have hdrop : ('/' :: rest).drop (close + 1) = tail := by
    rw [← List.drop_drop, hslash]
    rfl
  rw [List.length_append, hlength] at hflags
  have hfailing := hflags.rebase s (by rw [hs₁]; rfl) (by rw [hs₁]; rfl)
  rw [hdrop]
  refine .run rfl (.run rfl (.run rfl (hfailing.bind fun flags _ s₂ hread => ?_)))
  obtain ⟨hinitial, hs₂, hrange⟩ := hread
  obtain ⟨after, rfl⟩ := hinitial
  have hstop : offsetIn lead ('/' :: rest) (close + 1 + flags.length) = s₂.pos := by
    have htake : ('/' :: rest).take (close + 1 + flags.length) = '/' :: body ++ ['/'] ++ flags := by
      have hcut : '/' :: rest = ('/' :: body ++ ['/'] ++ flags) ++ after := by
        rw [hsplit, List.append_assoc, List.append_assoc]
        rfl
      rw [hcut]
      exact List.take_left' (by rw [List.length_append, List.length_append, hlength]; rfl)
    rw [offsetIn, htake, hs₂, ← List.append_assoc, byteLength_append, ← hnext.pos]
  have hheld : s₂.value = .slice (s.tokenStart + 1) s₁.pos := by
    rw [hs₂]
    rfl
  refine .run rfl (.pure ⟨rfl, ?_, ?_, hrange⟩)
  · rw [hstop]
    change { s₂ with token := Token.regularExpression } = { s with
      pos := s₂.pos
      token := .regularExpression
      value := s₂.value
      regexFlags := s₂.regexFlags }
    rw [hs₂, hs₁]
    rfl
  · have hsource : s₂.source = s.source := by
      rw [hs₂, hs₁]
      rfl
    refine Holds.slice hheld ?_
    change slice? s₂.source _ _ = _
    rw [hsource, hbodyEq]
    exact hvalue

end Flags

end EcmaSyntax.Scanner
