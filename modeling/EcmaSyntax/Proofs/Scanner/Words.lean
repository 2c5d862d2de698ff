import EcmaSyntax.Proofs.Lexer.Lexemes
import EcmaSyntax.Proofs.Scanner.Escapes

/-!
Names on bytes. What the scanner has passed and not copied yet stands between two boundaries, and
with what is in the buffer it is the value of the pieces that have been read.
-/

namespace EcmaSyntax.Scanner

open EcmaSyntax.Diagnostic EcmaSyntax.Lexer EcmaSyntax.Text EcmaSyntax.Unicode

variable {version : Nat} [Unicode.IdentifierChars version]

variable {s s' : State} {before rest : List Char}

section Values

/-- The value of the current token is `text`, and is a range of the source if `isSlice` says so. -/
def Holds (s : State) (text : List Char) (isSlice : Bool) : Prop :=
  match s.value with
  | .slice start stop => isSlice = true ∧ slice? s.source start stop = some text
  | .buffer => isSlice = false ∧ s.buffer = text

theorem Holds.value? {text : List Char} {isSlice : Bool} (h : Holds s text isSlice) :
    s.value? = some text := by
  unfold Holds at h
  unfold State.value?
  cases hvalue : s.value with
  | slice start stop =>
    rw [hvalue] at h
    exact h.2
  | buffer =>
    rw [hvalue] at h
    exact congrArg some h.2

theorem Holds.slice {text : List Char} {start stop : Nat} (hvalue : s.value = .slice start stop)
    (h : slice? s.source start stop = some text) : Holds s text true := by
  unfold Holds
  rw [hvalue]
  exact ⟨rfl, h⟩

theorem Holds.ofPieces {pieces : List Piece}
    (h : Holds s (Piece.value pieces) (Piece.areVerbatim pieces)) :
    Holds s (TokenValue.ofPieces pieces).text.toList (TokenValue.ofPieces pieces).isSlice := by
  rwa [TokenValue.ofPieces, String.toList_ofList]

theorem tokenValue_eq {text : List Char} {isSlice : Bool} (h : Holds s text isSlice) :
    tokenValue s = .ok text s := by
  unfold tokenValue
  refine (bind_of_ok rfl).trans ?_
  rw [h.value?]
  rfl

/-- Behind `before`, the text from the offset `start` on has been passed and is to be added to the
buffer if something is in it already; together they are `value`. -/
structure Pending (s : State) (before : List Char) (start : Nat) (buffered : Bool)
    (value : List Char) : Prop where
  chunk : ∃ first more, before = first ++ more ∧ start = byteLength first ∧
    value = (if buffered then s.buffer else []) ++ more

namespace Pending

variable {start : Nat} {buffered : Bool} {value piece : List Char}

/-- All that has been passed is in the buffer. -/
theorem of_buffer (hat : At s before rest) : Pending s before s.pos true s.buffer :=
  ⟨before, [], (List.append_nil _).symm, hat.pos, (List.append_nil _).symm⟩

/-- Characters that stand for themselves. -/
theorem passed (h : Pending s before start buffered value) (hbuffer : s'.buffer = s.buffer) :
    Pending s' (before ++ piece) start buffered (value ++ piece) := by
  obtain ⟨first, more, rfl, hstart, rfl⟩ := h.chunk
  exact ⟨first, more ++ piece, List.append_assoc _ _ _, hstart, by rw [hbuffer, List.append_assoc]⟩

theorem copyFrom_eq (h : Pending s before start true value) (hat : At s before rest) :
    copyFrom start s = .ok () (s.holding value) := by
  obtain ⟨first, more, rfl, rfl, rfl⟩ := h.chunk
  unfold copyFrom
  refine (bind_of_ok rfl).trans ((bind_of_ok (slice_eq hat.slice?)).trans ?_)
  rfl

theorem flush_eq (h : Pending s before start buffered value) (hat : At s before rest) :
    flush start buffered s = .ok () (s.holding value) := by
  obtain ⟨first, more, rfl, rfl, rfl⟩ := h.chunk
  cases buffered with
  | true => exact copyFrom_eq ⟨first, more, rfl, rfl, rfl⟩ hat
  | false =>
    have hempty : At (s.holding []) (first ++ more) rest := hat.of_eq rfl rfl
    exact copyFrom_eq (s := s.holding []) ⟨first, more, rfl, rfl, rfl⟩ hempty

end Pending

/-- The flags of a token that has been read. -/
def flagsAfter (flags : TokenFlags) (lexeme : Lexeme) : TokenFlags :=
  { flags with
    escaped := flags.escaped || lexeme.escaped
    octalEscape := flags.octalEscape || lexeme.octalEscape
    legacyOctal := flags.legacyOctal || lexeme.legacyOctal
    nonOctalDecimal := flags.nonOctalDecimal || lexeme.nonOctalDecimal
    invalidTemplateEscape := lexeme.invalidEscape.isSome }

theorem flagsAfter_plain {flags : TokenFlags} (h : flags.invalidTemplateEscape = false)
    (token : Token) (length : Nat) (value : TokenValue) :
    flagsAfter flags (Lexeme.plain token length value) = flags := by
  obtain ⟨lineBreakBefore, escaped, octalEscape, legacyOctal, nonOctalDecimal, _⟩ := flags
  subst h
  simp [flagsAfter, Lexeme.plain]

/-- What a step leaves that has read a token at the start of `token`, behind `lead`. -/
structure HasTaken (s : State) (lead token : List Char) (lexeme : Lexeme) (found : Token)
    (s' : State) : Prop where
  found : found = lexeme.token
  state : s' = { s with
    pos := byteLength (lead ++ token.take lexeme.length)
    flags := flagsAfter s.flags lexeme
    number := lexeme.number.getD s.number
    invalidEscape := match lexeme.invalidEscape with
      | some index => byteLength (lead ++ token.take index)
      | none => s.invalidEscape
    value := s'.value
    buffer := s'.buffer }
  value : Holds s' lexeme.value.text.toList lexeme.value.isSlice

end Values

section Rounds

variable {c : Char} {w : WordState}

theorem isIdentifierPartByte_wide (hc : isAscii c = false) : isIdentifierPartByte c = false := by
  rw [isIdentifierPartByte, isAsciiLetter_wide hc, isAsciiDigit_wide hc, beq_wide hc (by decide),
    beq_wide hc (by decide)]
  rfl

theorem not_letter_of_isAsciiDigit (h : isAsciiDigit c = true) :
    (isAsciiLetter c || c == '$' || c == '_') = false := by
  rw [isAsciiDigit, Bool.and_eq_true, decide_eq_true_eq, decide_eq_true_eq] at h
  have hle : c.toNat ≤ 57 := h.2
  have hge : 48 ≤ c.toNat := h.1
  have hlower : ¬ 'a' ≤ c := fun hle' => by
    have : 97 ≤ c.toNat := hle'
    omega
  have hupper : ¬ 'A' ≤ c := fun hle' => by
    have : 65 ≤ c.toNat := hle'
    omega
  have hdollar : c ≠ '$' := by
    rintro rfl
    exact absurd hge (by decide)
  have hline : c ≠ '_' := by
    rintro rfl
    exact absurd hle (by decide)
  simp [isAsciiLetter, hlower, hupper, hdollar, hline]

/-- Within ASCII a byte tells whether it can stand in a name. -/
theorem fitsName_of_isAscii (hc : isAscii c = true) (first : Bool) :
    fitsName first c = (isIdentifierPartByte c && !(first && isAsciiDigit c)) := by
  unfold fitsName isIdentifierStart isIdentifierPart isIdentifierPartByte
  simp only [hc, if_true]
  cases first with
  | false => simp
  | true =>
    cases hdigit : isAsciiDigit c with
    | false => simp
    | true => simpa using not_letter_of_isAsciiDigit hdigit

/-- A character that fits into the name. -/
theorem scanWordRound_plain (h : At s before (c :: rest))
    (hfits : fitsName w.first c = true) :
    scanWordRound w s = .ok (.inl { w with first := false }) (s.bump c.utf8Size) := by
  unfold scanWordRound
  refine (bind_of_ok h.isEof_eq).trans ?_
  cases hascii : isAscii c with
  | true =>
    rw [fitsName_of_isAscii hascii, Bool.and_eq_true, Bool.not_eq_true'] at hfits
    refine (bind_of_ok (h.byte_ascii hascii)).trans ?_
    rw [if_pos hfits.1, if_neg (by simp [hfits.2]), utf8Size_of_isAscii hascii]
    rfl
  | false =>
    obtain ⟨b, hb, hwide⟩ := h.byte_wide hascii
    refine (bind_of_ok hb).trans ?_
    rw [isIdentifierPartByte_wide hwide, beq_wide hwide (by decide), hwide]
    refine (bind_of_ok h.currentChar).trans ?_
    dsimp only [List.head?_cons]
    rw [if_pos hfits]
    rfl

/-- The name ends. -/
theorem scanWordRound_stop (h : At s before rest)
    (hstop : ∀ c ∈ rest.head?, c ≠ '\\' ∧ fitsName w.first c = false) :
    scanWordRound w s = .ok (.inr w) s := by
  unfold scanWordRound
  refine (bind_of_ok h.isEof_eq).trans ?_
  cases rest with
  | nil => rfl
  | cons c rest =>
    obtain ⟨hc, hfits⟩ := hstop c rfl
    cases hascii : isAscii c with
    | true =>
      rw [fitsName_of_isAscii hascii, Bool.and_eq_false_iff, Bool.not_eq_false'] at hfits
      refine (bind_of_ok (h.byte_ascii hascii)).trans ?_
      split
      · rename_i hpart
        rw [hpart] at hfits
        rw [if_pos (by simpa using hfits)]
        rfl
      · rw [if_neg (by simpa using hc), hascii]
        rfl
    | false =>
      obtain ⟨b, hb, hwide⟩ := h.byte_wide hascii
      refine (bind_of_ok hb).trans ?_
      rw [isIdentifierPartByte_wide hwide, beq_wide hwide (by decide), hwide]
      refine (bind_of_ok h.currentChar).trans ?_
      dsimp only [List.head?_cons]
      rw [if_neg (by simp [hfits])]
      rfl

/-- The escape at the start of a text, after its backslash, that is a character of a name. -/
def wordEscape (first : Bool) (body : List Char) : Except Cause (Nat × Nat) :=
  match body with
  | 'u' :: tail =>
    match readCodePoint tail with
    | .error cause => .error cause
    | .ok (code, n) =>
      if (scalar? code).any (fitsName first) then .ok (code, n + 2)
      else .error .invalidIdentifierEscape
  | _ => .error .invalidIdentifierEscape

theorem wordEscape_unicode (first : Bool) (tail : List Char) :
    wordEscape first ('u' :: tail) = match readCodePoint tail with
      | .error cause => .error cause
      | .ok (code, n) =>
        if (scalar? code).any (fitsName first) then .ok (code, n + 2)
        else .error .invalidIdentifierEscape := rfl

theorem wordEscape_other {first : Bool} {body : List Char} (h : body.head? ≠ some 'u') :
    wordEscape first body = .error .invalidIdentifierEscape := by
  unfold wordEscape
  split
  · exact absurd rfl h
  · rfl

/-- What a step leaves that has read an escape: its character is in the buffer. -/
def HasCopied (s : State) (rest value : List Char) (result : Nat × Nat) (w : WordState)
    (s' : State) : Prop :=
  w = ⟨true, (s.past rest result.2).pos, false⟩ ∧
    s' = (s.past rest result.2).holding (value ++ [scalarOrReplacement result.1])

theorem scanWordEscape_follows {body value : List Char} (h : At s before ('\\' :: body))
    (hp : Pending s before w.chunkStart w.escaped value) :
    Follows (FailsAt s s.pos) (wordEscape w.first body) (scanWordEscape w)
      (HasCopied s ('\\' :: body) value) s := by
  have hflushed : At (s.holding value) before ('\\' :: body) := h.of_eq rfl rfl
  unfold scanWordEscape
  refine .run (hp.flush_eq h) (.run rfl (.run (hflushed.byteAt_eq 1) ?_))
  rw [ahead_cons_succ (by decide), ahead_bne (by decide) (by decide)]
  cases hescape : body.head? == some 'u' with
  | true =>
    obtain ⟨tail, rfl⟩ := List.head?_eq_some_iff.mp (beq_iff_eq.mp hescape)
    rw [wordEscape_unicode]
    have hfollows := scanCodePoint_follows s.pos
      ((hflushed.bump_one (by decide)).bump_one (by decide))
    rw [if_neg (by simp)]
    refine .run rfl ?_
    split
    · rename_i cause hpoint
      rw [hpoint] at hfollows
      obtain ⟨stop, s', hrun, hstop, pos, rfl⟩ := hfollows.error
      exact .fails rfl hrun ⟨by rw [hstop, h.pos_mod], rfl, rfl⟩
    · rename_i code n hpoint
      rw [hpoint] at hfollows
      obtain ⟨code', s', hrun, hcode, hs'⟩ := hfollows.ok
      obtain rfl : code' = code := hcode
      have hpast : s' = (s.past ('\\' :: 'u' :: tail) (n + 2)).holding value := by
        rw [hs', Nat.add_comm n 2, ← State.past_past]
        rfl
      refine .run hrun ?_
      cases hscalar : scalar? code' with
      | none => exact .fail rfl h.pos_mod ⟨rfl, by rw [hpast]; rfl, by rw [hpast]; rfl⟩
      | some c =>
        rw [Option.any_some, Option.filter_some]
        split
        · refine .of_ok rfl rfl ⟨?_, ?_⟩
          · rw [hpast]
            rfl
          · rw [hpast, scalarOrReplacement, hscalar]
            rfl
        · exact .fail rfl h.pos_mod ⟨rfl, by rw [hpast]; rfl, by rw [hpast]; rfl⟩
  | false =>
    rw [bne, hescape, wordEscape_other (beq_eq_false_iff_ne.mp hescape)]
    exact .fail rfl h.pos_mod ⟨rfl, rfl, rfl⟩

theorem scanWordRound_escape {body : List Char} (h : At s before ('\\' :: body)) :
    scanWordRound w s = (do return .inl (← scanWordEscape w) : Scanner _) s := by
  unfold scanWordRound
  refine (bind_of_ok h.isEof_eq).trans ((bind_of_ok (h.byte_ascii (by decide))).trans ?_)
  rfl

end Rounds

section Names

variable {lead : List Char}

/-- Characters that belong to an escape. -/
theorem readWordFrom_skip (first : Bool) (index : Nat) {n : Nat} {text : List Char}
    (hn : n ≤ text.length) :
    readWordFrom first index n text = readWordFrom first (index + n) 0 (text.drop n) := by
  induction n generalizing index text with
  | zero => rfl
  | succ n ih =>
    cases text with
    | nil => cases hn
    | cons c text =>
      rw [readWordFrom, ih _ (Nat.le_of_succ_le_succ hn), List.drop_succ_cons]
      congr 1
      omega

theorem readWordFrom_unicode (first : Bool) (index : Nat) (tail : List Char) :
    readWordFrom first index 0 ('\\' :: 'u' :: tail) = match readCodePoint tail with
      | .error cause => fault cause index
      | .ok (code, n) =>
        if (scalar? code).any (fitsName first) then (do
          let (pieces, stop) ← readWordFrom false (index + 1) (n + 1) ('u' :: tail)
          .ok (.escape (.codePoint code) :: pieces, stop))
        else fault .invalidIdentifierEscape index := rfl

theorem readWordFrom_backslash (first : Bool) (index : Nat) (body : List Char) :
    readWordFrom first index 0 ('\\' :: body) = match wordEscape first body with
      | .error cause => fault cause index
      | .ok (code, n) => (do
        let (pieces, stop) ← readWordFrom false (index + n) 0 (('\\' :: body).drop n)
        .ok (.escape (.codePoint code) :: pieces, stop)) := by
  cases hescape : body.head? == some 'u' with
  | true =>
    obtain ⟨tail, rfl⟩ := List.head?_eq_some_iff.mp (beq_iff_eq.mp hescape)
    rw [readWordFrom_unicode, wordEscape_unicode]
    cases hpoint : readCodePoint tail with
    | error cause => rfl
    | ok found =>
      obtain ⟨code, n⟩ := found
      dsimp only
      split
      · have hn : n + 1 ≤ ('u' :: tail).length := Nat.succ_le_succ (readCodePoint_le hpoint)
        rw [readWordFrom_skip false (index + 1) hn, Nat.add_assoc, Nat.add_comm 1]
        rfl
      · rfl
  | false =>
    unfold readWordFrom
    rw [wordEscape_other (beq_eq_false_iff_ne.mp hescape), if_pos (by rfl)]
    split
    · cases hescape
    · rfl

theorem wordEscape_le {first : Bool} {body : List Char} {code n : Nat}
    (h : wordEscape first body = .ok (code, n)) : 2 ≤ n ∧ n ≤ body.length + 1 := by
  cases hescape : body.head? == some 'u' with
  | true =>
    obtain ⟨tail, rfl⟩ := List.head?_eq_some_iff.mp (beq_iff_eq.mp hescape)
    rw [wordEscape_unicode] at h
    split at h
    · cases h
    · rename_i hpoint
      have hle := readCodePoint_le hpoint
      split at h
      · cases h
        rw [List.length_cons]
        omega
      · cases h
  | false =>
    rw [wordEscape_other (beq_eq_false_iff_ne.mp hescape)] at h
    cases h

theorem readWordFrom_plain {first : Bool} {c : Char} (hc : c ≠ '\\')
    (hfits : fitsName first c = true)
    (index : Nat) (text : List Char) : readWordFrom first index 0 (c :: text) = (do
      let (pieces, stop) ← readWordFrom false (index + 1) 0 text
      .ok (.plain c :: pieces, stop)) := by
  conv => lhs; unfold readWordFrom
  rw [if_neg (by simpa using hc), if_pos hfits]

theorem readWordFrom_stop {first : Bool} {text : List Char}
    (h : ∀ c ∈ text.head?, c ≠ '\\' ∧ fitsName first c = false) (index : Nat) :
    readWordFrom first index 0 text = .ok ([], index) := by
  cases text with
  | nil => rfl
  | cons c text =>
    obtain ⟨hc, hfits⟩ := h c rfl
    unfold readWordFrom
    rw [if_neg (by simpa using hc), if_neg (by simp [hfits])]

/-- What the rounds through a name leave: the pieces are passed, and their value is what is in the
buffer together with what has not been copied. -/
structure HasPassed (s : State) (lead token : List Char) (start : Nat) (buffered : Bool)
    (value : List Char) (pieces : List Piece) (stop : Nat) (start' : Nat) (buffered' : Bool)
    (s' : State) : Prop where
  state : s' = (s.goTo (byteLength (lead ++ token.take stop))).holding s'.buffer
  pending : Pending s' (lead ++ token.take stop) start' buffered' (value ++ Piece.value pieces)
  buffered : buffered' = (buffered || !Piece.areVerbatim pieces)
  start : buffered' = false → start' = start

/-- A piece is passed before the others. -/
theorem HasPassed.cons {token value : List Char} {start start' stop : Nat}
    {buffered buffered' : Bool} {pieces : List Piece} (s₁ : State) (piece : Piece) (start₁ : Nat)
    (h : HasPassed s₁ lead token start₁ (buffered || !piece.isPlain) (value ++ piece.char?.toList)
      pieces stop start' buffered' s') (hstate : s₁ = (s.goTo s₁.pos).holding s₁.buffer)
    (hstart : piece.isPlain = true → start₁ = start) :
    HasPassed s lead token start buffered value (piece :: pieces) stop start' buffered' s' := by
  refine ⟨?_, ?_, ?_, fun hplain => ?_⟩
  · have hs' := h.state
    rw [hstate] at hs'
    exact hs'
  · have hpending := h.pending
    have hvalue : Piece.value (piece :: pieces) = piece.char?.toList ++ Piece.value pieces := by
      unfold Piece.value
      rw [List.filterMap_cons]
      cases piece.char? <;> rfl
    rwa [hvalue, ← List.append_assoc]
  · rw [h.buffered, Piece.areVerbatim, Piece.areVerbatim, List.all_cons, Bool.not_and,
      Bool.or_assoc]
  · have hboth := h.buffered
    rw [hplain] at hboth
    rw [h.start hplain]
    have hpiece := (Bool.or_eq_false_iff.mp (Bool.or_eq_false_iff.mp hboth.symm).1).2
    exact hstart (by simpa using hpiece)

/-- The rounds through a name. -/
theorem rounds_scanWordRound {length : Nat} : ∀ (fuel : Nat) {s : State}
    {done rest value : List Char} {w : WordState}, rest.length = length → At s (lead ++ done) rest →
      Pending s (lead ++ done) w.chunkStart w.escaped value → byteLength rest < fuel →
      Follows (FailsAs s lead (done ++ rest)) (readWordFrom w.first done.length 0 rest)
        (rounds scanWordRound fuel w) (fun result w' s' => HasPassed s lead (done ++ rest)
          w.chunkStart w.escaped value result.1 result.2 w'.chunkStart w'.escaped s') s := by
  induction length using Nat.strongRecOn with
  | ind length ih =>
    intro fuel s done rest value w hlength h hp hfuel
    obtain ⟨fuel, rfl⟩ := Nat.exists_eq_succ_of_ne_zero (Nat.ne_zero_of_lt hfuel)
    by_cases hstop : ∀ c ∈ rest.head?, c ≠ '\\' ∧ fitsName w.first c = false
    · rw [readWordFrom_stop hstop]
      refine .of_ok rfl (rounds_inr (scanWordRound_stop h hstop)) ⟨?_, ?_, ?_, fun _ => rfl⟩
      · rw [List.take_left, ← h.pos]
        rfl
      · simpa [Piece.value] using hp
      · rw [Piece.areVerbatim, List.all_nil, Bool.not_true, Bool.or_false]
    · cases rest with
      | nil => exact absurd (by simp) hstop
      | cons c rest =>
        by_cases hc : c = '\\'
        · subst hc
          rw [readWordFrom_backslash]
          have hescape := scanWordEscape_follows h hp
          have hround : scanWordRound w s = (do return .inl (← scanWordEscape w) : Scanner _) s :=
            scanWordRound_escape h
          cases hread : wordEscape w.first rest with
          | error cause =>
            rw [hread] at hescape
            obtain ⟨stop, s', hrun, hstop⟩ := hescape.error
            refine .of_error rfl (rounds_error (hround.trans (bind_of_error hrun)))
              (hstop.failsAs ?_)
            rw [List.take_left]
            exact h.pos
          | ok found =>
            obtain ⟨code, n⟩ := found
            rw [hread] at hescape
            obtain ⟨w', s', hrun, rfl, rfl⟩ := hescape.ok
            have hn := wordEscape_le hread
            have hnext : At ((s.past ('\\' :: rest) n).holding
              (value ++ [scalarOrReplacement code]))
                (lead ++ (done ++ ('\\' :: rest).take n)) (('\\' :: rest).drop n) := by
              rw [← List.append_assoc]
              exact (h.past n).of_eq rfl rfl
            have hbytes := congrArg byteLength (List.take_append_drop n ('\\' :: rest))
            have hpos : 0 < byteLength (('\\' :: rest).take n) := byteLength_pos (by
              rw [← List.length_pos_iff, List.length_take, List.length_cons]
              omega)
            rw [byteLength_append] at hbytes
            have hshorter : (('\\' :: rest).drop n).length < length := by
              rw [← hlength, List.length_drop, List.length_cons]
              omega
            have hrest := ih _ hshorter fuel
              (w := ⟨true, (s.past ('\\' :: rest) n).pos, false⟩) rfl hnext (.of_buffer hnext)
                (by omega)
            rw [List.length_append, List.length_take, List.length_cons, Nat.min_eq_left hn.2,
              List.append_assoc, List.take_append_drop] at hrest
            refine .of_step (.map (hrest.rebase s rfl rfl)
              fun result w' s' hresult => ?_) (rounds_inl (hround.trans (bind_of_ok hrun)))
            refine HasPassed.cons ((s.past ('\\' :: rest) n).holding
              (value ++ [scalarOrReplacement code])) (.escape (.codePoint code))
              (s.past ('\\' :: rest) n).pos ?_ rfl
              (by rintro ⟨⟩)
            have hescaped : (w.escaped || !(Piece.escape (.codePoint code)).isPlain) = true :=
              Bool.or_true _
            rwa [hescaped]
        · have hfits : fitsName w.first c = true := by
            cases hfits : fitsName w.first c with
            | true => rfl
            | false =>
              refine absurd (fun d hd => ?_) hstop
              obtain rfl : c = d := Option.some.inj hd
              exact ⟨hc, hfits⟩
          rw [readWordFrom_plain hc hfits]
          have hpos := c.utf8Size_pos
          rw [byteLength] at hfuel
          have hnext : At (s.bump c.utf8Size) (lead ++ (done ++ [c])) rest := by
            rw [← List.append_assoc]
            exact h.bump_char
          have hpending : Pending (s.bump c.utf8Size) (lead ++ (done ++ [c])) w.chunkStart w.escaped
              (value ++ [c]) := by
            rw [← List.append_assoc]
            exact hp.passed rfl
          have hrest := ih rest.length (by rw [← hlength]; exact Nat.lt_succ_self _) fuel
            (w := { w with first := false }) rfl hnext hpending (by omega)
          rw [List.length_append, List.append_assoc] at hrest
          refine .of_step (.map (hrest.rebase s rfl rfl)
            fun result w' s' hresult => ?_) (rounds_inl (scanWordRound_plain h hfits))
          refine HasPassed.cons (s.bump c.utf8Size) (.plain c) w.chunkStart ?_ rfl fun _ => rfl
          rwa [Piece.isPlain, Bool.not_true, Bool.or_false]

/-- What a name leaves that has been read: its value is in the buffer if something in it is
escaped, and otherwise what has been passed. -/
structure HasWord (s : State) (lead token : List Char) (result : List Piece × Nat) (escaped : Bool)
    (s' : State) : Prop where
  isEscaped : escaped = !Piece.areVerbatim result.1
  state : s' = { s with
    pos := byteLength (lead ++ token.take result.2)
    buffer := s'.buffer
    value := if escaped then .buffer else s.value }
  buffer : escaped = true → s'.buffer = Piece.value result.1
  passed : escaped = false → slice? s.source s.pos s'.pos = some (Piece.value result.1)

theorem byteLength_lt_take {lead done rest : List Char} {c : Char} {stop : Nat}
    (h : done.length < stop) :
    byteLength (lead ++ done) < byteLength (lead ++ (done ++ c :: rest).take stop) := by
  obtain ⟨k, rfl⟩ := Nat.exists_eq_add_of_lt h
  have hpos := c.utf8Size_pos
  rw [Nat.add_assoc, List.take_length_add_append, List.take_succ_cons, ← List.append_assoc,
    byteLength_append (lead ++ done), byteLength]
  omega

/-- A name that starts with a character that may start it, or with a backslash. -/
theorem scanWordChars_follows (done : List Char) {c : Char} (h : At s (lead ++ done) (c :: rest))
    (hstart : c = '\\' ∨ isIdentifierStart c = true) :
    Follows (FailsAs s lead (done ++ c :: rest)) (readWord done.length (c :: rest))
      (scanWordChars s.pos) (HasWord s lead (done ++ c :: rest)) s := by
  have hpending : Pending s (lead ++ done) s.pos false [] :=
    ⟨_, [], (List.append_nil _).symm, h.pos, rfl⟩
  have hrounds := rounds_scanWordRound (s.bytes.length + 1)
    (w := ⟨false, s.pos, true⟩) rfl h hpending
    (by rw [h.length_bytes]; omega)
  have hpos := readWordFrom_pos hstart done.length rest
  unfold scanWordChars readWord
  refine .run rfl (.finish (.of_step hrounds.noted (loop_eq _ _)) fun result w s' hresult => ?_)
  obtain ⟨hread, hpassed⟩ := hresult
  rw [hread] at hpos
  obtain ⟨state, pending, buffered, start⟩ := hpassed
  have hat : At s' (lead ++ (done ++ c :: rest).take result.2)
    ((done ++ c :: rest).drop result.2) :=
    h.goTo (List.append_assoc _ _ _).symm _ (by rw [state]; rfl) (by rw [state]; rfl)
  have hlt : s.pos < s'.pos := by
    rw [h.pos, hat.pos]
    exact byteLength_lt_take hpos
  have hensure : ∀ s₁ : State, s₁.pos = s'.pos →
      (do ensure (s.pos < (← position)); return w.escaped : Scanner Bool) s₁ =
        .ok w.escaped s₁ := by
    intro s₁ hs₁
    refine (bind_of_ok rfl).trans ((bind_of_ok (a := ()) ?_).trans rfl)
    rw [hs₁, decide_eq_true hlt]
    rfl
  refine ⟨w.escaped, ?_⟩
  cases hescaped : w.escaped with
  | true =>
    rw [hescaped] at pending buffered hensure
    refine ⟨{ s'.holding (Piece.value result.1) with value := .buffer }, ?_, ?_⟩
    · exact (bind_of_ok (pending.copyFrom_eq hat)).trans ((bind_of_ok rfl).trans (hensure _ rfl))
    · exact ⟨by simpa using buffered, by rw [state]; rfl, fun _ => rfl, nofun⟩
  | false =>
    rw [hescaped] at pending buffered hensure
    refine ⟨s', hensure s' rfl, by simpa using buffered, ?_, nofun, fun _ => ?_⟩
    · rw [state]
      rfl
    · obtain ⟨first, more, hbefore, hfirst, hvalue⟩ := pending.chunk
      rw [hbefore] at hat
      rw [start hescaped] at hfirst
      dsimp only at hfirst
      have hslice := hat.slice?
      have hsource : s'.source = s.source := by
        rw [state]
        rfl
      rw [← hfirst, hsource] at hslice
      rw [hslice]
      exact congrArg some hvalue.symm

/-- A name or keyword. -/
theorem scanWord_follows {c : Char} (h : At s lead (c :: rest))
    (hstart : c = '\\' ∨ isIdentifierStart c = true)
    (hflags : s.flags.invalidTemplateEscape = false) :
    Follows (FailsAs s lead (c :: rest)) (readWordLexeme (c :: rest)) scanWord
      (HasTaken s lead (c :: rest)) s := by
  have hchars := scanWordChars_follows [] (by rwa [List.append_nil]) hstart
  unfold scanWord readWordLexeme
  refine .run rfl (hchars.bind fun result escaped s' hword => ?_)
  obtain ⟨hescaped, hstate, hbuffer, hpassed⟩ := hword
  have hverbatim : Piece.areVerbatim result.1 = !escaped := by rw [hescaped, Bool.not_not]
  have hflagged : flagsAfter s.flags { Lexeme.plain
      ((Token.ofKeyword? (TokenValue.ofPieces result.1).text).getD .identifier) result.2
        (TokenValue.ofPieces result.1) with escaped := !(TokenValue.ofPieces result.1).isSlice } =
      { s.flags with escaped := s.flags.escaped || escaped } := by
    simp [flagsAfter, Lexeme.plain, TokenValue.ofPieces, hverbatim, hflags]
  cases escaped with
  | true =>
    have hholds : Holds { s' with flags := { s'.flags with escaped := true } }
        (Piece.value result.1) (Piece.areVerbatim result.1) := by
      unfold Holds
      rw [hstate]
      exact ⟨hverbatim, hbuffer rfl⟩
    refine .run rfl (.run (tokenValue_eq hholds) (.pure ⟨rfl, ?_, ?_⟩))
    · rw [hstate, hflagged, Bool.or_true]
      rfl
    · exact hholds.ofPieces
  | false =>
    have hholds : Holds { s' with value := .slice s.pos s'.pos }
        (Piece.value result.1) (Piece.areVerbatim result.1) := by
      have hsource : s'.source = s.source := by rw [hstate]
      refine ⟨hverbatim, ?_⟩
      rw [hsource]
      exact hpassed rfl
    refine .run rfl (.run rfl (.run (tokenValue_eq hholds) (.pure ⟨rfl, ?_, ?_⟩)))
    · rw [hstate, hflagged, Bool.or_false]
      rfl
    · exact hholds.ofPieces

/-- A private name. -/
theorem scanPrivateName_follows (h : At s lead ('#' :: rest))
    (hflags : s.flags.invalidTemplateEscape = false) :
    Follows (FailsAs s lead ('#' :: rest)) (readPrivateLexeme ('#' :: rest)) scanPrivateName
      (HasTaken s lead ('#' :: rest)) s := by
  have hname := h.bump_one (by decide)
  have hnext : (('#' :: rest)[1]?) = rest.head? := by
    rw [List.getElem?_cons_succ, List.head?_eq_getElem?]
  unfold scanPrivateName readPrivateLexeme
  rw [hnext]
  refine .run rfl (.run rfl (.run hname.currentChar ?_))
  split
  · rename_i hany
    obtain ⟨c, hc, hstart⟩ := (Option.any_eq_true _ _).mp hany
    obtain ⟨rest, rfl⟩ := List.head?_eq_some_iff.mp hc
    have hchars : Follows (FailsAs s lead ('#' :: c :: rest)) (readWord 1 (c :: rest))
        (scanWordChars (s.bump 1).pos) (HasWord (s.bump 1) lead ('#' :: c :: rest)) (s.bump 1) :=
      (scanWordChars_follows ['#'] hname (by simpa using hstart)).rebase s rfl rfl
    refine .run rfl (hchars.bind fun result escaped s' hword => ?_)
    obtain ⟨hescaped, hstate, hbuffer, hpassed⟩ := hword
    have hverbatim : Piece.areVerbatim result.1 = !escaped := by rw [hescaped, Bool.not_not]
    have hflagged : flagsAfter s.flags (Lexeme.plain .privateName result.2
        (TokenValue.ofPieces result.1)) = s.flags := flagsAfter_plain hflags _ _ _
    cases escaped with
    | true =>
      have hholds : Holds s' (Piece.value result.1) (Piece.areVerbatim result.1) := by
        unfold Holds
        rw [hstate]
        exact ⟨hverbatim, hbuffer rfl⟩
      refine .of_ok rfl rfl ⟨rfl, ?_, hholds.ofPieces⟩
      rw [hstate, hflagged]
      rfl
    | false =>
      have hholds : Holds { s' with value := .slice (s.pos + 1) s'.pos }
          (Piece.value result.1) (Piece.areVerbatim result.1) := by
        have hsource : s'.source = s.source := by
          rw [hstate]
          rfl
        refine ⟨hverbatim, ?_⟩
        rw [hsource]
        exact hpassed rfl
      refine .of_ok rfl rfl ⟨rfl, ?_, hholds.ofPieces⟩
      rw [hstate, hflagged]
      rfl
  · exact .fail rfl h.pos_mod ⟨by rw [h.pos, List.take_zero, List.append_nil], rfl, rfl⟩

end Names

end EcmaSyntax.Scanner
