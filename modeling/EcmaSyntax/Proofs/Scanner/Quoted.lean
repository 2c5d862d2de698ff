import EcmaSyntax.Proofs.Scanner.QuotedEscapes

/-!
Strings on bytes, and what they have in common with template chunks. Between two escapes the
scanner goes through the characters byte by byte; a mark that ends the text is never inside of one.
-/

namespace EcmaSyntax.Scanner

open EcmaSyntax.Diagnostic EcmaSyntax.Lexer EcmaSyntax.Text EcmaSyntax.Unicode

variable {version : Nat} [Unicode.IdentifierChars version]

variable {s s' s₁ : State} {before rest lead token value : List Char} {q : QuotedState}
  {offset : Nat → Nat} {buffered buffered' : Bool} {pieces : List Piece} {stop : Nat}

section Pieces

/-- The offset of a character of the token that starts behind `lead`. -/
def offsetIn (lead token : List Char) (index : Nat) : Nat := byteLength (lead ++ token.take index)

/-- What all pieces of a token tell about it. -/
theorem notes_foldl (offset : Nat → Nat) (pieces : List Piece) (notes : Notes) :
    pieces.foldl (Notes.add offset) notes =
      ⟨{ notes.flags with
          octalEscape := notes.flags.octalEscape || pieces.any Piece.isLegacyEscape
          invalidTemplateEscape := notes.flags.invalidTemplateEscape ||
            (pieces.findSome? Piece.invalidIndex?).isSome },
        if notes.flags.invalidTemplateEscape then notes.invalidEscape
        else ((pieces.findSome? Piece.invalidIndex?).map offset).getD notes.invalidEscape⟩ := by
  induction pieces generalizing notes with
  | nil => simp
  | cons piece pieces ih =>
    rw [List.foldl_cons, ih, List.any_cons, List.findSome?_cons]
    cases piece with
    | plain | lineBreak => rfl
    | invalid index => simp [Notes.add, Piece.isLegacyEscape, Piece.invalidIndex?]
    | escape e =>
      cases e with
      | legacy c => simp [Notes.add, Piece.isLegacyEscape, Piece.invalidIndex?]
      | char | codePoint | continuation => rfl

/-- What the rounds through a string or template leave that have gone through some pieces, with
what had been passed before. -/
structure HasQuoted (offset : Nat → Nat) (s : State) (value : List Char) (buffered : Bool)
    (pieces : List Piece) (stop : Nat) (s' : State) : Prop where
  state : s' = { s with
    pos := offset stop
    flags := (pieces.foldl (Notes.add offset) s.notes).flags
    invalidEscape := (pieces.foldl (Notes.add offset) s.notes).invalidEscape
    buffer := s'.buffer
    value := s'.value }
  holds : Holds s' (value ++ Piece.value pieces) (!(buffered || !Piece.areVerbatim pieces))

/-- A piece is passed before the others. -/
theorem HasQuoted.cons (piece : Piece)
    (h : HasQuoted offset s₁ (value ++ piece.char?.toList) buffered' pieces stop s')
    (hbuffered : buffered' = (buffered || !piece.isPlain))
    (hstate : s₁ = { s with
      pos := s₁.pos
      buffer := s₁.buffer
      flags := (s.notes.add offset piece).flags
      invalidEscape := (s.notes.add offset piece).invalidEscape }) :
    HasQuoted offset s value buffered (piece :: pieces) stop s' := by
  refine ⟨?_, ?_⟩
  · have hnotes : s₁.notes = s.notes.add offset piece := by
      rw [hstate]
      rfl
    have hs' := h.state
    rw [hnotes, hstate] at hs'
    exact hs'
  · have hvalue : Piece.value (piece :: pieces) = piece.char?.toList ++ Piece.value pieces := by
      unfold Piece.value
      rw [List.filterMap_cons]
      cases piece.char? <;> rfl
    have hholds := h.holds
    rwa [List.append_assoc, ← hvalue, hbuffered, Bool.or_assoc, ← Bool.not_and] at hholds

/-- The text before the end mark is the rest of the value. -/
theorem endQuoted_eq (h : At s before rest) (hp : Pending s before q.chunkStart q.buffered value) :
    ∃ s', endQuoted q s = .ok () s' ∧
      s' = { s with buffer := s'.buffer, value := s'.value } ∧ Holds s' value (!q.buffered) := by
  unfold endQuoted
  cases hq : q.buffered with
  | true =>
    rw [hq] at hp
    exact ⟨_, (bind_of_ok (hp.copyFrom_eq h)).trans rfl, rfl, rfl, rfl⟩
  | false =>
    rw [hq] at hp
    obtain ⟨first, more, rfl, hfirst, hvalue⟩ := hp.chunk
    refine ⟨_, rfl, rfl, rfl, ?_⟩
    rw [hfirst]
    exact h.slice?.trans (congrArg some hvalue.symm)

/-- After the last piece the token ends with its mark. -/
theorem HasQuoted.ended {count : Nat} (hp : Holds s₁ value (!buffered))
    (hs₁ : s₁ = { s with buffer := s₁.buffer, value := s₁.value })
    (hpos : offset stop = s.pos + count) :
    HasQuoted offset s value buffered [] stop (s₁.bump count) := by
  refine ⟨?_, ?_⟩
  · rw [hpos, hs₁]
    rfl
  · rw [Piece.value, List.filterMap_nil, List.append_nil, Piece.areVerbatim, List.all_nil,
      Bool.not_true, Bool.or_false]
    exact hp

/-- A round through a string or template starts at `s`: of the token that starts behind `lead`,
`done` has been passed, and its value is `value`. -/
structure InQuotes (lead token done rest value : List Char) (q : QuotedState) (s : State) :
    Prop where
  split : done ++ rest = token
  place : At s (lead ++ done) rest
  start : s.tokenStart = byteLength lead
  pending : Pending s (lead ++ done) q.chunkStart q.buffered value

namespace InQuotes

variable {done : List Char}

theorem offset_eq (h : InQuotes lead token done rest value q s) :
    offsetIn lead token done.length = s.pos := by
  rw [← h.split, offsetIn, List.take_left, h.place.pos]

/-- The offset behind some of the characters that come next. -/
theorem offset_add (h : InQuotes lead token done rest value q s) (n : Nat) :
    offsetIn lead token (done.length + n) = s.pos + byteLength (rest.take n) := by
  rw [← h.split, offsetIn, List.take_length_add_append, ← List.append_assoc, byteLength_append,
    h.place.pos]

theorem start_mod (h : InQuotes lead token done rest value q s) :
    s.tokenStart % UInt32.size = s.tokenStart := by
  refine h.place.mod_eq ?_
  rw [h.start, byteLength_append]
  omega

theorem start_le (h : InQuotes lead token done rest value q s) : s.tokenStart ≤ s.pos := by
  rw [h.start, h.place.pos, byteLength_append]
  exact Nat.le_add_right _ _

/-- A character that stands for itself. -/
theorem plain {c : Char} (h : InQuotes lead token done (c :: rest) value q s) :
    InQuotes lead token (done ++ [c]) rest (value ++ [c]) q (s.bump c.utf8Size) := by
  refine ⟨by rw [List.append_assoc]; exact h.split, ?_, h.start, ?_⟩
  · rw [← List.append_assoc]
    exact h.place.bump_char
  · rw [← List.append_assoc]
    exact h.pending.passed rfl

/-- What has been passed is in the buffer, and a piece is added to it. -/
theorem piece (h : InQuotes lead token done rest value q s) (piece : Piece) (n : Nat) :
    InQuotes lead token (done ++ rest.take n) (rest.drop n) (value ++ piece.char?.toList)
      ⟨(s.past rest n).pos, true⟩ ((s.holding value).afterPiece
        (offsetIn lead token) rest piece n) := by
  have hplace : At ((s.holding value).afterPiece (offsetIn lead token) rest piece n)
      (lead ++ (done ++ rest.take n)) (rest.drop n) := by
    rw [← List.append_assoc]
    exact (h.place.past n).of_eq rfl rfl
  refine ⟨?_, hplace, h.start, .of_buffer hplace⟩
  rw [List.append_assoc, List.take_append_drop, h.split]

/-- A fault at the start of the token. -/
theorem failsAtStart (h : InQuotes lead token done rest value q s) (cause : Cause) :
    FailsAs s lead token ⟨cause, 0, none⟩ (.failure ⟨cause, s.tokenStart % UInt32.size⟩) s := by
  refine ⟨?_, rfl, rfl⟩
  rw [h.start_mod, h.start, List.take_zero, List.append_nil]

end InQuotes

end Pieces

section Strings

variable {quote c : Char}

theorem readStringFrom_drop (quote : Char) (index : Nat) {n : Nat} {text : List Char}
    (hn : n ≤ text.length) :
    readStringFrom quote index n text = readStringFrom quote (index + n) 0 (text.drop n) := by
  induction n generalizing index text with
  | zero => rfl
  | succ n ih =>
    cases text with
    | nil => cases hn
    | cons c text =>
      rw [readStringFrom, ih _ (Nat.le_of_succ_le_succ hn), List.drop_succ_cons]
      congr 1
      omega

/-- What a string fault says about an escape. -/
def stringFault (index : Nat) : EscapeFault → Fault
  | .unterminated => ⟨.unterminatedStringLiteral, 0, none⟩
  | .malformed cause => ⟨cause, index, none⟩

theorem readStringFrom_backslash (hquote : ('\\' == quote) = false) (index : Nat)
    (body : List Char) :
    readStringFrom quote index 0 ('\\' :: body) = match readQuotedEscape false index body with
      | .error found => .error (stringFault index found)
      | .ok (piece, n) => (do
        let (pieces, stop) ← readStringFrom quote (index + n) 0 (('\\' :: body).drop n)
        .ok (piece :: pieces, stop)) := by
  have hdrop : ∀ e n, readEscape body = .ok (e, n) → readStringFrom quote (index + 1) n body =
      readStringFrom quote (index + (n + 1)) 0 (('\\' :: body).drop (n + 1)) := fun e n hread => by
    rw [readStringFrom_drop quote (index + 1) (readEscape_le hread).2, List.drop_succ_cons,
      Nat.add_assoc, Nat.add_comm 1]
  rw [readStringFrom, hquote, if_neg Bool.false_ne_true, if_pos (by rfl)]
  cases hread : readEscape body with
  | error found =>
    cases found with
    | unterminated =>
      rw [readQuotedEscape, hread]
      rfl
    | malformed cause =>
      rw [readQuotedEscape_malformed false index hread]
      rfl
  | ok found =>
    obtain ⟨e, n⟩ := found
    dsimp only
    rw [hdrop e n hread]
    cases e with
    | legacy c =>
      rw [readQuotedEscape_legacy false index hread]
      rfl
    | char | codePoint | continuation =>
      rw [readQuotedEscape_ok false index hread rfl]

theorem readStringFrom_plain (hquote : (c == quote) = false) (hescape : (c == '\\') = false)
    (hline : (c == '\n' || c == '\r') = false) (index : Nat) (text : List Char) :
    readStringFrom quote index 0 (c :: text) = (do
      let (pieces, stop) ← readStringFrom quote (index + 1) 0 text
      .ok (.plain c :: pieces, stop)) := by
  rw [readStringFrom, hquote, if_neg Bool.false_ne_true, hescape, if_neg Bool.false_ne_true, hline,
    if_neg Bool.false_ne_true]

variable {start : Nat}

theorem scanStringRound_end (h : At s before []) : scanStringRound start quote q s =
    .error (.failure ⟨.unterminatedStringLiteral, start % UInt32.size⟩) s := by
  unfold scanStringRound
  exact bind_of_ok h.isEof_eq

theorem scanStringRound_quote (h : At s before (quote :: rest)) (hquote : isAscii quote = true) :
    scanStringRound start quote q s = (do
      endQuoted q
      bump 1
      return .inr () : Scanner _) s := by
  unfold scanStringRound
  refine (bind_of_ok h.isEof_eq).trans ((bind_of_ok (h.byte_ascii hquote)).trans ?_)
  rw [if_pos (beq_self_eq_true quote)]

theorem scanStringRound_backslash (start : Nat) (q : QuotedState) {body : List Char}
    (h : At s before ('\\' :: body))
    (hquote : ('\\' == quote) = false) : scanStringRound start quote q s = (do
      flush q.chunkStart q.buffered
      scanEscape false
      return .inl ⟨← position, true⟩ : Scanner _) s := by
  unfold scanStringRound
  refine (bind_of_ok h.isEof_eq).trans ((bind_of_ok (h.byte_ascii (by decide))).trans ?_)
  rw [hquote]
  rfl

theorem scanStringRound_line (h : At s before (c :: rest)) (hc : isAscii c = true)
    (hquote : (c == quote) = false) (hescape : (c == '\\') = false)
    (hline : (c == '\n' || c == '\r') = true) : scanStringRound start quote q s =
      .error (.failure ⟨.unterminatedStringLiteral, start % UInt32.size⟩) s := by
  unfold scanStringRound
  refine (bind_of_ok h.isEof_eq).trans ((bind_of_ok (h.byte_ascii hc)).trans ?_)
  rw [hquote, hescape, hline]
  rfl

/-- The rounds through a character that stands for itself. -/
theorem scanStringRound_plain (start : Nat) (q : QuotedState) (h : At s before (c :: rest))
    (hascii : isAscii quote = true)
    (hquote : (c == quote) = false) (hescape : (c == '\\') = false)
    (hline : (c == '\n' || c == '\r') = false) {count : Nat} (hcount : count < c.utf8Size) :
    scanStringRound start quote q (s.bump count) = .ok (.inl q) (s.bump (count + 1)) := by
  obtain ⟨heof, b, hb, hne⟩ := h.within hcount
  rw [Bool.or_eq_false_iff] at hline
  unfold scanStringRound
  refine (bind_of_ok heof).trans ((bind_of_ok hb).trans ?_)
  rw [hne quote hascii hquote, hne _ (by decide) hescape, hne _ (by decide) hline.1,
    hne _ (by decide) hline.2]
  rfl

/-- An escape is a round of its own, after what has been passed is in the buffer. -/
theorem escapeRound_follows (α : Type) (inTemplate : Bool) {done body : List Char}
    (h : InQuotes lead token done ('\\' :: body) value q s)
    {copy : Scanner Unit} (hcopy : copy s = .ok () (s.holding value)) :
    Follows (FailsInQuotes s inTemplate) (readQuotedEscape inTemplate done.length body)
      (do
        copy
        scanEscape inTemplate
        return .inl ⟨← position, true⟩ : Scanner (QuotedState ⊕ α))
      (fun result next s' => next = .inl ⟨s'.pos, true⟩ ∧
        s' = (s.holding value).afterPiece (offsetIn lead token) ('\\' :: body) result.1 result.2)
          s := by
  have hflushed : At (s.holding value) (lead ++ done) ('\\' :: body) := h.place.of_eq rfl rfl
  have hpiece := scanEscape_follows inTemplate done.length hflushed h.offset_eq h.start_le
  have hfailing : ∀ found stop s', FailsInQuotes (s.holding value) inTemplate found stop s' →
      FailsInQuotes s inTemplate found stop s' := by
    intro found stop s' hfails
    cases found with
    | unterminated => exact ⟨hfails.stop, hfails.invalidEscape, hfails.comments⟩
    | malformed cause => exact ⟨hfails.stop, hfails.invalidEscape, hfails.comments⟩
  exact .run hcopy ((hpiece.weaken hfailing).finish fun result _ s' hs' => ⟨_, s', rfl, rfl, hs'⟩)

theorem add_invalidEscape (notes : Notes) {piece : Piece} (h : piece.invalidIndex? = none) :
    (notes.add offset piece).invalidEscape = notes.invalidEscape := by
  cases piece with
  | plain | lineBreak => rfl
  | invalid index => cases h
  | escape e => cases e <;> rfl

theorem readQuotedEscape_false {index n : Nat} {body : List Char} {piece : Piece}
    (h : readQuotedEscape false index body = .ok (piece, n)) : ∃ e, piece = .escape e := by
  unfold readQuotedEscape at h
  split at h <;> cases h <;> exact ⟨_, rfl⟩

/-- What the rounds through a string leave. -/
structure HasString (offset : Nat → Nat) (s : State) (value : List Char) (buffered : Bool)
    (result : List Piece × Nat) (s' : State) : Prop where
  quoted : HasQuoted offset s value buffered result.1 result.2 s'
  noInvalid : result.1.findSome? Piece.invalidIndex? = none

/-- A piece is passed before the others. -/
theorem Follows.string_cons {step : Scanner Unit} {reading : Reading (List Piece × Nat)}
    (piece : Piece) (h : Follows (FailsAs s₁ lead token) reading step
      (fun result _ => HasString offset s₁ (value ++ piece.char?.toList) buffered' result) s')
    (hbuffered : buffered' = (buffered || !piece.isPlain))
    (hstate : s₁ = { s with
      pos := s₁.pos
      buffer := s₁.buffer
      flags := (s.notes.add offset piece).flags
      invalidEscape := (s.notes.add offset piece).invalidEscape })
    (hinvalid : piece.invalidIndex? = none) : Follows (FailsAs s lead token) (do
      let (pieces, stop) ← reading
      .ok (piece :: pieces, stop)) step (fun result _ => HasString offset s value buffered result)
        s' := by
  have hcomments : s₁.comments = s.comments := by rw [hstate]
  have hsame : s₁.invalidEscape = s.invalidEscape := by
    rw [hstate]
    exact add_invalidEscape s.notes hinvalid
  refine (h.rebase s hsame hcomments).map
    fun result _ s' hresult => ⟨hresult.quoted.cons piece hbuffered hstate, ?_⟩
  rw [List.findSome?_cons, hinvalid, hresult.noInvalid]

/-- The rounds through a string. -/
theorem rounds_scanStringRound (hquote : isAscii quote = true) {length : Nat} :
    ∀ (fuel : Nat) {s : State} {done rest value : List Char} {q : QuotedState},
      rest.length = length → InQuotes lead token done rest value q s → byteLength rest < fuel →
      Follows (FailsAs s lead token) (readStringFrom quote done.length 0 rest)
        (rounds (scanStringRound s.tokenStart quote) fuel q)
        (fun result _ => HasString (offsetIn lead token) s value q.buffered result) s := by
  induction length using Nat.strongRecOn with
  | ind length ih =>
    intro fuel s done rest value q hlength h hfuel
    obtain ⟨fuel, rfl⟩ := Nat.exists_eq_succ_of_ne_zero (Nat.ne_zero_of_lt hfuel)
    cases rest with
    | nil => exact .of_error rfl (rounds_error (scanStringRound_end h.place)) (h.failsAtStart _)
    | cons c rest =>
      cases hc : c == quote with
      | true =>
        obtain rfl : c = quote := beq_iff_eq.mp hc
        obtain ⟨s₁, hrun, hs₁, hholds⟩ := endQuoted_eq h.place h.pending
        have hround : scanStringRound s.tokenStart c q s = .ok (.inr ()) (s₁.bump 1) :=
          (scanStringRound_quote h.place hquote).trans ((bind_of_ok hrun).trans rfl)
        have hread : readStringFrom c done.length 0 (c :: rest) = .ok ([], done.length + 1) := by
          rw [readStringFrom, if_pos hc]
        have hpos : offsetIn lead token (done.length + 1) = s.pos + 1 := by
          rw [h.offset_add, List.take_succ_cons, List.take_zero, byteLength,
            utf8Size_of_isAscii hquote]
          rfl
        exact .of_ok hread (rounds_inr hround) ⟨.ended hholds hs₁ hpos, rfl⟩
      | false =>
        cases hescape : c == '\\' with
        | true =>
          obtain rfl : c = '\\' := beq_iff_eq.mp hescape
          have hround := Follows.of_step
            (escapeRound_follows Unit false h (h.pending.flush_eq h.place))
            (scanStringRound_backslash s.tokenStart q h.place hc)
          rw [readStringFrom_backslash hc]
          cases hread : readQuotedEscape false done.length rest with
          | error found =>
            rw [hread] at hround
            obtain ⟨stop, s', hrun, hfails⟩ := hround.error
            refine .of_error rfl (rounds_error hrun) ?_
            cases found with
            | unterminated =>
              exact FailsAt.failsAs hfails (by rw [h.start, List.take_zero, List.append_nil])
            | malformed cause => exact FailsAt.failsAs hfails h.offset_eq.symm
          | ok found =>
            obtain ⟨piece, n⟩ := found
            rw [hread] at hround
            obtain ⟨next, s₁, hrun, rfl, rfl⟩ := hround.ok
            obtain ⟨e, rfl⟩ := readQuotedEscape_false hread
            have hn := readQuotedEscape_le hread
            have hbytes := byteLength_drop_lt ('\\' :: rest) (by omega) hn.2
            have hrest := ih _ (by rw [← hlength, List.length_drop, List.length_cons]; omega) fuel
              rfl
              (h.piece (.escape e) n) (by omega)
            rw [List.length_append, List.length_take, List.length_cons, Nat.min_eq_left hn.2]
              at hrest
            exact .of_step (.string_cons (.escape e) hrest (Bool.or_true _).symm rfl rfl)
              (rounds_inl hrun)
        | false =>
          cases hline : c == '\n' || c == '\r' with
          | true =>
            have hascii : isAscii c = true := by
              rw [Bool.or_eq_true, beq_iff_eq, beq_iff_eq] at hline
              rcases hline with rfl | rfl <;> rfl
            have hread : readStringFrom quote done.length 0 (c :: rest) =
                fault .unterminatedStringLiteral 0 := by
              rw [readStringFrom, hc, if_neg Bool.false_ne_true, hescape, if_neg Bool.false_ne_true,
                if_pos hline]
            exact .of_error hread
              (rounds_error (scanStringRound_line h.place hascii hc hescape hline))
                (h.failsAtStart _)
          | false =>
            rw [byteLength] at hfuel
            obtain ⟨fuel', hfuel'⟩ := Nat.exists_eq_add_of_le' (Nat.le_of_lt
              (Nat.lt_of_le_of_lt (Nat.le_add_right _ _) hfuel))
            have hround := rounds_bump fuel' fun k hk =>
              scanStringRound_plain s.tokenStart q h.place hquote hc hescape hline hk
            have hrest := ih rest.length (by rw [← hlength]; exact Nat.lt_succ_self _) fuel' rfl
              h.plain
              (by omega)
            rw [List.length_append] at hrest
            rw [readStringFrom_plain hc hescape hline]
            exact .of_step (.string_cons (.plain c) hrest (Bool.or_false _).symm rfl rfl)
              ((congrArg (rounds _ · q s) hfuel').trans hround)

/-- A string. -/
theorem scanStringLiteral_follows (h : At s lead (quote :: rest)) (hquote : isAscii quote = true)
    (hstart : s.tokenStart = s.pos) (hflags : s.flags.invalidTemplateEscape = false) :
    Follows (FailsAs s lead (quote :: rest)) (readStringLexeme quote (quote :: rest))
      (scanStringLiteral quote) (HasTaken s lead (quote :: rest)) s := by
  have hbody := h.bump_one hquote
  have hpending : Pending (s.bump 1) (lead ++ [quote]) (s.bump 1).pos false [] :=
    ⟨_, [], (List.append_nil _).symm, hbody.pos, rfl⟩
  have hquotes : InQuotes lead (quote :: rest) [quote] rest [] ⟨s.pos + 1, false⟩ (s.bump 1) :=
    ⟨rfl, hbody, hstart.trans h.pos, hpending⟩
  have hrounds := rounds_scanStringRound hquote ((s.bump 1).bytes.length + 1) rfl hquotes
    (by rw [hbody.length_bytes]; omega)
  have hloop := Follows.of_step (hrounds.rebase s rfl rfl) (loop_eq _ _)
  change Follows _ _ (loop (scanStringRound s.tokenStart quote) _) _ _ at hloop
  rw [hstart] at hloop
  unfold scanStringLiteral readStringLexeme readString
  refine .run rfl (.run rfl (.run rfl (hloop.bind fun result _ s' hs' => ?_)))
  obtain ⟨⟨hstate, hholds⟩, hnone⟩ := hs'
  rw [notes_foldl, hnone] at hstate
  refine .pure ⟨rfl, ?_, ?_⟩
  · have hnotes : flagsAfter s.flags { Lexeme.plain .stringLiteral result.2
        (TokenValue.ofPieces result.1) with octalEscape := result.1.any Piece.isLegacyEscape } =
        { s.flags with
          octalEscape := s.flags.octalEscape || result.1.any Piece.isLegacyEscape } := by
      simp [flagsAfter, Lexeme.plain, hflags]
    rw [hnotes]
    refine hstate.trans ?_
    simp [State.notes, State.bump, Lexeme.plain, hflags, offsetIn]
  · rw [Bool.false_or, Bool.not_not, List.nil_append] at hholds
    exact hholds.ofPieces

end Strings

end EcmaSyntax.Scanner
