import EcmaSyntax.Proofs.Scanner.Quoted

/-!
Template chunks on bytes. Between two escapes or line breaks the scanner goes through the
characters byte by byte.
-/

namespace EcmaSyntax.Scanner

open EcmaSyntax.Diagnostic EcmaSyntax.Lexer EcmaSyntax.Text EcmaSyntax.Unicode

variable {version : Nat} [Unicode.IdentifierChars version]

variable {s s' s₁ : State} {before rest lead token value : List Char} {q : QuotedState}
  {offset : Nat → Nat} {buffered buffered' : Bool} {pieces : List Piece} {stop : Nat}

section Chunks

variable {isFirst : Bool} {start : Nat} {c : Char}

/-- A chunk that ends, or else its pieces. -/
def readEnded (chunk : Chunk) : Except (List Piece) Chunk :=
  match chunk.ending with
  | .unterminated => .error chunk.pieces
  | _ => .ok chunk

theorem readEnded_cons (piece : Piece) (chunk : Chunk) : readEnded (chunk.cons piece) =
    match readEnded chunk with
      | .error pieces => .error (piece :: pieces)
      | .ok chunk => .ok (chunk.cons piece) := by
  obtain ⟨pieces, stop, ending⟩ := chunk
  cases ending <;> rfl

/-- The kind of a chunk. -/
def chunkToken (isFirst : Bool) : ChunkEnd → Token
  | .closed => if isFirst then .noSubstitutionTemplate else .templateTail
  | _ => if isFirst then .templateHead else .templateMiddle

/-- What the rounds through a template chunk leave that has not ended. -/
structure FailsInChunk (offset : Nat → Nat) (s : State) (start : Nat) (pieces : List Piece)
    (stop : Stop) (s' : State) : Prop where
  stop : stop = .failure ⟨.unterminatedTemplateLiteral, start⟩
  invalidEscape : s'.invalidEscape = (pieces.foldl (Notes.add offset) s.notes).invalidEscape
  comments : s'.comments = s.comments

/-- What the rounds through a template chunk leave. -/
structure HasChunk (isFirst : Bool) (offset : Nat → Nat) (s : State) (value : List Char)
    (buffered : Bool) (chunk : Chunk) (token : Token) (s' : State) : Prop where
  token : token = chunkToken isFirst chunk.ending
  quoted : HasQuoted offset s value buffered chunk.pieces chunk.stop s'
  noLegacy : chunk.pieces.any Piece.isLegacyEscape = false

/-- A piece is passed before the others. -/
theorem Follows.chunk_cons {step : Scanner Token} {chunk : Chunk} (piece : Piece)
    (h : Follows (FailsInChunk offset s₁ start) (readEnded chunk) step
      (HasChunk isFirst offset s₁ (value ++ piece.char?.toList) buffered') s')
    (hbuffered : buffered' = (buffered || !piece.isPlain))
    (hstate : s₁ = { s with
      pos := s₁.pos
      buffer := s₁.buffer
      flags := (s.notes.add offset piece).flags
      invalidEscape := (s.notes.add offset piece).invalidEscape })
    (hlegacy : piece.isLegacyEscape = false) :
    Follows (FailsInChunk offset s start) (readEnded (chunk.cons piece)) step
      (HasChunk isFirst offset s value buffered) s' := by
  rw [readEnded_cons]
  cases hread : readEnded chunk with
  | error pieces =>
    rw [hread] at h
    obtain ⟨stop, s₂, hrun, hfails⟩ := h.error
    refine .of_error rfl hrun ⟨hfails.stop, ?_, ?_⟩
    · rw [hfails.invalidEscape, hstate]
      rfl
    · rw [hfails.comments, hstate]
  | ok ended =>
    rw [hread] at h
    obtain ⟨token, s₂, hrun, hresult⟩ := h.ok
    refine .of_ok rfl hrun ⟨hresult.token, hresult.quoted.cons piece hbuffered hstate, ?_⟩
    change (piece :: ended.pieces).any Piece.isLegacyEscape = false
    rw [List.any_cons, hlegacy, hresult.noLegacy]
    rfl

theorem readChunkFrom_drop (index : Nat) {n : Nat} {text : List Char} (hn : n ≤ text.length) :
    readChunkFrom index n text = readChunkFrom (index + n) 0 (text.drop n) := by
  induction n generalizing index text with
  | zero => rfl
  | succ n ih =>
    cases text with
    | nil => cases hn
    | cons c text =>
      rw [readChunkFrom, ih _ (Nat.le_of_succ_le_succ hn), List.drop_succ_cons]
      congr 1
      omega

theorem readChunkFrom_escape (index : Nat) (body : List Char) :
    readChunkFrom index 0 ('\\' :: body) = match readQuotedEscape true index body with
      | .error _ => ⟨[], index, .unterminated⟩
      | .ok (piece, n) => (readChunkFrom (index + n) 0 (('\\' :: body).drop n)).cons piece := by
  have hdrop : ∀ n, n ≤ body.length → readChunkFrom (index + 1) n body =
      readChunkFrom (index + (n + 1)) 0 (('\\' :: body).drop (n + 1)) := fun n hn => by
    rw [readChunkFrom_drop (index + 1) hn, List.drop_succ_cons, Nat.add_assoc, Nat.add_comm 1]
  rw [readChunkFrom, if_neg (by decide), if_neg (by simp), if_pos (by rfl)]
  cases hread : readEscape body with
  | error found =>
    cases found with
    | unterminated =>
      rw [readQuotedEscape, hread]
    | malformed cause =>
      have hbody : 1 ≤ body.length := by
        cases body with
        | nil => cases hread
        | cons c rest => exact Nat.succ_pos _
      rw [readQuotedEscape_malformed true index hread, hdrop 1 hbody]
      rfl
  | ok found =>
    obtain ⟨e, n⟩ := found
    have hn := readEscape_le hread
    cases e with
    | legacy c =>
      rw [readQuotedEscape_legacy true index hread, hdrop 1 (by omega)]
      rfl
    | char | codePoint | continuation =>
      rw [readQuotedEscape_ok true index hread rfl]
      dsimp only
      rw [hdrop n hn.2]

theorem readQuotedEscape_true {index n : Nat} {body : List Char} {piece : Piece}
    (h : readQuotedEscape true index body = .ok (piece, n)) :
    piece.isLegacyEscape = false ∧ piece.isPlain = false := by
  unfold readQuotedEscape at h
  split at h
  · cases h
  · cases h
    exact ⟨rfl, rfl⟩
  · cases h
    exact ⟨rfl, rfl⟩
  · rename_i e n hlegacy hread
    cases h
    cases e with
    | legacy c => exact absurd rfl (hlegacy c)
    | char | codePoint | continuation => exact ⟨rfl, rfl⟩

theorem scanTemplateRound_end (h : At s before []) : scanTemplateRound isFirst start q s =
    .error (.failure ⟨.unterminatedTemplateLiteral, start % UInt32.size⟩) s := by
  unfold scanTemplateRound
  exact bind_of_ok h.isEof_eq

theorem scanTemplateRound_close (h : At s before ('\x60' :: rest)) :
    scanTemplateRound isFirst start q s = (do
      endQuoted q
      bump 1
      return .inr (if isFirst then .noSubstitutionTemplate else .templateTail) : Scanner _) s := by
  unfold scanTemplateRound
  refine (bind_of_ok h.isEof_eq).trans ((bind_of_ok (h.byte_ascii (by decide))).trans ?_)
  rfl

theorem scanTemplateRound_substitution (h : At s before ('$' :: '\x7b' :: rest)) :
    scanTemplateRound isFirst start q s = (do
      endQuoted q
      bump 2
      return .inr (if isFirst then .templateHead else .templateMiddle) : Scanner _) s := by
  have hbrace : ahead ('$' :: '\x7b' :: rest) 1 = '\x7b' := by
    rw [ahead_cons_succ (by decide), ahead, byteOf?_cons_zero (by decide), Option.getD_some]
  unfold scanTemplateRound
  refine (bind_of_ok h.isEof_eq).trans ((bind_of_ok (h.byte_ascii (by decide))).trans ?_)
  rw [if_neg (by decide)]
  refine (bind_of_ok (h.byteAt_eq 1)).trans ?_
  rw [hbrace]
  rfl

theorem scanTemplateRound_backslash (isFirst : Bool) (start : Nat) {body : List Char}
    (h : At s before ('\\' :: body)) :
    scanTemplateRound isFirst start q s = (do
      copyFrom q.chunkStart
      scanEscape true
      return .inl ⟨← position, true⟩ : Scanner _) s := by
  unfold scanTemplateRound
  refine (bind_of_ok h.isEof_eq).trans ((bind_of_ok (h.byte_ascii (by decide))).trans ?_)
  rw [if_neg (by decide)]
  exact (bind_of_ok (h.byteAt_eq 1)).trans rfl

theorem scanTemplateRound_return (h : At s before ('\r' :: rest)) :
    scanTemplateRound isFirst start q s = (do
      copyFrom q.chunkStart
      push ['\n']
      bump 1
      if (← byteAt 0) == '\n' then bump 1
      return .inl ⟨← position, true⟩ : Scanner _) s := by
  unfold scanTemplateRound
  refine (bind_of_ok h.isEof_eq).trans ((bind_of_ok (h.byte_ascii (by decide))).trans ?_)
  rw [if_neg (by decide)]
  exact (bind_of_ok (h.byteAt_eq 1)).trans rfl

/-- The rounds through a character that stands for itself. -/
theorem scanTemplateRound_plain (isFirst : Bool) (start : Nat) (q : QuotedState)
    (h : At s before (c :: rest)) (hclose : (c == '\x60') = false)
    (hopen : (c == '$' && rest.head? == some '\x7b') = false) (hescape : (c == '\\') = false)
    (hreturn : (c == '\r') = false) {count : Nat} (hcount : count < c.utf8Size) :
    scanTemplateRound isFirst start q (s.bump count) = .ok (.inl q) (s.bump (count + 1)) := by
  obtain ⟨heof, b, hb, hne⟩ := h.within hcount
  have hsubstitution : (b == '$' && (s.bump count).byteAt 1 == '\x7b') = false := by
    cases hdollar : c == '$' with
    | false => rw [hne _ (by decide) hdollar, Bool.false_and]
    | true =>
      obtain rfl : c = '$' := beq_iff_eq.mp hdollar
      obtain rfl : count = 0 := Nat.lt_one_iff.mp hcount
      have hbyte : (s.bump 0).byteAt 1 = ahead rest 0 := h.byteAt_succ (by decide) 0
      rw [hbyte, ahead_beq (by decide) (by decide),
        (Bool.and_eq_false_iff.mp hopen).resolve_left nofun,
        Bool.and_false]
  unfold scanTemplateRound
  refine (bind_of_ok heof).trans ((bind_of_ok hb).trans ?_)
  rw [hne _ (by decide) hclose, if_neg Bool.false_ne_true]
  refine (bind_of_ok rfl).trans ?_
  rw [hsubstitution, hne _ (by decide) hescape, hne _ (by decide) hreturn]
  rfl

theorem readChunkFrom_return (index : Nat) (rest : List Char) :
    readChunkFrom index 0 ('\r' :: rest) =
      (readChunkFrom (index + if rest.head? == some '\n' then 2 else 1) 0
        (('\r' :: rest).drop (if rest.head? == some '\n' then 2 else 1))).cons .lineBreak := by
  rw [readChunkFrom, if_neg (by decide), if_neg (by simp), if_neg (by decide), if_pos (by rfl)]
  cases hfeed : rest.head? == some '\n' with
  | false => rfl
  | true =>
    obtain ⟨tail, rfl⟩ := List.head?_eq_some_iff.mp (beq_iff_eq.mp hfeed)
    rfl

theorem readChunkFrom_plain (hclose : (c == '\x60') = false)
    (hopen : (c == '$' && rest.head? == some '\x7b') = false) (hescape : (c == '\\') = false)
    (hreturn : (c == '\r') = false) (index : Nat) :
    readChunkFrom index 0 (c :: rest) = (readChunkFrom (index + 1) 0 rest).cons (.plain c) := by
  rw [readChunkFrom, hclose, if_neg Bool.false_ne_true, hopen, if_neg Bool.false_ne_true, hescape,
    if_neg Bool.false_ne_true, hreturn, if_neg Bool.false_ne_true]

/-- A round in a template copies what has been passed even if the buffer holds nothing of it. -/
theorem InQuotes.copyFrom_eq {done : List Char} (h : InQuotes lead token done rest value q s)
    (hempty : q.buffered = false → s.buffer = []) :
    copyFrom q.chunkStart s = .ok () (s.holding value) := by
  obtain ⟨first, more, hdone, hfirst, hvalue⟩ := h.pending.chunk
  refine Pending.copyFrom_eq ⟨first, more, hdone, hfirst, ?_⟩ h.place
  cases hq : q.buffered with
  | true =>
    rw [hq] at hvalue
    exact hvalue
  | false =>
    rw [hq] at hvalue
    rw [hempty hq]
    exact hvalue

/-- A line break of one or two characters. -/
theorem scanTemplateRound_lineBreak (isFirst : Bool) (start : Nat) {done : List Char}
    (h : InQuotes lead token done ('\r' :: rest) value q s)
    (hempty : q.buffered = false → s.buffer = []) :
    scanTemplateRound isFirst start q s =
      .ok (.inl ⟨(s.past ('\r' :: rest) (if rest.head? == some '\n' then 2 else 1)).pos, true⟩)
        ((s.holding value).afterPiece (offsetIn lead token) ('\r' :: rest) .lineBreak
          (if rest.head? == some '\n' then 2 else 1)) := by
  have hnext : At (((s.holding value).push ['\n']).bump 1) (lead ++ done ++ ['\r']) rest :=
    (h.place.bump_one (by decide)).of_eq rfl rfl
  refine (scanTemplateRound_return h.place).trans ((bind_of_ok (h.copyFrom_eq hempty)).trans ?_)
  refine (bind_of_ok rfl).trans ((bind_of_ok rfl).trans ((bind_of_ok (hnext.byteAt_eq 0)).trans ?_))
  rw [ahead_beq (by decide) (by decide)]
  split
  · rename_i hfeed
    obtain ⟨tail, rfl⟩ := List.head?_eq_some_iff.mp (beq_iff_eq.mp hfeed)
    rfl
  · rfl

theorem readQuotedEscape_true_error {index : Nat} {body : List Char} {found : EscapeFault}
    (h : readQuotedEscape true index body = .error found) : found = .unterminated := by
  unfold readQuotedEscape at h
  split at h <;> cases h
  rfl

/-- The rounds through a template chunk. -/
theorem rounds_scanTemplateRound (isFirst : Bool) {length : Nat} :
    ∀ (fuel : Nat) {s : State} {done rest value : List Char} {q : QuotedState},
      rest.length = length → InQuotes lead token done rest value q s →
      (q.buffered = false → s.buffer = []) → byteLength rest < fuel →
      Follows (FailsInChunk (offsetIn lead token) s s.tokenStart)
        (readEnded (readChunkFrom done.length 0 rest))
        (rounds (scanTemplateRound isFirst s.tokenStart) fuel q)
        (HasChunk isFirst (offsetIn lead token) s value q.buffered) s := by
  induction length using Nat.strongRecOn with
  | ind length ih =>
    intro fuel s done rest value q hlength h hempty hfuel
    obtain ⟨fuel, rfl⟩ := Nat.exists_eq_succ_of_ne_zero (Nat.ne_zero_of_lt hfuel)
    cases rest with
    | nil =>
      exact .of_error rfl (rounds_error (scanTemplateRound_end h.place))
        ⟨by rw [h.start_mod], rfl, rfl⟩
    | cons c rest =>
      cases hclose : c == '\x60' with
      | true =>
        obtain rfl : c = '\x60' := beq_iff_eq.mp hclose
        obtain ⟨s₁, hrun, hs₁, hholds⟩ := endQuoted_eq h.place h.pending
        have hround : scanTemplateRound isFirst s.tokenStart q s =
            .ok (.inr (chunkToken isFirst .closed)) (s₁.bump 1) :=
          (scanTemplateRound_close h.place).trans ((bind_of_ok hrun).trans rfl)
        exact .of_ok rfl (rounds_inr hround) ⟨rfl, .ended hholds hs₁ (h.offset_add 1), rfl⟩
      | false =>
        cases hopen : c == '$' && rest.head? == some '\x7b' with
        | true =>
          rw [Bool.and_eq_true, beq_iff_eq, beq_iff_eq] at hopen
          obtain ⟨rfl, hbrace⟩ := hopen
          obtain ⟨rest, rfl⟩ := List.head?_eq_some_iff.mp hbrace
          obtain ⟨s₁, hrun, hs₁, hholds⟩ := endQuoted_eq h.place h.pending
          have hround : scanTemplateRound isFirst s.tokenStart q s =
              .ok (.inr (chunkToken isFirst .substitution)) (s₁.bump 2) :=
            (scanTemplateRound_substitution h.place).trans ((bind_of_ok hrun).trans rfl)
          exact .of_ok rfl (rounds_inr hround) ⟨rfl, .ended hholds hs₁ (h.offset_add 2), rfl⟩
        | false =>
          cases hescape : c == '\\' with
          | true =>
            obtain rfl : c = '\\' := beq_iff_eq.mp hescape
            have hround := Follows.of_step
              (escapeRound_follows Token true h (h.copyFrom_eq hempty))
              (scanTemplateRound_backslash isFirst s.tokenStart h.place)
            rw [readChunkFrom_escape]
            cases hread : readQuotedEscape true done.length rest with
            | error found =>
              rw [hread] at hround
              obtain ⟨stop, s', hrun, hfails⟩ := hround.error
              obtain rfl := readQuotedEscape_true_error hread
              exact .of_error rfl (rounds_error hrun)
                ⟨hfails.stop, hfails.invalidEscape, hfails.comments⟩
            | ok found =>
              obtain ⟨piece, n⟩ := found
              rw [hread] at hround
              obtain ⟨next, s₁, hrun, rfl, rfl⟩ := hround.ok
              obtain ⟨hlegacy, hplain⟩ := readQuotedEscape_true hread
              have hn := readQuotedEscape_le hread
              have hbytes := byteLength_drop_lt ('\\' :: rest) (by omega) hn.2
              have hrest := ih _ (by rw [← hlength, List.length_drop, List.length_cons]; omega) fuel
                rfl
                (h.piece piece n) nofun (by omega)
              rw [List.length_append, List.length_take, List.length_cons, Nat.min_eq_left hn.2]
                at hrest
              exact .of_step (.chunk_cons piece hrest
                (by rw [hplain, Bool.not_false, Bool.or_true]) rfl
                hlegacy) (rounds_inl hrun)
          | false =>
            cases hreturn : c == '\r' with
            | true =>
              obtain rfl : c = '\r' := beq_iff_eq.mp hreturn
              have hround := scanTemplateRound_lineBreak isFirst s.tokenStart h hempty
              have hn : (if rest.head? == some '\n' then 2 else 1) ≤ ('\r' :: rest).length := by
                split
                · rename_i hfeed
                  obtain ⟨tail, rfl⟩ := List.head?_eq_some_iff.mp (beq_iff_eq.mp hfeed)
                  exact Nat.le_add_left _ _
                · exact Nat.le_add_left _ _
              rw [readChunkFrom_return]
              generalize hcount : (if rest.head? == some '\n' then 2 else 1) = n at hround hn ⊢
              have hpos : 0 < n := by
                rw [← hcount]
                split <;> decide
              have hbytes := byteLength_drop_lt _ hpos hn
              have hrest := ih _ (by rw [← hlength, List.length_drop]; omega) fuel rfl
                (h.piece .lineBreak n) nofun (by omega)
              rw [List.length_append, List.length_take, Nat.min_eq_left hn] at hrest
              exact .of_step (.chunk_cons .lineBreak hrest (Bool.or_true _).symm rfl rfl)
                (rounds_inl hround)
            | false =>
              rw [byteLength] at hfuel
              obtain ⟨fuel', hfuel'⟩ := Nat.exists_eq_add_of_le' (Nat.le_of_lt
                (Nat.lt_of_le_of_lt (Nat.le_add_right _ _) hfuel))
              have hround := rounds_bump fuel' fun k hk => scanTemplateRound_plain isFirst
                s.tokenStart q h.place hclose hopen hescape hreturn hk
              have hrest := ih rest.length (by rw [← hlength]; exact Nat.lt_succ_self _) fuel' rfl
                h.plain
                hempty (by omega)
              rw [List.length_append] at hrest
              rw [readChunkFrom_plain hclose hopen hescape hreturn]
              exact .of_step (.chunk_cons (.plain c) hrest (Bool.or_false _).symm rfl rfl)
                ((congrArg (rounds _ · q s) hfuel').trans hround)

theorem readChunkLexeme_eq (isFirst : Bool) (c : Char) (rest : List Char) :
    readChunkLexeme isFirst (c :: rest) = match readEnded (readChunkFrom 1 0 rest) with
      | .error pieces =>
        .error ⟨.unterminatedTemplateLiteral, 0, pieces.findSome? Piece.invalidIndex?⟩
      | .ok chunk => .ok { Lexeme.plain (chunkToken isFirst chunk.ending) chunk.stop
          (TokenValue.ofPieces chunk.pieces) with invalidEscape := chunk.invalidEscape? } := by
  unfold readChunkLexeme readChunk readEnded
  rw [List.drop_succ_cons, List.drop_zero]
  generalize readChunkFrom 1 0 rest = chunk
  obtain ⟨pieces, stop, ending⟩ := chunk
  cases ending <;> rfl

/-- A template chunk after its opening delimiter. -/
theorem scanTemplateChunk_follows (isFirst : Bool) (h : At s (lead ++ [c]) rest)
    (hstart : s.tokenStart = byteLength lead) (hflags : s.flags.invalidTemplateEscape = false) :
    Follows (FailsAs s lead (c :: rest)) (readChunkLexeme isFirst (c :: rest))
      (scanTemplateChunk isFirst) (HasTaken s lead (c :: rest)) s := by
  have hbody : At (s.holding []) (lead ++ [c]) rest := h.of_eq rfl rfl
  have hpending : Pending (s.holding []) (lead ++ [c]) s.pos false [] :=
    ⟨_, [], (List.append_nil _).symm, hbody.pos, rfl⟩
  have hquotes : InQuotes lead (c :: rest) [c] rest [] ⟨s.pos, false⟩ (s.holding []) :=
    ⟨rfl, hbody, hstart, hpending⟩
  have hrounds := rounds_scanTemplateRound isFirst ((s.holding []).bytes.length + 1) rfl hquotes
    (fun _ => rfl) (by rw [hbody.length_bytes]; omega)
  have hnotes := fun pieces => notes_foldl (offsetIn lead (c :: rest)) pieces (s.holding []).notes
  rw [show (s.holding []).notes.flags.invalidTemplateEscape = false from hflags] at hnotes
  rw [readChunkLexeme_eq]
  unfold scanTemplateChunk
  refine .run rfl (.run rfl (.run rfl ?_))
  cases hread : readEnded (readChunkFrom 1 0 rest) with
  | error pieces =>
    rw [show [c].length = 1 from rfl, hread] at hrounds
    obtain ⟨stop, s', hrun, hfails⟩ := hrounds.error
    refine .of_error rfl hrun ⟨?_, ?_, hfails.comments⟩
    · rw [hfails.stop, List.take_zero, List.append_nil]
      exact congrArg (fun offset => Stop.failure ⟨.unterminatedTemplateLiteral, offset⟩) hstart
    · rw [hfails.invalidEscape, hnotes]
      dsimp only
      cases pieces.findSome? Piece.invalidIndex? <;> rfl
  | ok chunk =>
    rw [show [c].length = 1 from rfl, hread] at hrounds
    obtain ⟨token, s', hrun, htoken, ⟨hstate, hholds⟩, hlegacy⟩ := hrounds.ok
    rw [hnotes, hlegacy] at hstate
    refine .of_ok rfl hrun ⟨htoken, ?_, ?_⟩
    · refine hstate.trans ?_
      simp only [flagsAfter, Lexeme.plain, Chunk.invalidEscape?, Bool.or_false, Bool.false_or]
      cases chunk.pieces.findSome? Piece.invalidIndex? <;> rfl
    · rw [Bool.false_or, Bool.not_not, List.nil_append] at hholds
      exact hholds.ofPieces

end Chunks

end EcmaSyntax.Scanner
