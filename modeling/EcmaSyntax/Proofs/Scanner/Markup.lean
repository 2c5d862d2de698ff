import EcmaSyntax.Proofs.Scanner.Agreement

/-!
Markup on bytes. Text and attribute values are gone through byte by byte up to one that ends them,
which is a character of the text; names are read as characters.
-/

namespace EcmaSyntax.Scanner

open EcmaSyntax.Diagnostic EcmaSyntax.Lexer EcmaSyntax.Text EcmaSyntax.Unicode

variable {version : Nat} [Unicode.IdentifierChars version]

variable {s s' : State} {l : Lexer.State} {text before raw rest lead token : List Char}
  {value : TokenValue} {regexFlags : String} {c : Char} {index : Nat}

section Contents

/-- The byte ends the text between tags, or may not stand in it. -/
theorem scanMarkupTextRound_end (h : At s before rest)
    (hend : rest.head?.all fun c => c == '\x7b' || c == '<') :
    scanMarkupTextRound () s = .ok (.inr ()) s := by
  unfold scanMarkupTextRound
  refine (bind_of_ok h.isEof_eq).trans ?_
  cases rest with
  | nil => rfl
  | cons c rest =>
    have hc : (c == '\x7b' || c == '<') = true := hend
    have hascii : isAscii c = true := by
      rw [Bool.or_eq_true, beq_iff_eq, beq_iff_eq] at hc
      rcases hc with rfl | rfl <;> decide
    refine (bind_of_ok (h.byte_ascii hascii)).trans ?_
    rw [if_pos hc]
    rfl

theorem scanMarkupTextRound_refused (h : At s before (c :: rest))
    (hend : (c == '\x7b' || c == '<') = false)
    (hc : (c == '>' || c == '\x7d') = true) : scanMarkupTextRound () s =
      .error (.failure ⟨.unexpectedToken (String.singleton c), s.pos⟩) s := by
  have hascii : isAscii c = true := by
    rw [Bool.or_eq_true, beq_iff_eq, beq_iff_eq] at hc
    rcases hc with rfl | rfl <;> decide
  unfold scanMarkupTextRound
  refine (bind_of_ok h.isEof_eq).trans ((bind_of_ok (h.byte_ascii hascii)).trans ?_)
  rw [if_neg (by rw [hend]; exact Bool.false_ne_true), if_pos hc]
  refine (bind_of_ok rfl).trans ?_
  change EStateM.Result.error (Stop.failure ⟨_, s.pos % UInt32.size⟩) s = _
  rw [h.pos_mod]

/-- The rounds through another character. -/
theorem rounds_scanMarkupTextRound_char (h : At s before (c :: rest))
    (hend : (c == '\x7b' || c == '<') = false) (hc : (c == '>' || c == '\x7d') = false)
    (fuel : Nat) :
    rounds scanMarkupTextRound (fuel + c.utf8Size) () s =
      rounds scanMarkupTextRound fuel () (s.bump c.utf8Size) := by
  rw [Bool.or_eq_false_iff] at hend hc
  refine rounds_bump fuel fun k hk => ?_
  obtain ⟨heof, b, hb, hne⟩ := h.within hk
  unfold scanMarkupTextRound
  refine (bind_of_ok heof).trans ((bind_of_ok hb).trans ?_)
  rw [hne _ (by decide) hend.1, hne _ (by decide) hend.2, hne _ (by decide) hc.1,
    hne _ (by decide) hc.2]
  rfl

/-- What is left when text between tags has been passed. -/
structure HasText (s : State) (token : List Char) (index : Nat) (body : List Char) (s' : State) :
    Prop where
  state : s' = s.past token (index + body.length)
  isPrefix : body <+: token.drop index

theorem rounds_scanMarkupTextRound (h : At s lead token) (rest : List Char) :
    ∀ (index fuel : Nat), token.drop index = rest → byteLength rest < fuel →
      Follows (FailsAs s lead token) (readMarkupText index rest)
        (rounds scanMarkupTextRound fuel ())
        (fun body _ s' => HasText s token index body s') (s.past token index) := by
  induction rest with
  | nil =>
    intro index fuel hrest hfuel
    obtain ⟨fuel, rfl⟩ := Nat.exists_eq_succ_of_ne_zero (Nat.ne_of_gt (Nat.zero_lt_of_lt hfuel))
    have hplace := h.past index
    rw [hrest] at hplace
    exact .of_ok rfl (rounds_inr (scanMarkupTextRound_end hplace rfl)) ⟨rfl, List.nil_prefix⟩
  | cons c rest ih =>
    intro index fuel hrest hfuel
    have hplace := h.past index
    rw [hrest] at hplace
    have hnext := drop_succ_of_eq hrest
    rw [byteLength] at hfuel
    obtain ⟨fuel, rfl⟩ := Nat.exists_eq_add_of_lt (Nat.lt_of_le_of_lt (Nat.le_add_right _ _) hfuel)
    rw [readMarkupText]
    split
    · rename_i hend
      exact .of_ok rfl (rounds_inr (scanMarkupTextRound_end hplace hend)) ⟨rfl, List.nil_prefix⟩
    rename_i hend
    rw [Bool.not_eq_true] at hend
    split
    · rename_i hc
      refine .of_error rfl (rounds_error (scanMarkupTextRound_refused hplace hend hc))
        ⟨?_, rfl, rfl⟩
      rw [h.past_pos]
    · rename_i hc
      rw [Bool.not_eq_true] at hc
      have hrounds := rounds_scanMarkupTextRound_char hplace hend hc (fuel + 1)
      have hmore := ih (index + 1) (fuel + 1) hnext (by omega)
      rw [State.past_bump hrest] at hrounds
      rw [Nat.add_comm (fuel + 1), ← Nat.add_assoc] at hrounds
      refine Follows.of_step (hmore.map fun body _ s' hbody => ⟨?_, ?_⟩) hrounds
      · rw [hbody.state, List.length_cons, Nat.add_assoc, Nat.add_comm 1]
      · obtain ⟨after, hafter⟩ := hbody.isPrefix
        rw [hnext] at hafter
        exact ⟨after, by rw [hrest, ← hafter]; rfl⟩

/-- What is left when a value of markup text has been noted. -/
theorem setMarkupValue_eq {start stop : Nat} {text : List Char}
    (h : slice? s.source start stop = some text) : ∃ value buffer,
      setMarkupValue start stop s = .ok () { s with value := value, buffer := buffer } ∧
        Holds { s with value := value, buffer := buffer } (markupValue text).text.toList
          (markupValue text).isSlice := by
  unfold setMarkupValue
  cases hentity : text.contains '&' with
  | true =>
    refine ⟨.buffer, decodeEntities text, (bind_of_ok (slice_eq h)).trans ?_, ?_⟩
    · rw [hentity]
      rfl
    · unfold markupValue
      rw [hentity, String.toList_ofList]
      exact ⟨rfl, rfl⟩
  | false =>
    have hslice : (markupValue text).isSlice = true := by
      unfold markupValue
      rw [hentity]
      rfl
    refine ⟨.slice start stop, s.buffer, (bind_of_ok (slice_eq h)).trans ?_, hslice, ?_⟩
    · rw [hentity]
      rfl
    · rw [markupValue_slice hslice]
      exact h

/-- The state before a part of markup contents. -/
def State.atChild (s : State) : State := { s with flags := TokenFlags.none, tokenStart := s.pos }

/-- The state behind a part of markup contents. -/
theorem Shows.child (h : Shows text s before raw rest value regexFlags) {count : Nat}
    {token : Token}
    {newValue : TokenValue} (hs' : s' = { s.atChild.past rest count with
      token := token
      value := s'.value
      buffer := s'.buffer })
    (hvalue : Holds s' newValue.text.toList newValue.isSlice) (hle : count ≤ rest.length) :
    Agrees text s' { s.toLexer (raw ++ rest) rest value regexFlags with
      flags := TokenFlags.none
      start := ⟨s.pos, rest⟩
      token := token
      cursor := (Cursor.mk s.pos rest).advance count
      value := newValue } := by
  have hpast := (h.place.past count).pos
  refine ⟨before ++ raw, rest.take count, rest.drop count, newValue, regexFlags,
    ⟨?_, ?_, hvalue, ?_, ?_⟩, ?_⟩
  · rw [hs']
    exact (h.place.past count).of_eq rfl rfl
  · rw [hs']
    exact h.place.pos
  · rw [hs']
    exact h.regexFlags
  · rw [hs']
    exact h.source
  · rw [h.place.pos, advance_eq _ hle, ← hpast, ← h.place.pos, List.take_append_drop, hs']
    rfl

/-- The lexer reads the text up to the next tag or brace. -/
theorem scanMarkupChild_text (hrest : l.cursor.rest = c :: rest) (hbrace : c ≠ '\x7b')
    (hangle : c ≠ '<') : Lexer.scanMarkupChild l = (do
      let body ← ofReading l.cursor (readMarkupText 0 (c :: rest))
      modify fun l' => { l' with
        token := .jsxText
        cursor := l.cursor.advance body.length
        value := markupValue body }
      return Token.jsxText : Lexer Token)
    { l with flags := TokenFlags.none, start := l.cursor } := by
  unfold Lexer.scanMarkupChild
  refine (bind_of_ok rfl).trans ((bind_of_ok rfl).trans ?_)
  dsimp only
  refine congrFun ?_ _
  split
  · rename_i heq
    cases heq.symm.trans hrest
  · rename_i heq
    exact absurd (List.cons.inj (heq.symm.trans hrest)).1.symm hbrace
  · rename_i heq
    exact absurd (List.cons.inj (heq.symm.trans hrest)).1.symm hangle
  · rw [hrest]
    rfl

theorem scanMarkupPart_eq (hbrace : c ≠ '\x7b') (hangle : c ≠ '<') :
    scanMarkupPart c = scanMarkupText := by
  unfold scanMarkupPart
  split
  · exact absurd rfl hbrace
  · exact absurd rfl hangle
  · rfl

theorem Agrees.scanMarkupChild (h : Agrees text s l) :
    Simulates text scanMarkupChild Lexer.scanMarkupChild s l := by
  obtain ⟨before, raw, rest, value, regexFlags, hshows, rfl⟩ := h
  have hplace : At s.atChild (before ++ raw) rest := hshows.place.of_eq rfl rfl
  have hheld : Holds s.atChild value.text.toList value.isSlice := hshows.value
  unfold Simulates Scanner.scanMarkupChild
  refine .run rfl (.run hplace.isEof_eq ?_)
  cases rest with
  | nil =>
    have hchild : Agrees text { s.atChild with token := .endOfSource } _ :=
      hshows.child rfl hheld (Nat.zero_le _)
    exact .run rfl (.of_ok (outcome_ok rfl) rfl ⟨rfl, hchild⟩)
  | cons c rest =>
    have hone : ∀ token, isAscii c = true →
        Agrees text { s.atChild.bump 1 with token := token }
          { s.toLexer (raw ++ c :: rest) (c :: rest) value regexFlags with
            flags := TokenFlags.none
            start := ⟨s.pos, c :: rest⟩
            token := token
            cursor := (Cursor.mk s.pos (c :: rest)).advance 1
            value := value } := fun token hc => by
      have hpast : s.atChild.past (c :: rest) 1 = s.atChild.bump 1 :=
        State.past_of_isAscii _ (List.forall_mem_singleton.mpr hc) (Nat.succ_pos _)
      refine hshows.child ?_ hheld (Nat.succ_pos _)
      rw [hpast]
    by_cases hbrace : c = '\x7b'
    · subst hbrace
      have hbyte := hplace.byte_ascii (by decide)
      exact .run hbyte (.run rfl (.run rfl (.of_ok (outcome_ok rfl) rfl ⟨rfl, hone _ (by decide)⟩)))
    by_cases hangle : c = '<'
    · subst hangle
      have hbyte := hplace.byte_ascii (by decide)
      exact .run hbyte (.run rfl (.run rfl (.of_ok (outcome_ok rfl) rfl ⟨rfl, hone _ (by decide)⟩)))
    have hread := scanMarkupChild_text
      (l := s.toLexer (raw ++ c :: rest) (c :: rest) value regexFlags) rfl hbrace hangle
    have htext : Follows (FailsAs s (before ++ raw) (c :: rest)) (readMarkupText 0 (c :: rest))
        (loop scanMarkupTextRound ()) (fun body _ s' => HasText s.atChild (c :: rest) 0 body s')
        s.atChild := by
      have hrounds := rounds_scanMarkupTextRound hplace (c :: rest) 0
        (s.atChild.bytes.length + 1) rfl
        (by rw [hplace.length_bytes]; omega)
      exact (hrounds.rebase s rfl rfl).of_step (loop_eq _ _)
    have hfits : (readMarkupText 0 (c :: rest)).Within (c :: rest).length fun body =>
        ∃ after, c :: rest = body ++ after := by
      have hwithin := readMarkupText_within (c :: rest) 0
      rwa [Nat.zero_add] at hwithin
    have hsimulates : Follows (FailsLike s)
        (outcome (do
          let body ← ofReading ⟨byteLength (before ++ raw), c :: rest⟩
            (readMarkupText 0 (c :: rest))
          modify fun l => { l with
            token := .jsxText
            cursor := (Cursor.mk (byteLength (before ++ raw)) (c :: rest)).advance body.length
            value := markupValue body }
          return Token.jsxText)
          { s.toLexer (raw ++ c :: rest) (c :: rest) value regexFlags with
            flags := TokenFlags.none
            start := ⟨s.pos, c :: rest⟩ })
        (do
          loop scanMarkupTextRound ()
          setMarkupValue s.pos (← position)
          setToken .jsxText
          return Token.jsxText)
        (fun found a s' => a = found.1 ∧ Agrees text s' found.2) s.atChild := by
      refine ofReading_simulates htext hfits rfl rfl fun body _ s₁ hread hafter hbody => ?_
      obtain ⟨after, hafter⟩ := hafter
      have htake : (c :: rest).take body.length = body := by rw [hafter, List.take_left]
      have hstate : s₁ = s.atChild.past (c :: rest) body.length := by
        rw [hbody.state, Nat.zero_add]
      have hslice : slice? s₁.source s.pos s₁.pos = some body := by
        have hpast := hplace.past body.length
        rw [← hstate, htake] at hpast
        rw [hshows.place.pos]
        exact hpast.slice?
      obtain ⟨source, buffer, hset, hheld⟩ := setMarkupValue_eq hslice
      have hle : body.length ≤ (c :: rest).length := by
        rw [hafter, List.length_append]
        exact Nat.le_add_right _ _
      rw [← hshows.place.pos]
      refine .run rfl
        (.run hset (.run rfl (.of_ok (outcome_ok rfl) rfl ⟨rfl, hshows.child ?_ hheld hle⟩)))
      rw [hstate]
    obtain ⟨-, b, hb, hne⟩ := hplace.within c.utf8Size_pos
    have hbrace' := hne '\x7b' (by decide) (beq_eq_false_iff_ne.mpr hbrace)
    have hangle' := hne '<' (by decide) (beq_eq_false_iff_ne.mpr hangle)
    have hpart : scanMarkupPart b = scanMarkupText :=
      scanMarkupPart_eq (beq_eq_false_iff_ne.mp hbrace') (beq_eq_false_iff_ne.mp hangle')
    refine .run hb ?_
    rw [hpart, outcome, hread]
    unfold scanMarkupText
    rw [bind_assoc]
    refine .run rfl ?_
    simp only [bind_assoc, pure_bind]
    rw [← hshows.place.pos] at hsimulates
    exact hsimulates

end Contents

section Names

theorem isMarkupNamePart_of_isAscii (hc : isAscii c = true) :
    isMarkupNamePart c = (c == '-' || isIdentifierPartByte c) := by
  have hpart := fitsName_of_isAscii hc false
  rw [Bool.false_and, Bool.not_false, Bool.and_true] at hpart
  exact congrArg (c == '-' || ·) hpart

theorem isMarkupNamePart_wide (hc : isAscii c = false) :
    isMarkupNamePart c = isIdentifierPart c := by
  rw [isMarkupNamePart, beq_wide hc (by decide), Bool.false_or]

/-- A character of the name. -/
theorem scanMarkupNameRound_part (h : At s before (c :: rest)) (hc : isMarkupNamePart c = true)
    (extended : Bool) :
    scanMarkupNameRound extended s = .ok (.inl true) (s.bump c.utf8Size) := by
  unfold scanMarkupNameRound
  refine (bind_of_ok h.isEof_eq).trans ?_
  cases hascii : isAscii c with
  | true =>
    rw [isMarkupNamePart_of_isAscii hascii] at hc
    refine (bind_of_ok (h.byte_ascii hascii)).trans ?_
    rw [if_pos hc, utf8Size_of_isAscii hascii]
    rfl
  | false =>
    rw [isMarkupNamePart_wide hascii] at hc
    obtain ⟨b, hb, hwide⟩ := h.byte_wide hascii
    refine (bind_of_ok hb).trans ?_
    rw [isIdentifierPartByte_wide hwide, beq_wide hwide (by decide), hwide]
    refine (bind_of_ok h.currentChar).trans ?_
    dsimp only [List.head?_cons]
    rw [if_pos hc]
    rfl

/-- The name ends. -/
theorem scanMarkupNameRound_stop (h : At s before rest)
    (hstop : rest.head?.any isMarkupNamePart = false) (extended : Bool) :
    scanMarkupNameRound extended s = .ok (.inr extended) s := by
  unfold scanMarkupNameRound
  refine (bind_of_ok h.isEof_eq).trans ?_
  cases rest with
  | nil => rfl
  | cons c rest =>
    have hc : isMarkupNamePart c = false := hstop
    cases hascii : isAscii c with
    | true =>
      rw [isMarkupNamePart_of_isAscii hascii] at hc
      refine (bind_of_ok (h.byte_ascii hascii)).trans ?_
      rw [if_neg (by rw [hc]; exact Bool.false_ne_true), hascii]
      rfl
    | false =>
      rw [isMarkupNamePart_wide hascii] at hc
      obtain ⟨b, hb, hwide⟩ := h.byte_wide hascii
      refine (bind_of_ok hb).trans ?_
      rw [isIdentifierPartByte_wide hwide, beq_wide hwide (by decide), hwide]
      refine (bind_of_ok h.currentChar).trans ?_
      dsimp only [List.head?_cons]
      rw [if_neg (by rw [hc]; exact Bool.false_ne_true)]
      rfl

/-- The name goes on over all characters that can stand in it. -/
theorem rounds_scanMarkupNameRound (rest : List Char) :
    ∀ (s : State) (before : List Char) (fuel : Nat) (extended : Bool), At s before rest →
      byteLength rest < fuel → rounds scanMarkupNameRound fuel extended s =
        .ok (extended || !(rest.takeWhile isMarkupNamePart).isEmpty)
          (s.past rest (rest.takeWhile isMarkupNamePart).length) := by
  induction rest with
  | nil =>
    intro s before fuel extended h hfuel
    obtain ⟨fuel, rfl⟩ := Nat.exists_eq_succ_of_ne_zero (Nat.ne_of_gt (Nat.zero_lt_of_lt hfuel))
    rw [rounds_inr (scanMarkupNameRound_stop h rfl extended)]
    exact congrArg (EStateM.Result.ok · s) (Bool.or_false _).symm
  | cons c rest ih =>
    intro s before fuel extended h hfuel
    obtain ⟨fuel, rfl⟩ := Nat.exists_eq_succ_of_ne_zero (Nat.ne_of_gt (Nat.zero_lt_of_lt hfuel))
    cases hc : isMarkupNamePart c with
    | false =>
      rw [rounds_inr (scanMarkupNameRound_stop h hc extended),
        List.takeWhile_cons_of_neg (by rw [hc]; exact Bool.false_ne_true)]
      exact congrArg (EStateM.Result.ok · s) (Bool.or_false _).symm
    | true =>
      have hsize := c.utf8Size_pos
      rw [byteLength] at hfuel
      rw [rounds_inl (scanMarkupNameRound_part h hc extended),
        ih _ _ fuel true h.bump_char (by omega), List.takeWhile_cons_of_pos hc, Bool.true_or,
        List.isEmpty_cons, Bool.not_false, Bool.or_true, List.length_cons, Nat.add_comm,
        ← State.past_past s (c :: rest)]
      rfl

/-- The current word is made longer and becomes a plain name. -/
theorem Shows.named (h : Shows text s before raw rest value regexFlags) {more : List Char}
    (hmore : more <+: rest) :
    Agrees text { s.past rest more.length with
        value := .slice s.tokenStart (s.past rest more.length).pos
        token := .identifier }
      { s.toLexer (raw ++ rest) rest value regexFlags with
        cursor := (Cursor.mk s.pos rest).advance more.length
        token := .identifier
        value := TokenValue.slice ((Cursor.mk s.tokenStart (raw ++ rest)).textTo
          ((Cursor.mk s.pos rest).advance more.length).offset) } := by
  obtain ⟨after, rfl⟩ := hmore
  have hplace := h.place.past more.length
  rw [List.take_left, List.drop_left] at hplace
  have htext : (Cursor.mk s.tokenStart (raw ++ (more ++ after))).textTo
      (byteLength (before ++ raw ++ more)) = raw ++ more := by
    have hreach : (Cursor.mk s.tokenStart (raw ++ (more ++ after))).Reaches
        ⟨byteLength (before ++ raw ++ more), after⟩ (raw ++ more) := by
      refine ⟨(List.append_assoc raw more after).symm, ?_⟩
      rw [h.start, ← byteLength_append, List.append_assoc]
    exact hreach.textTo
  refine ⟨before, raw ++ more, after, TokenValue.slice (raw ++ more), regexFlags,
    ⟨?_, h.start, ?_, h.regexFlags, h.source⟩, ?_⟩
  · rw [← List.append_assoc]
    exact hplace.of_eq rfl rfl
  · rw [TokenValue.slice, String.toList_ofList]
    rw [List.append_assoc] at hplace
    have hslice := hplace.slice?
    rw [← h.start] at hslice
    exact ⟨rfl, hslice⟩
  · rw [h.place.pos, advance_append, htext, List.append_assoc raw, ← hplace.pos]
    rfl

theorem Agrees.scanMarkupName (h : Agrees text s l) :
    Simulates text scanMarkupName Lexer.scanMarkupName s l := by
  obtain ⟨before, raw, rest, value, regexFlags, hshows, rfl⟩ := h
  generalize hmore : rest.takeWhile isMarkupNamePart = more
  have hread : Lexer.scanMarkupName (s.toLexer (raw ++ rest) rest value regexFlags) = .ok ()
      (if s.token.isWord then
        if more.isEmpty && s.token == .identifier then s.toLexer (raw ++ rest) rest value regexFlags
        else { s.toLexer (raw ++ rest) rest value regexFlags with
          cursor := (Cursor.mk s.pos rest).advance more.length
          token := .identifier
          value := TokenValue.slice ((Cursor.mk s.tokenStart (raw ++ rest)).textTo
            ((Cursor.mk s.pos rest).advance more.length).offset) }
      else s.toLexer (raw ++ rest) rest value regexFlags) := by
    rw [← hmore]
    rfl
  unfold Simulates Scanner.scanMarkupName
  rw [outcome_ok hread]
  refine .run rfl ?_
  cases hword : s.token.isWord with
  | false => exact .of_ok rfl rfl ⟨rfl, before, raw, rest, value, regexFlags, hshows, rfl⟩
  | true =>
    have hloop : loop scanMarkupNameRound false s =
      .ok (!more.isEmpty) (s.past rest more.length) := by
      rw [loop_eq, rounds_scanMarkupNameRound rest s _ _ false hshows.place
        (by rw [hshows.place.length_bytes]; omega), Bool.false_or, hmore]
    have hinitial : more <+: rest := by
      rw [← hmore]
      exact List.takeWhile_prefix _
    have hnamed := hshows.named hinitial
    simp only [if_true]
    refine .run hloop (.run rfl ?_)
    change Follows _ _ (if !more.isEmpty || s.token != .identifier then _ else _) _ _
    rw [bne, ← Bool.not_and]
    cases hplain : more.isEmpty && s.token == .identifier with
    | false => exact .of_ok rfl rfl ⟨trivial, hnamed⟩
    | true =>
      have hnil : more = [] := by
        rw [Bool.and_eq_true] at hplain
        exact List.isEmpty_iff.mp hplain.1
      subst hnil
      exact .of_ok rfl rfl ⟨trivial, before, raw, rest, value, regexFlags, hshows, rfl⟩

end Names

section Attributes

variable {quote : Char}

/-- No byte of another character is the quotation mark. -/
theorem beq_of_mem_utf8EncodeChar (hquote : isAscii quote = true) (hc : (c == quote) = false)
    {b : UInt8} (hb : b ∈ String.utf8EncodeChar c) : (b == quote.toUInt8) = false := by
  obtain ⟨i, hi, rfl⟩ := List.getElem_of_mem hb
  have hsize : i < c.utf8Size := by rwa [← String.length_utf8EncodeChar]
  obtain ⟨b, more, hdrop, -, hne⟩ := exists_drop [] hsize
  rw [utf8_cons, List.drop_append_of_le_length (Nat.le_of_lt hi), List.drop_eq_getElem_cons hi]
    at hdrop
  rw [(List.cons.inj hdrop).1]
  exact hne quote hquote hc

/-- The first byte that is the quotation mark is the first character that is. -/
theorem findByte?_utf8 (hquote : isAscii quote = true) (text : List Char) :
    findByte? quote (utf8 text) =
      if (text.takeWhile (· != quote)).length < text.length then
        some (byteLength (text.takeWhile (· != quote)))
      else none := by
  induction text with
  | nil => rfl
  | cons c rest ih =>
    unfold findByte? at ih ⊢
    cases hc : c == quote with
    | true =>
      obtain rfl := beq_iff_eq.mp hc
      rw [utf8_cons_of_isAscii hquote, List.findIdx?_cons, List.takeWhile_cons_of_neg (by simp)]
      simp [byteLength]
    | false =>
      have hnone : (String.utf8EncodeChar c).findIdx? (· == quote.toUInt8) = none :=
        List.findIdx?_eq_none_iff.mpr fun b hb => beq_of_mem_utf8EncodeChar hquote hc hb
      rw [utf8_cons, List.findIdx?_append, hnone, ih, String.length_utf8EncodeChar,
        List.takeWhile_cons_of_pos (by simp [bne, hc])]
      simp only [List.length_cons, Nat.add_lt_add_iff_right, byteLength, Option.none_or]
      split
      · rw [Option.map_some, Nat.add_comm]
      · rfl

/-- A text that holds the quotation mark, up to the first one. -/
theorem exists_closing {text : List Char}
    (h : (text.takeWhile (· != quote)).length < text.length) :
    ∃ tail, text = text.takeWhile (· != quote) ++ quote :: tail := by
  have hsplit := List.takeWhile_append_dropWhile (p := (· != quote)) (l := text)
  cases hdrop : text.dropWhile (· != quote) with
  | nil =>
    rw [hdrop, List.append_nil] at hsplit
    rw [hsplit] at h
    exact absurd h (Nat.lt_irrefl _)
  | cons c tail =>
    have hc := List.head?_dropWhile_not (· != quote) text
    rw [hdrop] at hc hsplit
    obtain rfl : c = quote := by simpa using hc
    exact ⟨tail, hsplit.symm⟩

/-- A string without escapes. -/
theorem attributeString_simulates (h : HasBegun text s s' lead (quote :: rest) regexFlags)
    (hquote : isAscii quote = true) :
    Follows (FailsLike s')
      (outcome (
        if (rest.takeWhile (· != quote)).length < rest.length then do
          modify fun l => { l with
            cursor := (Cursor.mk s'.pos (quote :: rest)).advance
              ((rest.takeWhile (· != quote)).length + 2)
            token := .stringLiteral
            value := markupValue (rest.takeWhile (· != quote)) }
          return Token.stringLiteral
        else throw ⟨.unterminatedStringLiteral, s'.pos⟩)
        (s'.toLexer (quote :: rest) (quote :: rest) .empty regexFlags))
      (do
        let start ← position
        bump 1
        let s ← get
        match findByte? quote (s.bytesFrom s.pos) with
        | some length =>
          setMarkupValue s.pos (s.pos + length)
          moveTo (s.pos + length + 1)
          setToken .stringLiteral
          return .stringLiteral
        | none => fail .unterminatedStringLiteral start)
      (fun found a s' => a = found.1 ∧ Agrees text s' found.2) s' := by
  have hplace := h.begins.place
  have hbody := hplace.bump_one hquote
  refine .run rfl (.run rfl (.run rfl ?_))
  rw [hbody.bytesFrom, findByte?_utf8 hquote]
  split
  · rename_i hlt
    obtain ⟨tail, htail⟩ := exists_closing hlt
    generalize rest.takeWhile (· != quote) = body at htail ⊢
    subst htail
    have hslice : slice? (s'.bump 1).source (s'.bump 1).pos ((s'.bump 1).pos + byteLength body) =
        some body := by
      have hpassed := hbody.bump.slice?
      rw [← hbody.pos] at hpassed
      exact hpassed
    obtain ⟨source, buffer, hset, hheld⟩ := setMarkupValue_eq hslice
    have hpassed : At (((s'.bump 1).bump (byteLength body)).bump 1)
      (lead ++ (quote :: body ++ [quote]))
        tail := by
      have hlast := hbody.bump.bump_one hquote
      have hsplit : lead ++ (quote :: body ++ [quote]) = lead ++ [quote] ++ body ++ [quote] :=
        by simp
      rwa [hsplit]
    refine .run hset (.run rfl (.run rfl (.of_ok (outcome_ok rfl) rfl ⟨rfl, lead,
      quote :: body ++ [quote], tail, markupValue body, regexFlags, ⟨?_, ?_, hheld, ?_, ?_⟩, ?_⟩)))
    · exact hpassed.of_eq rfl rfl
    · exact h.shows.start
    · exact h.shows.regexFlags
    · exact h.shows.source
    · have hcursor := advance_append lead (quote :: body ++ [quote]) tail
      have hlength : (quote :: body ++ [quote]).length = body.length + 2 := by simp
      have htext : quote :: body ++ [quote] ++ tail = quote :: (body ++ quote :: tail) := by simp
      rw [hlength, htext, ← hplace.pos] at hcursor
      rw [hcursor, htext, ← hpassed.pos]
      rfl
  · refine .fail rfl hplace.pos_mod ?_
    exact ⟨rfl, rfl, List.prefix_rfl, List.prefix_rfl⟩

/-- The values of attributes are strings without escapes, or ordinary tokens. -/
theorem Agrees.scanMarkupAttributeValue (h : Agrees text s l) :
    Simulates text scanMarkupAttributeValue Lexer.scanMarkupAttributeValue s l := by
  obtain ⟨before, raw, rest, value, regexFlags, hshows, rfl⟩ := h
  unfold Simulates Lexer.scanMarkupAttributeValue Scanner.scanMarkupAttributeValue
  rw [outcome_bind]
  refine (beginToken_simulates hshows).bind fun found _ s₁ hbegun => ?_
  obtain ⟨lead, token, hbegun, hfound⟩ := hbegun
  have hplace := hbegun.begins.place
  have hagrees : Agrees text s₁ (s₁.toLexer token token .empty regexFlags) :=
    ⟨lead, [], token, .empty, regexFlags, hbegun.shows, rfl⟩
  have hscan := hagrees.scan.weaken fun _ _ _ hfails => FailsLike.since hfails hbegun.comments
  rw [hfound]
  refine .run (hplace.byteAt_eq 0) ?_
  cases token with
  | nil => exact hscan
  | cons c rest =>
    cases hc : c == '"' || c == '\'' with
    | true =>
      have hascii : isAscii c = true := by
        rw [Bool.or_eq_true, beq_iff_eq, beq_iff_eq] at hc
        rcases hc with rfl | rfl <;> decide
      have hfirst : ahead (c :: rest) 0 = c := by
        rw [ahead, byteOf?_cons_zero hascii, Option.getD_some]
      have hstring := (attributeString_simulates hbegun hascii).weaken
        fun _ _ _ hfails => FailsLike.since hfails hbegun.comments
      have hneither : (c != '"' && c != '\'') = false := by
        rw [bne, bne, ← Bool.not_or, hc]
        rfl
      rw [hfirst, hneither]
      change Follows _ (outcome (if c == '"' || c == '\'' then _ else _) _) _ _ _
      rw [hc]
      exact hstring
    | false =>
      have hneither : (ahead (c :: rest) 0 != '"' && ahead (c :: rest) 0 != '\'') = true := by
        rw [ahead_bne (by decide) (by decide), ahead_bne (by decide) (by decide)]
        rw [Bool.or_eq_false_iff, beq_eq_false_iff_ne, beq_eq_false_iff_ne] at hc
        simp [hc.1, hc.2]
      rw [hneither]
      change Follows _ (outcome (if c == '"' || c == '\'' then _ else _) _) _ _ _
      rw [hc]
      exact hscan

end Attributes

end EcmaSyntax.Scanner
