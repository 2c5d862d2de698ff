import EcmaSyntax.Proofs.Lexer.Safety
import EcmaSyntax.Proofs.Scanner.Agreement
import EcmaSyntax.Proofs.Scanner.Regexes

/-!
Second readings on bytes. A token is read again from its first byte, or goes on over the next ones,
as the lexer reads it again.
-/

namespace EcmaSyntax.Scanner

open EcmaSyntax.Diagnostic EcmaSyntax.Lexer EcmaSyntax.Text EcmaSyntax.Unicode

variable {version : Nat} [Unicode.IdentifierChars version]

variable {s s' : State} {l : Lexer.State} {text before raw rest token : List Char}
  {value : TokenValue} {regexFlags : String}

section Merging

theorem op_eq {sign : Token} {length : Nat} (hascii : ∀ c ∈ rest.take length, isAscii c = true)
    (hlength : length ≤ rest.length) : op length sign s = .ok sign (s.past rest length) := by
  rw [s.past_of_isAscii hascii hlength]
  rfl

theorem mergeNext_eq (h : At s before rest) : mergeNext s =
    .ok (mergeGreaterThan rest).1 (s.past rest (mergeGreaterThan rest).2) := by
  have hfirst : ∀ x, isAscii x = true → x ≠ '\x00' → (s.byteAt 0 == x) = (rest.head? == some x) :=
    fun x hx hzero => by rw [h.byteAt, ahead_beq hx hzero]
  unfold mergeNext
  refine (bind_of_ok rfl).trans ?_
  rw [hfirst '>' (by decide) (by decide), hfirst '=' (by decide) (by decide)]
  cases hangle : rest.head? == some '>' with
  | false =>
    have hne := ne_cons_of_head (beq_eq_false_iff_ne.mp hangle)
    simp only [Bool.false_and, Bool.false_eq_true, if_false]
    split
    · rename_i hequals
      obtain ⟨tail, rfl⟩ := eq_cons_of_head hequals
      exact op_eq (by simp [isAscii]) (by simp)
    · rename_i hother
      have hne' := ne_cons_of_head (by simpa using hother)
      have hmerge : mergeGreaterThan rest = (.greaterThan, 0) := by
        unfold mergeGreaterThan
        split
        all_goals first
          | rfl
          | exact absurd rfl (hne _)
          | exact absurd rfl (hne' _)
      rw [hmerge]
      rfl
  | true =>
    obtain ⟨next, rfl⟩ := eq_cons_of_head hangle
    simp only [Bool.true_and, if_true]
    rw [h.byteAt_two_beq (by decide) (by decide) (by decide) (by decide) (by decide),
      h.byteAt_one_beq (by decide) (by decide) (by decide),
      h.byteAt_one_beq (by decide) (by decide) (by decide)]
    split
    · rename_i hnext
      obtain ⟨tail, rfl⟩ := eq_cons_of_take_two hnext
      exact op_eq (by simp [isAscii]) (by simp)
    rename_i hnot
    split
    · rename_i hnext
      obtain ⟨tail, rfl⟩ := eq_cons_of_head hnext
      have hne := ne_cons_of_head (head_ne_of_take_two hnot)
      have hmerge : mergeGreaterThan ('>' :: '>' :: tail) = (.logicalShiftRight, 2) := by
        simp [mergeGreaterThan]
      rw [hmerge]
      exact op_eq (by simp [isAscii]) (by simp)
    rename_i hother
    have hne := ne_cons_of_head (by simpa using hother)
    split
    · rename_i hnext
      obtain ⟨tail, rfl⟩ := eq_cons_of_head hnext
      exact op_eq (by simp [isAscii]) (by simp)
    · rename_i hlast
      have hne' := ne_cons_of_head (by simpa using hlast)
      have hmerge : mergeGreaterThan ('>' :: next) = (.shiftRight, 1) := by
        simp [mergeGreaterThan, hne]
      rw [hmerge]
      exact op_eq (by simp [isAscii]) (by simp)

/-- The current token is taken on over characters that come next. -/
theorem Shows.past (h : Shows text s before raw rest value regexFlags) (count : Nat)
    (token : Token) :
    Shows text { s.past rest count with token := token } before (raw ++ rest.take count)
      (rest.drop count) value regexFlags := by
  refine ⟨?_, h.start, h.value, h.regexFlags, h.source⟩
  rw [← List.append_assoc]
  exact (h.place.past count).of_eq rfl rfl

theorem Shows.toLexer_past (h : Shows text s before raw rest value regexFlags) (count : Nat)
    (token : Token) :
    { s.past rest count with token := token }.toLexer (raw ++ rest.take count ++ rest.drop count)
        (rest.drop count) value regexFlags =
      { s.toLexer (raw ++ rest) rest value regexFlags with
        token := token
        cursor := ⟨byteLength (before ++ raw ++ rest.take count), rest.drop count⟩ } := by
  have hpos := (h.place.past count).pos
  rw [List.append_assoc raw, List.take_append_drop, ← hpos]
  rfl

theorem Agrees.rescanGreaterThan (h : Agrees text s l) :
    Simulates text rescanGreaterThan Lexer.rescanGreaterThan s l := by
  obtain ⟨before, raw, rest, value, regexFlags, hshows, rfl⟩ := h
  have hread := rescanGreaterThan_eq (s.toLexer (raw ++ rest) rest value regexFlags)
  cases htoken : s.token == .greaterThan with
  | false =>
    have hmerge : merge s.token rest = (s.token, 0) := by
      unfold merge
      rw [htoken]
      rfl
    have hrun : Scanner.rescanGreaterThan s = .ok s.token s := by
      unfold Scanner.rescanGreaterThan
      refine (bind_of_ok rfl).trans ?_
      rw [bne, htoken]
      rfl
    change Lexer.rescanGreaterThan _ = .ok (merge s.token rest).1 { s.toLexer _ _ _ _ with
      token := (merge s.token rest).1
      cursor := (Cursor.mk s.pos rest).advance (merge s.token rest).2 } at hread
    rw [hmerge] at hread
    exact .of_ok (outcome_ok hread) hrun ⟨rfl, before, raw, rest, value, regexFlags, hshows, rfl⟩
  | true =>
    have hmerge : merge s.token rest = mergeGreaterThan rest := by
      unfold merge
      rw [htoken]
      rfl
    have hle := (mergeGreaterThan_le rest).1
    have hcursor := advance_eq (before ++ raw) hle
    have hrun : Scanner.rescanGreaterThan s = .ok (mergeGreaterThan rest).1
        { s.past rest (mergeGreaterThan rest).2 with token := (mergeGreaterThan rest).1 } := by
      unfold Scanner.rescanGreaterThan
      refine (bind_of_ok rfl).trans ?_
      rw [bne, htoken]
      exact (bind_of_ok (mergeNext_eq hshows.place)).trans rfl
    change Lexer.rescanGreaterThan _ = .ok (merge s.token rest).1 { s.toLexer _ _ _ _ with
      token := (merge s.token rest).1
      cursor := (Cursor.mk s.pos rest).advance (merge s.token rest).2 } at hread
    rw [hmerge, hshows.place.pos, hcursor] at hread
    refine .of_ok (outcome_ok hread) hrun ⟨rfl, before, _, _, value, regexFlags,
      hshows.past _ _, ?_⟩
    exact (hshows.toLexer_past _ _).symm

end Merging

section Rereading

/-- The current token starts with the character that a second reading asks for. -/
theorem exists_cons_of_sound {c : Char}
    (hsound : Sound text (s.toLexer token rest value regexFlags))
    (hopening : opening? s.token = some c) : ∃ more, token = c :: more := by
  obtain ⟨before', raw', hstart, htoken⟩ := hsound.place
  obtain ⟨more, rfl⟩ := List.head?_eq_some_iff.mp (htoken.shape.opening c hopening)
  exact ⟨_, htoken.extent.rest⟩

/-- The scanner goes back to the start of the token. -/
theorem Shows.atStart (h : Shows text s before raw rest value regexFlags) :
    At (s.goTo s.tokenStart) before (raw ++ rest) := by
  refine ⟨?_, h.start, ?_⟩
  · rw [← List.append_assoc]
    exact h.place.source
  · rw [← List.append_assoc]
    exact h.place.short

theorem Agrees.rescanTemplate (h : Agrees text s l) (hsound : Sound text l)
    (hbrace : s.token = .rightBrace) : Simulates text rescanTemplate Lexer.rescanTemplate s l := by
  obtain ⟨before, raw, rest, value, regexFlags, hshows, rfl⟩ := h
  obtain ⟨more, hmore⟩ := exists_cons_of_sound hsound (by rw [hbrace]; rfl)
  have hstart := hshows.atStart
  rw [hmore] at hstart
  let opened : State := { s with
    pos := s.tokenStart + 1
    flags := { s.flags with invalidTemplateEscape := false } }
  have hopened : At opened (before ++ ['\x7d']) more := (hstart.bump_one (by decide)).of_eq rfl rfl
  have hchunk := scanTemplateChunk_follows false hopened hshows.start rfl
  have hensure : ensure (s.token == .rightBrace) s = .ok () s := by
    rw [hbrace]
    rfl
  have hsimulates : Follows (FailsLike s)
      (outcome (do
        let lexeme ← ofReading ⟨byteLength before, '\x7d' :: more⟩
          (readChunkLexeme false ('\x7d' :: more))
        accept ⟨byteLength before, '\x7d' :: more⟩ lexeme
        return lexeme.token) (s.toLexer ('\x7d' :: more) rest value regexFlags))
      (do
        let token ← scanTemplateChunk false
        setToken token
        return token)
      (fun found a s' => a = found.1 ∧ Agrees text s' found.2) opened := by
    have htakes : Follows (FailsAs s before ('\x7d' :: more))
      (readChunkLexeme false ('\x7d' :: more))
        (scanTemplateChunk false) (HasTaken s before ('\x7d' :: more)) opened := by
      refine (hchunk.rebase s rfl rfl).mono fun _ _ _ htaken => ?_
      exact ⟨htaken.found, htaken.state, htaken.value⟩
    refine ofReading_simulates htakes (readChunkLexeme_fits false more rfl) rfl rfl
      fun lexeme found s₁ hread hfits htaken => ?_
    have haccept : accept ⟨byteLength before, '\x7d' :: more⟩ lexeme
        (s.toLexer ('\x7d' :: more) rest value regexFlags) = _ :=
      htaken.accept_eq hfits.le (readChunkLexeme_invalidEscape hread)
    refine .of_ok (outcome_ok ((bind_of_ok haccept).trans rfl)) rfl
      ⟨htaken.found, before, _, _, _, _,
      htaken.shows hstart hshows.regexFlags hshows.source s₁.atLineStart, ?_⟩
    rw [List.take_append_drop]
  rw [← hshows.start] at hsimulates
  rw [hmore]
  unfold Simulates Scanner.rescanTemplate
  exact .run rfl (.run hensure (.run rfl hsimulates))

theorem Agrees.rescanRegex (h : Agrees text s l) (hsound : Sound text l)
    (hslash : s.token = .divide ∨ s.token = .divideAssign) :
    Simulates text rescanRegex Lexer.rescanRegex s l := by
  obtain ⟨before, raw, rest, value, regexFlags, hshows, rfl⟩ := h
  obtain ⟨more, hmore⟩ := exists_cons_of_sound hsound (c := '/') (by
    rcases hslash with h | h <;> rw [h] <;> rfl)
  have hstart := hshows.atStart
  rw [hmore] at hstart
  have htoken : (s.token == .divide || s.token == .divideAssign) = true := by
    rcases hslash with h | h <;> rw [h] <;> rfl
  have hsimulates : Follows (FailsLike s)
      (outcome (do
        let literal ← ofReading ⟨byteLength before, '/' :: more⟩ (readRegex ('/' :: more))
        modify fun l => { l with
          cursor := (Cursor.mk (byteLength before) ('/' :: more)).advance literal.stop
          token := .regularExpression
          value := TokenValue.slice literal.body
          regexFlags := String.ofList literal.flags }
        return Token.regularExpression) (s.toLexer ('/' :: more) rest value regexFlags))
      (Scanner.rescanRegex >>= pure)
      (fun found a s' => a = found.1 ∧ Agrees text s' found.2) s := by
    refine ofReading_simulates (rescanRegex_follows hstart htoken)
      (readRegex_within ('/' :: more)) rfl
      rfl fun literal found s₁ hread hfits hregex => ?_
    refine .of_ok (outcome_ok rfl) rfl ⟨hregex.found, before, ('/' :: more).take literal.stop,
      ('/' :: more).drop literal.stop, TokenValue.slice literal.body, String.ofList literal.flags,
        ?_, ?_⟩
    · have hstate := hregex.state
      refine ⟨?_, ?_, ?_, ?_, ?_⟩
      · refine hstart.goTo rfl literal.stop ?_ ?_
        · rw [hstate]
          rfl
        · rw [hstate]
          rfl
      · rw [hstate]
        exact hstart.pos
      · rw [TokenValue.slice, String.toList_ofList]
        exact hregex.value
      · rw [String.toList_ofList]
        exact hregex.flags
      · rw [hstate]
        exact hshows.source
    · rw [List.take_append_drop, advance_eq before hfits.1.le, hregex.state]
      rfl
  rw [← hshows.start] at hsimulates
  rw [hmore]
  exact hsimulates.of_step (congrFun (bind_pure Scanner.rescanRegex).symm s)

end Rereading

end EcmaSyntax.Scanner
