import EcmaSyntax.Proofs.Scanner.Comments

/-!
Trivia on bytes. The scanner goes through them item by item, and each item is one that the
characters have.
-/

namespace EcmaSyntax.Scanner

open EcmaSyntax.Diagnostic EcmaSyntax.Lexer EcmaSyntax.Text EcmaSyntax.Unicode

variable {s s' : State} {before rest lead body : List Char} {c : Char}

section Items

variable {html : Bool} {offset n : Nat} {trivia : Trivia} {text : List Char}

/-- The first item of trivia in a text, with what is known after it and its number of characters. -/
def readTriviaItem (html : Bool) (offset : Nat) (trivia : Trivia) (text : List Char) :
    Except Failure (Option (Trivia × Nat)) :=
  match text with
  | [] => .ok none
  | c :: rest =>
    if isLineTerminator c then
      .ok (some ({ trivia with hasLineBreak := true, atLineStart := true }, 1))
    else if isInlineSpace c then .ok (some (trivia, 1))
    else
      match lineCommentOpening? html trivia.atLineStart offset (c :: rest) with
      | some (kind, width) =>
        .ok (some ({ trivia with
          comments := trivia.comments ++ [lineComment kind width offset (c :: rest)] },
            width + (lineBody ((c :: rest).drop width)).length))
      | none =>
        if c == '/' && rest.head? == some '*' then
          match blockBody? (rest.drop 1) with
          | none => .error ⟨.unterminatedComment, offset⟩
          | some body =>
            .ok (some ({ trivia with
              comments := trivia.comments ++
                [⟨.block, String.ofList body, offset, offset + 4 + byteLength body⟩]
              hasLineBreak := trivia.hasLineBreak || body.any isLineTerminator
              atLineStart := trivia.atLineStart || body.any isLineTerminator }, body.length + 4))
        else .ok none

theorem readTriviaFrom_drop (hn : n ≤ text.length) (html : Bool) (offset : Nat) (trivia : Trivia) :
    readTriviaFrom html offset trivia n text =
      readTriviaFrom html (offset + byteLength (text.take n))
        { trivia with length := trivia.length + n }
        0 (text.drop n) := by
  induction n generalizing offset trivia text with
  | zero => rfl
  | succ n ih =>
    cases text with
    | nil => cases hn
    | cons c text =>
      rw [readTriviaFrom, ih (Nat.le_of_succ_le_succ hn), List.take_succ_cons, List.drop_succ_cons,
        byteLength, Nat.add_assoc, Nat.add_assoc, Nat.add_comm 1]

theorem blockBody?_le (h : blockBody? text = some body) : body.length + 2 ≤ text.length := by
  obtain ⟨⟨rest, rfl⟩, -⟩ := blockBody?_some h
  simp only [List.length_append, List.length_cons]
  omega

theorem lineBody_le (text : List Char) : (lineBody text).length ≤ text.length :=
  ( List.takeWhile_prefix _).length_le

/-- An opening delimiter is not empty, and it ends in the text. -/
theorem lineCommentOpening?_le {kind : CommentKind} {width : Nat} {atLineStart : Bool}
    (h : lineCommentOpening? html atLineStart offset text = some (kind, width)) :
    2 ≤ width ∧ width ≤ text.length := by
  obtain ⟨opening, rest, rfl, rfl, hopens⟩ := lineCommentOpening?_some h
  rw [List.length_append]
  cases hopens <;> exact ⟨by decide, Nat.le_add_right _ _⟩

/-- An item is not empty, and it ends in the text. -/
theorem readTriviaItem_le {found : Trivia}
    (h : readTriviaItem html offset trivia text = .ok (some (found, n))) :
    0 < n ∧ n ≤ text.length ∧ found.length = trivia.length := by
  cases text with
  | nil => cases h
  | cons c rest =>
    unfold readTriviaItem at h
    dsimp only at h
    split at h
    · cases h
      exact ⟨Nat.one_pos, Nat.le_add_left _ _, rfl⟩
    · split at h
      · cases h
        exact ⟨Nat.one_pos, Nat.le_add_left _ _, rfl⟩
      · split at h
        · rename_i kind width hopening
          cases h
          have hwidth := lineCommentOpening?_le hopening
          have hbody := lineBody_le ((c :: rest).drop width)
          rw [List.length_drop] at hbody
          exact ⟨by omega, by omega, rfl⟩
        · split at h
          · rename_i hmarks
            split at h
            · cases h
            · rename_i hbody
              cases h
              have hle := blockBody?_le hbody
              rw [List.length_drop] at hle
              rw [List.length_cons]
              exact ⟨Nat.succ_pos _, by omega, rfl⟩
          · cases h

/-- Trivia are read item by item. -/
theorem readTriviaFrom_item (html : Bool) (offset : Nat) (trivia : Trivia) (text : List Char) :
    readTriviaFrom html offset trivia 0 text = match readTriviaItem html offset trivia text with
      | .error failure => .error failure
      | .ok none => .ok trivia
      | .ok (some (found, n)) =>
        readTriviaFrom html (offset + byteLength (text.take n))
          { found with length := trivia.length + n }
          0 (text.drop n) := by
  cases text with
  | nil => rfl
  | cons c rest =>
    have hskip : ∀ (found : Trivia) k, k ≤ rest.length →
        readTriviaFrom html (offset + c.utf8Size)
          { found with length := trivia.length + 1 } k rest =
          readTriviaFrom html (offset + byteLength ((c :: rest).take (k + 1)))
            { found with length := trivia.length + (k + 1) } 0 ((c :: rest).drop (k + 1)) :=
      fun found k hk => by
        rw [readTriviaFrom_drop hk, List.take_succ_cons, List.drop_succ_cons, byteLength,
          Nat.add_assoc, Nat.add_assoc, Nat.add_comm 1]
    have hwidth : ∀ kind width,
        lineCommentOpening? html trivia.atLineStart offset (c :: rest) = some (kind, width) →
          2 ≤ width ∧ width ≤ (c :: rest).length := fun kind width => lineCommentOpening?_le
    unfold readTriviaItem
    rw [readTriviaFrom]
    dsimp only
    split
    · exact hskip { trivia with hasLineBreak := true, atLineStart := true } 0 (Nat.zero_le _)
    · split
      · exact hskip trivia 0 (Nat.zero_le _)
      · cases hopening : lineCommentOpening? html trivia.atLineStart offset (c :: rest) with
        | some found =>
          obtain ⟨kind, width⟩ := found
          have hle := hwidth kind width hopening
          have hbody := lineBody_le ((c :: rest).drop width)
          rw [List.length_drop, List.length_cons] at hbody
          rw [List.length_cons] at hle
          have hlength : (lineComment kind width offset (c :: rest)).value.length =
              (lineBody ((c :: rest).drop width)).length := String.length_ofList
          have hcount : width - 1 + (lineBody ((c :: rest).drop width)).length + 1 =
              width + (lineBody ((c :: rest).drop width)).length := by omega
          dsimp only
          rw [hlength, hskip { trivia with comments := trivia.comments ++
            [lineComment kind width offset (c :: rest)] } _ (by omega), hcount]
        | none =>
          dsimp only
          split
          · cases hbody : blockBody? (rest.drop 1) with
            | none => rfl
            | some body =>
              have hle := blockBody?_le hbody
              rw [List.length_drop] at hle
              exact hskip { trivia with
                comments := trivia.comments ++
                  [⟨.block, String.ofList body, offset, offset + 4 + byteLength body⟩]
                hasLineBreak := trivia.hasLineBreak || body.any isLineTerminator
                atLineStart := trivia.atLineStart || body.any isLineTerminator } (body.length + 3)
                (by omega)
          · rfl

section Forms

variable {rest : List Char}

theorem readTriviaItem_line (hline : isLineTerminator c = true) :
    readTriviaItem html offset trivia (c :: rest) =
      .ok (some ({ trivia with hasLineBreak := true, atLineStart := true }, 1)) := by
  rw [readTriviaItem, if_pos hline]

theorem readTriviaItem_space (hline : isLineTerminator c = false)
    (hspace : isInlineSpace c = true) :
    readTriviaItem html offset trivia (c :: rest) = .ok (some (trivia, 1)) := by
  rw [readTriviaItem, hline, if_neg Bool.false_ne_true, if_pos hspace]

theorem readTriviaItem_comment {kind : CommentKind} {width : Nat}
    (hline : isLineTerminator c = false)
    (hspace : isInlineSpace c = false)
    (hopening : lineCommentOpening? html trivia.atLineStart offset (c :: rest) =
      some (kind, width)) :
    readTriviaItem html offset trivia (c :: rest) = .ok (some ({ trivia with
      comments := trivia.comments ++ [lineComment kind width offset (c :: rest)] },
        width + (lineBody ((c :: rest).drop width)).length)) := by
  rw [readTriviaItem, hline, if_neg Bool.false_ne_true, hspace, if_neg Bool.false_ne_true, hopening]

theorem readTriviaItem_block (rest : List Char) :
    readTriviaItem html offset trivia ('/' :: '*' :: rest) = match blockBody? rest with
      | none => .error ⟨.unterminatedComment, offset⟩
      | some body => .ok (some ({ trivia with
          comments := trivia.comments ++
            [⟨.block, String.ofList body, offset, offset + 4 + byteLength body⟩]
          hasLineBreak := trivia.hasLineBreak || body.any isLineTerminator
          atLineStart := trivia.atLineStart || body.any isLineTerminator }, body.length + 4)) := rfl

theorem readTriviaItem_none (hline : isLineTerminator c = false) (hspace : isInlineSpace c = false)
    (hopening : lineCommentOpening? html trivia.atLineStart offset (c :: rest) = none)
    (hblock : (c == '/' && rest.head? == some '*') = false) :
    readTriviaItem html offset trivia (c :: rest) = .ok none := by
  rw [readTriviaItem, hline, if_neg Bool.false_ne_true, hspace, if_neg Bool.false_ne_true, hopening,
    hblock]
  rfl

end Forms

end Items

/-- Within ASCII four characters are white space in a line. -/
theorem isInlineSpace_of_isAscii (hc : isAscii c = true) :
    isInlineSpace c = (c == ' ' || c == '\t' || c == '\x0b' || c == '\x0c') := by
  have hlt : c.toNat < 0x80 := of_decide_eq_true hc
  have hne : ∀ x : Char, 0x80 ≤ x.toNat → (c == x) = false := fun x hx => by
    rw [beq_eq_false_iff_ne]
    rintro rfl
    omega
  have hrange : decide ('\u2000' ≤ c) = false := by
    rw [decide_eq_false_iff_not]
    intro hle
    have hnat : 0x2000 ≤ c.toNat := hle
    omega
  rw [isInlineSpace, hrange, hne '\u00a0' (by decide), hne '\u1680' (by decide),
    hne '\u202f' (by decide), hne '\u205f' (by decide), hne '\u3000' (by decide),
    hne '\ufeff' (by decide)]
  simp only [Bool.or_false, Bool.false_and]

section Rounds

variable {trivia : Trivia} {pos : Nat} {text : List Char}

/-- No comment that ends with its line starts here. -/
theorem lineCommentOpening?_none {html atLineStart : Bool}
    (hfirst : pos = 0 → ∀ tail, text ≠ '#' :: '!' :: tail)
    (hslash : ∀ tail, text ≠ '/' :: '/' :: tail)
    (hopen : html = true → ∀ tail, text ≠ '<' :: '!' :: '-' :: '-' :: tail)
    (hclose : html = true → atLineStart = true → ∀ tail, text ≠ '-' :: '-' :: '>' :: tail) :
    lineCommentOpening? html atLineStart pos text = none := by
  unfold lineCommentOpening?
  split
  · split
    · rename_i hpos
      exact absurd rfl (hfirst (beq_iff_eq.mp hpos) _)
    · rfl
  · exact absurd rfl (hslash _)
  · split
    · rename_i hhtml
      exact absurd rfl (hopen hhtml _)
    · rfl
  · split
    · rename_i hboth
      rw [Bool.and_eq_true] at hboth
      exact absurd rfl (hclose hboth.1 hboth.2 _)
    · rfl
  · rfl

/-- What a step leaves that has failed in trivia. -/
structure FailsInTrivia (s : State) (failure : Failure) (stop : Stop) (s' : State) : Prop where
  stop : stop = .failure failure
  invalidEscape : s'.invalidEscape = s.invalidEscape
  comments : s.comments <+: s'.comments

/-- What a round leaves that has skipped an item, or has found none. -/
def HasSkipped (s : State) (trivia : Trivia) (pos : Nat) (text : List Char) :
    Option (Trivia × Nat) → Unit ⊕ Unit → State → Prop
  | none => fun next s' => next = .inr () ∧ s' = s.skipping trivia pos
  | some (found, n) => fun next s' =>
    next = .inl () ∧ s' = s.skipping found (pos + byteLength (text.take n))

/-- A slash starts a comment if another one or an asterisk comes after it. -/
theorem slashRound_follows (h : At (s.skipping trivia pos) before ('/' :: rest)) :
    Follows (FailsInTrivia s) (readTriviaItem s.htmlComments pos trivia ('/' :: rest))
      (do
        let s ← get
        if s.byteAt 1 == '/' then
          skipLineComment 2 .line
          return .inl ()
        else if s.byteAt 1 == '*' then
          skipBlockComment
          return .inl ()
        else return .inr () : Scanner (Unit ⊕ Unit))
      (HasSkipped s trivia pos ('/' :: rest)) (s.skipping trivia pos) := by
  refine .run rfl ?_
  rw [h.byteAt_succ (by decide) 0, ahead_beq (by decide) (by decide),
    ahead_beq (by decide) (by decide)]
  split
  · rename_i hslash
    obtain ⟨tail, rfl⟩ := List.head?_eq_some_iff.mp (beq_iff_eq.mp hslash)
    have hskip := skipLineComment_eq ['/', '/'] .line h rfl
    rw [readTriviaItem_comment (by rfl) (by rfl) rfl]
    exact .run hskip (.pure ⟨rfl, rfl⟩)
  · rename_i hslash
    split
    · rename_i hstar
      obtain ⟨tail, rfl⟩ := List.head?_eq_some_iff.mp (beq_iff_eq.mp hstar)
      have hskip := skipBlockComment_eq h
      rw [readTriviaItem_block]
      cases hbody : blockBody? tail with
      | none =>
        rw [hbody] at hskip
        refine .fails rfl hskip ⟨rfl, rfl, ?_⟩
        change s.comments <+: if s.collectComments then _ else _
        split
        · exact List.prefix_append _ _
        · exact List.prefix_refl _
      | some body =>
        rw [hbody] at hskip
        exact .run hskip (.pure ⟨rfl, rfl⟩)
    · rename_i hstar
      have hread : readTriviaItem s.htmlComments pos trivia ('/' :: rest) = .ok none := by
        refine readTriviaItem_none (by rfl) (by rfl) (lineCommentOpening?_none ?_ ?_ ?_ ?_) ?_
        · rintro _ _ ⟨⟩
        · rintro tail ⟨⟩
          exact hslash (by rfl)
        · rintro _ _ ⟨⟩
        · rintro _ _ _ ⟨⟩
        · rw [Bool.not_eq_true] at hstar
          rw [hstar, Bool.and_false]
      exact .of_ok hread rfl ⟨rfl, rfl⟩

/-- An arrow of hyphens starts a comment where those are recognised. -/
theorem arrowRound_follows {c : Char} (h : At (s.skipping trivia pos) before (c :: rest))
    (hc : isAscii c = true) (hline : isLineTerminator c = false) (hspace : isInlineSpace c = false)
    (hslash : c ≠ '/') (hfirst : pos = 0 → ∀ tail, c :: rest ≠ '#' :: '!' :: tail) :
    Follows (FailsInTrivia s) (readTriviaItem s.htmlComments pos trivia (c :: rest))
      (if c == '<' && (s.skipping trivia pos).htmlComments &&
        (s.skipping trivia pos).startsWith "<!--"
        then do
          skipLineComment 4 .html
          return .inl ()
        else if c == '-' && (s.skipping trivia pos).htmlComments &&
            (s.skipping trivia pos).atLineStart && (s.skipping trivia pos).startsWith "-->" then do
          skipLineComment 3 .html
          return .inl ()
        else return .inr () : Scanner (Unit ⊕ Unit))
      (HasSkipped s trivia pos (c :: rest)) (s.skipping trivia pos) := by
  have hopening : "<!--".toList = ['<', '!', '-', '-'] := by decide
  have hclosing : "-->".toList = ['-', '-', '>'] := by decide
  rw [h.startsWith (by decide), h.startsWith (by decide), hopening, hclosing]
  split
  · rename_i hopen
    rw [Bool.and_eq_true, Bool.and_eq_true, List.isPrefixOf_iff_prefix] at hopen
    obtain ⟨⟨-, hhtml⟩, tail, htail⟩ := hopen
    obtain ⟨rfl, rfl⟩ := List.cons.inj htail
    have hcomment : lineCommentOpening? s.htmlComments trivia.atLineStart pos
        ('<' :: '!' :: '-' :: '-' :: tail) = some (.html, 4) := if_pos hhtml
    have hskip := skipLineComment_eq ['<', '!', '-', '-'] .html h rfl
    have hread := readTriviaItem_comment hline hspace hcomment
    exact .of_ok hread ((bind_of_ok hskip).trans rfl) ⟨rfl, rfl⟩
  · rename_i hopen
    split
    · rename_i hclose
      rw [Bool.and_eq_true, Bool.and_eq_true, Bool.and_eq_true, List.isPrefixOf_iff_prefix]
        at hclose
      obtain ⟨⟨⟨-, hhtml⟩, hstart⟩, tail, htail⟩ := hclose
      obtain ⟨rfl, rfl⟩ := List.cons.inj htail
      have hcomment : lineCommentOpening? s.htmlComments trivia.atLineStart pos
          ('-' :: '-' :: '>' :: tail) = some (.html, 3) :=
        if_pos (Bool.and_eq_true_iff.mpr ⟨hhtml, hstart⟩)
      have hskip := skipLineComment_eq ['-', '-', '>'] .html h rfl
      have hread := readTriviaItem_comment hline hspace hcomment
      exact .of_ok hread ((bind_of_ok hskip).trans rfl) ⟨rfl, rfl⟩
    · rename_i hclose
      have hread : readTriviaItem s.htmlComments pos trivia (c :: rest) = .ok none := by
        refine readTriviaItem_none hline hspace (lineCommentOpening?_none hfirst ?_ ?_ ?_) ?_
        · rintro tail ⟨⟩
          exact hslash rfl
        · rintro hhtml tail ⟨⟩
          exact hopen (by rw [show (s.skipping trivia pos).htmlComments = true from hhtml]; rfl)
        · rintro hhtml hstart tail ⟨⟩
          refine hclose ?_
          rw [show (s.skipping trivia pos).htmlComments = true from hhtml,
            show (s.skipping trivia pos).atLineStart = true from hstart]
          rfl
        · rw [beq_eq_false_iff_ne.mpr hslash, Bool.false_and]
      exact .of_ok hread rfl ⟨rfl, rfl⟩

/-- Beyond ASCII there are line separators and white space. -/
theorem wideRound_follows {c : Char} (h : At (s.skipping trivia pos) before (c :: rest))
    (hc : isAscii c = false) :
    Follows (FailsInTrivia s) (readTriviaItem s.htmlComments pos trivia (c :: rest))
      (do
        match ← currentChar with
        | some c =>
          if c == '\u2028' || c == '\u2029' then
            noteLineBreak
            bump 3
            return .inl ()
          else if isInlineSpace c then
            bump c.utf8Size
            return .inl ()
          else return .inr ()
        | none => return .inr () : Scanner (Unit ⊕ Unit))
      (HasSkipped s trivia pos (c :: rest)) (s.skipping trivia pos) := by
  have hterminator : isLineTerminator c = (c == '\u2028' || c == '\u2029') := by
    rw [isLineTerminator, beq_wide (x := '\n') hc (by decide), beq_wide (x := '\r') hc (by decide)]
    rfl
  refine .run h.currentChar ?_
  dsimp only [List.head?_cons]
  rw [← hterminator]
  split
  · rename_i hline
    have hsize : byteLength ((c :: rest).take 1) = 3 := by
      rw [hterminator, Bool.or_eq_true, beq_iff_eq, beq_iff_eq] at hline
      rcases hline with rfl | rfl <;> rfl
    rw [readTriviaItem_line hline]
    refine .run (noteLineBreak_eq s trivia pos) (.run rfl (.pure ⟨rfl, ?_⟩))
    rw [hsize]
    rfl
  · rename_i hline
    rw [Bool.not_eq_true] at hline
    split
    · rename_i hspace
      rw [readTriviaItem_space hline hspace]
      exact .run rfl (.pure ⟨rfl, rfl⟩)
    · rename_i hspace
      rw [Bool.not_eq_true] at hspace
      have hread : readTriviaItem s.htmlComments pos trivia (c :: rest) = .ok none := by
        refine readTriviaItem_none hline hspace (lineCommentOpening?_none ?_ ?_ ?_ ?_) ?_
        · rintro _ tail ⟨⟩
          cases hc
        · rintro tail ⟨⟩
          cases hc
        · rintro _ tail ⟨⟩
          cases hc
        · rintro _ _ tail ⟨⟩
          cases hc
        · rw [beq_wide (x := '/') hc (by decide), Bool.false_and]
      exact .of_ok hread rfl ⟨rfl, rfl⟩

theorem skipTriviaRound_follows (h : At (s.skipping trivia pos) before text)
    (hfirst : pos = 0 → ∀ tail, text ≠ '#' :: '!' :: tail) :
    Follows (FailsInTrivia s) (readTriviaItem s.htmlComments pos trivia text) (skipTriviaRound ())
      (HasSkipped s trivia pos text) (s.skipping trivia pos) := by
  unfold skipTriviaRound
  refine .run h.isEof_eq ?_
  cases text with
  | nil => exact .of_ok rfl rfl ⟨rfl, rfl⟩
  | cons c rest =>
    rw [List.isEmpty_cons, if_neg Bool.false_ne_true]
    cases hc : isAscii c with
    | true =>
      refine .run (h.byte_ascii hc) (.run rfl ?_)
      have hone : byteLength ((c :: rest).take 1) = 1 := utf8Size_of_isAscii hc
      split
      · rename_i hline
        have hterminator : isLineTerminator c = true := by
          rw [isLineTerminator, hline]
          rfl
        rw [readTriviaItem_line hterminator]
        refine .run (noteLineBreak_eq s trivia pos) (.run rfl (.pure ⟨rfl, ?_⟩))
        rw [hone]
        rfl
      · rename_i hline
        have hterminator : isLineTerminator c = false := by
          have hne : ∀ x, isAscii x = false → (c == x) = false := fun x hx => by
            rw [beq_eq_false_iff_ne]
            exact (ne_of_wide hx hc).symm
          rw [Bool.not_eq_true] at hline
          rw [isLineTerminator, hline, hne '\u2028' (by decide), hne '\u2029' (by decide)]
          rfl
        split
        · rename_i hspace
          rw [← isInlineSpace_of_isAscii hc] at hspace
          rw [readTriviaItem_space hterminator hspace]
          refine .run rfl (.pure ⟨rfl, ?_⟩)
          rw [hone]
          rfl
        · rename_i hspace
          rw [← isInlineSpace_of_isAscii hc, Bool.not_eq_true] at hspace
          split
          · rename_i hslash
            obtain rfl : c = '/' := beq_iff_eq.mp hslash
            exact slashRound_follows h
          · rename_i hslash
            exact arrowRound_follows h hc hterminator hspace (by simpa using hslash) hfirst
    | false =>
      obtain ⟨b, hb, hwide⟩ := h.byte_wide hc
      refine .run hb (.run rfl ?_)
      have hround := wideRound_follows h hc
      rw [beq_wide (x := '\n') hwide (by decide), beq_wide (x := '\r') hwide (by decide),
        beq_wide (x := ' ') hwide (by decide), beq_wide (x := '\t') hwide (by decide),
        beq_wide (x := '\x0b') hwide (by decide), beq_wide (x := '\x0c') hwide (by decide),
        beq_wide (x := '/') hwide (by decide), beq_wide (x := '<') hwide (by decide),
        beq_wide (x := '-') hwide (by decide), hwide]
      exact hround

/-- The rounds through trivia. -/
theorem rounds_skipTriviaRound {length : Nat} :
    ∀ (fuel : Nat) (trivia : Trivia) {done rest : List Char},
    rest.length = length → done ++ rest = text → done.length = trivia.length →
      At (s.skipping trivia (byteLength (before ++ done))) (before ++ done) rest →
      (byteLength (before ++ done) = 0 → ∀ tail, rest ≠ '#' :: '!' :: tail) →
        byteLength rest < fuel →
      Follows (FailsInTrivia s)
        (readTriviaFrom s.htmlComments (byteLength (before ++ done)) trivia 0 rest)
        (rounds skipTriviaRound fuel ())
        (fun found _ s' => s' = s.skipping found (byteLength (before ++ text.take found.length)))
        (s.skipping trivia (byteLength (before ++ done))) := by
  induction length using Nat.strongRecOn with
  | ind length ih =>
    intro fuel trivia done rest hlength hsplit hcount h hfirst hfuel
    obtain ⟨fuel, rfl⟩ := Nat.exists_eq_succ_of_ne_zero (Nat.ne_zero_of_lt hfuel)
    have hround := skipTriviaRound_follows h hfirst
    rw [readTriviaFrom_item]
    cases hread : readTriviaItem s.htmlComments (byteLength (before ++ done)) trivia rest with
    | error failure =>
      rw [hread] at hround
      obtain ⟨stop, s', hrun, hfails⟩ := hround.error
      exact .of_error rfl (rounds_error hrun) hfails
    | ok item =>
      rw [hread] at hround
      cases item with
      | none =>
        obtain ⟨next, s', hrun, rfl, rfl⟩ := hround.ok
        refine .of_ok rfl (rounds_inr hrun) ?_
        rw [← hsplit, ← hcount, List.take_left]
      | some item =>
        obtain ⟨found, n⟩ := item
        obtain ⟨next, s', hrun, rfl, rfl⟩ := hround.ok
        obtain ⟨hpos, hle, hsame⟩ := readTriviaItem_le hread
        have hbytes := byteLength_drop_lt _ hpos hle
        have hplace : byteLength (before ++ done) + byteLength (rest.take n) =
            byteLength (before ++ (done ++ rest.take n)) := by
          rw [← List.append_assoc, byteLength_append (before ++ done)]
        rw [hplace] at hrun
        dsimp only
        rw [hplace]
        have hnext : At (s.skipping { found with length := trivia.length + n }
            (byteLength (before ++ (done ++ rest.take n)))) (before ++ (done ++ rest.take n))
            (rest.drop n) := by
          rw [← List.append_assoc]
          exact (h.past n).of_eq rfl (by rw [h.past n |>.pos]; rfl)
        have hlater : byteLength (before ++ (done ++ rest.take n)) ≠ 0 := by
          have htake : rest.take n ≠ [] := by
            rw [← List.length_pos_iff, List.length_take]
            omega
          have hone := byteLength_pos htake
          rw [← hplace]
          omega
        have hrest := ih _ (by rw [← hlength, List.length_drop]; omega) fuel _ rfl
          (by rw [← hsplit, List.append_assoc, List.take_append_drop])
          (by rw [List.length_append, List.length_take, Nat.min_eq_left hle, hcount]) hnext
          (fun hzero => absurd hzero hlater) (by omega)
        exact .of_step hrest (rounds_inl hrun)

/-- The first line of a script, which is a comment. -/
def firstLine (atLineStart : Bool) (tail : List Char) : Trivia :=
  ⟨[lineComment .line 2 0 ('#' :: '!' :: tail)], false, atLineStart, 2 + (lineBody tail).length⟩

theorem readTriviaFrom_first {html atLineStart : Bool} {tail : List Char}
    (htext : text = '#' :: '!' :: tail) : readTriviaFrom html 0 ⟨[], false, atLineStart, 0⟩ 0 text =
      readTriviaFrom html (byteLength (text.take (2 + (lineBody tail).length)))
        (firstLine atLineStart tail) 0 (text.drop (2 + (lineBody tail).length)) := by
  subst htext
  have hread : readTriviaItem html 0 ⟨[], false, atLineStart, 0⟩ ('#' :: '!' :: tail) = .ok (some
      (⟨[lineComment .line 2 0 ('#' :: '!' :: tail)], false, atLineStart, 0⟩,
        2 + (lineBody tail).length)) := rfl
  rw [readTriviaFrom_item, hread]
  dsimp only
  rw [Nat.zero_add, Nat.zero_add]
  rfl

/-- The rounds behind the first line of a script. -/
theorem rounds_firstLine {tail : List Char} (h : At s [] text) (htext : text = '#' :: '!' :: tail) :
    Follows (FailsInTrivia s)
      (readTriviaFrom s.htmlComments 0 ⟨[], false, s.atLineStart, 0⟩ 0 text)
      (rounds skipTriviaRound (s.bytes.length + 1) ())
      (fun found _ s' => s' = s.skipping found (byteLength (text.take found.length)))
      (s.skipping (firstLine s.atLineStart tail)
        (byteLength (text.take (2 + (lineBody tail).length)))) := by
  have hle : 2 + (lineBody tail).length ≤ text.length := by
    have hline := lineBody_le tail
    rw [htext, List.length_cons, List.length_cons]
    omega
  have hnext : At (s.skipping (firstLine s.atLineStart tail)
      (byteLength (text.take (2 + (lineBody tail).length))))
        (text.take (2 + (lineBody tail).length)) (text.drop (2 + (lineBody tail).length)) := by
    have hpast := h.past (2 + (lineBody tail).length)
    exact hpast.of_eq rfl hpast.pos.symm
  have hlater : byteLength (text.take (2 + (lineBody tail).length)) ≠ 0 := by
    rw [htext, Nat.add_comm, List.take_succ_cons]
    exact Nat.ne_of_gt (byteLength_pos (List.cons_ne_nil _ _))
  have hbytes : s.bytes.length = byteLength (text.take (2 + (lineBody tail).length)) +
      byteLength (text.drop (2 + (lineBody tail).length)) := hnext.length_bytes
  rw [readTriviaFrom_first htext]
  refine @rounds_skipTriviaRound s [] text _ (s.bytes.length + 1)
    (firstLine s.atLineStart tail) _ _ rfl
    (List.take_append_drop _ text) ?_ hnext (fun hzero => absurd hzero hlater) (by omega)
  rw [List.length_take, Nat.min_eq_left hle]
  rfl

/-- Trivia before a token. -/
theorem skipTrivia_follows (h : At s before text) :
    Follows (FailsInTrivia s) (readTrivia s.htmlComments s.atLineStart s.pos text) skipTrivia
      (fun trivia _ s' => s' = s.skipping trivia (byteLength (before ++ text.take trivia.length)))
        s := by
  have hmarks : "#!".toList = ['#', '!'] := by decide
  unfold skipTrivia readTrivia
  refine .run rfl ?_
  rw [h.startsWith (by decide), hmarks]
  split
  · rename_i hfirst
    rw [Bool.and_eq_true, beq_iff_eq, List.isPrefixOf_iff_prefix] at hfirst
    obtain ⟨hzero, tail, rfl⟩ := hfirst
    obtain rfl : before = [] := by
      cases before with
      | nil => rfl
      | cons c before =>
        have hpos := byteLength_pos (List.cons_ne_nil c before)
        rw [← h.pos, hzero] at hpos
        exact absurd hpos (Nat.lt_irrefl 0)
    have hplace : At (s.skipping ⟨[], false, s.atLineStart, 0⟩ s.pos) [] (['#', '!'] ++ tail) := by
      rwa [State.skipping_none]
    have hskip := skipLineComment_eq ['#', '!'] .line hplace rfl
    rw [State.skipping_none, hzero, Nat.zero_add] at hskip
    rw [hzero]
    exact .run hskip (.of_step (rounds_firstLine h rfl) (loop_eq _ _))
  · rename_i hfirst
    have hplace : At (s.skipping ⟨[], false, s.atLineStart, 0⟩ (byteLength (before ++ [])))
        (before ++ []) text := by
      rwa [List.append_nil, ← h.pos, State.skipping_none]
    have hrounds := rounds_skipTriviaRound (s.bytes.length + 1) _ rfl
      (List.nil_append text) rfl hplace
      ?_ (by rw [h.length_bytes]; omega)
    · rw [List.append_nil, ← h.pos, State.skipping_none] at hrounds
      exact .of_step hrounds (loop_eq _ _)
    · rintro hzero tail rfl
      rw [List.append_nil, ← h.pos] at hzero
      exact hfirst (by rw [hzero]; rfl)

end Rounds

end EcmaSyntax.Scanner
