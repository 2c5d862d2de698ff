import EcmaSyntax.Proofs.Lexer.Words

/-!
What stands between tokens, as a grammar: blanks, comments up to the end of their
line, and comments up to the first closing delimiter. The trivia that a lexer skips
are such a gap, and the comments it reports are those of the gap.
-/

namespace EcmaSyntax.Lexer

open EcmaSyntax.Diagnostic EcmaSyntax.Text EcmaSyntax.Unicode

variable {version : Nat} [Unicode.IdentifierChars version]

/-- The delimiters that open a comment up to the end of the line. The first line of a
script may have one of its own, and those of markup have to be allowed. -/
inductive OpensLine (html : Bool) (offset : Nat) : CommentKind → List Char → Prop
  | slashes : OpensLine html offset .line ['/', '/']
  | interpreter (h : offset = 0) : OpensLine html offset .line ['#', '!']
  | markupOpen (h : html = true) : OpensLine html offset .html ['<', '!', '-', '-']
  | markupClose (h : html = true) : OpensLine html offset .html ['-', '-', '>']

/-- The text at an offset, before another text, holds nothing but blanks and these
comments. -/
inductive Gap (html : Bool) : Nat → List Char → List Char → List Comment → Prop
  | done {offset after} : Gap html offset [] after []
  | blank {offset c gap after comments}
      (hc : isLineTerminator c = true ∨ isInlineSpace c = true)
      (h : Gap html (offset + c.utf8Size) gap after comments) :
      Gap html offset (c :: gap) after comments
  | line {offset kind opening body gap after comments}
    (hopening : OpensLine html offset kind opening)
      (hbody : ∀ c ∈ body, isLineTerminator c = false)
      (hend : ∀ c ∈ (gap ++ after).head?, isLineTerminator c = true)
      (h : Gap html (offset + byteLength (opening ++ body)) gap after comments) :
      Gap html offset (opening ++ body ++ gap) after
        (⟨kind, String.ofList body, offset, offset + byteLength (opening ++ body)⟩ :: comments)
  | block {offset body gap after comments} (hbody : ¬ ['*', '/'] <:+: body ++ ['*'])
      (h : Gap html (offset + byteLength (['/', '*'] ++ body ++ ['*', '/'])) gap after comments) :
      Gap html offset (['/', '*'] ++ body ++ ['*', '/'] ++ gap) after
        (⟨.block, String.ofList body, offset,
          offset + byteLength (['/', '*'] ++ body ++ ['*', '/'])⟩ :: comments)

namespace Gap

variable {html : Bool}

/-- Two gaps, one right after the other, are one. -/
theorem append {offset : Nat} {first middle second after : List Char}
    {comments more : List Comment} (h : Gap html offset first middle comments)
    (hmiddle : middle = second ++ after)
    (h' : Gap html (offset + byteLength first) second after more) :
    Gap html offset (first ++ second) after (comments ++ more) := by
  induction h with
  | done => simpa [byteLength] using h'
  | blank hc _ ih =>
    refine .blank hc (ih hmiddle ?_)
    rwa [Nat.add_assoc]
  | @line offset kind opening body gap middle comments hopening hbody hend _ ih =>
    rw [List.append_assoc]
    refine .line hopening hbody ?_ (ih hmiddle ?_)
    · rwa [List.append_assoc, ← hmiddle]
    · rw [byteLength_append] at h'
      rwa [Nat.add_assoc]
  | @block offset body gap middle comments hbody _ ih =>
    rw [List.append_assoc]
    refine .block hbody (ih hmiddle ?_)
    rw [byteLength_append] at h'
    rwa [Nat.add_assoc]

end Gap

section Comments

theorem byteLength_of_opensLine {html : Bool} {offset : Nat} {kind : CommentKind}
    {opening : List Char} (h : OpensLine html offset kind opening) :
    byteLength opening = opening.length := by
  cases h <;> rfl

theorem lineCommentOpening?_some {html atLineStart : Bool} {offset : Nat} {text : List Char}
    {kind : CommentKind} {width : Nat}
    (h : lineCommentOpening? html atLineStart offset text = some (kind, width)) :
    ∃ opening rest, text = opening ++ rest ∧ opening.length = width ∧
      OpensLine html offset kind opening := by
  unfold lineCommentOpening? at h
  split at h
  · split at h
    · rename_i hoffset
      cases h
      exact ⟨['#', '!'], _, rfl, rfl, .interpreter (beq_iff_eq.mp hoffset)⟩
    · cases h
  · cases h
    exact ⟨['/', '/'], _, rfl, rfl, .slashes⟩
  · split at h
    · rename_i hhtml
      cases h
      exact ⟨['<', '!', '-', '-'], _, rfl, rfl, .markupOpen hhtml⟩
    · cases h
  · split at h
    · rename_i hhtml
      cases h
      exact ⟨['-', '-', '>'], _, rfl, rfl, .markupClose (Bool.and_eq_true_iff.mp hhtml).1⟩
    · cases h
  · cases h

/-- The body of a comment goes up to its first closing delimiter. -/
theorem blockBody?_some {text body : List Char} (h : blockBody? text = some body) :
    (∃ rest, text = body ++ ['*', '/'] ++ rest) ∧ ¬ ['*', '/'] <:+: body ++ ['*'] := by
  induction text using blockBody?.induct generalizing body with
  | case1 => cases h
  | case2 rest =>
    cases h
    refine ⟨⟨rest, rfl⟩, fun hinfix => ?_⟩
    have hlength := hinfix.length_le
    simp at hlength
  | case3 c rest hclose ih =>
    rw [blockBody?, Option.map_eq_some_iff] at h
    · obtain ⟨tail, htail, rfl⟩ := h
      obtain ⟨⟨after, hrest⟩, hnot⟩ := ih htail
      refine ⟨⟨after, by rw [hrest]; rfl⟩, fun hinfix => ?_⟩
      rcases List.infix_cons_iff.mp hinfix with hprefix | hinfix
      · -- The delimiter would stand right here, where it was looked for.
        obtain ⟨more, hmore⟩ := hprefix
        simp only [List.cons_append, List.nil_append, List.cons.injEq] at hmore
        obtain ⟨rfl, hmore⟩ := hmore
        cases tail with
        | nil => simp at hmore
        | cons d tail =>
          obtain ⟨rfl, -⟩ := List.cons.inj hmore
          exact hclose _ rfl (by rw [hrest]; rfl)
      · exact hnot hinfix
    · exact hclose

theorem lineBody_spec (text : List Char) : ∃ rest, text = lineBody text ++ rest ∧
    (∀ c ∈ lineBody text, isLineTerminator c = false) ∧
      ∀ c ∈ rest.head?, isLineTerminator c = true := by
  refine ⟨text.dropWhile fun c => !isLineTerminator c, ?_, fun c hc => ?_, fun c hc => ?_⟩
  · exact List.takeWhile_append_dropWhile.symm
  · have hall := List.all_takeWhile (l := text) (p := fun c => !isLineTerminator c)
    simpa using List.all_eq_true.mp hall c hc
  · have hhead := List.head?_dropWhile_not (fun c => !isLineTerminator c) text
    rw [Option.mem_def] at hc
    simpa [hc] using hhead

end Comments

section Trivia

variable {html : Bool} {offset : Nat}

/-- The trivia of a text at an offset, after others with a length and with comments. -/
def IsTrivia (html : Bool) (offset length : Nat) (comments : List Comment) (text : List Char) :
    Except Failure Trivia → Prop
  | .ok trivia => ∃ gap after more, text = gap ++ after ∧ Gap html offset gap after more ∧
      trivia.length = length + gap.length ∧ trivia.comments = comments ++ more
  | .error failure => ∃ gap after, text = gap ++ after ∧ failure.offset = offset + byteLength gap

/-- Trivia after a part of the gap that has been read. -/
theorem IsTrivia.prepend {length : Nat} {comments new : List Comment} {lead rest : List Char}
    {result : Except Failure Trivia}
    (h : IsTrivia html (offset + byteLength lead) (length + lead.length)
    (comments ++ new) rest result)
    (hgap : ∀ gap after more, rest = gap ++ after →
      Gap html (offset + byteLength lead) gap after more →
        Gap html offset (lead ++ gap) after (new ++ more)) :
    IsTrivia html offset length comments (lead ++ rest) result := by
  cases result with
  | ok trivia =>
    obtain ⟨gap, after, more, hrest, hmore, hlength, hcomments⟩ := h
    refine ⟨lead ++ gap, after, new ++ more, ?_, hgap gap after more hrest hmore, ?_, ?_⟩
    · rw [hrest, List.append_assoc]
    · rw [hlength, List.length_append, Nat.add_assoc]
    · rw [hcomments, List.append_assoc]
  | error failure =>
    obtain ⟨gap, after, hrest, hoffset⟩ := h
    refine ⟨lead ++ gap, after, ?_, ?_⟩
    · rw [hrest, List.append_assoc]
    · rw [hoffset, byteLength_append, Nat.add_assoc]

/-- The text that starts with `c` and `lead` is one comment, whatever gap comes after it. -/
def IsComment (html : Bool) (offset : Nat) (c : Char) (lead after : List Char) (comment : Comment) :
    Prop :=
  ∀ gap after' more, after = gap ++ after' →
    Gap html (offset + byteLength (c :: lead)) gap after' more →
      Gap html offset (c :: lead ++ gap) after' (comment :: more)

/-- A comment up to the end of its line. -/
theorem lineComment_isComment {atLineStart : Bool} {c : Char} {tail : List Char}
    {kind : CommentKind} {width : Nat}
    (h : lineCommentOpening? html atLineStart offset (c :: tail) = some (kind, width)) :
    ∃ lead after, tail = lead ++ after ∧
      width - 1 + (lineComment kind width offset (c :: tail)).value.length = lead.length ∧
        IsComment html offset c lead after (lineComment kind width offset (c :: tail)) := by
  obtain ⟨opening, rest, htext, hwidth, hopens⟩ := lineCommentOpening?_some h
  have hbytes := byteLength_of_opensLine hopens
  obtain ⟨d, opening, rfl⟩ : ∃ d opening', opening = d :: opening' := by
    cases hopens <;> exact ⟨_, _, rfl⟩
  rw [List.cons_append, List.cons.injEq] at htext
  obtain ⟨rfl, rfl⟩ := htext
  obtain ⟨after, hrest, hbody, hend⟩ := lineBody_spec rest
  have hdrop : (c :: (opening ++ rest)).drop width = rest := by
    rw [← hwidth, ← List.cons_append, List.drop_left]
  have hcomment : lineComment kind width offset (c :: (opening ++ rest)) =
      ⟨kind, String.ofList (lineBody rest), offset,
        offset + byteLength (c :: opening ++ lineBody rest)⟩ := by
    unfold lineComment
    dsimp only
    rw [hdrop, byteLength_append, hbytes, hwidth, Nat.add_assoc]
  rw [hcomment]
  refine ⟨opening ++ lineBody rest, after, ?_, ?_, ?_⟩
  · rw [List.append_assoc, ← hrest]
  · simp only [String.length_ofList, List.length_append, ← hwidth, List.length_cons]
    omega
  · intro gap after' more hafter hgap
    refine .line hopens hbody ?_ hgap
    rwa [← hafter]

/-- A comment up to its closing delimiter. -/
theorem blockComment_isComment {tail body : List Char} (h : blockBody? tail = some body) :
    ∃ lead after, '*' :: tail = lead ++ after ∧ body.length + 3 = lead.length ∧
      IsComment html offset '/' lead after
        ⟨.block, String.ofList body, offset, offset + 4 + byteLength body⟩ := by
  obtain ⟨⟨after, htail⟩, hbody⟩ := blockBody?_some h
  have hbytes : offset + 4 + byteLength body =
      offset + byteLength (['/', '*'] ++ body ++ ['*', '/']) := by
    simp only [byteLength_append]
    change _ = offset + (2 + byteLength body + 2)
    omega
  rw [hbytes]
  refine ⟨'*' :: body ++ ['*', '/'], after, ?_, by simp, fun gap after' more _ hgap => ?_⟩
  · rw [htail]
    rfl
  · exact .block hbody hgap

/-- The reader of trivia, which first passes over what belongs to the last comment. -/
theorem readTriviaFrom_isTrivia (html : Bool) (text : List Char) :
    ∀ (offset : Nat) (trivia : Trivia) (skipped rest : List Char), text = skipped ++ rest →
      IsTrivia html (offset + byteLength skipped) (trivia.length + skipped.length) trivia.comments
        rest (readTriviaFrom html offset trivia skipped.length text) := by
  induction text with
  | nil =>
    intro offset trivia skipped rest htext
    obtain ⟨rfl, rfl⟩ := List.nil_eq_append_iff.mp htext
    rw [readTriviaFrom]
    exact ⟨[], [], [], rfl, .done, rfl, by simp⟩
  | cons c tail ih =>
    intro offset trivia skipped rest htext
    cases skipped with
    | cons d skipped =>
      obtain ⟨rfl, rfl⟩ := List.cons.inj htext
      have htail := ih (offset + c.utf8Size)
        { trivia with length := trivia.length + 1 } skipped rest rfl
      rw [List.length_cons, readTriviaFrom]
      simp only [byteLength, Nat.add_assoc, Nat.add_comm 1 skipped.length] at htail ⊢
      exact htail
    | nil =>
      -- The text that is read next is passed over, or it starts with a blank, or it ends.
      have hlead : ∀ (lead after : List Char) (new : List Comment) (found : Trivia),
          c :: tail = c :: lead ++ after → found.length = trivia.length + 1 →
          found.comments = trivia.comments ++ new →
          (∀ gap after' more, after = gap ++ after' →
            Gap html (offset + byteLength (c :: lead)) gap after' more →
              Gap html offset (c :: lead ++ gap) after' (new ++ more)) →
          IsTrivia html offset trivia.length trivia.comments (c :: tail)
            (readTriviaFrom html (offset + c.utf8Size) found lead.length tail) := by
        intro lead after new found htext' hlength hcomments hgap
        have htail := ih (offset + c.utf8Size) found lead after (List.cons.inj htext').2
        rw [htext']
        refine IsTrivia.prepend ?_ hgap
        rw [hlength, hcomments, Nat.add_assoc, Nat.add_assoc, Nat.add_comm 1 lead.length] at htail
        exact htail
      rw [List.nil_append] at htext
      subst htext
      have hzero : byteLength [] = 0 := rfl
      rw [hzero, List.length_nil, Nat.add_zero, Nat.add_zero]
      unfold readTriviaFrom
      split
      · rename_i hline
        refine hlead [] tail [] _ rfl rfl (by simp) fun gap after more _ hgap => ?_
        exact .blank (.inl hline) (by simpa [byteLength] using hgap)
      split
      · rename_i hspace
        refine hlead [] tail [] _ rfl rfl (by simp) fun gap after more _ hgap => ?_
        exact .blank (.inr hspace) (by simpa [byteLength] using hgap)
      split
      · rename_i kind width hopening
        obtain ⟨lead, after, htail, hlength, hcomment⟩ := lineComment_isComment hopening
        simp only [hlength]
        exact hlead lead after [_] _ (by rw [htail]; rfl) rfl rfl hcomment
      · split
        · rename_i hslash
          simp only [Bool.and_eq_true, beq_iff_eq] at hslash
          obtain ⟨rfl, hstar⟩ := hslash
          obtain ⟨tail, rfl⟩ := List.head?_eq_some_iff.mp hstar
          rw [List.drop_one, List.tail_cons]
          split
          · exact ⟨[], _, rfl, rfl⟩
          · rename_i body hbody
            obtain ⟨lead, after, htail, hlength, hcomment⟩ := blockComment_isComment hbody
            simp only [hlength]
            exact hlead lead after [_] _ (by rw [htail]; rfl) rfl rfl hcomment
        · exact ⟨[], c :: tail, [], rfl, .done, rfl, by simp⟩

/-- The trivia at an offset are a gap, with its comments. -/
theorem readTrivia_isTrivia (html atLineStart : Bool) (offset : Nat) (text : List Char) :
    IsTrivia html offset 0 [] text (readTrivia html atLineStart offset text) :=
  readTriviaFrom_isTrivia html text offset ⟨[], false, atLineStart, 0⟩ [] text rfl

end Trivia

end EcmaSyntax.Lexer
