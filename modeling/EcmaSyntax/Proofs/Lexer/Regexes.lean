import EcmaSyntax.Proofs.Lexer.Safety
import EcmaSyntax.Unicode.IdentifierRanges

/-!
Regular expression literals. A slash is read as the start of a literal if and only if the text
from there on has the form of one, and the token is then that literal: the slash that closes it is
the first one that is neither escaped nor in a class.
-/

namespace EcmaSyntax.Lexer

open EcmaSyntax.Diagnostic EcmaSyntax.Text EcmaSyntax.Unicode

section

variable {version : Nat} [Unicode.IdentifierChars version]

section Grammar

/-- What stands between the brackets of a class. -/
inductive IsRegexClass : List Char → Prop
  | nil : IsRegexClass []
  | escape {c rest} (hc : isLineTerminator c = false) (h : IsRegexClass rest) :
    IsRegexClass ('\\' :: c :: rest)
  | char {c rest} (hc : isLineTerminator c = false) (hnot : c ∉ ['\\', ']'])
    (h : IsRegexClass rest) : IsRegexClass (c :: rest)

/-- What stands between the slashes: escapes, classes and other characters. -/
inductive IsRegexBody : List Char → Prop
  | nil : IsRegexBody []
  | escape {c rest} (hc : isLineTerminator c = false) (h : IsRegexBody rest) :
    IsRegexBody ('\\' :: c :: rest)
  | brackets {inside rest} (hinside : IsRegexClass inside) (h : IsRegexBody rest) :
    IsRegexBody ('[' :: (inside ++ ']' :: rest))
  | char {c rest} (hc : isLineTerminator c = false) (hnot : c ∉ ['\\', '/', '['])
    (h : IsRegexBody rest) : IsRegexBody (c :: rest)

/-- Flags with the text after them. -/
structure AreRegexFlags (flags rest : List Char) : Prop where
  letters : ∀ c ∈ flags, c ∈ ['d', 'g', 'i', 'm', 's', 'u', 'v', 'y']
  nodup : flags.Nodup
  notBoth : ¬ ('u' ∈ flags ∧ 'v' ∈ flags)
  maximal : ∀ c ∈ rest.head?, isIdentifierPart c = false
  unescaped : rest.head? ≠ some '\\'

/-- The text starts with a regular expression of this body and these flags. -/
def StartsRegex (text body flags : List Char) : Prop :=
  ∃ rest, text = ('/' :: body ++ '/' :: flags) ++ rest ∧ IsRegexBody body ∧ AreRegexFlags flags rest

end Grammar

section Body

variable {inClass : Bool} {c : Char} {inside body rest : List Char} {index close : Nat}

/-- An escaped character is passed over, in a class or not. -/
theorem readRegexBody_escape (hc : isLineTerminator c = false) :
    readRegexBody inClass false index ('\\' :: c :: rest) =
      readRegexBody inClass false (index + 1 + 1) rest := by
  have hbackslash : isLineTerminator '\\' = false := by decide
  simp [readRegexBody, hbackslash, hc]

theorem readRegexBody_char (hc : isLineTerminator c = false) (hnot : c ∉ ['\\', '/', '[']) :
    readRegexBody false false index (c :: rest) = readRegexBody false false (index + 1) rest := by
  simp only [List.mem_cons, List.not_mem_nil, or_false, not_or] at hnot
  simp [readRegexBody, hc, hnot.1, hnot.2.1, hnot.2.2]

theorem readRegexBody_classChar (hc : isLineTerminator c = false) (hnot : c ∉ ['\\', ']']) :
    readRegexBody true false index (c :: rest) = readRegexBody true false (index + 1) rest := by
  simp only [List.mem_cons, List.not_mem_nil, or_false, not_or] at hnot
  simp [readRegexBody, hc, hnot.1, hnot.2]

/-- A class is read up to its bracket. -/
theorem readRegexBody_class (h : IsRegexClass inside) : ∀ index,
    readRegexBody true false index (inside ++ ']' :: rest) =
      readRegexBody false false (index + (inside.length + 1)) rest := by
  induction h with
  | nil => exact fun index => rfl
  | escape hc _ ih =>
    intro index
    rw [List.cons_append, List.cons_append, readRegexBody_escape hc, ih, List.length_cons,
      List.length_cons]
    congr 1
    omega
  | char hc hnot _ ih =>
    intro index
    rw [List.cons_append, readRegexBody_classChar hc hnot, ih, List.length_cons]
    congr 1
    omega

/-- A body is read up to the slash behind it. -/
theorem readRegexBody_of_isRegexBody (h : IsRegexBody body) : ∀ index,
    readRegexBody false false index (body ++ '/' :: rest) = .ok (index + body.length) := by
  induction h with
  | nil => exact fun index => rfl
  | escape hc _ ih =>
    intro index
    rw [List.cons_append, List.cons_append, readRegexBody_escape hc, ih, List.length_cons,
      List.length_cons]
    congr 1
    omega
  | @brackets inside body hinside _ ih =>
    intro index
    have hopen : readRegexBody false false index ('[' :: (inside ++ ']' :: (body ++ '/' :: rest))) =
        readRegexBody true false (index + 1) (inside ++ ']' :: (body ++ '/' :: rest)) := rfl
    rw [List.cons_append, List.append_assoc, List.cons_append, hopen, readRegexBody_class hinside,
      ih, List.length_cons, List.length_append, List.length_cons]
    congr 1
    omega
  | char hc hnot _ ih =>
    intro index
    rw [List.cons_append, readRegexBody_char hc hnot, ih, List.length_cons]
    congr 1
    omega

/-- The rest of a body, from inside a class on or from outside of any. -/
def ClosesRegex (inClass : Bool) (body : List Char) : Prop :=
  match inClass with
  | true => ∃ inside after, body = inside ++ ']' :: after ∧ IsRegexClass inside ∧ IsRegexBody after
  | false => IsRegexBody body

theorem ClosesRegex.escape (hc : isLineTerminator c = false) (h : ClosesRegex inClass body) :
    ClosesRegex inClass ('\\' :: c :: body) := by
  cases inClass with
  | false => exact IsRegexBody.escape hc h
  | true =>
    obtain ⟨inside, after, rfl, hinside, hafter⟩ := h
    exact ⟨_, after, rfl, .escape hc hinside, hafter⟩

/-- Any other character than a backslash, with what it does to the class. -/
theorem ClosesRegex.char (hc : isLineTerminator c = false) (hescape : c ≠ '\\')
    (hclose : ¬(c = '/' ∧ inClass = false))
    (h : ClosesRegex (if c = '[' then true else if c = ']' then false else inClass) body) :
    ClosesRegex inClass (c :: body) := by
  cases inClass with
  | false =>
    by_cases hopen : c = '['
    · rw [if_pos hopen] at h
      obtain ⟨inside, after, rfl, hinside, hafter⟩ := h
      rw [hopen]
      exact IsRegexBody.brackets hinside hafter
    · have hbody : IsRegexBody body := by
        rw [if_neg hopen, ite_self] at h
        exact h
      exact IsRegexBody.char hc (by simp_all) hbody
  | true =>
    by_cases hend : c = ']'
    · rw [if_neg (by rw [hend]; decide), if_pos hend] at h
      exact ⟨[], body, by rw [hend]; rfl, .nil, h⟩
    · have hclass : ClosesRegex true body := by
        rw [if_neg hend, ite_self] at h
        exact h
      obtain ⟨inside, after, rfl, hinside, hafter⟩ := hclass
      exact ⟨c :: inside, after, rfl, .char hc (by simp_all) hinside, hafter⟩

/-- What is read is a body with a slash behind it; an escaped character comes before it if the
character before is a backslash. -/
theorem closesRegex_of_readRegexBody (text : List Char) :
    ∀ (inClass escaped : Bool) (index close : Nat),
    readRegexBody inClass escaped index text = .ok close → ∃ body rest,
      text = body ++ '/' :: rest ∧ close = index + body.length ∧
        if escaped then ∃ c more, body = c :: more ∧ isLineTerminator c = false ∧
          ClosesRegex inClass more
        else ClosesRegex inClass body := by
  induction text with
  | nil => exact fun inClass escaped index close h => nomatch h
  | cons c text ih =>
    intro inClass escaped index close h
    rw [readRegexBody] at h
    split at h
    · cases h
    rename_i hline
    have hc : isLineTerminator c = false := Bool.eq_false_iff.mpr hline
    split at h
    · rename_i hescaped
      obtain ⟨body, rest, rfl, rfl, hbody⟩ := ih _ _ _ _ h
      refine ⟨c :: body, rest, rfl, by rw [List.length_cons]; omega, ?_⟩
      rw [if_pos hescaped]
      exact ⟨c, body, rfl, hc, by simpa using hbody⟩
    rename_i hescaped
    simp only [if_neg hescaped]
    split at h
    · rename_i hbackslash
      obtain ⟨body, rest, rfl, rfl, hbody⟩ := ih _ _ _ _ h
      obtain ⟨d, more, rfl, hd, hmore⟩ := (if_pos rfl).mp hbody
      rw [beq_iff_eq.mp hbackslash]
      exact ⟨_, rest, rfl, by simp only [List.length_cons]; omega, hmore.escape hd⟩
    rename_i hbackslash
    have hstep : ∀ after, readRegexBody after false (index + 1) text = .ok close →
        after = (if c = '[' then true else if c = ']' then false else inClass) →
          ¬(c = '/' ∧ inClass = false) → ∃ body rest, c :: text = body ++ '/' :: rest ∧
            close = index + body.length ∧ ClosesRegex inClass body := by
      intro after hread hafter hclose
      obtain ⟨body, rest, rfl, rfl, hbody⟩ := ih _ _ _ _ hread
      rw [hafter] at hbody
      refine ⟨c :: body, rest, rfl, by rw [List.length_cons]; omega, ?_⟩
      exact .char hc (by simpa using hbackslash) hclose (by simpa using hbody)
    split at h
    · rename_i hopen
      obtain rfl : c = '[' := by simpa using hopen
      exact hstep true h rfl (by simp)
    rename_i hopen
    have hopen : c ≠ '[' := by simpa using hopen
    split at h
    · rename_i hend
      obtain rfl : c = ']' := by simpa using hend
      exact hstep false h rfl (by simp)
    rename_i hend
    have hend : c ≠ ']' := by simpa using hend
    split at h
    · rename_i hslash
      cases h
      obtain ⟨rfl, rfl⟩ : c = '/' ∧ inClass = false := by simpa using hslash
      exact ⟨[], text, rfl, rfl, .nil⟩
    · rename_i hslash
      exact hstep inClass h (by rw [if_neg hopen, if_neg hend]) (by simpa using hslash)

theorem readRegexBody_eq_ok_iff {text : List Char} :
    readRegexBody false false index text = .ok close ↔
      ∃ body rest, text = body ++ '/' :: rest ∧ IsRegexBody body ∧ close = index + body.length := by
  constructor
  · intro h
    obtain ⟨body, rest, htext, hclose, hbody⟩ := closesRegex_of_readRegexBody text _ _ _ _ h
    exact ⟨body, rest, htext, (if_neg Bool.false_ne_true).mp hbody, hclose⟩
  · rintro ⟨body, rest, rfl, hbody, rfl⟩
    exact readRegexBody_of_isRegexBody hbody index

end Body

section Flags

variable {index : Nat} {seen flags rest text : List Char}

/-- Nothing that continues a name follows, and no backslash. -/
def EndsFlags (rest : List Char) : Prop :=
  ∀ c ∈ rest.head?, isIdentifierPart c = false ∧ c ≠ '\\'

/-- Letters of the set that are all different, also from those before them. -/
structure AreNewFlags (seen flags : List Char) : Prop where
  letters : ∀ c ∈ flags, c ∈ regexFlagLetters
  new : ∀ c ∈ flags, c ∉ seen
  nodup : flags.Nodup

theorem isIdentifierPart_regexFlag {c : Char} (h : c ∈ regexFlagLetters) :
    isIdentifierPart c = true := by
  have hall : regexFlagLetters.all isIdentifierPart = true := rfl
  exact List.all_eq_true.mp hall c h

theorem AreNewFlags.of_cons {c : Char} (h : AreNewFlags seen (c :: flags)) :
    AreNewFlags (seen ++ [c]) flags := by
  obtain ⟨hletters, hnew, hnodup⟩ := h
  obtain ⟨hc, hnodup⟩ := List.nodup_cons.mp hnodup
  refine ⟨fun d hd => hletters d (.tail c hd), fun d hd hmem => ?_, hnodup⟩
  rcases List.mem_append.mp hmem with hseen | hlast
  · exact hnew d (.tail c hd) hseen
  · exact hc (List.mem_singleton.mp hlast ▸ hd)

theorem AreNewFlags.cons {c : Char} (hc : c ∈ regexFlagLetters) (hseen : c ∉ seen)
    (h : AreNewFlags (seen ++ [c]) flags) : AreNewFlags seen (c :: flags) := by
  refine ⟨List.forall_mem_cons.mpr ⟨hc, h.letters⟩, List.forall_mem_cons.mpr ⟨hseen, ?_⟩,
    List.nodup_cons.mpr ⟨fun hmem => ?_, h.nodup⟩⟩
  · exact fun d hd hmem => h.new d hd (List.mem_append_left _ hmem)
  · exact h.new c hmem (List.mem_append_right _ List.mem_cons_self)

/-- Flags are read as far as there are any. -/
theorem readRegexFlagsFrom_of_new (h : AreNewFlags seen flags) (hends : EndsFlags rest) :
    readRegexFlagsFrom index seen (flags ++ rest) = .ok (seen ++ flags) := by
  induction flags generalizing index seen with
  | nil =>
    rw [List.nil_append, List.append_nil]
    cases rest with
    | nil => rfl
    | cons c rest =>
      obtain ⟨hpart, hescape⟩ := hends c rfl
      simp [readRegexFlagsFrom, hpart, hescape]
  | cons c flags ih =>
    have hc := h.letters c List.mem_cons_self
    have hnew := h.new c List.mem_cons_self
    have hstep : readRegexFlagsFrom index seen (c :: (flags ++ rest)) =
        readRegexFlagsFrom (index + 1) (seen ++ [c]) (flags ++ rest) := by
      simp [readRegexFlagsFrom, isIdentifierPart_regexFlag hc, hc, hnew]
    rw [List.cons_append, hstep, ih h.of_cons, List.append_assoc]
    rfl

theorem new_of_readRegexFlagsFrom {found : List Char}
    (h : readRegexFlagsFrom index seen text = .ok found) : ∃ flags rest,
      text = flags ++ rest ∧ found = seen ++ flags ∧ AreNewFlags seen flags ∧ EndsFlags rest := by
  have hnone : AreNewFlags seen [] := ⟨nofun, nofun, .nil⟩
  induction text generalizing index seen with
  | nil =>
    cases h
    exact ⟨[], [], rfl, (List.append_nil _).symm, hnone, nofun⟩
  | cons c text ih =>
    rw [readRegexFlagsFrom] at h
    split at h
    · split at h
      · cases h
      split at h
      · cases h
      rename_i hletter hseen
      obtain ⟨flags, rest, rfl, rfl, hnew, hends⟩ := ih h ⟨nofun, nofun, .nil⟩
      refine ⟨c :: flags, rest, rfl, by simp,
        .cons (by simpa using hletter) (by simpa using hseen) hnew, hends⟩
    · rename_i hpart
      split at h
      · cases h
      · rename_i hescape
        cases h
        refine ⟨[], c :: text, rfl, (List.append_nil _).symm, hnone, ?_⟩
        rintro d ⟨⟩
        exact ⟨Bool.eq_false_iff.mpr hpart, by simpa using hescape⟩

theorem mem_regexFlagLetters {c : Char} :
    c ∈ regexFlagLetters ↔ c ∈ ['d', 'g', 'i', 'm', 's', 'u', 'v', 'y'] :=
  List.Perm.mem_iff (by decide)

theorem areRegexFlags_iff : AreRegexFlags flags rest ↔
    AreNewFlags [] flags ∧ ¬ ('u' ∈ flags ∧ 'v' ∈ flags) ∧ EndsFlags rest := by
  constructor
  · intro h
    refine ⟨⟨fun c hc => mem_regexFlagLetters.mpr (h.letters c hc), nofun, h.nodup⟩, h.notBoth,
      fun c hc => ⟨h.maximal c hc, ?_⟩⟩
    rintro rfl
    exact h.unescaped hc
  · rintro ⟨hnew, hboth, hends⟩
    exact ⟨fun c hc => mem_regexFlagLetters.mp (hnew.letters c hc), hnew.nodup, hboth,
      fun c hc => (hends c hc).1, fun hhead => (hends _ hhead).2 rfl⟩

theorem readRegexFlags_eq_ok_iff : readRegexFlags index text = .ok flags ↔
    ∃ rest, text = flags ++ rest ∧ AreRegexFlags flags rest := by
  unfold readRegexFlags
  constructor
  · intro h
    obtain ⟨found, hfound, h⟩ := except_bind_ok h
    split at h
    · cases h
    · rename_i hboth
      cases h
      obtain ⟨flags, rest, rfl, rfl, hnew, hends⟩ := new_of_readRegexFlagsFrom hfound
      exact ⟨rest, rfl, areRegexFlags_iff.mpr ⟨hnew, by simpa using hboth, hends⟩⟩
  · rintro ⟨rest, rfl, hflags⟩
    obtain ⟨hnew, hboth, hends⟩ := areRegexFlags_iff.mp hflags
    rw [readRegexFlagsFrom_of_new hnew hends]
    exact if_neg (by simpa using hboth)

end Flags

section Literals

variable {text body flags after : List Char}

/-- Behind the slash that closes the body the flags are read. -/
theorem readRegex_body (hbody : IsRegexBody body) :
    readRegex ('/' :: (body ++ '/' :: after)) = (do
      let flags ← readRegexFlags (1 + body.length + 1) after
      .ok ⟨body, flags, 1 + body.length + 1 + flags.length⟩) := by
  have hclose : readRegexBody false false 1 (body ++ '/' :: after) = .ok (1 + body.length) :=
    readRegexBody_of_isRegexBody hbody 1
  have hdrop : ('/' :: (body ++ '/' :: after)).drop (1 + body.length + 1) = after := by
    simp [Nat.add_comm 1]
  have htake : (('/' :: (body ++ '/' :: after)).take (1 + body.length)).drop 1 = body := by
    simp [Nat.add_comm 1]
  unfold readRegex
  rw [List.drop_succ_cons, List.drop_zero, hclose]
  change (do
    let flags ← readRegexFlags (1 + body.length + 1) (('/' :: (body ++ '/' :: after)).drop _)
    Except.ok (RegexLiteral.mk _ flags _)) = _
  rw [hdrop, htake]

/-- The literal at a slash is read if there is one. -/
theorem readRegex_eq_ok_iff {literal : RegexLiteral} : readRegex ('/' :: text) = .ok literal ↔
    ∃ body flags, StartsRegex ('/' :: text) body flags ∧
      literal = ⟨body, flags, ('/' :: body ++ '/' :: flags).length⟩ := by
  have hlength : ∀ body flags : List Char,
      1 + body.length + 1 + flags.length = ('/' :: body ++ '/' :: flags).length := by
    intro body flags
    simp only [List.cons_append, List.length_cons, List.length_append]
    omega
  constructor
  · intro h
    obtain ⟨close, hclose, -⟩ := except_bind_ok h
    obtain ⟨body, after, rfl, hbody, -⟩ := readRegexBody_eq_ok_iff.mp hclose
    rw [readRegex_body hbody] at h
    obtain ⟨flags, hflags, h⟩ := except_bind_ok h
    cases h
    obtain ⟨rest, rfl, hfound⟩ := readRegexFlags_eq_ok_iff.mp hflags
    exact ⟨body, flags, ⟨rest, by simp, hbody, hfound⟩, by rw [hlength]⟩
  · rintro ⟨body, flags, ⟨rest, htext, hbody, hflags⟩, rfl⟩
    obtain rfl : text = body ++ '/' :: (flags ++ rest) := by simpa using htext
    rw [readRegex_body hbody, readRegexFlags_eq_ok_iff.mpr ⟨rest, rfl, hflags⟩, ← hlength]
    rfl

end Literals

section Tokens

variable {text body flags : List Char} {html collect : Bool} {s s' : State} {saved : List State}

/-- The current token is the literal, which starts where the one before it did. -/
structure State.HasRegex (s s' : State) (body flags : List Char) : Prop where
  token : s'.token = .regularExpression
  value : s'.value.text = String.ofList body
  regexFlags : s'.regexFlags = String.ofList flags
  raw : s'.raw = '/' :: body ++ '/' :: flags
  span : s'.span = ⟨s.span.start, s.span.start + byteLength ('/' :: body ++ '/' :: flags)⟩

theorem rescanRegex_of_literal {literal : RegexLiteral} (h : readRegex s.start.rest = .ok literal) :
    rescanRegex s = .ok .regularExpression { s with
      cursor := s.start.advance literal.stop
      token := .regularExpression
      value := TokenValue.slice literal.body
      regexFlags := String.ofList literal.flags } := by
  have hreading : ofReading s.start (readRegex s.start.rest) s = .ok literal s := by
    rw [h]
    rfl
  exact (bind_of_ok rfl).trans ((bind_of_ok hreading).trans rfl)

/-- Where a literal stands, the slash is read as that literal. -/
theorem rescanRegex_of_starts (h : StartsRegex s.start.rest body flags) :
    ∃ s', rescanRegex s = .ok .regularExpression s' ∧ s.HasRegex s' body flags := by
  have hliteral : readRegex s.start.rest =
      .ok ⟨body, flags, ('/' :: body ++ '/' :: flags).length⟩ := by
    obtain ⟨rest, htext, -, -⟩ := id h
    rw [htext] at h ⊢
    exact readRegex_eq_ok_iff.mpr ⟨body, flags, h, rfl⟩
  obtain ⟨rest, htext, -, -⟩ := h
  have hreach := Cursor.reaches_advance_of_rest htext
  exact ⟨_, rescanRegex_of_literal hliteral, rfl, rfl, rfl, hreach.textTo,
    congrArg (Span.mk _) hreach.offset⟩

/-- Only a literal is read. -/
theorem starts_of_rescanRegex {rest : List Char} (hslash : s.start.rest = '/' :: rest) :
    Yields rescanRegex (fun _ _ => ∃ body flags, StartsRegex s.start.rest body flags) s := by
  unfold rescanRegex
  refine .run rfl ((ofReading_yields s.start _ s).bind fun literal s₁ ⟨hliteral, _⟩ => .run rfl ?_)
  rw [hslash] at hliteral ⊢
  obtain ⟨body, flags, hstarts, -⟩ := readRegex_eq_ok_iff.mp hliteral
  exact .pure ⟨body, flags, hstarts⟩

/-- At a slash the lexer stands before a text that starts with a slash. -/
theorem Reached.slash (h : Reached text html collect s saved)
    (htoken : s.token = .divide ∨ s.token = .divideAssign) :
    dropBytes s.span.start text = s.start.rest ∧ ∃ rest, s.start.rest = '/' :: rest := by
  obtain ⟨before, raw, hstart, hraw⟩ := h.sound.1.place
  constructor
  · change dropBytes s.start.offset text = _
    rw [hstart.offset_eq, hstart.text_eq]
    exact dropBytes_append before s.start.rest
  · have hopening : raw.head? = some '/' := by
      refine hraw.shape.opening '/' ?_
      rcases htoken with htoken | htoken <;> rw [htoken] <;> rfl
    obtain ⟨tail, rfl⟩ := List.head?_eq_some_iff.mp hopening
    exact ⟨_, hraw.extent.rest⟩

/-- A slash that a lexer has come to is read as a regular expression if and only if the source from
there on starts with one, and the token is then that regular expression. -/
theorem rescanRegex_isOk_iff (h : Reached text html collect s saved)
    (htoken : s.token = .divide ∨ s.token = .divideAssign) :
    ((∃ token s', rescanRegex s = .ok token s') ↔
      ∃ body flags, StartsRegex (dropBytes s.span.start text) body flags) ∧
    ∀ token s' body flags, rescanRegex s = .ok token s' →
      StartsRegex (dropBytes s.span.start text) body flags →
        token = .regularExpression ∧ s.HasRegex s' body flags := by
  obtain ⟨hsource, rest, hrest⟩ := h.slash htoken
  rw [hsource]
  refine ⟨⟨fun ⟨token, s', hrun⟩ => (starts_of_rescanRegex hrest).result hrun,
    fun ⟨body, flags, hstarts⟩ => ?_⟩, fun token s' body flags hrun hstarts => ?_⟩
  · obtain ⟨s', hrun, -⟩ := rescanRegex_of_starts hstarts
    exact ⟨_, s', hrun⟩
  · obtain ⟨found, hfound, hregex⟩ := rescanRegex_of_starts hstarts
    cases hrun.symm.trans hfound
    exact ⟨rfl, hregex⟩

/-- A slash in a class, an escaped one and a character of two bytes; a point ends the flags. -/
def regexText : List Char := "a=/[/]\\/é/gu.b".toList

end Tokens

end

theorem regexText_rescanned : ∃ s saved, Reached regexText false false s saved ∧ s.token = .divide ∧
    StartsRegex (dropBytes s.span.start regexText) "[/]\\/é".toList "gu".toList ∧
    ∃ s', rescanRegex s = .ok .regularExpression s' ∧
      s.HasRegex s' "[/]\\/é".toList "gu".toList ∧ s'.span = ⟨2, 13⟩ := by
  have h₀ : Reached regexText false false _ [] := .initial
  have h₁ := h₀.step .scan trivial rfl
  have h₂ := h₁.step .scan trivial rfl
  have h₃ := h₂.step .scan trivial rfl
  have hbody : IsRegexBody "[/]\\/é".toList :=
    .brackets (.char rfl (by decide) .nil) (.escape rfl (.char rfl (by decide) .nil))
  have hflags : AreRegexFlags "gu".toList ".b".toList :=
    ⟨List.forall_mem_cons.mpr ⟨by decide, List.forall_mem_cons.mpr ⟨by decide, nofun⟩⟩, by decide,
      by decide, by rintro c ⟨⟩; decide, by decide⟩
  have hstarts : StartsRegex (dropBytes 2 regexText) "[/]\\/é".toList "gu".toList :=
    ⟨".b".toList, rfl, hbody, hflags⟩
  obtain ⟨hiff, hresult⟩ := rescanRegex_isOk_iff h₃ (.inl rfl)
  obtain ⟨token, s', hrun⟩ := hiff.mpr ⟨_, _, hstarts⟩
  obtain ⟨rfl, hregex⟩ := hresult _ _ _ _ hrun hstarts
  exact ⟨_, _, h₃, rfl, hstarts, s', hrun, hregex, hregex.span⟩

end EcmaSyntax.Lexer
