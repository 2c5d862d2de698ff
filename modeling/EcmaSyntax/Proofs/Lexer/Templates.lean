import EcmaSyntax.Proofs.Lexer.Chunks
import EcmaSyntax.Proofs.Lexer.Safety
import EcmaSyntax.Unicode.IdentifierRanges
import EcmaSyntax.Proofs.Outcome

/-!
Template chunks as tokens. In every run of a lexer a token of a template is a chunk that is read
where it starts, and its raw text between the same delimiters is scanned as the same token.

The remembered place of an invalid escape outlives the token it was found in, and even a step that
fails or is taken back may have moved it, but it is always a place of the text.
-/

namespace EcmaSyntax.Lexer

open EcmaSyntax.Diagnostic EcmaSyntax.Text

open State (normalizeLineBreaks)

section Chunks

variable {version : Nat} [Unicode.IdentifierChars version]

section Tokens

variable {c : Char} {text other : List Char} {html collect isFirst : Bool} {s t : State}
  {saved : List State} {start : Cursor} {lexeme : Lexeme}

/-- The character that the text of a chunk stands behind. -/
def chunkOpening (isFirst : Bool) : Char := if isFirst then '\x60' else '\x7d'

/-- The token is as long as the chunk and has its delimiters. -/
theorem chunk_of_readChunkLexeme (h : readChunkLexeme isFirst (c :: text) = .ok lexeme) :
    (readChunk text).ending ≠ .unterminated ∧ lexeme.length = (readChunk text).stop ∧
      delimiters? lexeme.token = some (chunkOpening isFirst,
        (readChunk text).ending.delimiter) := by
  unfold readChunkLexeme at h
  simp only [List.drop_succ_cons, List.drop_zero] at h
  split at h
  · rename_i hending
    cases h
    rw [hending]
    exact ⟨by decide, rfl, by cases isFirst <;> rfl⟩
  · rename_i hending
    cases h
    rw [hending]
    exact ⟨by decide, rfl, by cases isFirst <;> rfl⟩
  · cases h

/-- A lexeme like another one, apart from its length and the place of an invalid escape. -/
structure Lexeme.Alike (a b : Lexeme) : Prop where
  token : a.token = b.token
  value : a.value.text = b.value.text
  invalidEscape : a.invalidEscape.isSome = b.invalidEscape.isSome

theorem readChunkLexeme_of_alike (h : readChunkLexeme isFirst (c :: text) = .ok lexeme)
    (halike : (readChunk other).Alike (readChunk text)) : ∃ found,
      readChunkLexeme isFirst (c :: other) = .ok found ∧ found.length = (readChunk other).stop ∧
        found.Alike lexeme := by
  have hvalue : String.ofList _ = String.ofList _ := congrArg _ halike.value
  unfold readChunkLexeme at h ⊢
  simp only [List.drop_succ_cons, List.drop_zero] at h ⊢
  rw [halike.ending]
  split at h
  · cases h
    exact ⟨_, rfl, rfl, rfl, hvalue, halike.invalid⟩
  · cases h
    exact ⟨_, rfl, rfl, rfl, hvalue, halike.invalid⟩
  · cases h

/-- Between the delimiters the raw text is read as the same token. -/
theorem readChunkLexeme_raw (h : readChunkLexeme isFirst (c :: text) = .ok lexeme) :
    ∃ body last after, text = body ++ (last ++ after) ∧ lexeme.length = (c :: body ++ last).length ∧
      delimiters? lexeme.token = some (chunkOpening isFirst, last) ∧
      ∀ rest, ∃ found, readChunkLexeme isFirst (c :: (normalizeLineBreaks body ++ (last ++ rest))) =
        .ok found ∧ found.length = (c :: normalizeLineBreaks body ++ last).length ∧
          found.Alike lexeme := by
  obtain ⟨hending, hlength, hdelimiters⟩ := chunk_of_readChunkLexeme h
  obtain ⟨body, after, htext, hstop, hraw⟩ := readsChunk_of_readChunk hending
  refine ⟨body, _, after, htext, ?_, hdelimiters, fun rest => ?_⟩
  · rw [hlength, hstop, List.length_append, List.length_cons]
    omega
  · obtain ⟨halike, hrawStop⟩ := hraw 1 rest
    obtain ⟨found, hread, hfound, hsame⟩ := readChunkLexeme_of_alike h halike
    refine ⟨found, hread, (hfound.trans hrawStop).trans ?_, hsame⟩
    rw [List.length_append, List.length_cons]
    omega

/-- The current token is the chunk that is read where it starts. -/
structure State.HasChunk (s : State) (isFirst : Bool) (lexeme : Lexeme) : Prop where
  read : readChunkLexeme isFirst s.start.rest = .ok lexeme
  cursor : s.cursor = s.start.advance lexeme.length
  token : s.token = lexeme.token
  value : s.value = lexeme.value
  invalidEscape : s.flags.invalidTemplateEscape = lexeme.invalidEscape.isSome

theorem State.HasChunk.opens (h : s.HasChunk isFirst lexeme) (hsound : Sound text s) :
    ∃ rest, s.start.rest = chunkOpening isFirst :: rest := by
  obtain ⟨before, raw, -, htoken⟩ := hsound.place
  have hread := h.read
  rcases hrest : s.start.rest with - | ⟨c, rest⟩
  · rw [hrest] at hread
    cases hread
  rw [hrest] at hread
  obtain ⟨-, -, hdelimiters⟩ := chunk_of_readChunkLexeme hread
  rw [← h.token] at hdelimiters
  obtain ⟨body, rfl⟩ := htoken.shape.delimiters _ _ hdelimiters
  exact ⟨_, hrest.symm.trans htoken.extent.rest⟩

/-- A token of a template is read as a chunk. -/
def State.TemplateIsRead (s : State) : Prop :=
  s.token.isTemplate = true → ∃ isFirst lexeme, s.HasChunk isFirst lexeme

theorem State.templateIsRead_of_not (h : s.token.isTemplate = false) : s.TemplateIsRead :=
  fun htemplate => absurd htemplate (Bool.eq_false_iff.mp h)

theorem State.TemplateIsRead.restore {now : State} (h : s.TemplateIsRead) :
    (s.restore now).TemplateIsRead := by
  intro htemplate
  obtain ⟨isFirst, lexeme, hchunk⟩ := h htemplate
  exact ⟨isFirst, lexeme, hchunk.read, hchunk.cursor, hchunk.token, hchunk.value,
    hchunk.invalidEscape⟩

theorem scan_templateIsRead (s : State) : Yields scan (fun _ s' => s'.TemplateIsRead) s := by
  refine Meets.yields_iff.mpr fun token s' hscan htemplate => ?_
  have hsame : s'.token = token := (scan_yields_token s).result hscan
  have hend : token ≠ .endOfSource := by
    rintro rfl
    rw [hsame] at htemplate
    cases htemplate
  obtain ⟨start, lexeme, -, hread, rfl, htakes⟩ := readLexeme_of_scan hscan hend
  rw [hsame] at htemplate
  have hchunk := chunk_of_readLexeme hread htemplate
  rw [← htakes.start] at hchunk
  exact ⟨true, lexeme, hchunk, by rw [htakes.start]; exact htakes.cursor, hsame, htakes.value,
    htakes.invalidEscape⟩

theorem mergeGreaterThan_isTemplate (text : List Char) :
    (mergeGreaterThan text).1.isTemplate = false := by
  unfold mergeGreaterThan
  split <;> rfl

/-- The step that reads a chunk behind a substitution. -/
theorem rescanTemplate_of_read (h : readChunkLexeme false s.start.rest = .ok lexeme) :
    ∃ s', rescanTemplate s = .ok lexeme.token s' ∧ s'.start = s.start ∧
      s'.HasChunk false lexeme := by
  have hreading : ofReading s.start (readChunkLexeme false s.start.rest) s = .ok lexeme s := by
    rw [h]
    rfl
  have hrun : rescanTemplate s = _ := (bind_of_ok rfl).trans ((bind_of_ok hreading).trans rfl)
  exact ⟨_, hrun, rfl, h, rfl, rfl, rfl, rfl⟩

theorem rescanTemplate_templateIsRead (s : State) :
    Yields rescanTemplate (fun _ s' => s'.TemplateIsRead) s := by
  refine Meets.yields_iff.mpr fun token s' hrun _ => ?_
  have hread : Yields rescanTemplate (fun _ _ => ∃ lexeme,
      readChunkLexeme false s.start.rest = .ok lexeme) s := by
    unfold rescanTemplate
    refine .run rfl ((ofReading_yields s.start _ s).bind fun lexeme s₁ h => .run rfl (.pure ?_))
    exact ⟨lexeme, h.1⟩
  obtain ⟨lexeme, hlexeme⟩ := hread.result hrun
  obtain ⟨found, hfound, -, hchunk⟩ := rescanTemplate_of_read hlexeme
  cases hrun.symm.trans hfound
  exact ⟨false, lexeme, hchunk⟩

theorem scanMarkupChild_templateIsRead (s : State) :
    Yields scanMarkupChild (fun _ s' => s'.TemplateIsRead) s := by
  unfold scanMarkupChild
  refine .run rfl (.run rfl ?_)
  split
  · exact .run rfl (.run rfl (.pure (State.templateIsRead_of_not rfl)))
  · exact .run rfl (.run rfl (.pure (State.templateIsRead_of_not rfl)))
  · exact .run rfl (.run rfl (.pure (State.templateIsRead_of_not rfl)))
  · exact Meets.skip fun body _ => .run rfl (.run rfl (.pure (State.templateIsRead_of_not rfl)))

theorem scanMarkupAttributeValue_templateIsRead (s : State) :
    Yields scanMarkupAttributeValue (fun _ s' => s'.TemplateIsRead) s := by
  unfold scanMarkupAttributeValue
  refine .skip fun _ s₁ => .run rfl ?_
  dsimp only
  split
  · split
    · split
      · exact .run rfl (.pure (State.templateIsRead_of_not rfl))
      · trivial
    · exact scan_templateIsRead s₁
  · exact scan_templateIsRead s₁

/-- Each step reads a token of a template as a chunk, or keeps the one it finds. -/
theorem Action.templateIsRead (action : Action) (hs : s.TemplateIsRead) :
    Yields action.run (fun _ s' => s'.TemplateIsRead) s := by
  cases action with
  | scan => exact (scan_templateIsRead s).bind fun _ _ h => .pure h
  | peek =>
    obtain ⟨found, now, hpeek⟩ := peek_restores s
    exact .run hpeek (.pure hs.restore)
  | rescanGreaterThan =>
    have hstep : Yields Lexer.rescanGreaterThan (fun _ s' => s'.TemplateIsRead) s := by
      unfold Lexer.rescanGreaterThan
      refine .run rfl ?_
      split
      · exact .run rfl (.pure (State.templateIsRead_of_not (mergeGreaterThan_isTemplate _)))
      · exact .pure hs
    exact hstep.bind fun _ _ h => .pure h
  | scanMarkupChild => exact (scanMarkupChild_templateIsRead s).bind fun _ _ h => .pure h
  | scanMarkupName =>
    refine .ok rfl ?_
    dsimp only
    split
    · split
      · exact hs
      · exact State.templateIsRead_of_not rfl
    · exact hs
  | scanMarkupAttributeValue =>
    exact (scanMarkupAttributeValue_templateIsRead s).bind fun _ _ h => .pure h
  | rescanRegex =>
    have hstep : Yields Lexer.rescanRegex (fun _ s' => s'.TemplateIsRead) s := by
      unfold Lexer.rescanRegex
      exact .run rfl (.skip fun literal _ => .run rfl (.pure (State.templateIsRead_of_not rfl)))
    exact hstep.bind fun _ _ h => .pure h
  | rescanTemplate => exact (rescanTemplate_templateIsRead s).bind fun _ _ h => .pure h

/-- In every run the tokens of templates are read as chunks, in saved states too. -/
theorem Reached.templateIsRead (h : Reached text html collect s saved) :
    s.TemplateIsRead ∧ ∀ earlier ∈ saved, earlier.TemplateIsRead := by
  induction h with
  | initial => exact ⟨State.templateIsRead_of_not rfl, by simp⟩
  | step action _ _ hrun ih => exact ⟨(action.templateIsRead ih.1).result hrun, ih.2⟩
  | save _ ih => exact ⟨ih.1, List.forall_mem_cons.mpr ih⟩
  | restore _ hmem ih => exact ⟨(ih.2 _ hmem).restore, ih.2⟩

/-- Scan the chunk behind an opening: a first one is a token by itself, another one is read from the
brace that ends a substitution. -/
def scanChunk (isFirst : Bool) : Lexer Token := do
  let token ← scan
  if isFirst then return token else rescanTemplate

/-- Where a chunk starts, it is scanned. -/
theorem scanChunk_of_read (hskips : t.SkipsTo start)
    (heq : start.rest = chunkOpening isFirst :: text)
    (hread : readChunkLexeme isFirst start.rest = .ok lexeme) :
    ∃ t', scanChunk isFirst t = .ok lexeme.token t' ∧ t'.start = start ∧
      t'.HasChunk isFirst lexeme := by
  have hne : start.rest ≠ [] := by
    rw [heq]
    exact List.cons_ne_nil _ _
  cases isFirst with
  | true =>
    have hlexeme : readLexeme start.rest = .ok lexeme := by
      rw [← hread, heq]
      rfl
    obtain ⟨t', hscan, htakes⟩ := scan_of_readLexeme hskips hne hlexeme
    rw [← htakes.start] at hread
    refine ⟨t', (bind_of_ok hscan).trans rfl, htakes.start, hread, ?_, htakes.token, htakes.value,
      htakes.invalidEscape⟩
    rw [htakes.start]
    exact htakes.cursor
  | false =>
    have hbrace : readLexeme start.rest = .ok (Lexeme.plain .rightBrace 1 .empty) := by
      rw [heq]
      rfl
    obtain ⟨t₁, hscan, htakes⟩ := scan_of_readLexeme hskips hne hbrace
    rw [← htakes.start] at hread
    obtain ⟨t', hrescan, hstart, hchunk⟩ := rescanTemplate_of_read hread
    exact ⟨t', (bind_of_ok hscan).trans hrescan, hstart.trans htakes.start, hchunk⟩

/-- The current token is the chunk that another state has, but its text is the raw one. -/
structure State.HasRawChunk (t s : State) (start : Cursor) (raw rest : List Char) : Prop where
  token : t.token = s.token
  span : t.span = ⟨start.offset, start.offset + byteLength raw⟩
  raw : t.raw = raw
  rest : t.cursor.rest = rest
  templateRaw : t.templateRaw = s.templateRaw
  value : t.value.text = s.value.text
  invalidEscape : t.flags.invalidTemplateEscape = s.flags.invalidTemplateEscape

/-- The raw text of a chunk stands for the chunk. Wherever it is scanned between the same
delimiters, it is a token of the same kind up to the closing one, with the same raw text and value
and the same mark of an invalid escape. -/
theorem scan_templateRaw (h : Reached text html collect s saved)
    (htemplate : s.token.isTemplate = true) : ∃ isFirst body last,
      delimiters? s.token = some (chunkOpening isFirst, last) ∧
      s.raw = chunkOpening isFirst :: body ++ last ∧ s.templateRaw = normalizeLineBreaks body ∧
      (∀ t start rest, t.SkipsTo start →
        start.rest = (chunkOpening isFirst :: s.templateRaw ++ last) ++ rest →
          ∃ t', scanChunk isFirst t = .ok s.token t' ∧
            t'.HasRawChunk s start (chunkOpening isFirst :: s.templateRaw ++ last) rest) ∧
      ∀ rest html collect, (State.initial
        (chunkOpening isFirst :: s.templateRaw ++ last ++ rest) html
        collect).SkipsTo
          (Cursor.ofText (chunkOpening isFirst :: s.templateRaw ++ last ++ rest)) := by
  obtain ⟨isFirst, lexeme, hchunk⟩ := h.templateIsRead.1 htemplate
  obtain ⟨text, htext⟩ := hchunk.opens h.sound.1
  have hread := hchunk.read
  rw [htext] at hread
  obtain ⟨body, last, after, hbody, hlength, hdelimiters, hraw⟩ := readChunkLexeme_raw hread
  rw [← hchunk.token] at hdelimiters
  have hstart : s.start.rest = (chunkOpening isFirst :: body ++ last) ++ after :=
    by simp [htext, hbody]
  obtain ⟨-, hsource, -⟩ := State.extent_of_advance rfl hstart
    (hchunk.cursor.trans (by rw [hlength]))
  have htemplateRaw := State.templateRaw_eq hdelimiters hsource
  rw [htemplateRaw]
  refine ⟨isFirst, body, last, hdelimiters, hsource, rfl, fun t start rest hskips heq => ?_,
    fun rest html collect => ?_⟩
  · obtain ⟨found, hfound, hfoundLength, halike⟩ := hraw rest
    have hplace : start.rest =
        chunkOpening isFirst :: (normalizeLineBreaks body ++ (last ++ rest)) := by simp [heq]
    rw [← hplace] at hfound
    obtain ⟨t', hscan, ht', hnew⟩ := scanChunk_of_read hskips hplace hfound
    have hcursor : t'.cursor =
        start.advance (chunkOpening isFirst :: normalizeLineBreaks body ++ last).length := by
      rw [hnew.cursor, ht', hfoundLength]
    obtain ⟨hspan, hrawText, hrest⟩ := State.extent_of_advance ht' heq hcursor
    have htoken : t'.token = s.token := by rw [hnew.token, halike.token, hchunk.token]
    refine ⟨t', ?_, htoken, hspan, hrawText, hrest, ?_, ?_, ?_⟩
    · rw [hscan, halike.token, hchunk.token]
    · rw [State.templateRaw_eq (htoken ▸ hdelimiters) hrawText, htemplateRaw,
        normalizeLineBreaks_idem]
    · rw [hnew.value, halike.value, hchunk.value]
    · rw [hnew.invalidEscape, halike.invalidEscape, hchunk.invalidEscape]
  · have hopens : ∀ text, OpensToken html true 0 (chunkOpening isFirst) text := by
      cases isFirst <;> exact opensToken_of_not_mem (by decide) rfl rfl
    exact State.skipsTo_initial collect (hopens _)

/-- Behind a substitution, line breaks of every form: alone, continued, in an escape that has no
value for it, and before another substitution. -/
def templateText : List Char :=
  "\x60a$\x7bb\x7d\r\\\r\n\\u\x7b1\r\n\x7d$\\uD83D\\uDE00\r$\x7bc\x7d\x60".toList

end Tokens

end Chunks

theorem templateText_rescanned : ∃ s saved, Reached templateText false false s saved ∧
    s.token = .templateMiddle ∧ s.raw.count '\r' = 4 ∧
    s.templateRaw = "\n\\\n\\u\x7b1\n\x7d$\\uD83D\\uDE00\n".toList ∧
    ∃ t, scanChunk false (State.initial ('\x7d' :: s.templateRaw ++ "$\x7b".toList ++ ['c']) false
      false) = .ok .templateMiddle t ∧ t.raw = '\x7d' :: s.templateRaw ++ "$\x7b".toList ∧
        t.templateRaw = s.templateRaw ∧ t.value.text = "\n\x7b1\n\x7d$😀\n" ∧
          t.flags.invalidTemplateEscape = true := by
  have hrun : ∃ s, Reached templateText false false s [] ∧ s.token = .templateMiddle ∧
      s.raw.count '\r' = 4 ∧ s.templateRaw = "\n\\\n\\u\x7b1\n\x7d$\\uD83D\\uDE00\n".toList ∧
      s.value.text = "\n\x7b1\n\x7d$😀\n" ∧ s.flags.invalidTemplateEscape = true := by
    have h₀ : Reached templateText false false _ [] := .initial
    have h₁ := h₀.step .scan trivial rfl
    have h₂ := h₁.step .scan trivial rfl
    have h₃ := h₂.step .scan trivial rfl
    exact ⟨_, h₃.step .rescanTemplate rfl rfl, rfl, rfl, rfl, rfl, rfl⟩
  obtain ⟨s, h, htoken, hcount, hraw, hvalue, hinvalid⟩ := hrun
  have htemplate : s.token.isTemplate = true := by
    rw [htoken]
    rfl
  obtain ⟨isFirst, body, last, hdelimiters, -, -, hscans, hskips⟩ := scan_templateRaw h htemplate
  rw [htoken] at hdelimiters hscans
  cases isFirst with
  | true => cases hdelimiters
  | false =>
    cases hdelimiters
    obtain ⟨t, hscan, hchunk⟩ := hscans _ _ ['c'] (hskips ['c'] false false) rfl
    exact ⟨s, [], h, htoken, hcount, hraw, t, hscan, hchunk.raw, hchunk.templateRaw,
      hchunk.value.trans hvalue, hchunk.invalidEscape.trans hinvalid⟩

section Escapes

variable {version : Nat} [Unicode.IdentifierChars version]

variable {α β : Type} {text before : List Char} {s : State} {start : Cursor}

theorem Cursor.In.advance_isBoundary (h : start.In text before) {count : Nat}
    (hle : count ≤ start.rest.length) : IsBoundary text (start.advance count).offset :=
  Cursor.In.isBoundary (h.trans (start.reaches_advance count hle))

/-- The remembered place is one of the text. -/
abbrev State.Recalls (text : List Char) (s : State) : Prop := IsBoundary text s.invalidEscape

/-- Whether the step fails or not, the place remembered after it is one of the text. -/
abbrev KeepsPlace (text : List Char) (step : Lexer α) (Q : α → State → Prop) (s : State) : Prop :=
  EndsIn (fun _ s' => s'.Recalls text) step (fun a s' => s'.Recalls text ∧ Q a s') s

/-- A step that stays in the text and remembers only places of it, also when it fails. -/
class Remembers (step : Lexer α) : Prop where
  keeps : ∀ text s, Sound text s → s.Recalls text →
    KeepsPlace text step (fun _ s' => Sound text s') s

/-- A reading of what stands at a cursor. -/
theorem ofReading_keeps {reading : Reading α} {P : α → Prop} (hstart : start.In text before)
    (hreading : reading.Within start.rest.length P) (hs : s.Recalls text) :
    KeepsPlace text (ofReading start reading) (fun a s' => reading = .ok a ∧ s' = s) s := by
  cases reading with
  | ok a => exact .pure ⟨hs, rfl, rfl⟩
  | error found =>
    obtain ⟨cause, index, invalidEscape⟩ := found
    cases invalidEscape with
    | none => exact hs
    | some escape => exact hstart.advance_isBoundary (hreading.2 escape rfl)

/-- The token that is taken in may have an invalid escape. -/
theorem accept_keeps {lexeme : Lexeme} (hstart : start.In text before)
    (hinvalid : ∀ index ∈ lexeme.invalidEscape, index ≤ start.rest.length) (hs : s.Recalls text) :
    KeepsPlace text (accept start lexeme) (fun _ _ => True) s := by
  refine .ok rfl ⟨?_, trivial⟩
  change IsBoundary text (State.invalidEscape _)
  dsimp only
  split
  · rename_i index hescape
    exact hstart.advance_isBoundary (hinvalid index hescape)
  · exact hs

theorem beginToken_keeps (hcursor : s.cursor.In text before) (hs : s.Recalls text) :
    KeepsPlace text beginToken (fun _ s' => ∃ before, s'.cursor.In text before) s := by
  have hsame : EndsIn (fun _ s' => s'.invalidEscape = s.invalidEscape) beginToken
      (fun _ s' => s'.invalidEscape = s.invalidEscape) s := by
    unfold beginToken
    refine .run rfl ?_
    split
    · exact .error rfl rfl
    · exact .ok rfl rfl
  refine .intro (fun u s' hok => ?_) fun failure s' herror => ?_
  · obtain ⟨gap, comments, hbegun⟩ := (beginToken_meets s).result hok
    refine ⟨?_, before ++ gap, hcursor.trans hbegun.passed⟩
    rw [State.Recalls, hsame.result hok]
    exact hs
  · rw [State.Recalls, hsame.failure herror]
    exact hs

theorem scan_keeps (hcursor : s.cursor.In text before) (hs : s.Recalls text) :
    KeepsPlace text scan (fun _ _ => True) s := by
  unfold scan
  refine (beginToken_keeps hcursor hs).bind fun _ s₁ ⟨hs₁, before₁, hcursor₁⟩ => .run rfl ?_
  dsimp only
  split
  · exact .run rfl (.pure ⟨hs₁, trivial⟩)
  · rename_i hne
    have htext : s₁.cursor.rest ≠ [] := by simpa using hne
    have hread := readLexeme_fits htext
    refine (ofReading_keeps hcursor₁ hread hs₁).bind fun lexeme s₂ ⟨hs₂, hlexeme, heq⟩ => ?_
    subst heq
    have haccept := accept_keeps hcursor₁ (readLexeme_invalidEscape hlexeme) hs₂
    exact haccept.bind fun _ s₃ hs₃ => .run rfl (.pure hs₃)

theorem Sound.cursor (h : Sound text s) : ∃ before, s.cursor.In text before := by
  obtain ⟨before, raw, hstart, htoken⟩ := h.place
  exact ⟨before ++ raw, hstart.trans htoken.extent⟩

theorem KeepsPlace.sound {step : Lexer α} {E : Failure → Prop}
    (h : KeepsPlace text step (fun _ _ => True) s)
    (hsound : Meets E step (fun _ s' => Sound text s') s) :
    KeepsPlace text step (fun _ s' => Sound text s') s :=
  .intro (fun _ _ hok => ⟨(h.result hok).1, hsound.result hok⟩) fun _ _ => h.failure

instance : Remembers scan := by
  refine ⟨fun text s hsound hs => ?_⟩
  obtain ⟨before, hcursor⟩ := hsound.cursor
  exact (scan_keeps hcursor hs).sound ((scan_meets s).mono fun _ _ => hsound.scanned)

instance {step : Lexer α} {rest : α → Lexer β} [h : Remembers step]
    [hrest : ∀ a, Remembers (rest a)] :
    Remembers (step >>= rest) :=
  ⟨fun text s hsound hs => (h.keeps text s hsound hs).bind fun a s' hs' =>
    (hrest a).keeps text s' hs'.2 hs'.1⟩

instance : Remembers rescanGreaterThan := by
  refine ⟨fun text s hsound hs => ?_⟩
  obtain ⟨before, raw, hstart, htoken⟩ := hsound.place
  refine KeepsPlace.sound ?_ ((rescanGreaterThan_meets htoken).mono fun _ _ h =>
    hsound.rescanned h.1)
  unfold rescanGreaterThan
  refine .run rfl ?_
  split
  · exact .run rfl (.pure ⟨hs, trivial⟩)
  · exact .pure ⟨hs, trivial⟩

/-- A step that is taken back. -/
instance {step : Lexer α} [h : Remembers step] : Remembers (lookAhead step) := by
  refine ⟨fun text s hsound hs => ?_⟩
  have hstep := h.keeps text s hsound hs
  cases hrun : step s with
  | ok a after =>
    have hahead : lookAhead step s = .ok (.ok a) (s.restore after) := by simp only [lookAhead, hrun]
    exact .ok hahead ⟨(hstep.result hrun).1, hsound.restore⟩
  | error failure after =>
    have hahead : lookAhead step s = .ok (.error failure) (s.restore after) := by
      simp only [lookAhead, hrun]
    have hplace : after.Recalls text := hstep.failure hrun
    exact .ok hahead ⟨hplace, hsound.restore⟩

instance {a : α} : Remembers (pure a : Lexer α) := ⟨fun _ _ hsound hs => .pure ⟨hs, hsound⟩⟩

instance : Remembers (get : Lexer State) := ⟨fun _ _ hsound hs => .ok rfl ⟨hs, hsound⟩⟩

instance : Remembers peek := by
  have hrest : ∀ found : Except Failure (Token × TokenFlags), Remembers (match found with
      | .ok next => return next
      | .error _ => return (.endOfSource, TokenFlags.none) : Lexer (Token × TokenFlags)) := by
    intro found
    cases found <;> infer_instance
  unfold peek
  infer_instance

instance : Remembers scanMarkupChild := by
  refine ⟨fun text s hsound hs =>
    KeepsPlace.sound ?_ ((scanMarkupChild_meets s).mono fun _ _ => hsound.scanned)⟩
  obtain ⟨before, hcursor⟩ := hsound.cursor
  unfold scanMarkupChild
  refine .run rfl (.run rfl ?_)
  dsimp only
  split
  · exact .run rfl (.run rfl (.pure ⟨hs, trivial⟩))
  · exact .run rfl (.run rfl (.pure ⟨hs, trivial⟩))
  · exact .run rfl (.run rfl (.pure ⟨hs, trivial⟩))
  · have hread := readMarkupText_within s.cursor.rest 0
    rw [Nat.zero_add] at hread
    refine (ofReading_keeps hcursor hread (by exact hs)).bind fun body s₁ ⟨hs₁, _⟩ => ?_
    exact .run rfl (.run rfl (.pure ⟨hs₁, trivial⟩))

instance : Remembers scanMarkupAttributeValue := by
  refine ⟨fun text s hsound hs =>
    KeepsPlace.sound ?_ ((scanMarkupAttributeValue_meets s).mono fun _ _ => hsound.scanned)⟩
  obtain ⟨before, hcursor⟩ := hsound.cursor
  unfold scanMarkupAttributeValue
  refine (beginToken_keeps hcursor hs).bind fun _ s₁ ⟨hs₁, before₁, hcursor₁⟩ => .run rfl ?_
  dsimp only
  split
  · split
    · split
      · exact .run rfl (.pure ⟨hs₁, trivial⟩)
      · exact .error rfl hs₁
    · exact scan_keeps hcursor₁ hs₁
  · exact scan_keeps hcursor₁ hs₁

instance : Remembers rescanRegex := by
  refine ⟨fun text s hsound hs =>
    KeepsPlace.sound ?_ ((rescanRegex_meets s).mono fun _ _ => hsound.rescanned)⟩
  obtain ⟨before, raw, hstart, -⟩ := hsound.place
  unfold rescanRegex
  refine .run rfl ((ofReading_keeps hstart (readRegex_within _) hs).bind fun literal s' h => ?_)
  exact .run rfl (.pure ⟨h.2.2 ▸ hs, trivial⟩)

instance : Remembers scanMarkupName := by
  refine ⟨fun text s hsound hs => ?_⟩
  obtain ⟨before, raw, hstart, htoken⟩ := hsound.place
  refine KeepsPlace.sound ?_ ((scanMarkupName_meets htoken).mono fun _ _ => hsound.rescanned)
  refine .ok rfl ⟨?_, trivial⟩
  dsimp only
  split
  · split
    · exact hs
    · exact hs
  · exact hs

/-- Only a closing brace is read as part of a template. -/
theorem rescanTemplate_keeps (hsound : Sound text s) (hs : s.Recalls text)
    (htoken : s.token = .rightBrace) :
    KeepsPlace text rescanTemplate (fun _ s' => Sound text s') s := by
  obtain ⟨before, raw, hstart, hraw⟩ := hsound.place
  refine KeepsPlace.sound ?_ ((rescanTemplate_meets hraw htoken).mono fun _ _ => hsound.rescanned)
  have hopening := hraw.shape.opening '\x7d' (by rw [htoken]; rfl)
  obtain ⟨rest, hrest⟩ : ∃ rest, s.start.rest = '\x7d' :: rest := by
    obtain ⟨tail, rfl⟩ := List.head?_eq_some_iff.mp hopening
    exact ⟨_, hraw.extent.rest⟩
  have hread := readChunkLexeme_fits false rest rfl
  simp only [Bool.false_eq_true, if_false] at hread
  rw [← hrest] at hread
  unfold rescanTemplate
  refine .run rfl ((ofReading_keeps hstart hread hs).bind fun lexeme s₁ ⟨hs₁, hlexeme, heq⟩ => ?_)
  subst heq
  have hinvalid : ∀ index ∈ lexeme.invalidEscape, index ≤ s₁.start.rest.length := by
    rw [hrest] at hlexeme ⊢
    exact readChunkLexeme_invalidEscape hlexeme
  exact (accept_keeps hstart hinvalid hs₁).bind fun _ s₂ hs₂ => .pure hs₂

end Escapes

end EcmaSyntax.Lexer
