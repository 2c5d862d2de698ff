import EcmaSyntax.Proofs.Lexer.Steps

/-!
The places of a lexer in its text. In every run of its steps the current token and its values are
slices of the text, and a step that fails names a place of it.
-/

namespace EcmaSyntax.Lexer

open EcmaSyntax.Diagnostic EcmaSyntax.Text

section

variable {version : Nat} [Unicode.IdentifierChars version]

/-- The steps that a user of a lexer can ask for. -/
inductive Action where
  | scan
  | peek
  | rescanGreaterThan
  | scanMarkupChild
  | scanMarkupName
  | scanMarkupAttributeValue
  | rescanRegex
  | rescanTemplate
deriving DecidableEq, Repr

namespace Action

def run : Action → Lexer Unit
  | .scan => do let _ ← Lexer.scan
  | .peek => do let _ ← Lexer.peek
  | .rescanGreaterThan => do let _ ← Lexer.rescanGreaterThan
  | .scanMarkupChild => do let _ ← Lexer.scanMarkupChild
  | .scanMarkupName => Lexer.scanMarkupName
  | .scanMarkupAttributeValue => do let _ ← Lexer.scanMarkupAttributeValue
  | .rescanRegex => do let _ ← Lexer.rescanRegex
  | .rescanTemplate => do let _ ← Lexer.rescanTemplate

/-- Only a slash is read as a regular expression, and only a closing brace as part of
a template. -/
def IsAllowed (action : Action) (token : Token) : Prop :=
  match action with
  | .rescanRegex => token = .divide ∨ token = .divideAssign
  | .rescanTemplate => token = .rightBrace
  | _ => True

end Action

/-- The states of a lexer that a run of its steps comes to, with the states that were
saved on the way. -/
inductive Reached (text : List Char) (html collect : Bool) : State → List State → Prop
  | initial : Reached text html collect (State.initial text html collect) []
  | step {s saved s'} (action : Action) (h : Reached text html collect s saved)
      (hallowed : action.IsAllowed s.token) (hrun : action.run s = .ok () s') :
      Reached text html collect s' saved
  | save {s saved} (h : Reached text html collect s saved) :
      Reached text html collect s (s :: saved)
  | restore {s saved earlier} (h : Reached text html collect s saved) (hmem : earlier ∈ saved) :
      Reached text html collect (earlier.restore s) saved

/-- The characters that close a template chunk. -/
def closingWidth : Token → Nat
  | .templateHead | .templateMiddle => 2
  | _ => 1

/-- The extent of the current token and everything that is cut out of the text. -/
structure IsSafe (text : List Char) (s : State) : Prop where
  order : s.start.offset ≤ s.cursor.offset
  inside : s.cursor.offset ≤ byteLength text
  start : IsBoundary text s.start.offset
  stop : IsBoundary text s.cursor.offset
  raw : slice? text s.start.offset s.cursor.offset = some s.raw
  value : s.value.isSlice = true → IsSlice text s.value.text.toList
  regexFlags : IsSlice text s.regexFlags.toList
  template : s.token.isTemplate = true → ∃ body,
    slice? text (s.start.offset + 1) (s.cursor.offset - closingWidth s.token) = some body ∧
      s.templateRaw = State.normalizeLineBreaks body

section Invariant

variable {text : List Char} {s s' : State}

/-- The lexer stands at a token of the text, and what it holds as it stands comes from
the text. -/
structure Sound (text : List Char) (s : State) : Prop where
  place : ∃ before raw, s.start.In text before ∧ IsToken s raw
  value : s.value.isSlice = true → s.value.text.toList <:+: text
  regexFlags : s.regexFlags.toList <:+: text

theorem sound_initial (text : List Char) (html collect : Bool) :
    Sound text (State.initial text html collect) := by
  refine ⟨⟨[], [], .refl _, .refl _, .of_none rfl rfl _, fun _ => rfl, fun _ => rfl⟩, fun _ =>
    ?_, ?_⟩
  · exact nil_infix text
  · exact nil_infix text

theorem Cursor.In.rest_infix {before : List Char} {a : Cursor} (h : a.In text before) :
    a.rest <:+: text := by
  rw [h.text_eq]
  exact (List.suffix_append _ _).isInfix

theorem KeepsValue.isSlice {before after : TokenValue} {rest : List Char}
    (h : KeepsValue before after rest) (hrest : rest <:+: text)
    (hbefore : before.isSlice = true → before.text.toList <:+: text) :
    after.isSlice = true → after.text.toList <:+: text := by
  intro hslice
  rcases h hslice with rfl | hinfix
  · exact hbefore hslice
  · exact hinfix.trans hrest

/-- A step to the next token keeps the lexer in the text. -/
theorem Sound.scanned (h : Sound text s) (hstep : HasScanned s s') : Sound text s' := by
  obtain ⟨before, raw, hstart, htoken⟩ := h.place
  obtain ⟨gap, raw', comments, hscanned⟩ := hstep
  have hplace : s'.start.In text (before ++ raw ++ gap) :=
    (hstart.trans htoken.extent).trans hscanned.passed
  refine ⟨⟨_, raw', hplace, hscanned.token⟩, hscanned.value.isSlice hplace.rest_infix h.value, ?_⟩
  rw [hscanned.regexFlags]
  exact h.regexFlags

/-- A second reading of the current token keeps the lexer in the text. -/
theorem Sound.rescanned (h : Sound text s) (hstep : HasRescanned s s') : Sound text s' := by
  obtain ⟨before, raw, hstart, -⟩ := h.place
  obtain ⟨raw', hrescanned⟩ := hstep
  have hrest := hstart.rest_infix
  refine ⟨⟨before, raw', ?_, hrescanned.token⟩, hrescanned.value.isSlice hrest h.value, ?_⟩
  · rw [hrescanned.start]
    exact hstart
  · rcases hrescanned.regexFlags with hsame | hinfix
    · rw [hsame]
      exact h.regexFlags
    · exact hinfix.trans hrest

theorem Sound.restore {now : State} (h : Sound text s) : Sound text (s.restore now) := by
  obtain ⟨before, raw, hstart, htoken⟩ := h.place
  exact ⟨⟨before, raw, hstart, htoken.extent, htoken.shape, htoken.isEmpty⟩, h.value, h.regexFlags⟩

/-- Looking ahead comes back to the state it started from. -/
theorem lookAhead_restores {α : Type} (step : Lexer α) (s : State) :
    ∃ found now, lookAhead step s = .ok found (s.restore now) := by
  unfold lookAhead
  split
  · exact ⟨_, _, rfl⟩
  · exact ⟨_, _, rfl⟩

theorem peek_restores (s : State) : ∃ found now, peek s = .ok found (s.restore now) := by
  obtain ⟨found, now, hlook⟩ := lookAhead_restores (do
    let token ← scan
    return (token, (← get).flags)) s
  cases found with
  | ok next => exact ⟨next, now, bind_of_ok hlook⟩
  | error failure => exact ⟨(.endOfSource, TokenFlags.none), now, bind_of_ok hlook⟩

theorem FailsAfter.isBoundary {a : Cursor} {before : List Char} {failure : Failure}
    (h : FailsAfter a failure) (hplace : a.In text before) : IsBoundary text failure.offset := by
  obtain ⟨b, between, hreach, hoffset⟩ := h
  have hb : b.In text (before ++ between) := hplace.trans hreach
  rw [hoffset]
  exact hb.isBoundary

/-- What a step to the next token keeps, and where it fails. -/
theorem Sound.goesOn {α : Type} (h : Sound text s) {step : Lexer α}
    (hstep : Meets (FailsAfter s.cursor) step (fun _ s' => HasScanned s s') s) :
    Meets (fun failure => IsBoundary text failure.offset) (do let _ ← step)
      (fun _ s' => Sound text s') s := by
  obtain ⟨before, raw, hstart, htoken⟩ := h.place
  have hcursor : s.cursor.In text (before ++ raw) := hstart.trans htoken.extent
  refine (hstep.weaken fun _ hfail => hfail.isBoundary hcursor).bind fun _ s' hs' => ?_
  exact .pure (h.scanned hs')

/-- What a second reading keeps, and where it fails. -/
theorem Sound.readsAnew {α : Type} (h : Sound text s) {step : Lexer α}
    (hstep : Meets (FailsAfter s.start) step (fun _ s' => HasRescanned s s') s) :
    Meets (fun failure => IsBoundary text failure.offset) (do let _ ← step)
      (fun _ s' => Sound text s') s := by
  obtain ⟨before, raw, hstart, -⟩ := h.place
  refine (hstep.weaken fun _ hfail => hfail.isBoundary hstart).bind fun _ s' hs' => ?_
  exact .pure (h.rescanned hs')

theorem Sound.step (h : Sound text s) {action : Action} (hallowed : action.IsAllowed s.token) :
    Meets (fun failure => IsBoundary text failure.offset) action.run
      (fun _ s' => Sound text s') s := by
  obtain ⟨before, raw, -, htoken⟩ := h.place
  cases action with
  | scan => exact h.goesOn (scan_meets s)
  | peek =>
    obtain ⟨found, now, hpeek⟩ := peek_restores s
    exact .run hpeek (.pure h.restore)
  | rescanGreaterThan =>
    have hmerge := (rescanGreaterThan_meets htoken).mono fun _ s' hs' => hs'.1
    exact h.readsAnew (hmerge.weaken fun _ => False.elim)
  | scanMarkupChild => exact h.goesOn (scanMarkupChild_meets s)
  | scanMarkupName =>
    have hname := (scanMarkupName_meets htoken).mono fun _ s' hs' => h.rescanned hs'
    exact hname.weaken fun _ => False.elim
  | scanMarkupAttributeValue => exact h.goesOn (scanMarkupAttributeValue_meets s)
  | rescanRegex => exact h.readsAnew (rescanRegex_meets s)
  | rescanTemplate => exact h.readsAnew (rescanTemplate_meets htoken hallowed)

/-- The delimiters of a template chunk are bytes. -/
theorem byteLength_delimiters {token : Token} {first : Char} {last : List Char}
    (h : delimiters? token = some (first, last)) : byteLength [first] = 1 ∧
      byteLength last = closingWidth token ∧ last.length = closingWidth token := by
  revert h
  cases token <;> rintro ⟨⟩ <;> exact ⟨rfl, rfl, rfl⟩

/-- The raw text is the text between the delimiters with line feeds for line breaks. -/
theorem State.templateRaw_eq {first : Char} {body last : List Char}
    (hdelimiters : delimiters? s.token = some (first, last))
    (hraw : s.raw = first :: body ++ last) :
    s.templateRaw = State.normalizeLineBreaks body := by
  obtain ⟨-, -, hlength⟩ := byteLength_delimiters hdelimiters
  have hcut : (first :: body ++ last).length - closingWidth s.token = (first :: body).length := by
    rw [← hlength, List.length_append, Nat.add_sub_cancel]
  change State.normalizeLineBreaks
    ((s.raw.take (s.raw.length - closingWidth s.token)).drop 1) = _
  rw [hraw, hcut, List.take_left]
  rfl

theorem exists_delimiters {token : Token} (h : token.isTemplate = true) :
    ∃ first last, delimiters? token = some (first, last) := by
  revert h
  cases token <;> intro h <;> first | exact ⟨_, _, rfl⟩ | cases h

/-- The text of a template chunk stands between its delimiters. -/
theorem template_slice {before raw : List Char} (hstart : s.start.In text before)
    (h : IsToken s raw) (htemplate : s.token.isTemplate = true) : ∃ body,
      slice? text (s.start.offset + 1) (s.cursor.offset - closingWidth s.token) = some body ∧
        s.templateRaw = State.normalizeLineBreaks body := by
  obtain ⟨first, last, hfound⟩ := exists_delimiters htemplate
  obtain ⟨hfirst, hlast, -⟩ := byteLength_delimiters hfound
  obtain ⟨body, rfl⟩ := h.shape.delimiters first last hfound
  refine ⟨body, ?_, ?_⟩
  · have htext : text = before ++ [first] ++ (body ++ (last ++ s.cursor.rest)) := by
      rw [hstart.text_eq, h.extent.rest]
      simp
    have hopen : s.start.offset + 1 = byteLength (before ++ [first]) := by
      rw [byteLength_append, hfirst, hstart.offset_eq]
    have hclose : s.cursor.offset - closingWidth s.token =
        byteLength (before ++ [first]) + byteLength body := by
      have hoffset := h.extent.offset
      have hsplit : byteLength (first :: body ++ last) = 1 + byteLength body + byteLength last := by
        rw [← hfirst, ← byteLength_append, ← byteLength_append]
        rfl
      rw [← hopen]
      omega
    rw [hopen, hclose, htext]
    exact slice?_append _ body _
  · exact State.templateRaw_eq hfound h.extent.textTo

theorem Sound.isSafe (h : Sound text s) : IsSafe text s := by
  obtain ⟨before, raw, hstart, htoken⟩ := h.place
  have hcursor : s.cursor.In text (before ++ raw) := hstart.trans htoken.extent
  refine ⟨?_, hcursor.le, hstart.isBoundary, hcursor.isBoundary, ?_, fun hslice => ?_, ?_,
    template_slice hstart htoken⟩
  · rw [htoken.extent.offset]
    exact Nat.le_add_right _ _
  · rw [hstart.slice? htoken.extent]
    exact congrArg some htoken.extent.textTo.symm
  · exact isSlice_of_infix (h.value hslice)
  · exact isSlice_of_infix h.regexFlags

/-- Every step of a run keeps the lexer in the text, and a saved state was once in it. -/
theorem Reached.sound {html collect : Bool} {saved : List State}
    (h : Reached text html collect s saved) : Sound text s ∧
      ∀ earlier ∈ saved, Sound text earlier := by
  induction h with
  | initial => exact ⟨sound_initial text html collect, by simp⟩
  | step action _ hallowed hrun ih => exact ⟨(ih.1.step hallowed).result hrun, ih.2⟩
  | save _ ih => exact ⟨ih.1, List.forall_mem_cons.mpr ih⟩
  | restore _ hmem ih => exact ⟨(ih.2 _ hmem).restore, ih.2⟩

end Invariant

end

end EcmaSyntax.Lexer
