import EcmaSyntax.Proofs.Scanner.Markup
import EcmaSyntax.Proofs.Scanner.Rescans
import EcmaSyntax.Unicode.IdentifierRanges

/-!
The scanner on bytes does what the lexer on characters does, in every run of their steps. So it
never looks outside of its source, every range that it gives out or cuts stands between two
characters, and so does the place of every failure.
-/

namespace EcmaSyntax.Scanner

open EcmaSyntax.Diagnostic EcmaSyntax.Lexer EcmaSyntax.Text

section

variable {version : Nat} [Unicode.IdentifierChars version]

/-- The step of the scanner that an action asks for. -/
def run : Action → Scanner Unit
  | .scan => do let _ ← scan
  | .peek => do let _ ← peek
  | .rescanGreaterThan => do let _ ← rescanGreaterThan
  | .scanMarkupChild => do let _ ← scanMarkupChild
  | .scanMarkupName => scanMarkupName
  | .scanMarkupAttributeValue => do let _ ← scanMarkupAttributeValue
  | .rescanRegex => do let _ ← rescanRegex
  | .rescanTemplate => do let _ ← rescanTemplate

/-- The states of a scanner that a run of its steps comes to, with the states that were saved on
the way. -/
inductive Reached (text : List Char) (html collect : Bool) : State → List State → Prop
  | initial : Reached text html collect (State.initial text html collect) []
  | step {s saved s'} (action : Action) (h : Reached text html collect s saved)
      (hallowed : action.IsAllowed s.token) (hrun : run action s = .ok () s') :
      Reached text html collect s' saved
  | save {s saved} (h : Reached text html collect s saved) :
      Reached text html collect s (s :: saved)
  | restore {s saved earlier} (h : Reached text html collect s saved) (hmem : earlier ∈ saved) :
      Reached text html collect (earlier.restore s) saved

/-- The extent of the current token stands in the text, and all that is given out of it can be
cut. -/
structure IsSafe (text : List Char) (s : State) : Prop where
  order : s.tokenStart ≤ s.pos
  inside : s.pos ≤ byteLength text
  start : IsBoundary text s.tokenStart
  stop : IsBoundary text s.pos
  raw : ∃ piece, s.raw? = some piece
  value : ∃ piece, s.value? = some piece
  regexFlags : ∃ piece, s.regexFlags? = some piece
  template : s.token.isTemplate = true → ∃ piece, s.templateRaw? = some piece

section Simulation

variable {text : List Char} {s s' : State} {l : Lexer.State}

theorem Simulates.discard {α : Type} {step : Scanner α} {other : Lexer α}
    (h : Simulates text step other s l) :
    Simulates text (do let _ ← step) (do let _ ← other) s l := by
  unfold Simulates at h ⊢
  rw [outcome_bind]
  exact h.bind fun _ _ _ hresult => .of_ok (outcome_ok rfl) rfl ⟨rfl, hresult.2⟩

theorem Agrees.token (h : Agrees text s l) : l.token = s.token := by
  obtain ⟨before, raw, rest, value, regexFlags, -, rfl⟩ := h
  rfl

/-- Every step of the scanner does what the lexer does. -/
theorem Agrees.step (h : Agrees text s l) (hsound : Sound text l) {action : Action}
    (hallowed : action.IsAllowed s.token) : Simulates text (run action) action.run s l := by
  cases action with
  | scan => exact h.scan.discard
  | peek => exact h.peek.discard
  | rescanGreaterThan => exact h.rescanGreaterThan.discard
  | scanMarkupChild => exact h.scanMarkupChild.discard
  | scanMarkupName => exact h.scanMarkupName
  | scanMarkupAttributeValue => exact h.scanMarkupAttributeValue.discard
  | rescanRegex => exact (h.rescanRegex hsound hallowed).discard
  | rescanTemplate => exact (h.rescanTemplate hsound hallowed).discard

theorem outcome_eq_ok {α : Type} {step : Lexer α} {found : α × Lexer.State}
    (h : outcome step l = .ok found) : step l = .ok found.1 found.2 := by
  unfold outcome at h
  cases hstep : step l with
  | ok a l' =>
    rw [hstep] at h
    obtain rfl := Except.ok.inj h
    rfl
  | error failure l' =>
    rw [hstep] at h
    cases h

theorem outcome_eq_error {α : Type} {step : Lexer α} {found : Failure × Lexer.State}
    (h : outcome step l = .error found) : step l = .error found.1 found.2 := by
  unfold outcome at h
  cases hstep : step l with
  | ok a l' =>
    rw [hstep] at h
    cases h
  | error failure l' =>
    rw [hstep] at h
    obtain rfl := Except.error.inj h
    rfl

theorem agrees_initial (hshort : byteLength text < UInt32.size) (html collect : Bool) :
    Agrees text (State.initial text html collect) (Lexer.State.initial text html collect) := by
  have hplace : At (State.initial text html collect) ([] ++ []) text := ⟨rfl, rfl, hshort⟩
  refine ⟨[], [], text, .empty, "", ⟨hplace, rfl, ⟨rfl, hplace.slice?_nil⟩, ?_, rfl⟩, rfl⟩
  exact hplace.slice?_nil

/-- A run of the scanner is one of the lexer. -/
theorem Reached.agrees {html collect : Bool} {saved : List State}
    (hshort : byteLength text < UInt32.size)
    (h : Reached text html collect s saved) : ∃ l again, Lexer.Reached text html collect l again ∧
      Agrees text s l ∧ ∀ earlier ∈ saved, ∃ past ∈ again, Agrees text earlier past := by
  induction h with
  | initial =>
    exact ⟨_, [], .initial, agrees_initial hshort html collect, List.forall_mem_nil _⟩
  | step action _ hallowed hrun ih =>
    obtain ⟨l, again, hreached, hagrees, hsaved⟩ := ih
    have hstep := hagrees.step hreached.sound.1 hallowed
    obtain ⟨⟨_, l'⟩, hread, -, hafter⟩ := Follows.of_run hstep hrun
    rw [← hagrees.token] at hallowed
    exact ⟨l', again, hreached.step action hallowed (outcome_eq_ok hread), hafter, hsaved⟩
  | save _ ih =>
    obtain ⟨l, again, hreached, hagrees, hsaved⟩ := ih
    refine ⟨l, l :: again, hreached.save, hagrees,
      List.forall_mem_cons.mpr ⟨?_, fun earlier hmem => ?_⟩⟩
    · exact ⟨l, List.mem_cons_self, hagrees⟩
    · obtain ⟨past, hpast, hagrees⟩ := hsaved earlier hmem
      exact ⟨past, List.mem_cons_of_mem _ hpast, hagrees⟩
  | restore _ hmem ih =>
    obtain ⟨l, again, hreached, hagrees, hsaved⟩ := ih
    obtain ⟨past, hpast, hearlier⟩ := hsaved _ hmem
    refine ⟨past.restore l, again, hreached.restore hpast, ?_, hsaved⟩
    exact hearlier.restore hagrees.invalidEscape.symm (by rw [hagrees.comments])

/-- The text of a template chunk can be cut out between its delimiters. -/
theorem State.templateRaw?_eq {body : List Char}
    (h : slice? s.source (s.tokenStart + 1) (s.pos - closingWidth s.token) = some body) :
    s.templateRaw? = some (Lexer.State.normalizeLineBreaks body) := by
  obtain ⟨hle, -, -⟩ := isBoundary_of_slice? h
  have hclosing : ¬ s.pos < closingWidth s.token := by omega
  change (if s.pos < closingWidth s.token then none else
    (slice? s.source (s.tokenStart + 1)
      (max (s.pos - closingWidth s.token) (s.tokenStart + 1))).map _) = _
  rw [if_neg hclosing, Nat.max_eq_left hle, h, Option.map_some]

/-- What the scanner knows of a text in which the lexer stands, can be cut out of it. -/
theorem Agrees.isSafe (h : Agrees text s l) (hsound : Sound text l) : IsSafe text s := by
  have hsafe := hsound.isSafe
  obtain ⟨before, raw, rest, value, regexFlags, hshows, rfl⟩ := h
  have hraw : s.raw? = some raw := by
    rw [State.raw?, hshows.start]
    exact hshows.place.slice?
  refine ⟨hsafe.order, hsafe.inside, hsafe.start, hsafe.stop, ⟨raw, hraw⟩, ⟨_, hshows.value.value?⟩,
    ⟨_, hshows.regexFlags⟩, fun htemplate => ?_⟩
  obtain ⟨body, hbody, -⟩ := hsafe.template htemplate
  rw [← hshows.source] at hbody
  exact ⟨_, State.templateRaw?_eq hbody⟩

end Simulation

/-- Every state of every run is safe, and a step that fails names a place of the text: no step ends
in any other way. -/
theorem reached_isSafe {text : List Char} {html collect : Bool} {s : State} {saved : List State}
    (hshort : byteLength text < UInt32.size) (h : Reached text html collect s saved) :
    IsSafe text s ∧ ∀ (action : Action) stop s', action.IsAllowed s.token →
      run action s = .error stop s' →
        ∃ failure, stop = .failure failure ∧ IsBoundary text failure.offset := by
  obtain ⟨l, again, hreached, hagrees, -⟩ := h.agrees hshort
  have hsound := hreached.sound.1
  refine ⟨hagrees.isSafe hsound, fun action stop s' hallowed hrun => ?_⟩
  obtain ⟨found, hfailed, hfails⟩ := Follows.of_stop (hagrees.step hsound hallowed) hrun
  rw [← hagrees.token] at hallowed
  have hplace := hsound.step hallowed
  unfold Meets at hplace
  rw [outcome_eq_error hfailed] at hplace
  exact ⟨found.1, hfails.stop, hplace⟩

/-- A regular expression and the end of a template, both with characters of more than one byte, and
a string that is not closed. -/
def mixedText : List Char := "/=é/u\x7dü\x60'é".toList

end

theorem mixedText_isSafe : ∃ s saved, Reached mixedText false true s saved ∧
    s.token = .templateTail ∧ IsSafe mixedText s ∧ ∃ failure s', run .scan s =
      .error (.failure failure) s' ∧ failure.offset = 10 ∧ IsBoundary mixedText failure.offset := by
  have h₀ : Reached mixedText false true _ [] := .initial
  have h₁ := h₀.step .scan trivial rfl
  have h₂ := h₁.step .rescanRegex (.inr rfl) rfl
  have h₃ := h₂.save.step .scan trivial rfl
  have h₄ := h₃.step .rescanTemplate rfl rfl
  have hsafe := reached_isSafe (by decide) h₄
  obtain ⟨failure, hfailure, hplace⟩ := hsafe.2 .scan _ _ trivial rfl
  obtain rfl := Stop.failure.inj hfailure
  exact ⟨_, _, h₄, rfl, hsafe.1, _, _, rfl, rfl, hplace⟩

end EcmaSyntax.Scanner
