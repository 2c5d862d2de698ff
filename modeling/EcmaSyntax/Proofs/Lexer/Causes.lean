import EcmaSyntax.Lexer.Scan
import EcmaSyntax.Proofs.Outcome

/-!
A lexer never complains about a repeated parameter, which a parse keeps back until more has
been read, nor that there is no fuel left. These two causes alone have nothing to do with what
is read where they are raised, so where they come from has to be known.
-/

namespace EcmaSyntax.Diagnostic

@[reducible] def Cause.isDeferred : Cause → Bool
  | .duplicateParameter | .exhausted => true
  | _ => false

/-- A cause that is raised where it is found. That it is one is found out by the instances
below, which compute it for the causes that a step names. -/
class Cause.IsImmediate (cause : Cause) : Prop where
  isDeferred : cause.isDeferred = false

class IsFalse (b : Bool) : Prop where
  eq : b = false

instance : IsFalse false := ⟨rfl⟩

instance {cause : Cause} [h : IsFalse cause.isDeferred] : cause.IsImmediate := ⟨h.eq⟩

instance {c : Prop} [Decidable c] {first second : Cause} [first.IsImmediate]
    [second.IsImmediate] : (if c then first else second).IsImmediate := by
  split <;> infer_instance

/-- A failure that is raised where it is found. -/
def Failure.IsImmediate (failure : Failure) : Prop := failure.cause.isDeferred = false

end EcmaSyntax.Diagnostic

namespace EcmaSyntax

open EcmaSyntax.Diagnostic

variable {σ α β : Type}

/-- All failures of the step are raised where they are found. -/
class HasImmediateCauses (step : EStateM Failure σ α) : Prop where
  hasImmediateCauses : ∀ s, Meets Failure.IsImmediate step (fun _ _ => True) s

/-- A step that never fails. -/
theorem HasImmediateCauses.of_ok {step : EStateM Failure σ α} (h : ∀ s, ∃ a s', step s = .ok a s') :
    HasImmediateCauses step := by
  refine ⟨fun s => ?_⟩
  obtain ⟨a, s', hok⟩ := h s
  exact .ok hok trivial

instance {a : α} : HasImmediateCauses (pure a : EStateM Failure σ α) := ⟨fun _ => trivial⟩

instance HasImmediateCauses.bind {step : EStateM Failure σ α} {rest : α → EStateM Failure σ β}
    [h : HasImmediateCauses step] [hrest : ∀ a, HasImmediateCauses (rest a)] :
      HasImmediateCauses (step >>= rest) :=
  ⟨fun s => (h.hasImmediateCauses s).bind fun a s' _ => (hrest a).hasImmediateCauses s'⟩

theorem HasImmediateCauses.skip {step : EStateM Failure σ α} {rest : α → EStateM Failure σ β}
    [HasImmediateCauses step]
    (hrest : ∀ a, HasImmediateCauses (rest a)) : HasImmediateCauses (step >>= rest) :=
      HasImmediateCauses.bind

instance {c : Prop} [Decidable c] {first second : EStateM Failure σ α} [HasImmediateCauses first]
    [HasImmediateCauses second] : HasImmediateCauses (if c then first else second) := by
  split <;> infer_instance

instance {cause : Cause} {offset : Nat} [h : cause.IsImmediate] :
    HasImmediateCauses (throw ⟨cause, offset⟩ : EStateM Failure σ α) := ⟨fun _ => h.isDeferred⟩

instance : HasImmediateCauses (get : EStateM Failure σ σ) := .of_ok fun _ => ⟨_, _, rfl⟩
instance {s : σ} : HasImmediateCauses (set s : EStateM Failure σ PUnit) :=
  .of_ok fun _ => ⟨_, _, rfl⟩
instance {f : σ → σ} : HasImmediateCauses (modify f : EStateM Failure σ PUnit) :=
  .of_ok fun _ => ⟨_, _, rfl⟩

end EcmaSyntax

namespace EcmaSyntax.Lexer

open EcmaSyntax.Diagnostic

variable {version : Nat} [Unicode.IdentifierChars version]

variable {α β : Type}

section Readings

/-- A fault in the reading is one of what is read. -/
class Reading.HasImmediateCauses (reading : Reading α) : Prop where
  isDeferred : ∀ found, reading = .error found → found.cause.isDeferred = false

instance {a : α} : Reading.HasImmediateCauses (.ok a : Reading α) := ⟨nofun⟩

instance {cause : Cause} {index : Nat} {escape : Option Nat} [h : cause.IsImmediate] :
    Reading.HasImmediateCauses (.error ⟨cause, index, escape⟩ : Reading α) :=
  ⟨by rintro _ ⟨⟩; exact h.isDeferred⟩

instance {cause : Cause} {index : Nat} [cause.IsImmediate] :
    Reading.HasImmediateCauses (fault cause index : Reading α) := by
  unfold fault; infer_instance

instance Reading.hasImmediateCauses_bind {reading : Reading α} {rest : α → Reading β}
    [h : reading.HasImmediateCauses]
    [hrest : ∀ a, (rest a).HasImmediateCauses] : Reading.HasImmediateCauses (reading >>= rest) := by
  cases reading with
  | ok a => exact hrest a
  | error found => exact ⟨by rintro _ ⟨⟩; exact h.isDeferred found rfl⟩

theorem Reading.hasImmediateCauses_skip {reading : Reading α} {rest : α → Reading β}
    [reading.HasImmediateCauses]
    (hrest : ∀ a, (rest a).HasImmediateCauses) : Reading.HasImmediateCauses (reading >>= rest) :=
      Reading.hasImmediateCauses_bind

instance {c : Prop} [Decidable c] {first second : Reading α} [first.HasImmediateCauses]
    [second.HasImmediateCauses] :
    Reading.HasImmediateCauses (if c then first else second) := by
  split <;> infer_instance

theorem readCodeUnit_hasImmediateCauses {text : List Char} {cause : Cause}
    (h : readCodeUnit text = .error cause) : cause.IsImmediate := by
  unfold readCodeUnit at h
  split at h
  · dsimp only at h
    split at h
    · cases h
      infer_instance
    · split at h
      · cases h
        infer_instance
      · cases h
  · dsimp only at h
    split at h
    · cases h
    · cases h
      infer_instance

theorem readCodePoint_hasImmediateCauses {text : List Char} {cause : Cause}
    (h : readCodePoint text = .error cause) : cause.IsImmediate := by
  unfold readCodePoint at h
  split at h
  · rename_i found hfound
    cases h
    exact readCodeUnit_hasImmediateCauses hfound
  · grind

/-- A malformed escape is reported for what is wrong with it. -/
def EscapeHasImmediateCauses (found : Except EscapeFault α) : Prop :=
  ∀ cause, found = .error (.malformed cause) → cause.IsImmediate

theorem EscapeHasImmediateCauses.ite {c : Prop} [Decidable c] {found : Except EscapeFault α} {a : α}
    (h : EscapeHasImmediateCauses found) :
      EscapeHasImmediateCauses (if c then .ok a else found) := by
  split
  · exact nofun
  · exact h

theorem readEscape_hasImmediateCauses (text : List Char) :
    EscapeHasImmediateCauses (readEscape text) := by
  unfold readEscape
  split
  · exact nofun
  · -- All escapes of one character have a meaning.
    iterate 11 refine .ite ?_
    split
    · split
      · split
        · exact nofun
        · rintro _ ⟨⟩
          infer_instance
      · rintro _ ⟨⟩
        infer_instance
    · split
      · split
        · exact nofun
        · rename_i hcause
          rintro _ ⟨⟩
          exact readCodePoint_hasImmediateCauses hcause
      · exact nofun

theorem readWordFrom_hasImmediateCauses (text : List Char) : ∀ (first : Bool) (index skip : Nat),
    (readWordFrom first index skip text).HasImmediateCauses := by
  induction text with
  | nil => intro first index skip; cases skip <;> exact ⟨nofun⟩
  | cons c rest ih =>
    intro first index skip
    cases skip with
    | succ skip => exact ih first (index + 1) skip
    | zero =>
      have hrest := fun skip => ih false (index + 1) skip
      unfold readWordFrom
      split
      · split
        · split
          · rename_i hcause
            have := readCodePoint_hasImmediateCauses hcause
            infer_instance
          · infer_instance
        · infer_instance
      · infer_instance

theorem readStringFrom_hasImmediateCauses (quote : Char) (text : List Char) : ∀ index skip : Nat,
    (readStringFrom quote index skip text).HasImmediateCauses := by
  induction text with
  | nil => intro index skip; cases skip <;> exact ⟨by rintro _ ⟨⟩; rfl⟩
  | cons c rest ih =>
    intro index skip
    cases skip with
    | succ skip => exact ih (index + 1) skip
    | zero =>
      have hrest := fun skip => ih (index + 1) skip
      unfold readStringFrom
      split
      · infer_instance
      · split
        · split
          · infer_instance
          · rename_i hcause
            have := readEscape_hasImmediateCauses rest _ hcause
            infer_instance
          · infer_instance
        · infer_instance

instance {radix index : Nat} {separators any afterSeparator : Bool} {text : List Char} :
    (readDigits radix separators index any afterSeparator text).HasImmediateCauses := by
  induction text generalizing index any afterSeparator with
  | nil => unfold readDigits; infer_instance
  | cons c rest ih => unfold readDigits; infer_instance

instance {index : Nat} {text : List Char} : (readFraction index text).HasImmediateCauses := by
  unfold readFraction readDecimalDigits
  split <;> infer_instance

instance {index : Nat} {text : List Char} : (readExponent index text).HasImmediateCauses := by
  unfold readExponent readDecimalDigits
  split <;> infer_instance

instance {whole : List Char} {index : Nat} {text : List Char} :
    (readDecimalTail whole index text).HasImmediateCauses := by
  unfold readDecimalTail; infer_instance

instance {text : List Char} {numeral : Numeral} :
    (checkAfterNumber text numeral).HasImmediateCauses := by
  unfold checkAfterNumber
  split <;> infer_instance

instance {radix : Nat} {missing : Cause} [missing.IsImmediate] {text : List Char} :
    (readRadixNumber radix missing text).HasImmediateCauses := by
  unfold readRadixNumber finishBigint; infer_instance

instance {text : List Char} : (readLegacyNumber text).HasImmediateCauses := by
  unfold readLegacyNumber; infer_instance

instance {text : List Char} : (readDecimalNumber text).HasImmediateCauses := by
  unfold readDecimalNumber readDecimalDigits finishBigint; infer_instance

instance {text : List Char} : (readNumeral text).HasImmediateCauses := by
  unfold readNumeral
  split <;> infer_instance

instance {isFirst : Bool} {text : List Char} :
    (readChunkLexeme isFirst text).HasImmediateCauses := by
  unfold readChunkLexeme
  dsimp only
  split <;> infer_instance

instance {text : List Char} : (readLexeme text).HasImmediateCauses := by
  have hword := readWordFrom_hasImmediateCauses
  have hstring := readStringFrom_hasImmediateCauses
  have hnumber : (readNumberLexeme text).HasImmediateCauses := by
    unfold readNumberLexeme
    refine Reading.hasImmediateCauses_skip fun numeral => ?_
    split <;> infer_instance
  unfold readLexeme readStringLexeme readPrivateLexeme readWordLexeme readString readWord
  split
  · infer_instance
  · split <;> infer_instance

theorem readRegexBody_hasImmediateCauses (text : List Char) :
    ∀ (inClass escaped : Bool) (index : Nat),
    (readRegexBody inClass escaped index text).HasImmediateCauses := by
  induction text with
  | nil => intro inClass escaped index; unfold readRegexBody; infer_instance
  | cons c rest ih => intro inClass escaped index; unfold readRegexBody; infer_instance

theorem readRegexFlagsFrom_hasImmediateCauses (text : List Char) :
    ∀ (index : Nat) (seen : List Char),
    (readRegexFlagsFrom index seen text).HasImmediateCauses := by
  induction text with
  | nil => intro index seen; unfold readRegexFlagsFrom; infer_instance
  | cons c rest ih => intro index seen; unfold readRegexFlagsFrom; infer_instance

instance {text : List Char} : (readRegex text).HasImmediateCauses := by
  have hbody := readRegexBody_hasImmediateCauses
  have hflags := readRegexFlagsFrom_hasImmediateCauses
  unfold readRegex readRegexFlags; infer_instance

instance {index : Nat} {text : List Char} : (readMarkupText index text).HasImmediateCauses := by
  induction text generalizing index with
  | nil => unfold readMarkupText; infer_instance
  | cons c rest ih => unfold readMarkupText; infer_instance

theorem readTriviaFrom_hasImmediateCauses {html : Bool} (text : List Char) :
    ∀ (offset : Nat) (trivia : Trivia) (skip : Nat) (failure : Failure),
      readTriviaFrom html offset trivia skip text = .error failure → failure.IsImmediate := by
  induction text with
  | nil => intro offset trivia skip failure h; cases skip <;> cases h
  | cons c rest ih =>
    intro offset trivia skip failure h
    cases skip with
    | succ skip => exact ih _ _ _ _ h
    | zero =>
      unfold readTriviaFrom at h
      split at h
      · exact ih _ _ _ _ h
      · split at h
        · exact ih _ _ _ _ h
        · split at h
          · exact ih _ _ _ _ h
          · split at h
            · split at h
              · cases h
                rfl
              · exact ih _ _ _ _ h
            · cases h

end Readings

section Steps

instance {start : Cursor} {reading : Reading α} [h : reading.HasImmediateCauses] :
    HasImmediateCauses (ofReading start reading) := by
  cases reading with
  | ok a => exact ⟨fun _ => trivial⟩
  | error found =>
    have hcause : found.cause.IsImmediate := ⟨h.isDeferred found rfl⟩
    unfold ofReading raise
    dsimp only
    split <;> infer_instance

instance : HasImmediateCauses beginToken := by
  unfold beginToken
  refine HasImmediateCauses.skip fun s => ?_
  split
  · rename_i failure hfailure
    exact ⟨fun _ => readTriviaFrom_hasImmediateCauses _ _ _ _ failure hfailure⟩
  · infer_instance

instance : HasImmediateCauses scan := by unfold scan Lexer.accept; infer_instance

instance : HasImmediateCauses rescanGreaterThan := by unfold rescanGreaterThan; infer_instance

instance : HasImmediateCauses rescanTemplate :=
    by unfold rescanTemplate Lexer.accept; infer_instance

instance : HasImmediateCauses rescanRegex := by unfold rescanRegex; infer_instance

instance : HasImmediateCauses scanMarkupChild := by
  unfold scanMarkupChild
  refine HasImmediateCauses.skip fun s => HasImmediateCauses.skip fun _ => ?_
  split <;> infer_instance

instance : HasImmediateCauses scanMarkupAttributeValue := by
  unfold scanMarkupAttributeValue
  refine HasImmediateCauses.skip fun _ => HasImmediateCauses.skip fun s => ?_
  dsimp only
  split <;> infer_instance

end Steps

end EcmaSyntax.Lexer
