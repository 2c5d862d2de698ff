import EcmaSyntax.Grammar.Program
import EcmaSyntax.Proofs.Grammar.Outcome
import EcmaSyntax.Proofs.Lexer.Causes
import EcmaSyntax.Proofs.Lexer.Names

/-!
Steps that go on in the text and leave the declared names and the marks of `yield` and
`await` as they are. Light steps do not complain about a repeated parameter, nor about a lack
of fuel, and they export nothing; loose steps are loops of light ones and steps that export.
Steps made of light ones are light, which is left to instances.
-/

namespace EcmaSyntax.Grammar

open EcmaSyntax.Diagnostic EcmaSyntax.Lexer EcmaSyntax.Scope EcmaSyntax.Text EcmaSyntax.Tree

variable {version : Nat} [Unicode.IdentifierChars version]

variable {α β : Type}

/-- A state that a loose step comes to. -/
structure Moves (s s' : State) : Prop where
  scopes : s'.scopes = s.scopes
  lastYield : s'.lastYield = s.lastYield
  lastAwait : s'.lastAwait = s.lastAwait
  goesOn : ∀ text, Situated text s.lexer → Situated text s'.lexer ∧ s.start ≤ s'.start
  legible : s.lexer.IsLegible → s'.lexer.IsLegible

namespace Moves

variable {s s₁ s₂ : State}

theorem refl : Moves s s := ⟨rfl, rfl, rfl, fun _ h => ⟨h, Nat.le_refl _⟩, id⟩

/-- A state with the same lexer, scopes and marks. -/
theorem of_same (hlexer : s₁.lexer = s.lexer) (hscopes : s₁.scopes = s.scopes)
    (hyield : s₁.lastYield = s.lastYield) (hawait : s₁.lastAwait = s.lastAwait) : Moves s s₁ := by
  refine ⟨hscopes, hyield, hawait, fun text h => ?_, fun h => hlexer ▸ h⟩
  unfold State.start
  rw [hlexer]
  exact ⟨h, Nat.le_refl _⟩

theorem trans (h : Moves s s₁) (h' : Moves s₁ s₂) : Moves s s₂ := by
  refine ⟨h'.scopes.trans h.scopes, h'.lastYield.trans h.lastYield,
    h'.lastAwait.trans h.lastAwait, fun text hs => ?_, fun hs => h'.legible (h.legible hs)⟩
  obtain ⟨hs₁, hstart₁⟩ := h.goesOn text hs
  obtain ⟨hs₂, hstart₂⟩ := h'.goesOn text hs₁
  exact ⟨hs₂, Nat.le_trans hstart₁ hstart₂⟩

theorem oriented (h : Moves s s₁) {text : List Char} (hs : Oriented text s.lexer) :
    Oriented text s₁.lexer ∧ s.start ≤ s₁.start := by
  obtain ⟨hsituated, hstart⟩ := h.goesOn text hs.toSituated
  exact ⟨⟨hsituated, h.legible hs.legible⟩, hstart⟩

end Moves

/-- A state that a light step comes to. The last token taken still ends where the current one
starts, or before. -/
structure Strides (s s' : State) : Prop extends Moves s s' where
  exports : s'.exports = s.exports
  previousEnd : ∀ text, Situated text s.lexer → s.previousEnd ≤ s.start →
    s.previousEnd ≤ s'.previousEnd ∧ s'.previousEnd ≤ s'.start

namespace Strides

variable {s s₁ s₂ : State}

/-- A state that stands at the same token, with the same scopes, exports and marks. -/
theorem of_same (hmoves : Moves s s₁) (hexports : s₁.exports = s.exports)
    (hend : s₁.previousEnd = s.previousEnd) : Strides s s₁ := by
  refine ⟨hmoves, hexports, fun text hs hle => ?_⟩
  rw [hend]
  exact ⟨Nat.le_refl _, Nat.le_trans hle (hmoves.goesOn text hs).2⟩

theorem refl : Strides s s := .of_same .refl rfl rfl

theorem trans (h : Strides s s₁) (h' : Strides s₁ s₂) : Strides s s₂ := by
  refine ⟨h.toMoves.trans h'.toMoves, h'.exports.trans h.exports, fun text hs hle => ?_⟩
  obtain ⟨hle₁, hend₁⟩ := h.previousEnd text hs hle
  obtain ⟨hle₂, hend₂⟩ := h'.previousEnd text (h.goesOn text hs).1 hend₁
  exact ⟨Nat.le_trans hle₁ hle₂, hend₂⟩

end Strides

class Light (step : Parser α) : Prop where
  moves : ∀ s, Meets Failure.IsImmediate step (fun _ s' => Strides s s') s

/-- A step that may also export names and run out of fuel. -/
class Loose (step : Parser α) : Prop where
  moves : ∀ s, Meets (fun failure => failure.cause ≠ .duplicateParameter) step
    (fun _ s' => Moves s s') s

theorem Light.of_hasImmediateCauses {step : Parser α} [h : HasImmediateCauses step]
    (hmoves : ∀ s, Yields step (fun _ s' => Strides s s') s) : Light step := by
  refine ⟨fun s => ?_⟩
  have hs := h.hasImmediateCauses s
  have hs' := hmoves s
  unfold Yields Meets at hs'
  unfold Meets at hs ⊢
  split
  · rename_i a s' hok
    rwa [hok] at hs'
  · rename_i failure s' herror
    rwa [herror] at hs

instance {step : Parser α} [h : Light step] : HasImmediateCauses step :=
  ⟨fun s => (h.moves s).mono fun _ _ _ => trivial⟩

/-- A step that only looks at the state. -/
theorem light_of_reads {step : Parser α} (h : ∀ s, ∃ a, step s = .ok a s) : Light step := by
  refine ⟨fun s => ?_⟩
  obtain ⟨a, ha⟩ := h s
  exact .ok ha .refl

section Lexer

variable {s s' : Lexer.State} {text : List Char}

/-- Comments are no part of what is sound. -/
theorem sound_setComments (h : Sound text s) (comments : List Comment) :
    Sound text { s with comments := comments } := by
  obtain ⟨before, raw, hstart, htoken⟩ := h.place
  exact ⟨⟨before, raw, hstart, htoken.extent, htoken.shape, htoken.isEmpty⟩, h.value,
    h.regexFlags⟩

theorem start_le_stop (h : Sound text s) : s.start.offset ≤ s.cursor.offset := by
  obtain ⟨before, raw, -, htoken⟩ := h.place
  have hoffset := htoken.extent.offset
  omega

/-- A step that reads the current token anew leaves the lexer in the text. -/
theorem situated_rescan {step : Lexer α} [h : Spelling step] (hs : Situated text s)
    (hstep : ∀ raw, IsToken s raw → Yields step (fun _ s' => HasRescanned s s') s) :
    Yields step (fun _ s' => Situated text s' ∧ s'.start = s.start) s := by
  obtain ⟨before, raw, -, htoken⟩ := hs.sound.place
  refine ((hstep raw htoken).and (h.isSpelled s hs.isSpelled)).mono fun _ s' hs' => ?_
  obtain ⟨hrescanned, hspelled⟩ := hs'
  refine ⟨⟨hs.sound.rescanned hrescanned, hspelled⟩, ?_⟩
  obtain ⟨raw', hread⟩ := hrescanned
  exact hread.start

theorem start_le_scanned (h : Sound text s) (hstep : HasScanned s s') :
    s.start.offset ≤ s'.start.offset :=
  Nat.le_trans (start_le_stop h) hstep.stop_le

end Lexer

section Steps

instance {a : α} : Light (pure a : Parser α) := ⟨fun _ => .pure .refl⟩

instance Light.bind {step : Parser α} {rest : α → Parser β} [h : Light step]
    [hrest : ∀ a, Light (rest a)] : Light (step >>= rest) :=
  ⟨fun s => (h.moves s).bind fun a s' hs' => ((hrest a).moves s').mono fun _ _ => hs'.trans⟩

theorem Light.skip {step : Parser α} {rest : α → Parser β} [hstep : Light step]
    (hrest : ∀ a, Light (rest a)) : Light (step >>= rest) := Light.bind

instance {step : Parser α} [h : Light step] {f : α → β} : Light (f <$> step) :=
  ⟨fun s => .map (h.moves s)⟩

instance {c : Prop} [Decidable c] {first second : Parser α} [Light first] [Light second] :
    Light (if c then first else second) := by
  split <;> infer_instance

instance {first second : Parser Bool} [Light first] [Light second] : Light (first <&&> second) := by
  unfold andM
  refine .skip fun found => ?_
  split <;> infer_instance

instance {first second : Parser Bool} [Light first] [Light second] : Light (first <||> second) := by
  unfold orM
  refine .skip fun found => ?_
  split <;> infer_instance

instance {cause : Cause} {offset : Nat} [h : cause.IsImmediate] :
    Light (failAt cause offset : Parser α) := ⟨fun _ => h.isDeferred⟩

instance {cause : Cause} [h : cause.IsImmediate] : Light (fail cause : Parser α) :=
  ⟨fun _ => h.isDeferred⟩

instance : Light (unexpected : Parser α) := by
  refine ⟨fun s => ?_⟩
  have hcause : (unexpectedCause s).IsImmediate := by unfold unexpectedCause; infer_instance
  exact hcause.isDeferred

theorem light_throw {failure : Failure} (h : failure.IsImmediate) :
    Light (throw failure : Parser α) := ⟨fun _ => h⟩

instance : Light (get : Parser State) := light_of_reads fun _ => ⟨_, rfl⟩

/-- A change to what describes the expression just read, and to the other tables. -/
instance {observing assignable : State → Bool} {observations : State → Observations}
    {privateNames : State → PrivateNames} {labels : State → Labels}
    {labelChain lastAwaitName assignmentStart : State → Option Nat}
    {cover : State → Cover} {parenthesized spreads : State → List Nat} {depth : State → Nat} :
    Light (modify fun s => ⟨s.lexer, observing s, observations s, s.scopes, privateNames s,
      labels s, labelChain s, s.exports, assignable s, cover s, parenthesized s, spreads s,
      s.lastYield, s.lastAwait, lastAwaitName s, assignmentStart s, s.previousEnd, depth s,
      s.refused⟩ : Parser Unit) :=
  ⟨fun _ => .ok rfl (.of_same (.of_same rfl rfl rfl rfl) rfl rfl)⟩

instance : Light currentToken := light_of_reads fun _ => ⟨_, rfl⟩
instance : Light currentStart := light_of_reads fun _ => ⟨_, rfl⟩
instance : Light currentFlags := light_of_reads fun _ => ⟨_, rfl⟩
instance : Light currentValue := light_of_reads fun _ => ⟨_, rfl⟩
instance : Light currentRaw := light_of_reads fun _ => ⟨_, rfl⟩
instance : Light isEscaped := light_of_reads fun _ => ⟨_, rfl⟩
instance : Light afterLineBreak := light_of_reads fun _ => ⟨_, rfl⟩
instance {token : Token} : Light (atToken token) := light_of_reads fun _ => ⟨_, rfl⟩
instance {token : Token} : Light (atWord token) := light_of_reads fun _ => ⟨_, rfl⟩
instance {start : Nat} : Light (spanFrom start) := light_of_reads fun _ => ⟨_, rfl⟩
instance {start : Nat} : Light (spanThrough start) := light_of_reads fun _ => ⟨_, rfl⟩
instance {e : Expression} : Light (isParenthesized e) := light_of_reads fun _ => ⟨_, rfl⟩

instance : Light takeCover :=
  ⟨fun _ => .ok rfl (.of_same (.of_same rfl rfl rfl rfl) rfl rfl)⟩

instance {step : Lexer α} [h : HasImmediateCauses step] : HasImmediateCauses (withLexer step) := by
  refine ⟨fun s => ?_⟩
  exact (h.hasImmediateCauses s.lexer).withLexer.mono fun _ _ _ => trivial

instance : HasImmediateCauses (withLexer takeComments) := .of_ok fun _ => ⟨_, _, rfl⟩

theorem light_advance {step : Lexer Token} [HasImmediateCauses step] [h : Spelling step]
    [hlegible : Legible step]
    (hstep : ∀ lexer, Meets (FailsAfter lexer.cursor) step (fun _ lexer' => HasScanned lexer lexer')
      lexer) : Light (advance step) := by
  have himmediate : HasImmediateCauses (advance step) := by unfold advance; infer_instance
  refine .of_hasImmediateCauses fun s => ?_
  obtain ⟨observations, hrecord⟩ := recordToken_frame s
  unfold advance
  refine .run rfl ?_
  dsimp only
  rw [hrecord]
  refine Meets.bind (Meets.withLexer
    (Q := fun _ lexer => HasScanned s.lexer lexer ∧ (s.lexer.IsSpelled → lexer.IsSpelled) ∧
      (s.lexer.IsLegible → lexer.IsLegible))
    (Meets.yields_iff.mpr fun _ lexer hrun => ⟨(hstep s.lexer).result hrun,
      fun hs => (h.isSpelled s.lexer hs).result hrun,
      fun hs => (hlegible.isLegible s.lexer hs).result hrun⟩)) fun _ s₁ hs₁ => .run rfl ?_
  obtain ⟨lexer, ⟨hlexer, hspelled, hread⟩, rfl⟩ := hs₁
  have hgoes : ∀ text, Situated text s.lexer →
      Situated text lexer ∧ s.start ≤ lexer.start.offset := fun text hs =>
    ⟨⟨hs.sound.scanned hlexer, hspelled hs.isSpelled⟩, start_le_scanned hs.sound hlexer⟩
  have hend : ∀ text, Situated text s.lexer → s.previousEnd ≤ s.start →
      s.previousEnd ≤ s.lexer.cursor.offset ∧ s.lexer.cursor.offset ≤ lexer.start.offset := by
    intro text hs hle
    exact ⟨Nat.le_trans hle (start_le_stop hs.sound), hlexer.stop_le⟩
  split
  · obtain ⟨observations', hcomments⟩ := recordComments_frame { s with
      lexer := { lexer with comments := [] }
      observations := observations
      previousEnd := s.lexer.cursor.offset } lexer.comments
    refine .run rfl (.ok rfl ?_)
    change Strides s (State.recordComments _ lexer.comments)
    rw [hcomments]
    refine ⟨⟨rfl, rfl, rfl, fun text hs => ?_, fun hs => (hread hs).setComments⟩, rfl, hend⟩
    obtain ⟨hlexer, hstart⟩ := hgoes text hs
    exact ⟨⟨sound_setComments hlexer.sound [], hlexer.isSpelled⟩, hstart⟩
  · exact .pure ⟨⟨rfl, rfl, rfl, hgoes, hread⟩, rfl, hend⟩

theorem light_lookAhead {step : Lexer α}
    (hstep : ∀ lexer, ∃ found now, step lexer = .ok found (lexer.restore now)) :
    Light (withLexer step) := by
  refine ⟨fun s => ?_⟩
  obtain ⟨found, now, hfound⟩ := hstep s.lexer
  have hrun : withLexer step s = .ok found { s with lexer := s.lexer.restore now } := by
    unfold withLexer
    rw [hfound]
  exact .ok hrun (.of_same ⟨rfl, rfl, rfl, fun text h => ⟨h.restore, Nat.le_refl _⟩,
    State.IsLegible.restore⟩ rfl rfl)

/-- Reading the current token anew. -/
theorem meets_rescan {step : Lexer α} [h : HasImmediateCauses step] [hspell : Spelling step]
    [hlegible : Legible step] {s : State}
    (hstep : ∀ raw, IsToken s.lexer raw →
      Yields step (fun _ lexer => HasRescanned s.lexer lexer) s.lexer) :
    Meets Failure.IsImmediate (withLexer step) (fun _ s' => Strides s s') s := by
  have hs := h.hasImmediateCauses s.lexer
  unfold Meets at hs ⊢
  unfold withLexer
  cases hrun : step s.lexer with
  | error failure lexer => rwa [hrun] at hs
  | ok a lexer =>
    refine .of_same ⟨rfl, rfl, rfl, fun text hs => ?_, fun hs =>
      (hlegible.isLegible s.lexer hs).result hrun⟩ rfl rfl
    obtain ⟨hsituated, hstart⟩ := (situated_rescan hs hstep).result hrun
    exact ⟨hsituated, Nat.le_of_eq (congrArg Cursor.offset hstart).symm⟩

/-- Only a closing brace is read as part of a template. -/
theorem meets_rescanTemplate {s : State} (h : s.token = .rightBrace) :
    Meets Failure.IsImmediate (withLexer rescanTemplate) (fun _ s' => Strides s s') s :=
  meets_rescan fun _ htoken => (rescanTemplate_meets htoken h).weaken fun _ _ => trivial

instance : Light next := light_advance scanMerged_meets
instance : Light nextInTag := light_advance scan_meets
instance : Light nextChild := light_advance scanMarkupChild_meets
instance : Light nextAttributeValue := light_advance scanMarkupAttributeValue_meets
instance : Light peekNext := light_lookAhead peek_restores
instance : Light peekToken := by unfold peekToken; infer_instance

instance : Light peekSecond := by
  have hahead := light_lookAhead (lookAhead_restores (do let _ ← scan; scan))
  unfold peekSecond
  refine .skip fun found => ?_
  cases found <;> infer_instance

instance : Light (withLexer rescanRegex) :=
  ⟨fun s => meets_rescan fun _ _ => (rescanRegex_meets s.lexer).weaken fun _ _ => trivial⟩

instance {token : Token} : Light (accept token) := by unfold accept; infer_instance
instance {token : Token} : Light (expect token) := by unfold expect; infer_instance
instance {assignable : Bool} : Light (setAssignable assignable) := by
  unfold setAssignable; infer_instance
instance {cover : Cover} : Light (setCover cover) := by unfold setCover; infer_instance
instance : Light plainExpression := by unfold plainExpression; infer_instance
instance : Light enterNesting := by unfold enterNesting; infer_instance
instance : Light leaveNesting := by unfold leaveNesting; infer_instance

instance : Light (modify State.insertSemicolon : Parser Unit) := by
  refine ⟨fun s => .ok rfl ?_⟩
  unfold State.insertSemicolon
  split
  · exact .of_same (.of_same rfl rfl rfl rfl) rfl rfl
  · exact .refl

instance : Light endStatement := by unfold endStatement; infer_instance

instance {items : List α} {f : α → Parser PUnit} [∀ a, Light (f a)] : Light (items.forM f) := by
  induction items with
  | nil => exact ⟨fun _ => .pure .refl⟩
  | cons item rest ih =>
    change Light (f item >>= fun _ => rest.forM f)
    infer_instance

instance {cover : Cover} {expressions : List Expression} :
    Light (checkCovers cover expressions) := by
  unfold checkCovers; infer_instance

instance {e : Expression} : Light (checkCover e) := by unfold checkCover; infer_instance

instance {close : Token} : Light (Phrases.separator close) := by
  unfold Phrases.separator; infer_instance

end Steps

section Loose

instance (priority := low) {step : Parser α} [h : Light step] : Loose step := by
  refine ⟨fun s => ((h.moves s).weaken fun failure himmediate hcause => ?_).mono
    fun _ _ hs => hs.toMoves⟩
  rw [Failure.IsImmediate, hcause] at himmediate
  cases himmediate

instance Loose.bind {step : Parser α} {rest : α → Parser β} [h : Loose step]
    [hrest : ∀ a, Loose (rest a)] : Loose (step >>= rest) :=
  ⟨fun s => (h.moves s).bind fun a s' hs' => ((hrest a).moves s').mono fun _ _ => hs'.trans⟩

theorem Loose.skip {step : Parser α} {rest : α → Parser β} [hstep : Loose step]
    (hrest : ∀ a, Loose (rest a)) : Loose (step >>= rest) := Loose.bind

instance {step : Parser α} [h : Loose step] {f : α → β} : Loose (f <$> step) :=
  ⟨fun s => .map (h.moves s)⟩

instance {c : Prop} [Decidable c] {first second : Parser α} [Loose first] [Loose second] :
    Loose (if c then first else second) := by
  split <;> infer_instance

instance {items : List α} {f : α → Parser PUnit} [∀ a, Loose (f a)] : Loose (items.forM f) := by
  induction items with
  | nil => exact inferInstanceAs (Loose (pure _))
  | cons item rest ih =>
    change Loose (f item >>= fun _ => rest.forM f)
    infer_instance

/-- There is no fuel left. -/
instance loose_exhausted : Loose (fail .exhausted : Parser α) := ⟨fun _ => nofun⟩

theorem loose_iterate {round : α → Parser (Option α)} [h : ∀ a, Loose (round a)] (fuel : Nat) :
    ∀ a, Loose (iterate round fuel a) := by
  induction fuel with
  | zero =>
    intro a
    unfold iterate
    infer_instance
  | succ fuel ih =>
    intro a
    unfold iterate
    refine .skip fun found => ?_
    split <;> infer_instance

theorem loose_collectAfter {round : List α → Parser (Round α)}
    (h : ∀ earlier, Loose (round earlier)) (fuel : Nat) :
    ∀ earlier, Loose (collectAfter round fuel earlier) := by
  induction fuel with
  | zero =>
    intro earlier
    unfold collectAfter
    infer_instance
  | succ fuel ih =>
    intro earlier
    unfold collectAfter
    refine .skip fun found => ?_
    split <;> infer_instance

instance {g : Phrases} {close : Token} {item : List α → Parser α}
    [∀ earlier, Loose (item earlier)] : Loose (g.listed close item) := by
  refine loose_collectAfter (fun earlier => .skip fun atClose => ?_) _ _
  split <;> infer_instance

end Loose

section Faults

/-- Why a name is refused has nothing to do with other names. -/
def Spared (fault : Option Cause) : Prop := ∀ cause, fault = some cause → cause.IsImmediate

theorem spared_referenceFault (ctx : Context) (name : String) :
    Spared (referenceFault? ctx name) := by
  intro cause h
  unfold referenceFault? at h
  split at h <;> grind [Cause.IsImmediate]

theorem spared_targetFault (ctx : Context) (name : String) : Spared (targetFault? ctx name) := by
  intro cause h
  unfold targetFault? at h
  grind [Cause.IsImmediate]

theorem spared_bindingFault (ctx : Context) (kind : BindingKind) (name : String) :
    Spared (bindingFault? ctx kind name) := by
  intro cause h
  have href := spared_referenceFault ctx name
  have htarget := spared_targetFault ctx name
  unfold bindingFault? at h
  cases hreference : referenceFault? ctx name with
  | some found => simp_all [Spared]
  | none =>
    cases hfault : targetFault? ctx name with
    | some found => simp_all [Spared]
    | none =>
      simp only [hreference, hfault] at h
      split at h <;> grind [Cause.IsImmediate]

end Faults

section Tells

/-- The step is light, and if it goes on, its result has a property. -/
def Tells (P : α → Prop) (step : Parser α) : Prop :=
  ∀ s, Meets Failure.IsImmediate step (fun a s' => Strides s s' ∧ P a) s

theorem Tells.light {P : α → Prop} {step : Parser α} (h : Tells P step) : Light step :=
  ⟨fun s => (h s).mono fun _ _ ha => ha.1⟩

theorem Tells.bind {P : α → Prop} {Q : β → Prop} {step : Parser α} {rest : α → Parser β}
    (h : Tells P step) (hrest : ∀ a, P a → Tells Q (rest a)) : Tells Q (step >>= rest) :=
  fun s => (h s).bind fun a s₁ h₁ => (hrest a h₁.2 s₁).mono fun _ _ h₂ => ⟨h₁.1.trans h₂.1, h₂.2⟩

theorem Tells.skip {Q : β → Prop} {step : Parser α} {rest : α → Parser β} [h : Light step]
    (hrest : ∀ a, Tells Q (rest a)) : Tells Q (step >>= rest) :=
  .bind (P := fun _ => True) (fun s => (h.moves s).mono fun _ _ ha => ⟨ha, trivial⟩)
    fun a _ => hrest a

theorem Tells.pure {P : α → Prop} {a : α} (h : P a) : Tells P (Pure.pure a) := fun _ => ⟨.refl, h⟩

theorem tells_light {step : Parser α} [h : Light step] : Tells (fun _ => True) step :=
  fun s => (h.moves s).mono fun _ _ ha => ⟨ha, trivial⟩

/-- What a table or a conversion gives has a property, and what it complains about is raised
where it is found. -/
structure Gives (P : α → Prop) (found : Except Failure α) : Prop where
  result : ∀ a, found = .ok a → P a
  isImmediate : ∀ failure, found = .error failure → failure.IsImmediate

namespace Gives

variable {P Q : α → Prop} {R : β → Prop} {found : Except Failure α}

theorem ok {a : α} (h : P a) : Gives P (.ok a) := ⟨by rintro _ ⟨⟩; exact h, nofun⟩

theorem error {cause : Cause} {offset : Nat} [h : cause.IsImmediate] :
    Gives P (.error ⟨cause, offset⟩) := ⟨nofun, by rintro _ ⟨⟩; exact h.isDeferred⟩

theorem mono (h : Gives P found) (hPQ : ∀ a, P a → Q a) : Gives Q found :=
  ⟨fun a ha => hPQ a (h.result a ha), h.isImmediate⟩

/-- The result is kept in mind. -/
theorem noted (h : Gives P found) : Gives (fun a => found = .ok a ∧ P a) found :=
  ⟨fun a ha => ⟨ha, h.result a ha⟩, h.isImmediate⟩

theorem bind {rest : α → Except Failure β} (h : Gives P found)
    (hrest : ∀ a, P a → Gives R (rest a)) : Gives R (found >>= rest) := by
  cases found with
  | ok a => exact hrest a (h.result a rfl)
  | error failure => exact ⟨nofun, by rintro _ ⟨⟩; exact h.isImmediate failure rfl⟩

theorem tells (h : Gives P found) : Tells P (ofExcept found) := by
  intro s
  cases found with
  | ok a => exact .pure ⟨.refl, h.result a rfl⟩
  | error failure => exact h.isImmediate failure rfl

end Gives

theorem gives_refuse {fault : Option Cause} (h : Spared fault) (offset : Nat) :
    Gives (fun _ => fault = none) (refuse offset fault) := by
  cases hfault : fault with
  | none => exact .ok rfl
  | some cause =>
    have := h cause hfault
    exact .error

theorem tells_checkReference (ctx : Context) (name : String) (offset : Nat) :
    Tells (fun _ => referenceFault? ctx name = none) (checkReference ctx name offset) :=
  (gives_refuse (spared_referenceFault ctx name) offset).tells

theorem tells_checkTarget (ctx : Context) (id : Identifier) :
    Tells (fun _ => targetFault? ctx id.name = none) (checkTarget ctx id) :=
  (gives_refuse (spared_targetFault ctx id.name) id.span.start).tells

theorem tells_checkBinding (ctx : Context) (kind : BindingKind) (name : String) (offset : Nat) :
    Tells (fun _ => bindingFault? ctx kind name = none) (checkBinding ctx kind name offset) :=
  (gives_refuse (spared_bindingFault ctx kind name) offset).tells

instance {ctx : Context} {kind : BindingKind} {name : String} {offset : Nat} :
    Light (checkBinding ctx kind name offset) := (tells_checkBinding ctx kind name offset).light

instance {ctx : Context} {name : String} {offset : Nat} :
    Light (checkReference ctx name offset) := (tells_checkReference ctx name offset).light

/-- What each step of a loop over a list tells holds of all items. -/
theorem tells_forM {P : α → Prop} {f : α → Parser PUnit} (items : List α)
    (h : ∀ a ∈ items, Tells (fun _ => P a) (f a)) :
    Tells (fun _ => ∀ a ∈ items, P a) (items.forM f) := by
  induction items with
  | nil => exact fun s => .pure ⟨.refl, nofun⟩
  | cons item rest ih =>
    rw [List.forall_mem_cons] at h
    intro s
    refine (h.1 s).bind fun _ s₁ h₁ => (ih h.2 s₁).mono fun _ s₂ h₂ => ?_
    exact ⟨h₁.1.trans h₂.1, List.forall_mem_cons.mpr ⟨h₁.2, h₂.2⟩⟩

/-- A step may be left out unless it is certain to fail. -/
theorem Tells.guard {Q : β → Prop} {c : Prop} [Decidable c] {step : Parser α}
    {rest : α → Parser β} {last : Parser β} (h : Tells (fun _ => False) step)
    (hlast : ¬ c → Tells Q last) : Tells Q (if c then step >>= rest else last) := by
  split
  · exact h.bind fun _ => False.elim
  · rename_i hc
    exact hlast hc

theorem Tells.absurd {Q : α → Prop} {step : Parser α} (h : Tells (fun _ => False) step) :
    Tells Q step := fun s => (h s).mono fun _ _ ha => ha.2.elim

theorem tells_failAt {cause : Cause} {offset : Nat} [h : cause.IsImmediate] :
    Tells (fun _ => False) (failAt cause offset : Parser α) := fun _ => h.isDeferred

theorem tells_fail {cause : Cause} [h : cause.IsImmediate] :
    Tells (fun _ => False) (fail cause : Parser α) := fun _ => h.isDeferred

theorem tells_unexpected : Tells (fun _ => False) (unexpected : Parser α) := by
  intro s
  have hlight : Light (unexpected : Parser α) := inferInstance
  exact hlight.moves s

end Tells

section Ahead

/-- The step looks ahead and comes back to the current token. -/
def Peeks (step : Parser α) : Prop :=
  ∀ s, Meets Failure.IsImmediate step (fun _ s' => Strides s s' ∧ s'.token = s.token) s

theorem peeks_peekNext : Peeks peekNext := by
  intro s
  obtain ⟨found, now, hfound⟩ := peek_restores s.lexer
  have hmoves := (inferInstance : Light peekNext).moves s
  have hrun : peekNext s = .ok found { s with lexer := s.lexer.restore now } := by
    unfold peekNext withLexer
    rw [hfound]
  exact .ok hrun ⟨hmoves.result hrun, rfl⟩

theorem peeks_peekSecond : Peeks peekSecond := by
  intro s
  obtain ⟨found, now, hfound⟩ := lookAhead_restores (do let _ ← scan; scan) s.lexer
  have hmoves := (inferInstance : Light peekSecond).moves s
  have hrun : withLexer (lookAhead (do let _ ← scan; scan)) s =
      .ok found { s with lexer := s.lexer.restore now } := by
    unfold withLexer
    rw [hfound]
  have hsecond : ∃ token, peekSecond s = .ok token { s with lexer := s.lexer.restore now } := by
    unfold peekSecond
    rw [bind_of_ok hrun]
    cases found with
    | ok token => exact ⟨token, rfl⟩
    | error failure => exact ⟨.endOfSource, rfl⟩
  obtain ⟨token, htoken⟩ := hsecond
  exact .ok htoken ⟨hmoves.result htoken, rfl⟩

/-- A light step that does not change the state. -/
theorem Peeks.of_still {step : Parser α} [h : Light step]
    (hstill : ∀ s, Yields step (fun _ s' => s' = s) s) : Peeks step :=
  fun s => ((h.moves s).and (hstill s)).mono fun _ _ ha => ⟨ha.1, congrArg State.token ha.2⟩

theorem Peeks.result {step : Parser α} (h : Peeks step) (f : α → β) :
    Peeks (step >>= fun a => pure (f a)) :=
  fun s => (h s).bind fun _ _ ha => .pure ha

theorem peeks_peekToken : Peeks peekToken := peeks_peekNext.result _

/-- A step that is left out unless a condition holds. -/
theorem Peeks.and {step : Parser Bool} (h : Peeks step) (c : Bool) : Peeks (pure c <&&> step) := by
  intro s
  unfold andM
  refine .run rfl ?_
  split
  · exact h s
  · exact .pure ⟨.refl, rfl⟩

end Ahead

end EcmaSyntax.Grammar
