import EcmaSyntax.Proofs.Grammar.LightSteps
import EcmaSyntax.Proofs.Lexer.Templates
import EcmaSyntax.Proofs.Progress.Loops
import EcmaSyntax.Proofs.Scope.Offsets
import EcmaSyntax.Proofs.Spans.Row

/-!
Parses that know where they are. Every offset that a state of a parse remembers is a boundary of
the text, wherever it may be raised later: those of the lexer, the end of the last token, the
marks of `yield` and `await`, and those in the tables of names. A step that treads on keeps this,
goes back nowhere, and fails only at a boundary; a step that passes the current token treads on
to its end at least. Steps made of such steps are such, which is left to instances.
-/

namespace EcmaSyntax.Grammar

open EcmaSyntax.Diagnostic EcmaSyntax.Lexer EcmaSyntax.Scope EcmaSyntax.Text EcmaSyntax.Tree

variable {version : Nat} [Unicode.IdentifierChars version]

variable {α β : Type} {text : List Char}

/-- The failure stands between two characters, or at an end of the text. -/
abbrev AtBoundary (text : List Char) (failure : Failure) : Prop := IsBoundary text failure.offset

/-- Every offset that the state remembers is a boundary. -/
structure Anchored (text : List Char) (s : State) : Prop extends Stands text s where
  recalls : s.lexer.Recalls text
  isBoundary_previousEnd : IsBoundary text s.previousEnd
  lastYield : ∀ offset ∈ s.lastYield, IsBoundary text offset
  lastAwait : ∀ offset ∈ s.lastAwait, IsBoundary text offset
  lastAwaitName : ∀ offset ∈ s.lastAwaitName, IsBoundary text offset
  scopes : s.scopes.KeepsOffsets (IsBoundary text)
  privateNames : s.privateNames.KeepsOffsets (IsBoundary text)
  exports : s.exports.KeepsOffsets (IsBoundary text)

/-- An offset that is known to be a boundary. -/
class Bounds (text : List Char) (offset : Nat) : Prop where
  isBoundary : IsBoundary text offset

/-- A state that a step comes to. -/
structure Onward (text : List Char) (s s' : State) : Prop where
  anchored : Anchored text s'
  start_le : s.start ≤ s'.start
  previousEnd_le : s.previousEnd ≤ s'.previousEnd

class Treads (text : List Char) (step : Parser α) : Prop where
  treads : ∀ s, Anchored text s →
    Meets (AtBoundary text) step (fun _ s' => Onward text s s') s

/-- The step takes the current token, at least. -/
class Surpasses (text : List Char) (step : Parser α) : Prop where
  treads : ∀ s, Anchored text s → Meets (AtBoundary text) step
    (fun _ s' => Onward text s s' ∧ s.lexer.cursor.offset ≤ s'.previousEnd) s

/-- The step only looks at the state. -/
class Looks (step : Parser α) : Prop where
  looks : ∀ s, ∃ a, step s = .ok a s

section States

variable {s s₁ s₂ : State}

namespace Anchored

theorem isBoundary_start (h : Anchored text s) : IsBoundary text s.start := by
  obtain ⟨before, raw, hstart, -⟩ := h.situated.sound.place
  exact hstart.isBoundary

theorem isBoundary_stop (h : Anchored text s) : IsBoundary text s.lexer.cursor.offset := by
  obtain ⟨before, hcursor⟩ := h.situated.sound.cursor
  exact hcursor.isBoundary

theorem start_le_stop (h : Anchored text s) : s.start ≤ s.lexer.cursor.offset :=
  Grammar.start_le_stop h.situated.sound

/-- A state with the same offsets. -/
theorem of_same (h : Anchored text s) (hlexer : s₁.lexer = s.lexer)
    (hend : s₁.previousEnd = s.previousEnd) (hyield : s₁.lastYield = s.lastYield)
    (hawait : s₁.lastAwait = s.lastAwait) (hname : s₁.lastAwaitName = s.lastAwaitName)
    (hscopes : s₁.scopes = s.scopes) (hprivate : s₁.privateNames = s.privateNames)
    (hexports : s₁.exports = s.exports) : Anchored text s₁ := by
  have hstart : s₁.start = s.start := congrArg (fun lexer => lexer.start.offset) hlexer
  refine ⟨⟨hlexer ▸ h.situated, ?_⟩, hlexer ▸ h.recalls, hend ▸ h.isBoundary_previousEnd,
    hyield ▸ h.lastYield, hawait ▸ h.lastAwait, hname ▸ h.lastAwaitName, hscopes ▸ h.scopes,
    hprivate ▸ h.privateNames, hexports ▸ h.exports⟩
  rw [hend, hstart]
  exact h.previousEnd

end Anchored

namespace Onward

theorem refl (h : Anchored text s) : Onward text s s := ⟨h, Nat.le_refl _, Nat.le_refl _⟩

theorem trans (h : Onward text s s₁) (h' : Onward text s₁ s₂) : Onward text s s₂ :=
  ⟨h'.anchored, Nat.le_trans h.start_le h'.start_le,
    Nat.le_trans h.previousEnd_le h'.previousEnd_le⟩

/-- A state at the same token. -/
theorem of_anchored (h : Anchored text s₁) (hlexer : s₁.lexer = s.lexer)
    (hend : s₁.previousEnd = s.previousEnd) : Onward text s s₁ :=
  ⟨h, Nat.le_of_eq (congrArg (fun lexer => lexer.start.offset) hlexer).symm,
    Nat.le_of_eq hend.symm⟩

end Onward

end States

section Rules

instance {step : Parser α} [h : Looks step] : Treads text step := by
  refine ⟨fun s hs => ?_⟩
  obtain ⟨a, ha⟩ := h.looks s
  exact .ok ha (.refl hs)

instance (priority := low) {step : Parser α} [h : Surpasses text step] : Treads text step :=
  ⟨fun s hs => (h.treads s hs).mono fun _ _ h' => h'.1⟩

instance {a : α} : Looks (pure a : Parser α) := ⟨fun _ => ⟨_, rfl⟩⟩

instance Treads.bind {step : Parser α} {rest : α → Parser β} [h : Treads text step]
    [hrest : ∀ a, Treads text (rest a)] : Treads text (step >>= rest) :=
  ⟨fun s hs => (h.treads s hs).bind fun a s' hs' =>
    ((hrest a).treads s' hs'.anchored).mono fun _ _ => hs'.trans⟩

theorem Treads.skip {step : Parser α} {rest : α → Parser β} [hstep : Treads text step]
    (hrest : ∀ a, Treads text (rest a)) : Treads text (step >>= rest) := Treads.bind

instance Surpasses.bind {step : Parser α} {rest : α → Parser β} [h : Surpasses text step]
    [hrest : ∀ a, Treads text (rest a)] : Surpasses text (step >>= rest) :=
  ⟨fun s hs => (h.treads s hs).bind fun a s' hs' =>
    ((hrest a).treads s' hs'.1.anchored).mono fun _ _ h =>
      ⟨hs'.1.trans h, Nat.le_trans hs'.2 h.previousEnd_le⟩⟩

instance {step : Parser α} [h : Treads text step] {f : α → β} : Treads text (f <$> step) :=
  ⟨fun s hs => .map (h.treads s hs)⟩

instance {c : Prop} [Decidable c] {first second : Parser α} [Treads text first]
    [Treads text second] : Treads text (if c then first else second) := by
  split <;> infer_instance

instance {c : Prop} [Decidable c] {first second : Parser α} [Surpasses text first]
    [Surpasses text second] : Surpasses text (if c then first else second) := by
  split <;> infer_instance

instance {first second : Parser Bool} [Treads text first] [Treads text second] :
    Treads text (first <&&> second) := by
  unfold andM
  refine .skip fun found => ?_
  split <;> infer_instance

instance {first second : Parser Bool} [Treads text first] [Treads text second] :
    Treads text (first <||> second) := by
  unfold orM
  refine .skip fun found => ?_
  split <;> infer_instance

instance {items : List α} {f : α → Parser PUnit} [∀ a, Treads text (f a)] :
    Treads text (items.forM f) := by
  induction items with
  | nil => exact inferInstanceAs (Treads text (pure PUnit.unit))
  | cons item rest ih => exact inferInstanceAs (Treads text (f item >>= fun _ => rest.forM f))

instance {cause : Cause} {offset : Nat} [h : Bounds text offset] :
    Surpasses text (failAt cause offset : Parser α) := ⟨fun _ _ => h.isBoundary⟩

instance {cause : Cause} : Surpasses text (fail cause : Parser α) :=
  ⟨fun _ hs => hs.isBoundary_start⟩

instance : Surpasses text (unexpected : Parser α) := ⟨fun _ hs => hs.isBoundary_start⟩

/-- What is found out about a name may be an error that stands at a boundary. -/
theorem treads_ofScope {found : Except Scope.Error Unit} (h : FailsOnlyAt (IsBoundary text) found) :
    Treads text (ofScope found) := by
  cases found with
  | ok u => exact inferInstanceAs (Treads text (pure ()))
  | error error => exact ⟨fun _ _ => h error rfl⟩

theorem treads_throw {failure : Failure} (h : AtBoundary text failure) :
    Treads text (throw failure : Parser α) := ⟨fun _ _ => h⟩

instance {offset : Nat} [h : Bounds text offset] {fault : Option Cause} :
    Treads text (ofExcept (refuse offset fault)) := by
  cases fault with
  | none => exact inferInstanceAs (Treads text (pure ()))
  | some cause => exact treads_throw h.isBoundary

end Rules

section Looking

instance : Looks currentToken := ⟨fun _ => ⟨_, rfl⟩⟩
instance : Looks currentStart := ⟨fun _ => ⟨_, rfl⟩⟩
instance : Looks currentFlags := ⟨fun _ => ⟨_, rfl⟩⟩
instance : Looks currentValue := ⟨fun _ => ⟨_, rfl⟩⟩
instance : Looks currentRaw := ⟨fun _ => ⟨_, rfl⟩⟩
instance : Looks isEscaped := ⟨fun _ => ⟨_, rfl⟩⟩
instance : Looks afterLineBreak := ⟨fun _ => ⟨_, rfl⟩⟩
instance {token : Token} : Looks (atToken token) := ⟨fun _ => ⟨_, rfl⟩⟩
instance {token : Token} : Looks (atWord token) := ⟨fun _ => ⟨_, rfl⟩⟩
instance {start : Nat} : Looks (spanFrom start) := ⟨fun _ => ⟨_, rfl⟩⟩
instance {start : Nat} : Looks (spanThrough start) := ⟨fun _ => ⟨_, rfl⟩⟩
instance {e : Expression} : Looks (isParenthesized e) := ⟨fun _ => ⟨_, rfl⟩⟩
instance : Looks (get : Parser State) := ⟨fun _ => ⟨_, rfl⟩⟩

instance {options : Options} {use : PatternUse} {ctx : Context} :
    Looks (conversion options use ctx) := ⟨fun _ => ⟨_, rfl⟩⟩

instance {options : Options} : Looks (keptRaw options) := by
  refine ⟨fun s => ?_⟩
  unfold keptRaw
  split <;> exact ⟨_, rfl⟩

instance {e : Expression} : Looks (isBareArrow e) := by
  refine ⟨fun s => ?_⟩
  unfold isBareArrow
  split <;> exact ⟨_, rfl⟩

end Looking

section Changes

/-- A change to what describes the expression just read, and to the labels. -/
instance {observing assignable : State → Bool} {observations : State → Observations}
    {labels : State → Labels} {labelChain assignmentStart : State → Option Nat}
    {cover : State → Cover} {parenthesized spreads : State → List Nat} {depth : State → Nat} :
    Treads text (modify fun s => ⟨s.lexer, observing s, observations s, s.scopes, s.privateNames,
      labels s, labelChain s, s.exports, assignable s, cover s, parenthesized s, spreads s,
      s.lastYield, s.lastAwait, s.lastAwaitName, assignmentStart s, s.previousEnd, depth s,
      s.refused⟩ : Parser Unit) :=
  ⟨fun _ hs => .ok rfl (.of_anchored (hs.of_same rfl rfl rfl rfl rfl rfl rfl rfl) rfl rfl)⟩

instance : Treads text takeCover :=
  ⟨fun _ hs => .ok rfl (.of_anchored (hs.of_same rfl rfl rfl rfl rfl rfl rfl rfl) rfl rfl)⟩

instance : Treads text (modify State.insertSemicolon : Parser Unit) := by
  refine ⟨fun s hs => .ok rfl ?_⟩
  unfold State.insertSemicolon
  split
  · exact .of_anchored (hs.of_same rfl rfl rfl rfl rfl rfl rfl rfl) rfl rfl
  · exact .refl hs

instance {assignable : Bool} : Treads text (setAssignable assignable) := by
  unfold setAssignable; infer_instance

instance {cover : Cover} : Treads text (setCover cover) := by unfold setCover; infer_instance
instance : Treads text plainExpression := by unfold plainExpression; infer_instance
instance : Treads text enterNesting := by unfold enterNesting; infer_instance
instance : Treads text leaveNesting := by unfold leaveNesting; infer_instance

/-- A mark of `yield` or `await` is left. -/
theorem treads_mark {mark : State → State} (h : ∀ s, Anchored text s → Anchored text (mark s))
    (hlexer : ∀ s, (mark s).lexer = s.lexer) (hend : ∀ s, (mark s).previousEnd = s.previousEnd) :
    Treads text (modify mark : Parser Unit) :=
  ⟨fun s hs => .ok rfl (.of_anchored (h s hs) (hlexer s) (hend s))⟩

instance {start : Nat} [h : Bounds text start] :
    Treads text (modify fun s => { s with lastYield := some start } : Parser Unit) :=
  treads_mark (fun _ hs => { hs with
    lastYield := fun _ heq => Option.some.inj heq ▸ h.isBoundary }) (fun _ => rfl) fun _ => rfl

instance {start : Nat} [h : Bounds text start] :
    Treads text (modify fun s => { s with lastAwait := some start } : Parser Unit) :=
  treads_mark (fun _ hs => { hs with
    lastAwait := fun _ heq => Option.some.inj heq ▸ h.isBoundary }) (fun _ => rfl) fun _ => rfl

instance {name : String} {start : Nat} [h : Bounds text start] :
    Treads text (noteAwaitName name start) := by
  have hmark : Treads text (modify fun s => { s with lastAwaitName := some start } : Parser Unit) :=
    treads_mark (fun _ hs => { hs with
      lastAwaitName := fun _ heq => Option.some.inj heq ▸ h.isBoundary }) (fun _ => rfl) fun _ =>
        rfl
  unfold noteAwaitName
  infer_instance

theorem treads_checkNone {noted : Option Nat} {start : Nat} {cause : Cause}
    (h : ∀ offset ∈ noted, IsBoundary text offset) : Treads text (checkNone noted start cause) := by
  unfold checkNone
  split
  · have : Bounds text _ := ⟨h _ rfl⟩
    infer_instance
  · infer_instance

end Changes

section Tokens

/-- Taking a token in leaves the state anchored at the next one. -/
theorem surpasses_advance {step : Lexer Token} [hremembers : Remembers step]
    [hspell : Spelling step]
    (hstep : ∀ lexer, Meets (FailsAfter lexer.cursor) step (fun _ lexer' => HasScanned lexer lexer')
      lexer) : Surpasses text (advance step) := by
  refine ⟨fun s hs => ?_⟩
  obtain ⟨before, hcursor⟩ := hs.situated.sound.cursor
  have hkeeps := hremembers.keeps text s.lexer hs.situated.sound hs.recalls
  obtain ⟨observations, hrecord⟩ := recordToken_frame s
  unfold advance
  refine .run rfl ?_
  dsimp only
  rw [hrecord]
  have hlexer : Meets (AtBoundary text) step (fun _ lexer => Situated text lexer ∧
      lexer.Recalls text ∧ s.lexer.cursor.offset ≤ lexer.start.offset) s.lexer := by
    refine (((hstep s.lexer).weaken fun _ hfail => hfail.isBoundary hcursor).and
      (Meets.yields_iff.mpr fun a lexer hrun => ?_)).mono fun _ lexer h => h.2
    have hscanned := (hstep s.lexer).result hrun
    exact ⟨⟨hs.situated.sound.scanned hscanned,
      (hspell.isSpelled s.lexer hs.situated.isSpelled).result hrun⟩, (hkeeps.result hrun).1,
      hscanned.stop_le⟩
  refine Meets.bind (Meets.withLexer hlexer) fun _ s₁ hs₁ => .run rfl ?_
  obtain ⟨lexer, ⟨hsituated, hrecalls, hstart⟩, rfl⟩ := hs₁
  have hstart_le : s.start ≤ lexer.start.offset := Nat.le_trans hs.start_le_stop hstart
  have hend_le : s.previousEnd ≤ s.lexer.cursor.offset :=
    Nat.le_trans hs.previousEnd hs.start_le_stop
  have hboundary := hs.isBoundary_stop
  split
  · obtain ⟨observations', hcomments⟩ := recordComments_frame { s with
      lexer := { lexer with comments := [] }
      observations := observations
      previousEnd := s.lexer.cursor.offset } lexer.comments
    refine .run rfl (.ok rfl ?_)
    change Onward text s (State.recordComments _ lexer.comments) ∧
      s.lexer.cursor.offset ≤ (State.recordComments _ lexer.comments).previousEnd
    rw [hcomments]
    have hlexer' : Situated text { lexer with comments := [] } :=
      ⟨sound_setComments hsituated.sound [], hsituated.isSpelled⟩
    exact ⟨⟨⟨⟨hlexer', hstart⟩, hrecalls, hboundary, hs.lastYield, hs.lastAwait, hs.lastAwaitName,
      hs.scopes, hs.privateNames, hs.exports⟩, hstart_le, hend_le⟩, Nat.le_refl _⟩
  · exact .pure ⟨⟨⟨⟨hsituated, hstart⟩, hrecalls, hboundary, hs.lastYield, hs.lastAwait,
      hs.lastAwaitName, hs.scopes, hs.privateNames, hs.exports⟩, hstart_le, hend_le⟩, Nat.le_refl _⟩

instance : Surpasses text next := surpasses_advance scanMerged_meets
instance : Surpasses text nextInTag := surpasses_advance scan_meets
instance : Surpasses text nextChild := surpasses_advance scanMarkupChild_meets
instance : Surpasses text nextAttributeValue := surpasses_advance scanMarkupAttributeValue_meets

/-- A step of the lexer that stays at the current token. -/
theorem Anchored.withLexer {s : State} (hs : Anchored text s) {step : Lexer α}
    (hstep : Meets (AtBoundary text) step (fun _ lexer => Situated text lexer ∧
      lexer.Recalls text ∧ lexer.start.offset = s.lexer.start.offset) s.lexer) :
    Meets (AtBoundary text) (withLexer step) (fun _ s' => Onward text s s') s := by
  refine hstep.withLexer.mono fun _ s' hs' => ?_
  obtain ⟨lexer, ⟨hsituated, hrecalls, hstart⟩, rfl⟩ := hs'
  have horder : s.previousEnd ≤ lexer.start.offset := hstart ▸ hs.previousEnd
  exact ⟨⟨⟨hsituated, horder⟩, hrecalls, hs.isBoundary_previousEnd, hs.lastYield, hs.lastAwait,
    hs.lastAwaitName, hs.scopes, hs.privateNames, hs.exports⟩, Nat.le_of_eq hstart.symm,
    Nat.le_refl _⟩

theorem treads_lookAhead {step : Lexer α} [hremembers : Remembers step]
    (hstep : ∀ lexer, ∃ found now, step lexer = .ok found (lexer.restore now)) :
    Treads text (withLexer step) := by
  refine ⟨fun s hs => hs.withLexer ?_⟩
  obtain ⟨found, now, hfound⟩ := hstep s.lexer
  have hkeeps := hremembers.keeps text s.lexer hs.situated.sound hs.recalls
  exact .ok hfound ⟨hs.situated.restore, (hkeeps.result hfound).1, rfl⟩

/-- Reading the current token anew. -/
theorem Anchored.rescan {s : State} (hs : Anchored text s) {step : Lexer α} [hspell : Spelling step]
    (hkeeps : KeepsPlace text step (fun _ lexer => Sound text lexer) s.lexer)
    (hstep : ∀ raw, IsToken s.lexer raw →
      Meets (FailsAfter s.lexer.start) step (fun _ lexer => HasRescanned s.lexer lexer) s.lexer) :
    Meets (AtBoundary text) (Grammar.withLexer step) (fun _ s' => Onward text s s') s := by
  obtain ⟨before, raw, hstart, htoken⟩ := hs.situated.sound.place
  have hrescan := hstep raw htoken
  refine hs.withLexer (((hrescan.weaken fun _ hfail => hfail.isBoundary hstart).and
    (Meets.yields_iff.mpr fun a lexer hrun => ?_)).mono fun _ lexer h => h.2)
  obtain ⟨raw', hread⟩ := hrescan.result hrun
  exact ⟨⟨(hkeeps.result hrun).2, (hspell.isSpelled s.lexer hs.situated.isSpelled).result hrun⟩,
    (hkeeps.result hrun).1, congrArg Cursor.offset hread.start⟩

instance : Treads text peekNext := treads_lookAhead peek_restores
instance : Treads text peekToken := by unfold peekToken; infer_instance

instance : Treads text peekSecond := by
  have hahead : Treads text _ := treads_lookAhead (lookAhead_restores (do let _ ← scan; scan))
  unfold peekSecond
  refine .skip fun found => ?_
  cases found <;> infer_instance

instance : Treads text (withLexer rescanRegex) :=
  ⟨fun s hs => hs.rescan (Remembers.keeps text s.lexer hs.situated.sound hs.recalls)
    fun _ _ => rescanRegex_meets s.lexer⟩

instance : Treads text (withLexer scanMarkupName) :=
  ⟨fun s hs => hs.rescan (Remembers.keeps text s.lexer hs.situated.sound hs.recalls)
    fun _ htoken => (scanMarkupName_meets htoken).weaken fun _ => False.elim⟩

/-- Only a closing brace is read as part of a template. -/
theorem Anchored.rescanTemplate {s : State} (hs : Anchored text s)
    (htoken : s.token = .rightBrace) :
    Meets (AtBoundary text) (Grammar.withLexer rescanTemplate) (fun _ s' => Onward text s s') s :=
  hs.rescan (rescanTemplate_keeps hs.situated.sound hs.recalls htoken)
    fun _ hraw => rescanTemplate_meets hraw htoken

instance {token : Token} : Treads text (accept token) := by unfold accept; infer_instance

instance {token : Token} : Surpasses text (expect token) := by
  unfold expect
  refine ⟨fun s hs => .run rfl ?_⟩
  split
  · exact Surpasses.treads s hs
  · refine .run rfl ?_
    split <;> exact Surpasses.treads s hs

instance : Treads text endStatement := by unfold endStatement; infer_instance

instance {close : Token} : Treads text (Phrases.separator close) := by
  unfold Phrases.separator; infer_instance

instance {exit : MarkupExit} : Surpasses text (leaveTag exit) := by
  unfold leaveTag
  split <;> infer_instance

end Tokens

section Tables

variable {s : State}

theorem Anchored.setScopes (h : Anchored text s) {scopes : Stack}
    (hscopes : scopes.KeepsOffsets (IsBoundary text)) : Anchored text { s with scopes := scopes } :=
  { h with scopes := hscopes }

theorem Anchored.setPrivateNames (h : Anchored text s) {names : PrivateNames}
    (hnames : names.KeepsOffsets (IsBoundary text)) :
    Anchored text { s with privateNames := names } := { h with privateNames := hnames }

theorem Anchored.setExports (h : Anchored text s) {exports : Exports}
    (hexports : exports.KeepsOffsets (IsBoundary text)) :
    Anchored text { s with exports := exports } := { h with exports := hexports }

/-- A step that starts with a change of the state at the same token. -/
theorem Treads.changed {change : State → State} {rest : Unit → Parser α} {s : State}
    (hs : Anchored text (change s)) (hlexer : (change s).lexer = s.lexer)
    (hend : (change s).previousEnd = s.previousEnd) (h : Treads text (rest ())) :
    Meets (AtBoundary text) (modify change >>= rest) (fun _ s' => Onward text s s') s :=
  .run rfl ((h.treads _ hs).mono fun _ _ => (Onward.of_anchored hs hlexer hend).trans)

instance {options : Options} {ctx : Context} {kind : BindingKind} {name : String} {offset : Nat}
    [h : Bounds text offset] : Treads text (declare options ctx kind name offset) := by
  refine ⟨fun s hs => .run rfl ?_⟩
  have hscopes : (s.scopes.declare name kind offset
    (options.webCompat && !ctx.strict)).2.KeepsOffsets
      (IsBoundary text) := hs.scopes.declare h.isBoundary _
  have hfound : Treads text (ofScope (s.scopes.declare name kind offset _).1) :=
    treads_ofScope (Stack.failsOnlyAt_declare h.isBoundary (options.webCompat && !ctx.strict))
  exact Treads.changed (hs.setScopes hscopes) rfl rfl hfound

instance {depth : Nat} {list : ParameterList} : Treads text (settleParameters depth list) := by
  refine ⟨fun s hs => .run rfl ?_⟩
  obtain ⟨hdeferred, hscopes⟩ := hs.scopes.takeDeferred depth
  have hrest : Treads text (match (s.scopes.takeDeferred depth).1 with
      | some error => if list.isUnique then refuseParameters list error.failure else pure ()
      | none => pure () : Parser Unit) := by
    split
    · rename_i error herror
      have : Treads text (refuseParameters list error.failure) :=
        ⟨fun _ _ => hdeferred error herror⟩
      infer_instance
    · infer_instance
  exact Treads.changed (hs.setScopes hscopes) rfl rfl hrest

instance {key : Expression} {kind : PrivateKind} {isStatic : Bool} {offset : Nat}
    [h : Bounds text offset] : Treads text (declarePrivate key kind isStatic offset) := by
  unfold declarePrivate
  split
  · refine ⟨fun s hs => .run rfl ?_⟩
    split
    · rename_i error herror
      exact PrivateNames.failsOnlyAt_declare h.isBoundary error herror
    · rename_i names hnames
      exact .ok rfl (.of_anchored (hs.setPrivateNames (hs.privateNames.declare hnames)) rfl rfl)
  · infer_instance

instance : Treads text
    (modify fun s => { s with privateNames := s.privateNames.enterClass } : Parser Unit) :=
  ⟨fun _ hs => .ok rfl (.of_anchored (hs.setPrivateNames hs.privateNames.enterClass) rfl rfl)⟩

instance {name : String} {offset : Nat} [h : Bounds text offset] :
    Treads text (addExport name offset) := by
  refine ⟨fun s hs => .run rfl ?_⟩
  split
  · rename_i error herror
    exact Exports.failsOnlyAt_add h.isBoundary error herror
  · rename_i exports hexports
    exact .ok rfl (.of_anchored (hs.setExports (hs.exports.add hexports)) rfl rfl)

instance {name : String} {offset : Nat} [h : Bounds text offset] : Treads text
    (modify fun s => { s with exports := s.exports.addLocal name offset } : Parser Unit) :=
  ⟨fun _ hs => .ok rfl (.of_anchored (hs.setExports (hs.exports.addLocal h.isBoundary)) rfl rfl)⟩

instance {options : Options} : Treads text (checkExports options) := by
  unfold checkExports
  split
  · refine ⟨fun s hs => .run rfl ?_⟩
    cases herror : s.exports.undeclared? s.scopes with
    | none => exact .pure (.refl hs)
    | some error => exact hs.exports.undeclared herror
  · infer_instance

end Tables

end EcmaSyntax.Grammar
