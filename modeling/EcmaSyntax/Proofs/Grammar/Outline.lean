import EcmaSyntax.Grammar.Conversion
import EcmaSyntax.Grammar.Phrases
import EcmaSyntax.Proofs.Grammar.Outcome
import EcmaSyntax.Proofs.Lexer.Safety
import EcmaSyntax.Proofs.Scope.Frames

/-!
What holds between any two steps of a parse that keeps its parentheses: the lexer
stands at a token, the innermost assignment expression does not start behind it,
and no expression is marked as one that stood in parentheses.

What is open at a place: scopes, classes, labels and levels of nesting. Most steps leave
that alone, and with it what holds of a parse that keeps its parentheses: they take
tokens, declare names and describe the expression just read. Such a step is plain. Steps
made of plain ones are plain, which is left to instances.
-/

namespace EcmaSyntax.Grammar

open EcmaSyntax.Diagnostic EcmaSyntax.Lexer EcmaSyntax.Scope

variable {version : Nat} [Unicode.IdentifierChars version]

variable {α β : Type}

/-- The parts of a state that decide whether an arrow function may begin, and what
stood in parentheses. -/
structure Standing (lexer : Lexer.State) (assignmentStart : Option Nat)
    (parenthesized : List Nat) : Prop where
  token : ∃ raw, IsToken lexer raw
  starts : ∀ offset, assignmentStart = some offset → offset ≤ lexer.start.offset
  marks : parenthesized = []

/-- Most steps change none of these parts, so a state and its successor have the same
condition. -/
abbrev Ready (s : State) : Prop := Standing s.lexer s.assignmentStart s.parenthesized

section Lexer

variable {lexer lexer' : Lexer.State} {assignmentStart : Option Nat} {parenthesized : List Nat}

theorem Standing.start_le_stop (h : Standing lexer assignmentStart parenthesized) :
    lexer.start.offset ≤ lexer.cursor.offset := by
  obtain ⟨raw, htoken⟩ := h.token
  rw [htoken.extent.offset]
  exact Nat.le_add_right _ _

theorem Standing.scanned (h : Standing lexer assignmentStart parenthesized)
    (hstep : HasScanned lexer lexer') : Standing lexer' assignmentStart parenthesized := by
  have hstop := hstep.stop_le
  have hstart := h.start_le_stop
  obtain ⟨gap, raw, comments, hscanned⟩ := hstep
  refine ⟨⟨raw, hscanned.token⟩, fun offset hoffset => ?_, h.marks⟩
  have hle := h.starts offset hoffset
  omega

theorem Standing.rescanned (h : Standing lexer assignmentStart parenthesized)
    (hstep : HasRescanned lexer lexer') : Standing lexer' assignmentStart parenthesized := by
  obtain ⟨raw, hrescanned⟩ := hstep
  refine ⟨⟨raw, hrescanned.token⟩, fun offset hoffset => ?_, h.marks⟩
  rw [hrescanned.start]
  exact h.starts offset hoffset

theorem Standing.restore (h : Standing lexer assignmentStart parenthesized)
    (now : Lexer.State) : Standing (lexer.restore now) assignmentStart parenthesized := by
  obtain ⟨raw, htoken⟩ := h.token
  exact ⟨⟨raw, htoken.extent, htoken.shape, htoken.isEmpty⟩, h.starts, h.marks⟩

theorem Standing.setComments (h : Standing lexer assignmentStart parenthesized)
    (comments : List Comment) :
    Standing { lexer with comments := comments } assignmentStart parenthesized := by
  obtain ⟨raw, htoken⟩ := h.token
  exact ⟨⟨raw, htoken.extent, htoken.shape, htoken.isEmpty⟩, h.starts, h.marks⟩

/-- After the next token no assignment expression starts at the current one. -/
theorem Standing.starts_lt (h : Standing lexer assignmentStart parenthesized)
    (hend : lexer.token ≠ .endOfSource) (hstep : HasScanned lexer lexer') :
    assignmentStart ≠ some lexer'.start.offset := by
  intro hstart
  have hle := h.starts _ hstart
  have hstop := hstep.stop_le
  obtain ⟨raw, htoken⟩ := h.token
  have hlt := htoken.start_lt_stop hend
  omega

end Lexer

section Steps

/-- No arrow function may begin at the current token. -/
def BarsArrow (s : State) : Prop := s.assignmentStart ≠ some s.start

/-- A token that is taken is no longer the one where an assignment expression starts. -/
theorem advance_yields {step : Lexer Token} {s : State} {E : Failure → Prop} (hs : Ready s)
    (hstep : Meets E step (fun _ lexer => HasScanned s.lexer lexer) s.lexer) :
    Yields (advance step)
      (fun _ s' => Ready s' ∧ (s.token ≠ .endOfSource → BarsArrow s')) s := by
  obtain ⟨observations, hrecord⟩ := recordToken_frame s
  unfold advance
  refine .run rfl ?_
  dsimp only
  rw [hrecord]
  refine Meets.bind (Meets.withLexer (Q := fun _ lexer => HasScanned s.lexer lexer)
    (hstep.weaken fun _ _ => trivial)) fun _ s₁ hs₁ => .run rfl ?_
  obtain ⟨lexer, hlexer, rfl⟩ := hs₁
  have hready := hs.scanned hlexer
  have hbars := fun hend => hs.starts_lt hend hlexer
  split
  · obtain ⟨observations', hcomments⟩ := recordComments_frame { s with
      lexer := { lexer with comments := [] }
      observations := observations
      previousEnd := s.lexer.cursor.offset } lexer.comments
    refine .run rfl (.ok rfl ?_)
    change Ready (State.recordComments _ lexer.comments) ∧
      (_ → BarsArrow (State.recordComments _ lexer.comments))
    rw [hcomments]
    exact ⟨hready.setComments [], hbars⟩
  · exact .pure ⟨hready, hbars⟩

theorem next_yields {s : State} (hs : Ready s) :
    Yields next (fun _ s' => Ready s' ∧ (s.token ≠ .endOfSource → BarsArrow s')) s :=
  advance_yields hs (scanMerged_meets s.lexer)

/-- Looking ahead. -/
theorem lookAhead_yields {step : Lexer α} {s : State} (hs : Ready s)
    (hstep : ∀ lexer, ∃ found now, step lexer = .ok found (lexer.restore now)) :
    Yields (withLexer step) (fun _ s' => Ready s') s := by
  obtain ⟨found, now, hfound⟩ := hstep s.lexer
  have hrun : withLexer step s = .ok found { s with lexer := s.lexer.restore now } := by
    unfold withLexer
    rw [hfound]
  exact .ok hrun (hs.restore now)

/-- Reading the current token anew. -/
theorem rescan_yields {step : Lexer α} {s : State} {E : Failure → Prop} (hs : Ready s)
    (hstep : Meets E step (fun _ lexer => HasRescanned s.lexer lexer) s.lexer) :
    Yields (withLexer step) (fun _ s' => Ready s') s := by
  refine (hstep.withLexer.mono fun _ s' hs' => ?_).weaken fun _ _ => trivial
  obtain ⟨lexer, hlexer, rfl⟩ := hs'
  exact hs.rescanned hlexer

/-- Only a closing brace is read as part of a template. -/
theorem rescanTemplate_yields {s : State} (hs : Ready s) (htoken : s.token = .rightBrace) :
    Yields (withLexer rescanTemplate) (fun _ s' => Ready s') s := by
  obtain ⟨raw, hraw⟩ := hs.token
  exact rescan_yields hs (rescanTemplate_meets hraw htoken)

end Steps

structure Outline where
  /-- What the open scopes are for, from the inside out. -/
  scopes : List (List Role)
  /-- The number of open classes. -/
  classes : Nat
  labels : Labels
  labelChain : Option Nat
  depth : Nat

def State.outline (s : State) : Outline where
  scopes := s.scopes.roles
  classes := s.privateNames.length
  labels := s.labels
  labelChain := s.labelChain
  depth := s.depth

/-- Scopes that are only filled do not change the outline. -/
theorem State.outline_scopes {s : State} {scopes : Stack} (h : scopes.roles = s.scopes.roles) :
    State.outline { s with scopes := scopes } = s.outline := by
  simp only [outline, h]

theorem State.outline_privateNames {s : State} {names : PrivateNames}
    (h : names.length = s.privateNames.length) :
    State.outline { s with privateNames := names } = s.outline := by
  simp only [outline, h]

/-- A state that a plain step comes to. -/
structure Touched (s s' : State) : Prop where
  outline : s'.outline = s.outline
  ready : Ready s → Ready s'

namespace Touched

variable {s s₁ s₂ : State}

theorem refl : Touched s s := ⟨rfl, id⟩

theorem trans (h : Touched s s₁) (h' : Touched s₁ s₂) : Touched s s₂ :=
  ⟨h'.outline.trans h.outline, h'.ready ∘ h.ready⟩

end Touched

/-- The step leaves alone what is open. -/
def Touches (step : Parser α) : Prop := ∀ s, Yields step (fun _ s' => Touched s s') s

class Plain (step : Parser α) : Prop where
  touches : Touches step

namespace Touches

variable {step : Parser α} {rest : α → Parser β}

theorem pure {a : α} : Touches (Pure.pure a) := fun _ => Meets.pure .refl

theorem bind (h : Touches step) (hrest : ∀ a, Touches (rest a)) : Touches (step >>= rest) :=
  fun s => (h s).bind fun a s' hs' => (hrest a s').mono fun _ _ => hs'.trans

theorem map {f : α → β} (h : Touches step) : Touches (f <$> step) :=
  fun s => Meets.map (h s)

theorem skip [Plain step] (h : ∀ a, Touches (rest a)) : Touches (step >>= rest) :=
  Plain.touches.bind h

theorem iterate {round : α → Parser (Option α)} (h : ∀ x, Touches (round x)) (fuel : Nat)
    (x : α) : Touches (iterate round fuel x) := fun s =>
  Yields.iterate (I := fun _ s' => Touched s s') (fun x s₁ hs₁ =>
    (h x s₁).mono fun _ _ => hs₁.trans) fuel x s .refl

theorem collect {g : Phrases} {round : List α → Parser (Round α)}
    (h : ∀ earlier, Touches (round earlier)) : Touches (g.collect round) := fun s =>
  Yields.collectAfter (I := fun _ s' => Touched s s') (fun earlier s₁ hs₁ =>
    (h earlier s₁).mono fun r _ hs₂ => by cases r <;> exact hs₁.trans hs₂) g.size [] s .refl

end Touches

namespace Stops

variable {step : Parser α}

theorem touches (h : Stops step) : Touches step := fun _ => h.yields

/-- A check that either fails or changes nothing. -/
theorem touches_guard (h : Stops step) {c : Prop} [Decidable c] {rest : α → Parser β}
    {last : Parser β} (hlast : Touches last) :
    Touches (if c then step >>= rest else last) :=
  fun s => h.guard (hlast s)

end Stops

theorem plain_of_frame {step : Parser α}
    (hready : ∀ s, Ready s → Yields step (fun _ s' => Ready s') s)
    (houtline : ∀ s, Yields step (fun _ s' => s'.outline = s.outline) s) : Plain step := by
  refine ⟨fun s => ?_⟩
  have hframe := houtline s
  unfold Yields Meets at hframe ⊢
  split
  · rename_i a s' hok
    rw [hok] at hframe
    exact ⟨hframe, fun hs => (hready s hs).result hok⟩
  · trivial

/-- A step that only looks at the state. -/
theorem plain_of_reads {step : Parser α} (h : ∀ s, ∃ a, step s = .ok a s) : Plain step := by
  refine ⟨fun s => ?_⟩
  obtain ⟨a, ha⟩ := h s
  exact .ok ha .refl

section Steps

instance {a : α} : Plain (pure a : Parser α) := ⟨.pure⟩

instance {step : Parser α} [Plain step] {rest : α → Parser β} [∀ a, Plain (rest a)] :
    Plain (step >>= rest) :=
  ⟨.skip fun _ => Plain.touches⟩

instance {step : Parser α} [Plain step] {f : α → β} : Plain (f <$> step) :=
  ⟨.map Plain.touches⟩

instance {c : Prop} [Decidable c] {first second : Parser α} [Plain first] [Plain second] :
    Plain (if c then first else second) := by
  split
  · infer_instance
  · infer_instance

instance {first second : Parser Bool} [Plain first] [Plain second] : Plain (first <&&> second) := by
  unfold andM
  refine ⟨.skip fun found => ?_⟩
  split
  · exact Plain.touches
  · exact Plain.touches

instance {first second : Parser Bool} [Plain first] [Plain second] : Plain (first <||> second) := by
  unfold orM
  refine ⟨.skip fun found => ?_⟩
  split
  · exact Plain.touches
  · exact Plain.touches

instance {cause : Cause} {offset : Nat} : Plain (failAt cause offset : Parser α) :=
  ⟨(stops_failAt cause offset).touches⟩

instance {cause : Cause} : Plain (fail cause : Parser α) := ⟨(stops_fail cause).touches⟩

instance : Plain (unexpected : Parser α) := ⟨stops_unexpected.touches⟩

instance {failure : Failure} : Plain (throw failure : Parser α) := ⟨fun _ => trivial⟩

instance : Plain (get : Parser State) := plain_of_reads fun _ => ⟨_, rfl⟩

/-- A change to the parts of the state that describe the expression just read. -/
instance {observing assignable : State → Bool} {observations : State → Observations}
    {exports : State → Exports} {cover : State → Cover} {spreads : State → List Nat}
    {lastYield lastAwait lastAwaitName : State → Option Nat} {previousEnd : State → Nat} :
    Plain (modify fun s => ⟨s.lexer, observing s, observations s, s.scopes, s.privateNames,
      s.labels, s.labelChain, exports s, assignable s, cover s, s.parenthesized, spreads s,
      lastYield s, lastAwait s, lastAwaitName s, s.assignmentStart, previousEnd s, s.depth,
      s.refused⟩ : Parser Unit) :=
  ⟨fun _ => .ok rfl ⟨rfl, id⟩⟩

instance : Plain currentToken := plain_of_reads fun _ => ⟨_, rfl⟩
instance : Plain currentStart := plain_of_reads fun _ => ⟨_, rfl⟩
instance : Plain currentEnd := plain_of_reads fun _ => ⟨_, rfl⟩
instance : Plain currentFlags := plain_of_reads fun _ => ⟨_, rfl⟩
instance : Plain currentValue := plain_of_reads fun _ => ⟨_, rfl⟩
instance : Plain currentRaw := plain_of_reads fun _ => ⟨_, rfl⟩
instance : Plain isEscaped := plain_of_reads fun _ => ⟨_, rfl⟩
instance : Plain afterLineBreak := plain_of_reads fun _ => ⟨_, rfl⟩
instance {token : Token} : Plain (atToken token) := plain_of_reads fun _ => ⟨_, rfl⟩
instance {token : Token} : Plain (atWord token) := plain_of_reads fun _ => ⟨_, rfl⟩
instance {start : Nat} : Plain (spanFrom start) := plain_of_reads fun _ => ⟨_, rfl⟩
instance {start : Nat} : Plain (spanThrough start) := plain_of_reads fun _ => ⟨_, rfl⟩
instance {e : Tree.Expression} : Plain (isParenthesized e) := plain_of_reads fun _ => ⟨_, rfl⟩
instance : Plain takeCover := ⟨fun _ => .ok rfl ⟨rfl, id⟩⟩

theorem plain_advance {step : Lexer Token}
    (hstep : ∀ lexer, Meets (FailsAfter lexer.cursor) step (fun _ lexer' => HasScanned lexer lexer')
      lexer) : Plain (advance step) := by
  refine plain_of_frame (fun s hs => ?_) fun s => (advance_frame step s).mono fun _ s' hs' => ?_
  · exact (advance_yields hs (hstep s.lexer)).mono fun _ _ hs' => hs'.1
  · obtain ⟨lexer, observations, stop, rfl⟩ := hs'
    rfl

theorem withLexer_outline (step : Lexer α) (s : State) :
    Yields (withLexer step) (fun _ s' => s'.outline = s.outline) s := by
  refine (withLexer_frame step s).mono fun _ s' hs' => ?_
  obtain ⟨lexer, rfl⟩ := hs'
  rfl

theorem plain_lookAhead {step : Lexer α}
    (hstep : ∀ lexer, ∃ found now, step lexer = .ok found (lexer.restore now)) :
    Plain (withLexer step) :=
  plain_of_frame (fun _ hs => lookAhead_yields hs hstep) (withLexer_outline step)

instance : Plain next := plain_advance scanMerged_meets
instance : Plain nextInTag := plain_advance scan_meets
instance : Plain nextChild := plain_advance scanMarkupChild_meets
instance : Plain nextAttributeValue := plain_advance scanMarkupAttributeValue_meets
instance : Plain peekNext := plain_lookAhead peek_restores
instance : Plain peekToken := by unfold peekToken; infer_instance

instance : Plain peekSecond := by
  have hahead := plain_lookAhead (lookAhead_restores (do let _ ← scan; scan))
  unfold peekSecond
  refine ⟨.skip fun found => ?_⟩
  cases found with
  | ok token => exact Plain.touches
  | error failure => exact Plain.touches

instance : Plain (withLexer rescanRegex) :=
  plain_of_frame (fun s hs => rescan_yields hs (rescanRegex_meets s.lexer)) (withLexer_outline _)

instance : Plain (withLexer scanMarkupName) := by
  refine plain_of_frame (fun s hs => ?_) (withLexer_outline _)
  obtain ⟨raw, htoken⟩ := hs.token
  exact rescan_yields hs (scanMarkupName_meets htoken)

instance {token : Token} : Plain (accept token) := by unfold accept; infer_instance
instance {token : Token} : Plain (expect token) := by unfold expect; infer_instance
instance {assignable : Bool} : Plain (setAssignable assignable) := by
  unfold setAssignable; infer_instance
instance {cover : Cover} : Plain (setCover cover) := by unfold setCover; infer_instance
instance : Plain plainExpression := by unfold plainExpression; infer_instance

instance : Plain (modify State.insertSemicolon : Parser Unit) := by
  refine ⟨fun s => .ok rfl ?_⟩
  unfold State.insertSemicolon
  split
  · exact ⟨rfl, id⟩
  · exact .refl

instance : Plain endStatement := by unfold endStatement; infer_instance

instance {found : Except Scope.Error Unit} : Plain (ofScope found) := by
  unfold ofScope
  split
  · infer_instance
  · infer_instance

instance {found : Except Failure α} : Plain (ofExcept found) := by
  unfold ofExcept
  split
  · infer_instance
  · infer_instance

instance {items : List α} {f : α → Parser PUnit} [∀ a, Plain (f a)] : Plain (items.forM f) := by
  induction items with
  | nil => exact ⟨.pure⟩
  | cons item rest ih =>
    change Plain (f item >>= fun _ => rest.forM f)
    infer_instance

instance {item : Option α} {f : α → Parser PUnit} [∀ a, Plain (f a)] : Plain (item.forM f) := by
  cases item with
  | none => exact ⟨.pure⟩
  | some item =>
    change Plain (f item)
    infer_instance

instance {cover : Cover} {expressions : List Tree.Expression} :
    Plain (checkCovers cover expressions) := by
  unfold checkCovers; infer_instance

instance {e : Tree.Expression} : Plain (checkCover e) := by unfold checkCover; infer_instance

instance {ctx : Context} {name : String} {offset : Nat} :
    Plain (checkReference ctx name offset) := by
  unfold checkReference; infer_instance

instance {ctx : Context} {id : Tree.Identifier} : Plain (checkTarget ctx id) := by
  unfold checkTarget; infer_instance

instance {ctx : Context} {kind : BindingKind} {name : String} {offset : Nat} :
    Plain (checkBinding ctx kind name offset) := by
  unfold checkBinding; infer_instance

instance {options : Options} {ctx : Context} {kind : BindingKind} {name : String}
    {offset : Nat} : Plain (declare options ctx kind name offset) := by
  unfold declare
  refine ⟨fun s => .run rfl (.run rfl ((Plain.touches _).mono fun _ s' hs' => ?_))⟩
  exact .trans ⟨State.outline_scopes (Stack.roles_declare ..), id⟩ hs'

instance : Plain identifier := by unfold identifier; infer_instance

instance {options : Options} {ctx : Context} {kind : BindingKind} :
    Plain (bindingIdentifier options ctx kind) := by
  unfold bindingIdentifier; infer_instance

instance : Plain privateName := by unfold privateName; infer_instance

instance : Plain privateReference := by
  unfold privateReference
  refine ⟨fun s => .run rfl (.run rfl (.run rfl ?_))⟩
  split
  · exact trivial
  · rename_i names hnames
    refine .run rfl ((Plain.touches _).mono fun _ s' hs' => ?_)
    exact .trans ⟨State.outline_privateNames (PrivateNames.length_reference hnames), id⟩ hs'

instance {close : Token} : Plain (Phrases.separator close) := by
  unfold Phrases.separator; infer_instance

instance {g : Phrases} {close : Token} {item : List α → Parser α}
    [∀ earlier, Plain (item earlier)] : Plain (g.listed close item) := by
  refine ⟨.collect fun earlier => .skip fun atClose => ?_⟩
  split
  · exact .pure
  · exact .skip fun x => .skip fun _ => .pure

end Steps

end EcmaSyntax.Grammar
