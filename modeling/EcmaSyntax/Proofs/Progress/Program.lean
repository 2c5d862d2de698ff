import EcmaSyntax.Proofs.Grammar.Tiling
import EcmaSyntax.Proofs.Progress.Statement
import EcmaSyntax.Unicode.IdentifierRanges

/-!
All phrases together get on. So a parse ends with a program or with something that is wrong with
the text, and not for want of fuel. From every state that a parse may come to, a statement, an
expression, an element of a class or a pattern, a property, a specifier and an element of markup
end further on than the last token before them, and no round of a loop starts where the one
before it did.
-/

namespace EcmaSyntax.Grammar

open EcmaSyntax.Diagnostic EcmaSyntax.Lexer EcmaSyntax.Scope EcmaSyntax.Tree

variable {c : Course} {more : Nat} {s : State} {g : Phrases} [hg : g.Progresses c]
  {ctx : Context} {start : Nat}

section

variable {version : Nat} [Unicode.IdentifierChars version]

section Statements

theorem passes_statementBody {position : Position} :
    Passes c 1 (fun _ => True) (statementBody g ctx position) s := by
  refine .look rfl (.look rfl (.look rfl (.guard tells_fail fun _ => ?_)))
  split
  case _ h => exact .taken passes_block fun found => by split; infer_instance
  case _ h => exact .taken (passes_next (State.ne_of_eq h)) fun _ => inferInstance
  case _ h => exact passes_variableStatement
  case _ h => exact passes_ifStatement (State.ne_of_eq h)
  case _ h => exact passes_forStatement (State.ne_of_eq h)
  case _ h => exact passes_whileStatement (State.ne_of_eq h)
  case _ h => exact passes_doWhileStatement (State.ne_of_eq h)
  case _ h => exact passes_jump (State.ne_of_eq h)
  case _ h => exact passes_jump (State.ne_of_eq h)
  case _ h => exact passes_returnStatement (State.ne_of_eq h)
  case _ h => exact passes_withStatement (State.ne_of_eq h)
  case _ h => exact passes_switchStatement (State.ne_of_eq h)
  case _ h => exact passes_throwStatement (State.ne_of_eq h)
  case _ h => exact passes_tryStatement (State.ne_of_eq h)
  case _ h => exact .taken (passes_next (State.ne_of_eq h)) fun _ => inferInstance
  case _ h => exact passes_misplacedFunction
  case _ => exact .failed tells_fail
  case _ => exact .failed tells_fail
  case _ => exact .failed tells_fail
  case _ =>
    refine .skip fun found s₁ _ => ?_
    split
    · exact .failed tells_fail
    · exact passes_expressionOrLabeled
  case _ =>
    refine .skip fun found s₁ _ => ?_
    split
    · exact .failed tells_fail
    · exact passes_expressionOrLabeled
  case _ =>
    refine .skip fun found s₁ _ => ?_
    split
    · exact .failed tells_fail
    · exact passes_expressionOrLabeled
  case _ => exact passes_expressionOrLabeled

theorem passes_statement {position : Position} :
    Passes c 1 (fun _ => True) (statement g ctx position) s := .nested fun _ => passes_statementBody

/-- Where imports and exports stand, names may be exported. -/
theorem exports_of_topLevel [h : c.Permits ctx] (htop : ctx.topLevel = true) : c.Exports :=
  ⟨fun hquiet => Bool.false_ne_true ((h.topLevel hquiet).symm.trans htop)⟩

theorem passes_decoratedItem [c.Permits ctx] (hat : s.token = .at) :
    Passes c more (fun _ => True) (decoratedItem g ctx start) s := by
  refine .taken (passes_decorators hat) fun found => .skip fun token => ?_
  split
  · infer_instance
  · split
    · rename_i htop
      have := exports_of_topLevel (c := c) htop
      infer_instance
    · infer_instance
  · infer_instance

theorem passes_topLevelItem [h : c.Permits ctx] {word : String} {phrase : Parser Statement}
    (hphrase : c.Exports → Passes c more (fun _ => True) phrase s) :
    Passes c more (fun _ => True) (topLevelItem ctx word phrase) s := by
  refine .guard tells_fail fun htop => hphrase ?_
  exact exports_of_topLevel (by simpa using htop)

theorem passes_listItem [c.Permits ctx] : Passes c 1 (fun _ => True) (listItem g ctx) s := by
  refine .look rfl (.look rfl ?_)
  split
  · exact .taken (.nested fun _ => passes_functionDeclaration) fun _ => inferInstance
  refine .skip fun isAsync s₁ _ => ?_
  split
  · exact .taken (.nested fun _ => passes_functionDeclaration) fun _ => inferInstance
  refine .look rfl ?_
  split
  · exact .taken (.nested fun _ => passes_classDefinition) fun _ => inferInstance
  refine .look rfl ?_
  split
  · rename_i hat
    exact passes_decoratedItem (beq_iff_eq.mp (Bool.and_eq_true_iff.mp hat).2)
  refine .look rfl ?_
  split
  · exact passes_variableStatement
  refine .skip fun isLet s₂ _ => ?_
  split
  · exact passes_variableStatement
  refine .skip fun isImport s₃ _ => ?_
  split
  · exact passes_topLevelItem fun _ => passes_importDeclaration
  refine .look rfl ?_
  split
  · exact passes_topLevelItem fun _ => passes_exportStatement
  · exact passes_statement

end Statements

section Phrases

variable {options : Options} {text : List Char} {quiet : Prop} {size : Nat}

/-- A phrase inside another has less fuel than that one. -/
theorem Passes.deeper {α : Type} {taking : α → Prop} {step : Parser α} {fuel : Nat}
    (h : Passes ⟨text, fuel, quiet⟩ more taking step s) :
    Passes ⟨text, fuel + 1, quiet⟩ (more + 1) taking step s := fun hs =>
  ((h hs).mono fun _ _ ha => ⟨⟨ha.1.stands, ha.1.start_le, ha.1.previousEnd_le, ha.1.exports⟩,
    ha.2⟩).weaken fun _ hlasts henough => hlasts (Nat.le_of_succ_le_succ henough)

/-- Without fuel there is never enough of it. -/
theorem passes_exhausted {α : Type} {taking : α → Prop} :
    Passes ⟨text, 0, quiet⟩ (more + 1) taking (fail .exhausted : Parser α) s :=
  fun _ henough => absurd henough (by simp)

theorem phrases_progress (options : Options) (hsize : text.length < size) (fuel : Nat) :
    (phrases options size fuel).Progresses ⟨text, fuel, quiet⟩ := by
  induction fuel with
  | zero => exact {
      size := hsize
      assignmentCover := fun _ _ => passes_exhausted
      unary := fun _ _ => passes_exhausted
      binary := fun _ _ _ _ _ => passes_exhausted
      newCall := fun _ _ _ => passes_exhausted
      leftHandSide := fun _ _ => passes_exhausted
      markup := fun _ _ _ => passes_exhausted
      bindingTarget := fun _ _ _ => passes_exhausted
      statement := fun _ _ _ => passes_exhausted
      listItem := fun _ _ _ => passes_exhausted }
  | succ fuel ih => exact {
      size := hsize
      assignmentCover := fun _ _ => passes_assignmentCover.deeper
      unary := fun _ _ => passes_unary.deeper
      binary := fun _ _ _ _ _ => passes_binary.deeper
      newCall := fun _ _ hend => (passes_newCall hend).deeper
      leftHandSide := fun _ _ => passes_leftHandSide.deeper
      markup := fun _ _ _ => passes_markup.deeper
      bindingTarget := fun _ _ _ => passes_bindingTarget.deeper
      statement := fun _ _ _ => passes_statement.deeper
      listItem := fun _ _ htop =>
        have : Course.Permits ⟨text, fuel, quiet⟩ _ := ⟨htop⟩
        passes_listItem.deeper }

end Phrases

section Loops

/-- Every round of a list that is followed by another takes a token. -/
theorem ListLoop.advances {α : Type} {round : List α → Parser (Round α)} [c.Exports]
    (h : ListLoop g round) : Advances c round := by
  cases h
  case directives ctx simpleParams =>
    refine ⟨fun earlier s => .look rfl ?_⟩
    split
    · exact .pure id
    · refine .look rfl (.taken (Takes.passes _) fun found => ?_)
      split
      split <;> infer_instance
  all_goals infer_instance

/-- Everything that is applied to a value takes a token. -/
theorem ValueLoop.passes {α : Type} {round : α → Parser (Option α)} (h : ValueLoop g round)
    (a : α) : Passes c 2 (·.isSome = true) (round a) s := by
  cases h with
  | markupPath start => exact passes_markupPath
  | path start => exact passes_path
  | chain ctx start allowCalls => exact passes_chainLink
  | binary ctx start minimum => exact passes_binaryLink

end Loops

section Parses

variable {options : Options} {text : List Char} {observing : Bool} {s' : State}

/-- The states that a parse of the text may come to. Every step of the grammar is made of moves
through the text and of changes to what stands beside the lexer and the end of the last token. -/
inductive Reached (options : Options) (observing : Bool) (text : List Char) : State → Prop
  | initial : Reached options observing text (State.initial options observing text)
  | move {s s' : State} (move : Move) (h : Reached options observing text s)
      (hallowed : move.IsAllowed s.token) (hrun : move.run s = .ok ⟨⟩ s') :
      Reached options observing text s'
  | change {s s' : State} (h : Reached options observing text s) (hlexer : s'.lexer = s.lexer)
      (hend : s'.previousEnd = s.previousEnd) : Reached options observing text s'

theorem Move.goes (move : Move) (hallowed : move.IsAllowed s.token) (hs : Stands c.text s) :
    Yields move.run (fun _ s' => Goes c s s') s := by
  have hlight : ∀ {step : Parser Unit}, Light step → Yields step (fun _ s' => Goes c s s') s :=
    fun h => ((h.moves s).weaken fun _ _ => trivial).mono fun _ _ hs' => .of_strides hs' hs
  cases move with
  | next => exact hlight (inferInstanceAs (Light Grammar.next))
  | nextInTag => exact hlight (inferInstanceAs (Light Grammar.nextInTag))
  | nextChild => exact hlight (inferInstanceAs (Light Grammar.nextChild))
  | nextAttributeValue => exact hlight (inferInstanceAs (Light Grammar.nextAttributeValue))
  | peekNext => exact hlight (.skip fun _ => inferInstance)
  | peekSecond => exact hlight (.skip fun _ => inferInstance)
  | rescanRegex => exact hlight (.skip fun _ => inferInstance)
  | scanMarkupName =>
    have hname : Passes c 0 (fun _ => False) (withLexer Lexer.scanMarkupName) s :=
      passes_scanMarkupName
    exact ((hname hs).weaken fun _ _ => trivial).mono fun _ _ hs' => hs'.1
  | rescanTemplate =>
    exact ((meets_rescanTemplate hallowed).weaken fun _ _ => trivial).bind fun _ _ hs' =>
      .pure (.of_strides hs' hs)

theorem Reached.stands (h : Reached options observing text s) : Stands text s := by
  induction h with
  | initial => exact ⟨situated_initial _ _ _, Nat.zero_le _⟩
  | move move _ hallowed hrun ih =>
    exact ((move.goes (c := ⟨text, 0, True⟩) hallowed ih).result hrun).stands
  | change _ hlexer hend ih =>
    exact (Goes.of_same (c := ⟨text, 0, False⟩) ih hlexer hend False.elim).stands

/-- A run of moves leads to a state that a parse may come to. -/
theorem Reached.runAll {moves : List Move} (h : Reached options observing text s)
    (hrun : Move.runAll moves s = some s') : Reached options observing text s' := by
  induction moves generalizing s with
  | nil =>
    cases hrun
    exact h
  | cons move rest ih =>
    rw [Move.runAll] at hrun
    split at hrun
    · rename_i hallowed
      split at hrun
      · rename_i s₁ hok
        exact ih (h.move move hallowed hok) hrun
      · cases hrun
    · cases hrun

/-- A step that goes on from a state ends further on than the last token before it. -/
def Advanced {α : Type} (step : Parser α) (s : State) : Prop :=
  ∀ a s', step s = .ok a s' → s.previousEnd < s'.previousEnd

/-- From a state every phrase gets on, and so does every round of a loop. -/
structure Phrases.GetsOn (g : Phrases) (s : State) : Prop where
  listItem : ∀ ctx, Advanced (g.listItem ctx) s
  statement : ∀ ctx position, Advanced (g.statement ctx position) s
  assignmentCover : ∀ ctx, Advanced (g.assignmentCover ctx) s
  unary : ∀ ctx, Advanced (g.unary ctx) s
  leftHandSide : ∀ ctx, Advanced (g.leftHandSide ctx) s
  classElement : ∀ ctx derived earlier, Advanced (Grammar.classElement g ctx derived earlier) s
  objectProperty : ∀ ctx, Advanced (Grammar.objectProperty g ctx) s
  bindingElement : ∀ ctx kind, Advanced (Grammar.bindingElement g ctx kind) s
  importSpecifier : ∀ ctx, Advanced (Grammar.importSpecifier g ctx) s
  markup : ∀ ctx exit, Advanced (g.markup ctx exit) s
  /-- The next round of a list starts further on. -/
  list : ∀ {α : Type} {round : List α → Parser (Round α)}, ListLoop g round →
    ∀ earlier item s', round earlier s = .ok (.more item) s' → s.start < s'.start
  /-- The next thing that is applied to a value starts further on. -/
  value : ∀ {α : Type} {round : α → Parser (Option α)}, ValueLoop g round →
    ∀ a b s', round a s = .ok (some b) s' → s.start < s'.start

theorem Passes.taken_result {α : Type} {taking : α → Prop} {step : Parser α} {a : α}
    (h : Passes c more taking step s) (hs : Stands c.text s) (hrun : step s = .ok a s')
    (htaking : taking a) : s.start < s'.previousEnd ∧ s'.previousEnd ≤ s'.start := by
  have hgoes := (h hs).result hrun
  exact ⟨hgoes.2 htaking, hgoes.1.stands.previousEnd⟩

theorem Takes.advanced {α : Type} {step : Parser α} [h : Takes c step] (hs : Stands c.text s) :
    Advanced step s := fun _ _ hrun =>
  Nat.lt_of_le_of_lt hs.previousEnd ((h.passes s).taken_result hs hrun trivial).1

theorem Phrases.getsOn [c.Exports] (hs : Stands c.text s) : g.GetsOn s where
  listItem _ := Takes.advanced hs
  statement _ _ := Takes.advanced hs
  assignmentCover _ := Takes.advanced hs
  unary _ := Takes.advanced hs
  leftHandSide _ := Takes.advanced hs
  classElement _ _ _ := Takes.advanced hs
  objectProperty _ := Takes.advanced hs
  bindingElement _ _ := Takes.advanced hs
  importSpecifier _ := Takes.advanced hs
  markup _ _ := Takes.advanced hs
  list hloop earlier _ _ hrun := by
    have hround := (hloop.advances (c := c)).passes earlier s
    obtain ⟨htaken, hle⟩ := hround.taken_result hs hrun trivial
    exact Nat.lt_of_lt_of_le htaken hle
  value hloop a _ _ hrun := by
    obtain ⟨htaken, hle⟩ := (hloop.passes (c := c) a).taken_result hs hrun rfl
    exact Nat.lt_of_lt_of_le htaken hle

instance [c.Exports] {length : Nat} : Proceeds c (program g length) := by
  unfold program
  refine .skip fun _ => .skip fun found => ?_
  split
  infer_instance

instance {fuel : Nat} : Course.Exports ⟨text, fuel, False⟩ := ⟨id⟩

/-- There is enough fuel for every text. -/
theorem run_error {failure : Failure} (h : run options observing text = .error failure s) :
    failure.cause ≠ .exhausted := by
  have hg : (phrases options (text.length + 2) (8 * (text.length + 2))).Progresses
      ⟨text, 8 * (text.length + 2), False⟩ := phrases_progress options (by omega) _
  have hstands : Stands text (State.initial options observing text) := Reached.initial.stands
  have hproceeds : Proceeds ⟨text, 8 * (text.length + 2), False⟩
      (program (phrases options (text.length + 2) (8 * (text.length + 2)))
        (Text.byteLength text)) :=
    inferInstance
  have hrun := hproceeds.passes _ hstands
  have hleft := hstands.left_le_length
  unfold Meets at hrun
  rw [show program _ _ _ = _ from h] at hrun
  exact hrun (show 2 * State.left _ + 2 ≤ 8 * (text.length + 2) by omega)

end Parses

/-- A parse ends with a program or with something that is wrong with the text, however the text
is broken off, and never for want of fuel. From every state that it may come to, each phrase
ends further on than the last token before it, and no round of a loop starts where the one
before it did. -/
theorem parse_progresses (options : Options) (text : String) :
    (∀ failure, parse options text = .error failure → failure.cause ≠ .exhausted) ∧
    (∀ failure, (observe options text).1 = .error failure → failure.cause ≠ .exhausted) ∧
    ∀ observing s fuel, Reached options observing text.toList s →
      (phrases options (text.toList.length + 2) fuel).GetsOn s := by
  refine ⟨fun failure h => ?_, fun failure h => ?_, fun observing s fuel h => ?_⟩
  · unfold parse at h
    split at h
    · cases h
    · rename_i hrun
      cases h
      exact run_error hrun
  · unfold observe at h
    split at h
    · cases h
    · rename_i hrun
      cases h
      exact run_error hrun
  · have hg : (phrases options (text.toList.length + 2) fuel).Progresses
        ⟨text.toList, fuel, False⟩ := phrases_progress options (by omega) fuel
    exact Phrases.getsOn (c := ⟨text.toList, fuel, False⟩) h.stands

end

/-- From the first token of a text the first of its statements is read up to its semicolon. -/
theorem parse_progresses_item : ∃ s statement s', Reached .script false "f(x);y".toList s ∧
    (phrases .script 8 64).listItem (startContext .script) s = .ok statement s' ∧
    s.previousEnd < s'.previousEnd := by
  have hrun : (Move.runAll [.next] (State.initial .script false "f(x);y".toList)).any
      (fun s => match (phrases .script 8 64).listItem (startContext .script) s with
        | .ok _ s' => s'.previousEnd == 5
        | .error _ _ => false) = true := by decide +kernel
  obtain ⟨s, hs, hitem⟩ := (Option.any_eq_true _ _).mp hrun
  have hreached : Reached .script false "f(x);y".toList s := Reached.initial.runAll hs
  split at hitem
  · rename_i statement s' hok
    have hgetsOn := (parse_progresses .script "f(x);y").2.2 false s 64 hreached
    exact ⟨s, statement, s', hreached, hok, hgetsOn.listItem _ _ _ hok⟩
  · cases hitem

end EcmaSyntax.Grammar
