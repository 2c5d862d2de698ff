import EcmaSyntax.Proofs.Cover.Program
import EcmaSyntax.Proofs.Jumps.Statement
import EcmaSyntax.Unicode.IdentifierRanges

/-!
Jumps in the programs that texts spell. Every phrase of the grammar keeps the labels and
contexts in step with the statements around it, by induction on how deep phrases are
nested, so each jump of a program has its target in the same function.
-/

namespace EcmaSyntax.Tree

theorem Statement.isLoop_of_isIteration {x : Statement} (h : x.isIteration = true) :
    x.isLoop = true := by
  cases x with
  | labeled => cases h
  | _ => exact h

end EcmaSyntax.Tree

namespace EcmaSyntax.Grammar

open EcmaSyntax.Diagnostic EcmaSyntax.Lexer EcmaSyntax.Tree

variable {o : Outline}

section

variable {version : Nat} [Unicode.IdentifierChars version]

section Start

/-- What is read where a statement may stand behind labels. -/
abbrev Starts (ctx : Context) (s : State) (step : Parser Statement) : Prop :=
  Yields step (fun x s' => s.outline.Admits ctx x s'.outline ∧
    (startsLoop s.token = true → x.isLoop = true)) s

variable {ctx : Context} {s : State} {step : Parser Statement}

/-- A statement that a keyword begins is behind no labels that follow each other. -/
theorem Chained.lands (hs : Chained s)
    (htoken : (s.token.isIdentifier || startsLoop s.token) = false)
    (h : s.outline.labelChain = none → Lands s.outline ctx step) : Starts ctx s step := by
  obtain ⟨hname, hloop⟩ := Bool.or_eq_false_iff.mp htoken
  have hnone := hs.none_of fun hlabel => Bool.eq_false_iff.mp hname hlabel.1
  refine ((h hnone).admits hnone).mono fun x s' hx => ⟨hx, fun hkeyword => ?_⟩
  rw [hloop] at hkeyword
  cases hkeyword

theorem Chained.loops (hs : Chained s) (hname : s.token.isIdentifier = false)
    (h : s.outline.labelChain = none → ReadsLoop s.outline ctx step) : Starts ctx s step := by
  have hnone := hs.none_of fun hlabel => Bool.eq_false_iff.mp hname hlabel.1
  refine (h hnone s rfl).mono fun x s' hx => ⟨?_, fun _ => Statement.isLoop_of_isIteration hx.2.1⟩
  exact (Outline.Admits.of_none hnone).mpr ⟨hx.1, hx.2.2⟩

end Start

section Glances

variable {α β : Type}

/-- The step only looks at the tokens that stand here. -/
class Glances (step : Parser α) : Prop where
  yields : ∀ s, Yields step (fun _ s' => s'.outline = s.outline ∧ s'.token = s.token ∧
    s'.lexer.following = s.lexer.following) s

instance {a : α} : Glances (pure a : Parser α) := ⟨fun _ => .pure ⟨rfl, rfl, rfl⟩⟩

instance {step : Parser α} [h : Glances step] {rest : α → Parser β}
    [hrest : ∀ a, Glances (rest a)] :
    Glances (step >>= rest) := by
  refine ⟨fun s => (h.yields s).bind fun a s₁ h₁ => ?_⟩
  refine ((hrest a).yields s₁).mono fun _ s₂ h₂ => ?_
  exact ⟨h₂.1.trans h₁.1, h₂.2.1.trans h₁.2.1, h₂.2.2.trans h₁.2.2⟩

instance {first second : Parser Bool} [Glances first] [Glances second] :
    Glances (first <&&> second) := by
  have hrest : ∀ b : Bool, Glances (match toBool b with
      | true => second
      | false => pure b) := by
    intro b
    split
    · infer_instance
    · infer_instance
  unfold andM
  infer_instance

instance {token : Token} : Glances (atToken token) := ⟨fun _ => .ok rfl ⟨rfl, rfl, rfl⟩⟩

instance {token : Token} : Glances (atWord token) := ⟨fun _ => .ok rfl ⟨rfl, rfl, rfl⟩⟩

instance : Glances peekNext := by
  refine ⟨fun s => ?_⟩
  obtain ⟨flags, now, hpeek⟩ := peekNext_run s
  exact .ok hpeek ⟨rfl, rfl, rfl⟩

instance : Glances peekToken := by unfold peekToken; infer_instance

instance : Glances atImportDeclaration := by unfold atImportDeclaration; infer_instance

instance : Glances atAsyncFunction := by unfold atAsyncFunction; infer_instance

instance : Glances atMisplacedLet := by unfold atMisplacedLet; infer_instance

theorem Chained.glance {s : State} (hs : Chained s) {ctx : Context} {step : Parser α}
    [h : Glances step] {rest : α → Parser Statement}
    (hrest : ∀ a s', Chained s' → s'.token = s.token → Starts ctx s' (rest a)) :
    Starts ctx s (step >>= rest) := by
  refine (h.yields s).bind fun a s' ⟨houtline, htoken, hfollowing⟩ => ?_
  have hchained : Chained s' := by
    intro first hfirst
    have hchain : s'.labelChain = s.labelChain := congrArg Outline.labelChain houtline
    have hlabels : s'.labels = s.labels := congrArg Outline.labels houtline
    rw [hlabels, htoken, hfollowing]
    exact hs first (hchain ▸ hfirst)
  rw [← houtline, ← htoken]
  exact hrest a s' hchained htoken

end Glances

namespace Phrases.Targets

variable {g : Phrases} (hg : g.Targets)

include hg

/-- A statement that no keyword begins. -/
theorem otherStatement (ctx : Context) (start : Nat) (position : Position) {s : State}
    (hs : Chained s) (hloop : startsLoop s.token = false) :
    Starts ctx s (Grammar.expressionOrLabeled g ctx start position) := by
  refine (hg.expressionOrLabeled ctx start position hs).mono fun x s' hx => ⟨hx, fun htoken => ?_⟩
  rw [hloop] at htoken
  cases htoken

theorem statementBody (ctx : Context) (position : Position) {s : State} (hs : Chained s) :
    Starts ctx s (Grammar.statementBody g ctx position) := by
  unfold Grammar.statementBody
  refine .run rfl (.run rfl (.run rfl ((stops_fail _).guard ?_)))
  split
  all_goals try rename_i htoken
  case h_23 =>
    refine hg.otherStatement ctx _ position hs ?_
    simpa [startsLoop] using And.intro (And.intro ‹s.token = .forKeyword → False›
      ‹s.token = .whileKeyword → False›) ‹s.token = .doKeyword → False›
  case h_20 | h_21 | h_22 =>
    refine hs.glance fun refused s' hs' htoken' => ?_
    split
    · exact (stops_fail _).yields
    · exact hg.otherStatement ctx _ position hs' (by rw [htoken', htoken]; rfl)
  case h_17 | h_18 | h_19 => exact (stops_fail _).yields
  case h_5 => exact hs.loops (by rw [htoken]; rfl) (hg.forStatement ctx _)
  case h_6 => exact hs.loops (by rw [htoken]; rfl) (hg.whileStatement ctx _)
  case h_7 => exact hs.loops (by rw [htoken]; rfl) (hg.doWhileStatement ctx _)
  all_goals refine hs.lands (by rw [htoken]; rfl) fun ho => ?_
  · refine (hg.block ctx .block ho).bind fun found hbody => .pure (.node rfl ?_)
    exact List.forall_mem_map.mpr hbody
  · exact .skip fun _ => .skip fun span => .pure (.node rfl nofun)
  · exact hg.variableStatement ctx .varKind
  · exact hg.ifStatement ctx _ ho
  · exact jump_lands ctx _ true
  · exact jump_lands ctx _ false
  · exact hg.returnStatement ctx _
  · exact hg.withStatement ctx _ ho
  · exact hg.switchStatement ctx _ ho
  · exact hg.throwStatement ctx _
  · exact hg.tryStatement ctx _ ho
  · exact .skip fun _ => .skip fun _ => .skip fun span => .pure (.node rfl nofun)
  · exact hg.misplacedFunction ctx position

/-- A statement is read one level deeper. -/
theorem statement_body (ctx : Context) (position : Position) {s : State} (hs : Chained s) :
    Starts ctx s (Grammar.statement g ctx position) := by
  unfold Grammar.statement nested
  refine (enterNesting_frame s).bind fun _ s' hs' => ?_
  subst hs'
  refine (hg.statementBody ctx position (s := { s with depth := s.depth + 1 }) hs).bind
    fun x s' hx => .run rfl (.pure ⟨⟨?_, hx.1.fits⟩, hx.2⟩)
  obtain ⟨marked, hmarked, hafter⟩ := hx.1.after
  refine ⟨marked, hmarked, ?_⟩
  have hdepth : s'.depth = s.depth + 1 := congrArg Outline.depth hafter
  change { s'.outline with depth := s'.depth - 1 } = s.outline.settle marked
  rw [hafter, hdepth]
  rfl

theorem decoratedItem (ctx : Context) (start : Nat) (ho : o.labelChain = none) :
    Lands o ctx (decoratedItem g ctx start) := by
  unfold Grammar.decoratedItem
  refine (hg.decorators ctx).bind fun found hfound => .skip fun token => ?_
  split
  · exact hg.classStatement ctx start hfound
  · split
    · exact hg.exportStatement ctx start hfound ho
    · exact (stops_fail _).preserves
  · exact (stops_fail _).preserves

omit hg in
theorem topLevelItem (ctx : Context) (word : String) {phrase : Parser Statement}
    (h : Lands o ctx phrase) : Lands o ctx (topLevelItem ctx word phrase) :=
  (stops_fail _).preserves_guard h

theorem listItem_body (ctx : Context) (ho : o.labelChain = none) :
    Lands o ctx (Grammar.listItem g ctx) := by
  have hnone : ∀ d ∈ ([] : List Decorator), Enclosed (.decorator d) := nofun
  unfold Grammar.listItem
  refine .skip fun start => .skip fun atFunction => ?_
  split
  · exact functionStatement (.nested (hg.functionDeclaration ctx false true))
  refine .skip fun atAsync => ?_
  split
  · exact functionStatement (.nested (hg.functionDeclaration ctx true true))
  refine .skip fun atClass => ?_
  split
  · refine Preserves.bind (Balances.nested (hg.classDefinition ctx start true hnone false))
      fun c hc => .pure (.node rfl ?_)
    exact List.forall_mem_singleton.mpr (.of_enclosed rfl hc)
  refine .skip fun atSign => ?_
  split
  · exact hg.decoratedItem ctx start ho
  refine .skip fun atConst => ?_
  split
  · exact hg.variableStatement ctx .constKind
  refine .skip fun atLet => ?_
  split
  · exact hg.variableStatement ctx .letKind
  refine .skip fun atImport => ?_
  split
  · exact topLevelItem ctx "import" (importDeclaration ctx)
  refine .skip fun atExport => ?_
  split
  · exact topLevelItem ctx "export" (hg.exportStatement ctx start hnone ho)
  intro s hs
  subst hs
  refine (hg.statement_body ctx .listItem (.of_none ho)).mono fun x s' hx => ?_
  exact (Outline.Admits.of_none ho).mp hx.1

/-- Nothing is open where a program starts. -/
theorem program (length : Nat) {s : State} (hlabels : s.labels = [])
    (hchain : s.labelChain = none) :
    Yields (program g length) (fun p _ => ∀ x ∈ p.body, Resolved [] (.statement x)) s := by
  have hbody : Balances s.outline (fun p => ∀ x ∈ p.body, Resolved [] (.statement x))
      (Grammar.program g length) := by
    unfold Grammar.program
    refine .skip fun _ => (hg.bodyStatements _ true .endOfSource hchain).bind fun found hfound => ?_
    refine .skip fun _ => .pure fun x hx => ?_
    rw [show s.outline.labels = [] from hlabels] at hfound
    exact (hfound x hx).resolved rfl rfl
  exact (hbody s rfl).mono fun p _ hp => hp.2

end Phrases.Targets

theorem phrases_targets (options : Options) (size fuel : Nat) :
    (phrases options size fuel).Targets := by
  induction fuel with
  | zero =>
    exact
      { assignmentCover := fun _ => (stops_fail _).preserves
        unary := fun _ => (stops_fail _).preserves
        binary := fun _ _ _ _ _ => (stops_fail _).preserves
        newCall := fun _ => (stops_fail _).preserves
        leftHandSide := fun _ => (stops_fail _).preserves
        markup := fun _ _ => (stops_fail _).preserves
        bindingTarget := fun _ _ => (stops_fail _).preserves
        statement := fun _ _ _ _ => (stops_fail _).yields
        listItem := fun _ _ => (stops_fail _).preserves }
  | succ fuel ih =>
    exact
      { assignmentCover := ih.assignmentCover_body
        unary := ih.unary_body
        binary := fun ctx start _ minimum => ih.binary_body ctx start minimum
        newCall := ih.newCall_body
        leftHandSide := ih.leftHandSide_body
        markup := ih.markup_body
        bindingTarget := ih.bindingTarget_body
        statement := fun ctx position _ => ih.statement_body ctx position
        listItem := ih.listItem_body }

/-- In a program, every jump leads to a label, loop or switch around it that no function,
initial value of a field or static block separates it from, and no label stands in a
statement of the same label but for those. -/
theorem jumps_have_targets {options : Options} {text : String} {p : Program}
    (h : parse options text = .ok p) {steps : List Step} {n : Node} (hn : p.Stands steps n) :
    JumpFits steps n := by
  have hbody : ∀ x ∈ p.body, Resolved [] (.statement x) := by
    unfold parse run at h
    split at h
    · rename_i q s hok
      cases h
      exact ((phrases_targets options _ _).program _ rfl rfl).result hok
    · cases h
  obtain ⟨x, hx, hdescends⟩ := hn
  exact hbody x hx _ hdescends

/-- Two labels before a loop whose block ends by continuing a labelled loop. -/
def continuesLabelled : Except Failure Program → Bool
  | .ok ⟨_, _, [.labeled _ _ (.labeled _ _ (.forStatement _ _ _ _
      (.block _ [_, .continueStatement _ (some _)])))]⟩ => true
  | _ => false

end

/-- A loop behind two labels, which is continued by the outer one. In it stands a function
with a label of the same name. -/
theorem jumps_have_targets_relabelled :
    ∃ p steps span label,
      parse Options.script "a: b: for (;;) { () => { a: while (c) break a }; continue a }" = .ok p ∧
      p.Stands steps (.statement (.continueStatement span (some label))) ∧
      ∃ step ∈ steps, step.label? = some (label.name, true) := by
  obtain ⟨found, hfound, hshape⟩ : ∃ found, parse Options.script
      "a: b: for (;;) { () => { a: while (c) break a }; continue a }" = found ∧
      continuesLabelled found = true := ⟨_, rfl, by decide +kernel⟩
  unfold continuesLabelled at hshape
  split at hshape
  · rename_i span label
    have hfits : ∀ {steps n}, Program.Stands _ steps n →
        Program.Stands _ steps n ∧ JumpFits steps n := fun hstands =>
      ⟨hstands, jumps_have_targets hfound hstands⟩
    exact ⟨_, _, span, label, hfound, hfits (n := .statement (.continueStatement span (some label)))
      ⟨_, List.mem_singleton_self _, .head (.inside (List.mem_singleton_self _)) <|
        .head (.inside (List.mem_singleton_self _)) <|
        .head (.inside (List.mem_cons_of_mem _ List.mem_cons_self)) <|
        .single (.inside (List.mem_cons_of_mem _ List.mem_cons_self))⟩⟩
  · cases hshape

end EcmaSyntax.Grammar
