import EcmaSyntax.Proofs.Spans.Module
import EcmaSyntax.Unicode.IdentifierRanges

/-!
The plots of the programs that texts spell. Every phrase of the grammar lays out what it reads, by
induction on how deep phrases are nested, so that the spans in a program are nested, and a text that
spells none is refused at a place between two of its characters.
-/

namespace EcmaSyntax.Grammar

open EcmaSyntax.Diagnostic EcmaSyntax.Lexer EcmaSyntax.Scope EcmaSyntax.Text EcmaSyntax.Tree
open Plotted

variable {ground : Ground} {lo start : Nat} {row : List Plot} {taken : Bool}
  {s : State} {g : Phrases}
  [h : g.Spans ground] {ctx : Context} {position : Position}

section

variable {version : Nat} [Unicode.IdentifierChars version]

section Statements

instance : AddsToRow ground (statementBody g ctx position) := by
  refine .fresh fun start _ => .look fun token => .look fun _ => .guard fun _ => ?_
  split
  · exact .lay fun ⟨span, body⟩ _ => .pure (by simp)
  · exact .take fun _ => .frame fun span => .pure rfl
  · exact .last fun _ => rfl
  · exact changesRow_ifStatement
  · exact changesRow_forStatement
  · exact changesRow_whileStatement
  · exact changesRow_doWhileStatement
  · exact changesRow_jump
  · exact changesRow_jump
  · exact changesRow_returnStatement
  · exact changesRow_withStatement
  · exact changesRow_switchStatement
  · exact changesRow_throwStatement
  · exact changesRow_tryStatement
  · exact .take fun _ => .skip fun _ => .frame fun span => .pure rfl
  · exact .last fun _ => rfl
  · exact .refuse
  · exact .refuse
  · exact .refuse
  · exact .skip fun _ => .guard fun _ => changesRow_expressionOrLabeled
  · exact .skip fun _ => .guard fun _ => changesRow_expressionOrLabeled
  · exact .skip fun _ => .guard fun _ => changesRow_expressionOrLabeled
  · exact changesRow_expressionOrLabeled

instance : AddsToRow ground (statement g ctx position) := by unfold statement; infer_instance

theorem changesRow_decoratedItem (hnext : g.options.next = true) :
    ChangesRow ground start [] (.reached taken)
    (decoratedItem g ctx start) plots (.reached true) := by
  have := mayAddToRow_decorators (h := h) (c := ctx) hnext
  refine .mayAddToRow fun found _ => .look fun token => ?_
  split
  · exact changesRow_decoratedClass.bind fun c => .pure rfl
  · exact .ite (fun _ => changesRow_exportStatement) fun _ => .refuse
  · exact .refuse

omit h in
theorem changesRow_topLevelItem {word : String} {phrase : Parser Statement}
    {row' : Statement → List Plot}
    (hphrase : ChangesRow ground lo row (.reached taken) phrase row' (.reached true)) :
    ChangesRow ground lo row (.reached taken) (topLevelItem ctx word phrase) row' (.reached true) :=
  .guard fun _ => hphrase

instance : AddsToRow ground (listItem g ctx) := by
  refine .fresh fun start _ => .look fun _ => .ite (fun _ => .lay fun f _ => .pure rfl) fun _ => ?_
  refine .skip fun _ => .ite (fun _ => .lay fun f _ => .pure rfl) fun _ => .look fun _ => ?_
  refine .ite (fun _ => .bind (.nested changesRow_bareClass) fun c => .pure rfl) fun _ =>
    .look fun _ => ?_
  refine .ite (fun hnext => changesRow_decoratedItem (Bool.and_eq_true_iff.mp hnext).1) fun _ =>
    .look fun _ => ?_
  refine .ite (fun _ => .last fun _ => rfl) fun _ => .skip fun _ => ?_
  refine .ite (fun _ => .last fun _ => rfl) fun _ => .skip fun _ => ?_
  refine .ite (fun _ => changesRow_topLevelItem (.last fun _ => rfl)) fun _ => .look fun _ => ?_
  have hexport : ChangesRow ground start (plots ([] : List Decorator)) (.reached false)
      (exportStatement g ctx start []) plots (.reached true) := changesRow_exportStatement
  exact .ite (fun _ => changesRow_topLevelItem hexport) fun _ => .last fun _ => rfl

end Statements

section Listed

/-- The statement declares no class. -/
abbrev IsNoClass (x : Statement) : Prop := ∀ c, x ≠ .classDeclaration c

omit h

theorem variableStatement_isNoClass (kind : VariableKind) (s : State) :
    Yields (variableStatement g ctx kind) (fun x _ => IsNoClass x) s :=
  .skip fun _ _ => .skip fun _ _ => .skip fun _ _ => .skip fun _ _ => .skip fun _ _ => .pure nofun

theorem expressionOrLabeled_isNoClass (s : State) :
    Yields (expressionOrLabeled g ctx start position) (fun x _ => IsNoClass x) s := by
  refine .skip fun _ _ => .skip fun isLabel _ => ?_
  split
  · exact .skip fun _ _ => .skip fun _ _ => .skip fun _ _ => .skip fun _ _ => .skip fun _ _ =>
      .skip fun _ _ => .skip fun _ _ => .skip fun _ _ => .pure nofun
  · exact .skip fun _ _ => .skip fun _ _ => .skip fun _ _ => .pure nofun

theorem misplacedFunction_isNoClass (s : State) :
    Yields (misplacedFunction g ctx position) (fun x _ => IsNoClass x) s := by
  refine .skip fun token _ => (stops_fail _).guard ((stops_fail _).guard ?_)
  split
  · exact .skip fun _ _ => .pure nofun
  · exact .skip fun _ _ => .pure nofun

theorem statement_isNoClass (htoken : s.token ∈ listedKeywords) :
    Yields (statement g ctx position) (fun x _ => IsNoClass x) s := by
  have hbody : ∀ s : State, s.token ∈ listedKeywords →
      Yields (statementBody g ctx position) (fun x _ => IsNoClass x) s := by
    intro s htoken
    unfold statementBody
    refine .run rfl (.run rfl (.run rfl ((stops_fail _).guard ?_)))
    simp only [listedKeywords, List.mem_cons, List.not_mem_nil, or_false] at htoken
    rcases htoken with htoken | htoken | htoken | htoken | htoken <;> simp only [htoken]
    · exact variableStatement_isNoClass .varKind s
    · exact (stops_fail _).yields
    · exact misplacedFunction_isNoClass s
    · refine .skip fun isMisplaced _ => ?_
      split
      · exact (stops_fail _).yields
      · exact expressionOrLabeled_isNoClass _
    · refine .skip fun isFunction _ => ?_
      split
      · exact (stops_fail _).yields
      · exact expressionOrLabeled_isNoClass _
  unfold statement nested
  refine (enterNesting_frame s).bind fun _ s' hs' => ?_
  subst hs'
  refine (hbody { s with depth := s.depth + 1 } htoken).bind fun x s' hx => ?_
  exact .run rfl (.pure hx)

instance : Glances atLetDeclaration := by unfold atLetDeclaration; infer_instance

/-- Another word does not stand here. -/
theorem atWord_ne {token : Token} {also : Parser Bool} (hne : (s.token == token) = false) :
    Yields (atWord token <&&> also) (fun found s' => found = false ∧ s' = s) s := by
  have hat : atWord token s = .ok false s := by
    change EStateM.Result.ok (s.token == token && !s.lexer.flags.escaped) s = _
    rw [hne, Bool.false_and]
  exact .run hat (.pure ⟨rfl, rfl⟩)

theorem listItem_isNoClass (htoken : s.token ∈ listedKeywords) :
    Yields (listItem g ctx) (fun x _ => IsNoClass x) s := by
  have hne : ∀ t ∈ listedKeywords, (t == .classKeyword) = false ∧ (t == .at) = false ∧
      (t == .importKeyword) = false ∧ (t == .exportKeyword) = false := by decide
  unfold listItem
  refine .run rfl (.run rfl ?_)
  split
  · exact .skip fun _ _ => .pure nofun
  have hasync := (inferInstance : Glances atAsyncFunction).yields s
  refine hasync.bind fun isAsync s₁ ⟨_, htoken₁, _⟩ => ?_
  rw [← htoken₁] at htoken
  split
  · exact .skip fun _ _ => .pure nofun
  obtain ⟨hclass, hat, -⟩ := hne s₁.token htoken
  refine .run rfl ?_
  simp only [hclass, Bool.false_and, Bool.false_eq_true, if_false]
  refine .run rfl ?_
  simp only [hat, Bool.and_false, Bool.false_eq_true, if_false]
  refine .run rfl ?_
  split
  · exact variableStatement_isNoClass .constKind s₁
  have hlet := (inferInstance : Glances atLetDeclaration).yields s₁
  refine hlet.bind fun isLet s₂ ⟨_, htoken₂, _⟩ => ?_
  rw [← htoken₂] at htoken
  split
  · exact variableStatement_isNoClass .letKind s₂
  obtain ⟨-, -, himport, hexport⟩ := hne s₂.token htoken
  refine (atWord_ne himport).bind fun found s₃ hfound => ?_
  obtain ⟨rfl, rfl⟩ := hfound
  refine .run rfl ?_
  simp only [hexport, Bool.false_and, Bool.false_eq_true, if_false]
  exact statement_isNoClass htoken

end Listed

section Programs

theorem phrases_spans {options : Options} (hdecorated : options.next = true → ground.decorated)
    (size fuel : Nat) : (phrases options size fuel).Spans ground := by
  induction fuel with
  | zero =>
    exact
      { assignmentCover := fun _ => inferInstanceAs (AddsToRow ground (fail _))
        unary := fun _ => inferInstanceAs (AddsToRow ground (fail _))
        binary := fun _ _ _ _ => .refuse (h := inferInstanceAs (Refuses ground.text (fail _)))
        newCall := fun _ => inferInstanceAs (AddsToRow ground (fail _))
        leftHandSide := fun _ => inferInstanceAs (AddsToRow ground (fail _))
        markup := fun _ _ => inferInstanceAs (AddsToRow ground (fail _))
        bindingTarget := fun _ _ => inferInstanceAs (AddsToRow ground (fail _))
        statement := fun _ _ => inferInstanceAs (AddsToRow ground (fail _))
        listItem := fun _ => inferInstanceAs (AddsToRow ground (fail _))
        listed := fun _ _ _ => (stops_fail _).yields
        decorated := hdecorated }
  | succ fuel ih =>
    exact
      { assignmentCover := fun ctx =>
          inferInstanceAs
            (AddsToRow ground (Grammar.assignmentCover (phrases options size fuel) ctx))
        unary := fun ctx => inferInstanceAs
          (AddsToRow ground (Grammar.unary (phrases options size fuel) ctx))
        binary := fun _ _ _ _ => changesRow_binary
        newCall := fun ctx => inferInstanceAs
          (AddsToRow ground (Grammar.newCall (phrases options size fuel) ctx))
        leftHandSide := fun ctx =>
          inferInstanceAs (AddsToRow ground (Grammar.leftHandSide (phrases options size fuel) ctx))
        markup := fun ctx exit =>
          inferInstanceAs (AddsToRow ground (Grammar.markup (phrases options size fuel) ctx exit))
        bindingTarget := fun ctx kind =>
          inferInstanceAs
            (AddsToRow ground (Grammar.bindingTarget (phrases options size fuel) ctx kind))
        statement := fun ctx position =>
          inferInstanceAs
            (AddsToRow ground (Grammar.statement (phrases options size fuel) ctx position))
        listItem := fun ctx =>
          inferInstanceAs (AddsToRow ground (Grammar.listItem (phrases options size fuel) ctx))
        listed := fun _ _ htoken => listItem_isNoClass htoken
        decorated := hdecorated }

theorem laid_initial (options : Options) (observing : Bool) (text : List Char) (decorated : Prop) :
    HasRow ⟨text, decorated⟩ 0 [] (.reached false) (State.initial options observing text) := by
  have hstart := isBoundary_zero text
  exact ⟨⟨⟨situated_initial _ _ _, Nat.zero_le _⟩, hstart, hstart, nofun, nofun, nofun,
    Stack.keepsOffsets_initial, List.forall_mem_nil _, List.forall_mem_nil _⟩, hstart,
      .nil (Nat.zero_le _)⟩

/-- The statements of a program stand in its text. -/
theorem changesRow_program : ChangesRow ground 0 [] (.reached taken)
    (program g (byteLength ground.text)) (fun p => plots p.body) (.reached true) :=
  .take fun _ => .mayAddToRow fun found _ => .skip fun _ => .pure (by cases found; simp)

omit h in
/-- A program is as long as its text. -/
theorem program_span (length : Nat) (s : State) :
    Yields (program g length) (fun p _ => p.span = ⟨0, length⟩) s :=
  .skip fun _ _ => .skip fun _ _ => .skip fun _ _ => .pure rfl

/-- How the reading of a text ends: with a program whose plot fits in the text, or with a failure
between two of its characters. -/
theorem run_addsToRow (options : Options) (observing : Bool) (text : List Char) :
    Meets (AtBoundary text)
      (program (phrases options (text.length + 2) (8 * (text.length + 2))) (byteLength text))
      (fun p _ => p.plot.Fits ⟨text, options.next = true⟩)
        (State.initial options observing text) := by
  have : (phrases options (text.length + 2) (8 * (text.length + 2))).Spans
      ⟨text, options.next = true⟩ := phrases_spans id _ _
  have hstart := laid_initial options observing text (options.next = true)
  refine ((hstart.changesRow changesRow_program).and (program_span _ _)).mono fun p s hp => ?_
  obtain ⟨hlaid, hspan⟩ := hp
  have hrow := hlaid.row.mono (Nat.le_refl 0) hlaid.anchored.isBoundary_previousEnd.le
  unfold Program.plot
  rw [hspan, plotsOfStatements_eq]
  exact .of_node (isBoundary_zero text) (isBoundary_byteLength text) hrow

end Programs

section Texts

variable {options : Options} {text : String}

/-- What is known of the reading of a text: the plot of a program fits in the text, and a failure
stands between two of its characters. -/
abbrev Located (options : Options) (text : String) (found : Except Failure Program) : Prop :=
  Settled text.toList (fun p => p.plot.Fits ⟨text.toList, options.next = true⟩) found

theorem parse_located : Located options text (parse options text) := by
  unfold parse
  split
  · rename_i p s hrun
    exact (run_addsToRow options false text.toList).result hrun
  · rename_i failure s hrun
    exact (run_addsToRow options false text.toList).failure hrun

theorem observe_located : Located options text (observe options text).1 := by
  unfold observe
  split
  · rename_i p s hrun
    exact (run_addsToRow options true text.toList).result hrun
  · rename_i failure s hrun
    exact (run_addsToRow options true text.toList).failure hrun

/-- The spans in a program are nested: every node starts and ends between characters of the text,
the nodes in it are inside it, and no two of them overlap. There are no decorators among them
unless they are enabled. -/
theorem spans_nest {p : Program} (hnext : options.next = false) (h : parse options text = .ok p)
    {q : Plot} (hq : p.plot.Contains q) : q.Nests text.toList ∧ q.isDecorator = false := by
  have hlocated : Located options text (.ok p) := h ▸ parse_located
  have hfits : q.Fits ⟨text.toList, options.next = true⟩ := hlocated.contained hq
  refine ⟨hfits.nests, Bool.eq_false_iff.mpr fun hdecorator => ?_⟩
  have hallowed : options.next = true := hfits.allowed hdecorator
  rw [hnext] at hallowed
  cases hallowed

end Texts

end

/-- An array that a template of two chunks is assigned to. -/
def assignsTemplate : Except Failure Program → Bool
  | .ok ⟨_, _, [.expression _ (.assignment _ _ (.array _ _) (.template _ [_, _] [_])) _]⟩ => true
  | _ => false

/-- A template with a chunk on either side of an expression. -/
theorem spans_nest_template :
    ∃ p q, parse Options.script "[{a = 1}] = `é${b}`" = .ok p ∧ p.plot.Contains q ∧
      q.parts.length = 3 ∧ q.Nests "[{a = 1}] = `é${b}`".toList ∧ q.isDecorator = false := by
  obtain ⟨found, hfound, hshape⟩ : ∃ found,
      parse Options.script "[{a = 1}] = `é${b}`" = found ∧
      assignsTemplate found = true := ⟨_, rfl, by decide +kernel⟩
  unfold assignsTemplate at hshape
  split at hshape
  · have hnests : ∀ {p q}, parse Options.script "[{a = 1}] = `é${b}`" = .ok p → p.plot.Contains q →
        p.plot.Contains q ∧ q.Nests "[{a = 1}] = `é${b}`".toList ∧ q.isDecorator = false :=
      fun hparse hq => ⟨hq, spans_nest rfl hparse hq⟩
    obtain ⟨hq, hfound'⟩ := hnests hfound <| .part (.part (.part .self List.mem_cons_self)
      List.mem_cons_self) (List.mem_cons_of_mem _ List.mem_cons_self)
    exact ⟨_, _, hfound, hq, rfl, hfound'⟩
  · cases hshape

section Decorators

variable {version : Nat} [Unicode.IdentifierChars version] {options : Options} {text : String}

/-- The decorators lie inside the span. -/
abbrev Encloses (span : Span) (decorators : List Decorator) : Prop :=
  ∀ d ∈ decorators, span.start ≤ d.span.start ∧ d.span.stop ≤ span.stop

/-- Decorators that stand first in a node are inside it and before everything else in it. -/
theorem encloses_of_fits {ground : Ground} {span : Span} {decorators : List Decorator}
    {rest : List Plot} (h : (Plot.node span (plots decorators ++ rest)).Fits ground) :
    Encloses span decorators ∧ ∀ d ∈ decorators, ∀ q ∈ rest, d.span.stop ≤ q.start := by
  have hmem : ∀ d ∈ decorators, d.plot ∈ plots decorators := fun d hd =>
    List.mem_flatMap.mpr ⟨d, hd, List.mem_singleton_self _⟩
  have hspan : ∀ d : Decorator, d.plot.span = d.span := fun ⟨_, _⟩ => rfl
  constructor
  · intro d hd
    obtain ⟨hstart, -, hstop⟩ := h.row.order.inside d.plot (List.mem_append_left _ (hmem d hd))
    exact hspan d ▸ ⟨hstart, hstop⟩
  · intro d hd q hq
    exact hspan d ▸ (List.pairwise_append.mp h.row.order.pairwise).2.2 d.plot (hmem d hd) q hq

/-- Decorators lie inside the class or the class element that they decorate, except that those of
an exported class lie inside the export and before the class, on whichever side of the word
`export` they are written. -/
theorem decorators_enclosed {p : Program} (h : parse options text = .ok p) :
    (∀ c : ClassDefinition, p.plot.Contains c.plot → Encloses c.span c.decorators) ∧
    (∀ span isStatic computed key kind value decorators,
      p.plot.Contains (ClassElement.method span isStatic computed key kind value decorators).plot →
        Encloses span decorators) ∧
    (∀ span isStatic computed key value decorators,
      p.plot.Contains (ClassElement.field span isStatic computed key value decorators).plot →
        Encloses span decorators) ∧
    ∀ (span : Span) (c : ClassDefinition),
      p.plot.Contains (Statement.exportDeclaration span (.classDeclaration c)).plot ∨
        p.plot.Contains (Statement.exportDefaultClass span c).plot →
      Encloses span c.decorators ∧ ∀ d ∈ c.decorators, d.span.stop ≤ c.span.start := by
  have hlocated : Located options text (.ok p) := h ▸ parse_located
  have hfits : ∀ {q : Plot}, p.plot.Contains q → q.Fits ⟨text.toList, options.next = true⟩ :=
    fun hq => hlocated.contained hq
  refine ⟨fun c hc => ?_, fun _ _ _ _ _ _ _ hq => ?_, fun _ _ _ _ _ _ hq => ?_, fun span c hc => ?_⟩
  · have hclass := hfits hc
    obtain ⟨span, id, superClass, bodySpan, elements, decorators⟩ := c
    simp only [ClassDefinition.plot, plotsOfDecorators_eq] at hclass
    exact (encloses_of_fits hclass).1
  · have hmethod := hfits hq
    simp only [ClassElement.plot, plotsOfDecorators_eq] at hmethod
    exact (encloses_of_fits hmethod).1
  · have hfield := hfits hq
    simp only [ClassElement.plot, plotsOfDecorators_eq] at hfield
    exact (encloses_of_fits hfield).1
  · have hc : p.plot.Contains (.node span (plots c.decorators ++ [.node c.span c.parts])) := by
      have hdecorators : c.decoratorPlots = plots c.decorators := by
        cases c
        exact plotsOfDecorators_eq _
      rw [← hdecorators]
      rcases hc with hc | hc <;> simpa only [Statement.plot] using hc
    obtain ⟨hinside, hbefore⟩ := encloses_of_fits (hfits hc)
    exact ⟨hinside, fun d hd => hbefore d hd _ (List.mem_singleton_self _)⟩

end Decorators

/-- The export of a class with one decorator. -/
def exportsDecorated : Except Failure Program → Bool
  | .ok ⟨_, _, [.exportDeclaration _ (.classDeclaration ⟨_, _, _, _, _, [_]⟩)]⟩ => true
  | _ => false

/-- A decorator behind the word `export` stands before the class that it decorates. -/
theorem decorators_enclosed_export :
    ∃ p span c d, parse { Options.asModule with next := true } "export @a class B {}" = .ok p ∧
      p.plot.Contains (Statement.exportDeclaration span (.classDeclaration c)).plot ∧
      c.decorators = [d] ∧ span.start ≤ d.span.start ∧ d.span.stop ≤ span.stop ∧
      d.span.stop ≤ c.span.start := by
  obtain ⟨found, hfound, hshape⟩ : ∃ found,
      parse { Options.asModule with next := true } "export @a class B {}" = found ∧
      exportsDecorated found = true := ⟨_, rfl, by decide +kernel⟩
  unfold exportsDecorated at hshape
  split at hshape
  · have hexports : ∀ {p span c},
        parse { Options.asModule with next := true } "export @a class B {}" = .ok p →
        p.plot.Contains (Statement.exportDeclaration span (.classDeclaration c)).plot →
        p.plot.Contains (Statement.exportDeclaration span (.classDeclaration c)).plot ∧
          Encloses span c.decorators ∧ ∀ d ∈ c.decorators, d.span.stop ≤ c.span.start :=
      fun hparse hq => ⟨hq, (decorators_enclosed hparse).2.2.2 _ _ (.inl hq)⟩
    obtain ⟨hcontains, hinside, hbefore⟩ := hexports hfound (.part .self List.mem_cons_self)
    obtain ⟨hstart, hstop⟩ := hinside _ (List.mem_singleton_self _)
    exact ⟨_, _, _, _, hfound, hcontains, rfl, hstart, hstop, hbefore _ (List.mem_singleton_self _)⟩
  · cases hshape

section Failures

variable {version : Nat} [Unicode.IdentifierChars version] {options : Options} {text : String}

/-- A text that spells no program is refused at an offset between two of its characters, so that
the column of the failure is counted in the units of what stands before it on its line. -/
theorem failures_have_positions {failure : Failure}
    (h : parse options text = .error failure ∨ (observe options text).1 = .error failure) :
    failure.offset ≤ byteLength text.toList ∧ IsBoundary text.toList failure.offset ∧
      ∃ piece, (LineMap.ofText text.toList).before? failure.offset = some piece ∧
        (failure.report (.ofText text.toList)).position.column = unitLength piece := by
  have hlocated : Located options text (.error failure) := by
    rcases h with h | h
    · exact h ▸ parse_located
    · exact h ▸ observe_located
  have hoffset : IsBoundary text.toList failure.offset := hlocated
  obtain ⟨piece, hpiece⟩ := LineMap.before?_isSome hoffset
  exact ⟨hoffset.le, hoffset, piece, hpiece, LineMap.position_column hpiece⟩

end Failures

/-- A failure at an offset. -/
def failsAt (offset : Nat) : Except Failure Program → Bool
  | .ok _ => false
  | .error failure => failure.offset == offset

/-- A module that exports a name it never declares, which is known at its end only. -/
theorem failures_have_positions_export :
    ∃ failure piece,
      parse Options.asModule "'ü';\nexport { é as ü, a }; let é" = .error failure ∧
      IsBoundary "'ü';\nexport { é as ü, a }; let é".toList failure.offset ∧
      (failure.report (.ofText "'ü';\nexport { é as ü, a }; let é".toList)).position.column =
        unitLength piece ∧
      failure.offset = 25 ∧ unitLength piece = 17 := by
  obtain ⟨found, hfound, hoffset⟩ : ∃ found, parse Options.asModule
      "'ü';\nexport { é as ü, a }; let é" = found ∧
      failsAt 25 found = true := ⟨_, rfl, by decide +kernel⟩
  unfold failsAt at hoffset
  split at hoffset
  · cases hoffset
  · rename_i failure
    obtain ⟨-, hboundary, piece, hpiece, hcolumn⟩ := failures_have_positions (.inl hfound)
    have hoffset := beq_iff_eq.mp hoffset
    refine ⟨failure, piece, hfound, hboundary, hcolumn, hoffset, ?_⟩
    rw [hoffset] at hpiece
    have hlength : ((LineMap.ofText "'ü';\nexport { é as ü, a }; let é".toList).before? 25).map
        unitLength = some 17 := by decide +kernel
    rw [hpiece] at hlength
    exact Option.some.inj hlength

end EcmaSyntax.Grammar
