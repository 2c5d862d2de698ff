import EcmaSyntax.Proofs.Jumps.Operation

/-!
Statements, loops, imports and exports. Only a statement behind a label can change what
is open: its label may turn out to be that of a loop, and then so are those before it.
Everything else is read where no labels follow each other.
-/

namespace EcmaSyntax.Grammar

open EcmaSyntax.Diagnostic EcmaSyntax.Lexer EcmaSyntax.Scope EcmaSyntax.Tree

variable {version : Nat} [Unicode.IdentifierChars version]

variable {o : Outline}

/-- The step leaves the outline alone, and the jumps in its statement lead somewhere. -/
abbrev Lands (o : Outline) (ctx : Context) (step : Parser Statement) : Prop :=
  Balances o (fun x => Fits o.labels ctx (.statement x)) step

/-- The step reads a loop. -/
abbrev ReadsLoop (o : Outline) (ctx : Context) (step : Parser Statement) : Prop :=
  Balances o (fun x => x.isIteration = true ∧ Fits o.labels ctx (.statement x)) step

section Jumps

/-- What a jump asks for: its label, if it has one, or a place to jump from. -/
def Allows (labels : Labels) (ctx : Context) (isContinue : Bool) : Option Identifier → Prop
  | some label => ∃ isIteration, labels.isIteration? label.name = some isIteration ∧
      (isContinue = true → isIteration = true)
  | none => ctx.inIteration = true ∨ isContinue = false ∧ ctx.inSwitch = true

theorem Fits.jump {labels : Labels} {ctx : Context} {isContinue : Bool}
    {label : Option Identifier} (h : Allows labels ctx isContinue label) (span : Text.Span) :
    Fits labels ctx (.statement
      (if isContinue then .continueStatement span label else .breakStatement span label)) := by
  intro steps hsteps
  refine .node ?_ ?_ ?_
  · cases label with
    | some label =>
      obtain ⟨isIteration, hname, hcontinue⟩ := h
      obtain ⟨step, hstep, isLoop, hlabel, hloop⟩ := hsteps.target _ _ hname
      cases isContinue with
      | true =>
        rw [hloop (hcontinue rfl)] at hlabel
        exact ⟨step, hstep, hlabel⟩
      | false => exact ⟨step, hstep, isLoop, hlabel⟩
    | none =>
      cases isContinue with
      | true => exact hsteps.loop (h.resolve_right nofun)
      | false =>
        rcases h with hloop | ⟨-, hswitch⟩
        · exact (hsteps.loop hloop).imp fun _ => .imp_right .inl
        · exact (hsteps.switch hswitch).imp fun _ => .imp_right .inr
  · cases isContinue <;> exact nofun
  · cases isContinue <;> exact nofun

/-- A name is that of the current token. -/
theorem identifier_yields (s : State) : Yields identifier
    (fun id s' => s'.outline = s.outline ∧ id.name = s.lexer.value.text) s := by
  unfold identifier
  refine .run rfl (.run rfl ((Plain.touches s).bind fun _ s' hs' => ?_))
  exact .run rfl (.pure ⟨hs'.outline, rfl⟩)

theorem balances_jumpLabel (ctx : Context) (isContinue : Bool) :
    Balances o (fun label => Allows o.labels ctx isContinue (some label))
      (jumpLabel isContinue) := by
  intro s hs
  unfold jumpLabel
  refine .run rfl (.run rfl ?_)
  split
  · exact (stops_fail _).yields
  · rename_i isIteration hname
    split
    · exact (stops_fail _).bind
    · rename_i hcontinue
      refine (identifier_yields s).mono fun id s' hid => ⟨hid.1.trans hs, isIteration, ?_, ?_⟩
      · rw [hid.2, ← hs]
        exact hname
      · simpa using hcontinue

theorem balances_checkJump (ctx : Context) (start : Nat) (isContinue : Bool) :
    Balances o (fun _ => Allows o.labels ctx isContinue none) (checkJump ctx start isContinue) := by
  unfold checkJump
  split
  · split
    · exact .pure (.inl ‹_›)
    · exact (stops_failAt _ _).preserves
  · split
    · rename_i hjump hplace
      refine .pure ((Bool.or_eq_true_iff.mp hplace).imp_right fun hswitch => ⟨?_, hswitch⟩)
      exact Bool.eq_false_iff.mpr hjump
    · exact (stops_failAt _ _).preserves

theorem jump_lands (ctx : Context) (start : Nat) (isContinue : Bool) :
    Lands o ctx (jump ctx start isContinue) := by
  unfold jump
  refine .skip fun _ => .skip fun token => .skip fun lineBreak => ?_
  extract_lets rest
  have hrest : ∀ label, Allows o.labels ctx isContinue label → Lands o ctx (rest label) :=
    fun label hlabel => .skip fun _ => .skip fun span => .pure (.jump hlabel span)
  split
  · exact Preserves.bind (.map (balances_jumpLabel ctx isContinue)) hrest
  · exact (balances_checkJump ctx start isContinue).bind fun _ h => hrest none h

end Jumps

section Labels

/-- What is open behind a label. Labels that follow each other begin at the same place. -/
def Outline.openLabel (o : Outline) (name : String) : Outline :=
  { o with
    labels := o.labels ++ [⟨name, false⟩]
    labelChain := some (o.labelChain.getD o.labels.length) }

theorem Outline.settle_none (h : o.labelChain = none) (marked : Bool) : o.settle marked = o := by
  obtain ⟨scopes, classes, labels, labelChain, depth⟩ := o
  obtain rfl : labelChain = none := h
  simp [settle, Labels.markIteration_length]

/-- Where a statement that is no label in a chain is read. -/
theorem Outline.Admits.of_none {ctx : Context} {x : Statement} {o' : Outline}
    (h : o.labelChain = none) : o.Admits ctx x o' ↔ o' = o ∧ Fits o.labels ctx (.statement x) := by
  refine ⟨fun ⟨⟨marked, _, hafter⟩, hfits⟩ => ?_, fun ⟨hafter, hfits⟩ => ⟨⟨false, nofun, ?_⟩, ?_⟩⟩
  · rw [settle_none h] at hafter
    exact ⟨hafter, hafter ▸ hfits⟩
  · rw [settle_none h, hafter]
  · rwa [hafter]

section Chains

variable {name : String} {marked : Bool} (h : o.labelChain.getD o.labels.length ≤ o.labels.length)

include h

theorem Outline.labels_openLabel : ((o.openLabel name).settle marked).labels =
    (o.settle marked).labels ++ [⟨name, marked⟩] := by
  cases marked with
  | false => rfl
  | true => exact Labels.markIteration_append h _

/-- What is left when the label is closed again. -/
theorem Outline.pop_openLabel :
    { (o.openLabel name).settle marked with
      labels := ((o.openLabel name).settle marked).labels.pop } = o.settle marked := by
  rw [labels_openLabel h, Labels.pop, List.dropLast_concat]
  rfl

end Chains

theorem Lands.admits {ctx : Context} {step : Parser Statement} {s : State}
    (h : Lands s.outline ctx step) (hs : s.labelChain = none) :
    Yields step (fun x s' => s.outline.Admits ctx x s'.outline) s :=
  (h s rfl).mono fun _ _ hx => (Outline.Admits.of_none hs).mpr hx

/-- Labels that follow each other begin where there is one. -/
theorem Chained.chain_le {s : State} (h : Chained s) :
    s.outline.labelChain.getD s.outline.labels.length ≤ s.outline.labels.length := by
  cases hchain : s.outline.labelChain with
  | none => exact Nat.le_refl _
  | some first => exact (h first hchain).1

theorem Chained.of_none {s : State} (h : s.labelChain = none) : Chained s := by
  intro first hfirst
  rw [h] at hfirst
  cases hfirst

/-- Where no label stands, none came right before. -/
theorem Chained.none_of {s : State} (h : Chained s)
    (hlabel : ¬ (s.token.isIdentifier = true ∧ s.lexer.following = .colon)) :
    s.labelChain = none := by
  cases hchain : s.labelChain with
  | none => rfl
  | some first => exact absurd (h first hchain).2 hlabel

theorem peekNext_run (s : State) : ∃ flags now,
    peekNext s = .ok (s.lexer.following, flags) { s with lexer := s.lexer.restore now } := by
  obtain ⟨flags, now, hpeek⟩ := peek_following s.lexer
  refine ⟨flags, now, ?_⟩
  simp only [peekNext, withLexer, hpeek]

theorem peekToken_run (s : State) : ∃ now,
    peekToken s = .ok s.lexer.following { s with lexer := s.lexer.restore now } := by
  obtain ⟨flags, now, hpeek⟩ := peekNext_run s
  exact ⟨now, bind_of_ok hpeek⟩

/-- Behind a label that is just opened, either another label or something else stands. -/
theorem openLabel_yields (name : String) (start : Nat) {s : State}
    (hchain : s.outline.labelChain.getD s.outline.labels.length ≤ s.outline.labels.length) :
    Yields (openLabel name start) (fun _ s' => s.labels.contains name = false ∧ Chained s' ∧
      (s'.outline = s.outline.openLabel name ∨
        ∃ marked, (marked = true → startsLoop s'.token = true) ∧
          s'.outline = (s.outline.openLabel name).settle marked)) s := by
  unfold openLabel
  refine .run rfl (.run rfl ?_)
  split
  · exact (stops_failAt _ _).yields
  · rename_i labels hpush
    obtain ⟨hnew, rfl⟩ : s.labels.contains name = false ∧ s.labels ++ [⟨name, false⟩] = labels := by
      simpa [Labels.push?] using hpush
    refine .run rfl (.run rfl (.run rfl ?_))
    split
    · rename_i hloop
      refine .ok rfl ⟨hnew, .of_none rfl, .inr ⟨true, fun _ => ?_, rfl⟩⟩
      exact (Bool.and_eq_true_iff.mp hloop).1
    · split
      · rename_i hidentifier
        refine (peekToken_run _).elim fun now hpeek => .run hpeek ?_
        split
        · rename_i hcolon
          refine .ok rfl ⟨hnew, ?_, .inl rfl⟩
          rintro _ ⟨⟩
          refine ⟨?_, hidentifier, beq_iff_eq.mp hcolon⟩
          rw [List.length_append]
          exact Nat.le_add_right_of_le hchain
        · exact .pure ⟨hnew, .of_none rfl, .inr ⟨false, by rintro ⟨⟩, rfl⟩⟩
      · exact .pure ⟨hnew, .of_none rfl, .inr ⟨false, by rintro ⟨⟩, rfl⟩⟩

end Labels

namespace Phrases.Targets

variable {g : Phrases} (hg : g.Targets)

include hg

theorem block (ctx : Context) (role : Role) (ho : o.labelChain = none) :
    Balances o (fun found => ∀ x ∈ found.2, Fits o.labels ctx (.statement x))
      (block g ctx role) := by
  unfold Grammar.block
  refine .skip fun start => .skip fun _ => Preserves.bind
    (P := fun body => ∀ x ∈ body, Fits o.labels ctx (.statement x)) (Balances.inScope ?_)
    fun body hbody => .skip fun span => .pure hbody
  refine Preserves.bind (itemsUpTo_preserves .rightBrace (hg.listItem _ ho)) fun body hbody => ?_
  exact .skip fun _ => .pure hbody

theorem variableDeclarator (ctx : Context) (kind : VariableKind) :
    Confines o .declarator (variableDeclarator g ctx kind) := by
  unfold Grammar.variableDeclarator
  refine .skip fun start => (hg.bindingTarget ctx _).bind fun target htarget => ?_
  refine .skip fun hasValue => ?_
  extract_lets rest
  have hrest : ∀ init, (∀ e ∈ init, Enclosed (.expression e)) →
      Confines o .declarator (rest init) := by
    intro init hinit
    refine .skip fun span => .pure (.node trivial ?_)
    exact List.forall_mem_cons.mpr ⟨htarget, Node.every_ofOption hinit⟩
  split
  · exact (hg.assignment ctx).optional.bind hrest
  · exact Preserves.bind (.pure nofun) hrest

theorem variableDeclarators (ctx : Context) (kind : VariableKind) (inHead : Bool) :
    ConfinesAll o .declarator (variableDeclarators g ctx kind inHead) := by
  refine collect_preserves fun earlier _ => (hg.variableDeclarator ctx kind).bind fun d hd => ?_
  extract_lets rest
  have hrest : ∀ u, Balances o (Round.Adds fun d => Enclosed (.declarator d)) (rest u) := by
    intro u
    refine .skip fun atComma => ?_
    split
    · exact .pure hd
    · exact .pure hd
  split
  · exact .skip hrest
  · exact hrest ()

theorem variableStatement (ctx : Context) (kind : VariableKind) :
    Lands o ctx (variableStatement g ctx kind) := by
  unfold Grammar.variableStatement
  refine .skip fun start => .skip fun _ => ?_
  refine (hg.variableDeclarators ctx kind false).bind fun found hfound => ?_
  exact .skip fun _ => .skip fun span => .pure
    (.node rfl (List.forall_mem_map.mpr fun d hd => .of_enclosed rfl (hfound d hd)))

theorem parenExpression (ctx : Context) : Confines o .expression (parenExpression g ctx) := by
  unfold Grammar.parenExpression
  exact .skip fun _ => (hg.expression ctx.withIn).bind fun e he => .skip fun _ => .pure he

/-- A statement where no labels come right before. -/
theorem statement_lands (ctx : Context) (position : Position) (ho : o.labelChain = none) :
    Lands o ctx (g.statement ctx position) := by
  intro s hs
  have hnone : s.outline.labelChain = none := hs ▸ ho
  refine (hg.statement ctx position s (.of_none hnone)).mono fun x s' hx => ?_
  obtain ⟨hafter, hfits⟩ := (Outline.Admits.of_none hnone).mp hx.1
  exact ⟨hafter.trans hs, hs ▸ hfits⟩

theorem loopBody (ctx : Context) (ho : o.labelChain = none) :
    Lands o { ctx with inIteration := true } (loopBody g ctx) :=
  hg.statement_lands _ _ ho

theorem ifStatement (ctx : Context) (start : Nat) (ho : o.labelChain = none) :
    Lands o ctx (ifStatement g ctx start) := by
  unfold Grammar.ifStatement
  refine .skip fun _ => (hg.parenExpression ctx).bind fun test htest => ?_
  refine (hg.statement_lands ctx .ifBody ho).bind fun consequent hconsequent => ?_
  refine .skip fun hasElse => ?_
  split
  · refine (hg.statement_lands ctx .ifBody ho).bind fun alternate halternate => .skip fun span => ?_
    refine .pure (.node rfl (List.forall_mem_cons.mpr ⟨.expression htest, ?_⟩))
    exact List.forall_mem_cons.mpr ⟨hconsequent, List.forall_mem_singleton.mpr halternate⟩
  · refine .skip fun span => .pure (.node rfl (List.forall_mem_cons.mpr ⟨.expression htest, ?_⟩))
    exact List.forall_mem_singleton.mpr hconsequent

theorem whileStatement (ctx : Context) (start : Nat) (ho : o.labelChain = none) :
    ReadsLoop o ctx (whileStatement g ctx start) := by
  unfold Grammar.whileStatement
  refine .skip fun _ => (hg.parenExpression ctx).bind fun test htest => ?_
  refine (hg.loopBody ctx ho).bind fun body hbody => .skip fun span => .pure ⟨rfl, ?_⟩
  refine .loop rfl hbody (List.forall_mem_cons.mpr ⟨.inr ⟨rfl, htest⟩, ?_⟩)
  exact List.forall_mem_singleton.mpr (.inl rfl)

theorem doWhileStatement (ctx : Context) (start : Nat) (ho : o.labelChain = none) :
    ReadsLoop o ctx (doWhileStatement g ctx start) := by
  unfold Grammar.doWhileStatement
  refine .skip fun _ => (hg.loopBody ctx ho).bind fun body hbody => .skip fun _ => ?_
  refine (hg.parenExpression ctx).bind fun test htest => .skip fun hasEnd => ?_
  extract_lets rest
  have hrest : ∀ u, ReadsLoop o ctx (rest u) := by
    refine fun u => .skip fun span => .pure ⟨rfl, .loop rfl hbody ?_⟩
    exact List.forall_mem_cons.mpr ⟨.inl rfl, List.forall_mem_singleton.mpr (.inr ⟨rfl, htest⟩)⟩
  split
  · exact .skip hrest
  · exact hrest ()

theorem returnStatement (ctx : Context) (start : Nat) :
    Lands o ctx (returnStatement g ctx start) := by
  unfold Grammar.returnStatement
  refine (stops_fail _).preserves_guard
    (.skip fun _ => .skip fun token => .skip fun lineBreak => ?_)
  extract_lets rest
  have hrest : ∀ argument, (∀ e ∈ argument, Enclosed (.expression e)) →
      Lands o ctx (rest argument) := by
    intro argument hargument
    refine .skip fun _ => .skip fun span => .pure (.node rfl ?_)
    exact Fits.ofOption hargument
  split
  · exact Preserves.bind (.pure nofun) hrest
  · exact (hg.expression ctx).optional.bind hrest

theorem withStatement (ctx : Context) (start : Nat) (ho : o.labelChain = none) :
    Lands o ctx (withStatement g ctx start) := by
  unfold Grammar.withStatement
  refine (stops_fail _).preserves_guard (.skip fun _ => ?_)
  refine (hg.parenExpression ctx).bind fun object hobject => ?_
  refine (hg.statement_lands ctx .single ho).bind fun body hbody => ?_
  extract_lets rest
  have hrest : ∀ u, Lands o ctx (rest u) := by
    refine fun u => .skip fun span => .pure (.node rfl ?_)
    exact List.forall_mem_cons.mpr ⟨.expression hobject, List.forall_mem_singleton.mpr hbody⟩
  split
  · exact (stops_failAt _ _).preserves_guard (hrest ())
  · exact hrest ()

theorem caseTest (ctx : Context) (earlier : List SwitchCase) :
    Balances o (fun test => ∀ e ∈ test, Enclosed (.expression e)) (caseTest g ctx earlier) := by
  unfold Grammar.caseTest
  refine .skip fun token => ?_
  split
  · exact .skip fun _ => (hg.expression ctx.withIn).optional
  · exact (stops_fail _).preserves_guard (.skip fun _ => .pure nofun)
  · exact stops_unexpected.preserves

theorem switchCase (ctx : Context) (earlier : List SwitchCase) (ho : o.labelChain = none) :
    Balances o (fun c => Fits o.labels { ctx with inSwitch := true } (.switchCase c))
      (switchCase g ctx earlier) := by
  unfold Grammar.switchCase
  refine .skip fun start => (hg.caseTest ctx earlier).bind fun test htest => .skip fun _ => ?_
  refine Preserves.bind (collect_preserves (P := fun x =>
    Fits o.labels { ctx with inSwitch := true } (.statement x)) fun earlier _ => ?_)
    fun found hfound => .skip fun span => .pure (.node rfl ?_)
  · refine .skip fun token => ?_
    split
    · exact .pure trivial
    · exact (hg.listItem _ ho).bind fun x hx => .pure hx
  · refine List.forall_mem_append.mpr ⟨Fits.ofOption htest, ?_⟩
    exact List.forall_mem_map.mpr hfound

theorem switchStatement (ctx : Context) (start : Nat) (ho : o.labelChain = none) :
    Lands o ctx (switchStatement g ctx start) := by
  unfold Grammar.switchStatement
  refine .skip fun _ => (hg.parenExpression ctx).bind fun e he => .skip fun _ => ?_
  refine Preserves.bind (P := fun found => ∀ c ∈ found,
    Fits o.labels { ctx with inSwitch := true } (.switchCase c)) (Balances.inScope ?_)
    fun found hfound => .skip fun span => .pure (.switch he hfound)
  refine Preserves.bind (collect_preserves (P := fun c =>
    Fits o.labels { ctx with inSwitch := true } (.switchCase c)) fun earlier _ => ?_)
    fun found hfound => .skip fun _ => .pure hfound
  refine .skip fun atClose => ?_
  split
  · exact .pure trivial
  · exact Preserves.bind (hg.switchCase ctx earlier ho) fun c hc => .pure hc

theorem throwStatement (ctx : Context) (start : Nat) :
    Lands o ctx (throwStatement g ctx start) := by
  unfold Grammar.throwStatement
  refine .skip fun _ => .skip fun lineBreak => (stops_fail _).preserves_guard ?_
  refine (hg.expression ctx).bind fun e he => .skip fun _ => .skip fun span => ?_
  exact .pure (.node rfl (List.forall_mem_singleton.mpr (.expression he)))

theorem catchClause (ctx : Context) (ho : o.labelChain = none) :
    Balances o (fun c => Fits o.labels ctx (.catchClause c)) (catchClause g ctx) := by
  unfold Grammar.catchClause
  refine .skip fun start => .skip fun _ => Balances.inScope (.skip fun hasParam => ?_)
  extract_lets rest
  have hrest : ∀ param, (∀ p ∈ param, Enclosed (.pattern p)) →
      Balances { o with scopes := [.catchParam] :: o.scopes }
        (fun c => Fits o.labels ctx (.catchClause c)) (rest param) := by
    intro param hparam
    refine Preserves.bind (hg.block ctx .catchBody ho) fun found hbody => ?_
    cases param with
    | none => exact .skip fun span => .pure (.node rfl (List.forall_mem_map.mpr hbody))
    | some p =>
      refine .skip fun span => .pure (.node rfl (List.forall_mem_cons.mpr ⟨?_, ?_⟩))
      · exact .of_enclosed rfl (hparam p rfl)
      · exact List.forall_mem_map.mpr hbody
  split
  · refine .skip fun token => (hg.bindingTarget ctx _).bind fun p hp => .skip fun _ => ?_
    exact Preserves.bind (.pure (by simpa using hp)) hrest
  · exact Preserves.bind (.pure nofun) hrest

theorem tryStatement (ctx : Context) (start : Nat) (ho : o.labelChain = none) :
    Lands o ctx (tryStatement g ctx start) := by
  unfold Grammar.tryStatement
  refine .skip fun _ => (hg.block ctx .block ho).bind fun r hbody => .skip fun hasHandler => ?_
  obtain ⟨blockSpan, body⟩ := r
  extract_lets rest
  have hrest : ∀ handler, (∀ c ∈ handler, Fits o.labels ctx (.catchClause c)) →
      Lands o ctx (rest handler) := by
    intro handler hhandler
    refine .skip fun hasFinalizer => ?_
    extract_lets last
    have hlast : ∀ finalizer, (∀ r ∈ finalizer, ∀ x ∈ r.2, Fits o.labels ctx (.statement x)) →
        Lands o ctx (last finalizer) := by
      intro finalizer hfinalizer
      have hboth : ∀ r ∈ finalizer, ∀ n ∈ body.map Node.statement ++ r.2.map Node.statement,
          Fits o.labels ctx n := fun r hr => List.forall_mem_append.mpr
        ⟨List.forall_mem_map.mpr hbody, List.forall_mem_map.mpr (hfinalizer r hr)⟩
      refine .skip fun span => ?_
      split
      · exact (stops_fail _).preserves
      · exact .pure (.node rfl (List.forall_mem_cons.mpr
          ⟨hhandler _ rfl, List.forall_mem_map.mpr hbody⟩))
      · exact .pure (.node rfl (hboth _ rfl))
      · exact .pure (.node rfl (List.forall_mem_cons.mpr ⟨hhandler _ rfl, hboth _ rfl⟩))
    split
    · exact (hg.block ctx .block ho).optional.bind hlast
    · exact Preserves.bind (.pure nofun) hlast
  split
  · exact (hg.catchClause ctx ho).optional.bind hrest
  · exact Preserves.bind (.pure nofun) hrest

/-- The statement behind a label that is just opened. -/
theorem labeledBody (ctx : Context) (position : Position) {opened : Outline} {s : State}
    (hs : Chained s) (hopened : s.outline = opened ∨
      ∃ marked, (marked = true → startsLoop s.token = true) ∧
        s.outline = opened.settle marked) :
    Yields (g.statement ctx position) (fun x s' => ∃ marked, (marked = true → x.isLoop = true) ∧
      s'.outline = opened.settle marked ∧ Fits s'.outline.labels ctx (.statement x)) s := by
  refine (hg.statement ctx position s hs).mono fun x s' hx => ?_
  obtain ⟨hadmits, hloop⟩ := hx
  rcases hopened with rfl | ⟨marked, hmarked, hsettled⟩
  · obtain ⟨marked, hmarked, hafter⟩ := hadmits.after
    exact ⟨marked, hmarked, hafter, hadmits.fits⟩
  · have hnone : s.outline.labelChain = none := by rw [hsettled]; rfl
    obtain ⟨hafter, hfits⟩ := (Outline.Admits.of_none hnone).mp hadmits
    exact ⟨marked, fun h => hloop (hmarked h), hafter.trans hsettled, hadmits.fits⟩

theorem labeledStatement (ctx : Context) (start : Nat) (position : Position) {s : State}
    (hs : Chained s) : Yields (labeledStatement g ctx start position)
      (fun x s' => s.outline.Admits ctx x s'.outline) s := by
  unfold Grammar.labeledStatement
  refine .run rfl ((Plain.touches s).bind fun _ s₁ hs₁ => ?_)
  refine (Plain.touches s₁).bind fun label s₂ hs₂ => ?_
  refine (Plain.touches s₂).bind fun _ s₃ hs₃ => ?_
  have hopen := hs₃.outline.trans (hs₂.outline.trans hs₁.outline)
  have hchain := hs.chain_le
  rw [← hopen] at hchain
  refine (openLabel_yields label.name start hchain).bind fun _ s₄ hs₄ => ?_
  obtain ⟨hnew, hchained, hopened⟩ := hs₄
  refine (hg.labeledBody ctx _ hchained hopened).bind fun body s₅ hbody => .run rfl (.run rfl ?_)
  obtain ⟨marked, hmarked, hafter, hfits⟩ := hbody
  rw [← hopen]
  refine .pure ⟨⟨marked, hmarked, ?_⟩, ?_⟩
  · change { s₅.outline with labels := s₅.outline.labels.pop } = _
    rw [hafter, Outline.pop_openLabel hchain]
  · change Fits s₅.outline.labels.pop ctx _
    rw [hafter, Outline.labels_openLabel hchain] at hfits
    rw [hafter, Outline.labels_openLabel hchain, Labels.pop, List.dropLast_concat]
    refine .labeled ?_ hmarked hfits
    cases marked with
    | false => exact hnew
    | true => exact (Labels.contains_markIteration ..).trans hnew

theorem expressionStatement (ctx : Context) (start : Nat) : Lands o ctx (do
    let e ← g.expression ctx
    endStatement
    return .expression (← spanFrom start) e none) :=
  (hg.expression ctx).bind fun _ he => .skip fun _ => .skip fun _ =>
    .pure (.node rfl (List.forall_mem_singleton.mpr (.expression he)))

theorem expressionOrLabeled (ctx : Context) (start : Nat) (position : Position) {s : State}
    (hs : Chained s) : Yields (expressionOrLabeled g ctx start position)
      (fun x s' => s.outline.Admits ctx x s'.outline) s := by
  unfold Grammar.expressionOrLabeled
  refine .run rfl ?_
  cases hidentifier : s.token.isIdentifier with
  | false =>
    refine .run rfl ?_
    exact (hg.expressionStatement ctx start).admits (hs.none_of (by simp [hidentifier]))
  | true =>
    obtain ⟨now, hpeek⟩ := peekToken_run s
    refine .run (bind_of_ok hpeek) ?_
    split
    · exact hg.labeledStatement ctx start position (s := { s with lexer := s.lexer.restore now }) hs
    · rename_i hcolon
      refine Lands.admits (s := { s with lexer := s.lexer.restore now })
        (hg.expressionStatement ctx start) (hs.none_of ?_)
      simpa using fun _ => hcolon

omit hg in
theorem functionStatement {ctx : Context} {step : Parser Function} (h : Confines o .function step) :
    Lands o ctx (do return .function (← step)) :=
  h.bind fun _ hf => .pure (.node rfl (List.forall_mem_singleton.mpr (.of_enclosed rfl hf)))

theorem classStatement (ctx : Context) (start : Nat) {found : List Decorator}
    (hfound : ∀ d ∈ found, Enclosed (.decorator d)) :
    Lands o ctx (do
      return .classDeclaration (← Grammar.classDefinition g ctx start true found false)) :=
  (hg.classDefinition ctx start true hfound false).bind fun _ hc =>
    .pure (.node rfl (List.forall_mem_singleton.mpr (.of_enclosed rfl hc)))

theorem misplacedFunction (ctx : Context) (position : Position) :
    Lands o ctx (misplacedFunction g ctx position) := by
  unfold Grammar.misplacedFunction
  refine .skip fun following => (stops_fail _).preserves_guard ((stops_fail _).preserves_guard ?_)
  split
  · exact functionStatement (.inScope (hg.functionDeclaration ctx false true))
  · exact functionStatement (hg.functionDeclaration ctx false true)

theorem forRest (ctx : Context) (start : Nat) {init : ForHead} (hinit : Enclosed (.forHead init))
    (ho : o.labelChain = none) : ReadsLoop o ctx (forRest g ctx start init) := by
  unfold Grammar.forRest
  refine .skip fun _ => .skip fun noTest => ?_
  extract_lets rest
  have hrest : ∀ test, (∀ e ∈ test, Enclosed (.expression e)) → ReadsLoop o ctx (rest test) := by
    intro test htest
    refine .skip fun _ => .skip fun noUpdate => ?_
    extract_lets last
    have hlast : ∀ update, (∀ e ∈ update, Enclosed (.expression e)) →
        ReadsLoop o ctx (last update) := by
      intro update hupdate
      have hparts : ∀ {e : Option Expression}, (∀ x ∈ e, Enclosed (.expression x)) →
          ∀ n ∈ Node.ofOption e, n.isStatement = false ∧ Enclosed n := by
        intro e he n hn
        obtain ⟨x, hx, rfl⟩ := List.mem_map.mp hn
        exact ⟨rfl, he x (Option.mem_toList.mp hx)⟩
      refine .skip fun _ => (hg.loopBody ctx ho).bind fun body hbody => .skip fun span => ?_
      refine .pure ⟨rfl, .loop rfl hbody (List.forall_mem_cons.mpr ⟨.inr ⟨rfl, hinit⟩, ?_⟩)⟩
      refine List.forall_mem_cons.mpr ⟨.inl rfl, List.forall_mem_append.mpr ⟨?_, ?_⟩⟩
      · exact fun n hn => .inr (hparts htest n hn)
      · exact fun n hn => .inr (hparts hupdate n hn)
    split
    · exact Preserves.bind (.pure nofun) hlast
    · exact (hg.expression ctx.withIn).optional.bind hlast
  split
  · exact Preserves.bind (.pure nofun) hrest
  · exact (hg.expression ctx.withIn).optional.bind hrest

theorem forEach (ctx : Context) (start : Nat) {left : ForHead} (hleft : Enclosed (.forHead left))
    (isOf isAwait : Bool) (ho : o.labelChain = none) :
    ReadsLoop o ctx (forEach g ctx start left isOf isAwait) := by
  unfold Grammar.forEach
  refine .skip fun _ => ?_
  extract_lets rest
  have hrest : ∀ right, Enclosed (.expression right) → ReadsLoop o ctx (rest right) := by
    intro right hright
    refine .skip fun _ => (hg.loopBody ctx ho).bind fun body hbody => .skip fun span => .pure ?_
    have hparts : ∀ n ∈ [Node.forHead left, .expression right, .statement body],
        n = .statement body ∨ n.isStatement = false ∧ Enclosed n :=
      List.forall_mem_cons.mpr ⟨.inr ⟨rfl, hleft⟩, List.forall_mem_cons.mpr
        ⟨.inr ⟨rfl, hright⟩, List.forall_mem_singleton.mpr (.inl rfl)⟩⟩
    split
    · exact ⟨rfl, .loop rfl hbody hparts⟩
    · exact ⟨rfl, .loop rfl hbody hparts⟩
  split
  · exact (hg.assignment ctx.withIn).bind hrest
  · exact (hg.expression ctx.withIn).bind hrest

theorem forVariables (ctx : Context) (start : Nat) (isAwait : Bool) (kind : VariableKind)
    (ho : o.labelChain = none) : ReadsLoop o ctx (forVariables g ctx start isAwait kind) := by
  unfold Grammar.forVariables
  refine .skip fun initStart => .skip fun _ => ?_
  refine (hg.variableDeclarators _ kind true).bind fun found hfound => .skip fun span => ?_
  have hhead : Enclosed (.forHead (.variables span kind found)) := .list trivial hfound rfl
  refine .skip fun isOf => .skip fun _ => ?_
  split
  · exact .skip fun _ => hg.forEach ctx start hhead _ isAwait ho
  · exact .skip fun _ => hg.forRest ctx start hhead ho

theorem forExpression (ctx : Context) (start : Nat) (isAwait : Bool) (ho : o.labelChain = none) :
    ReadsLoop o ctx (forExpression g ctx start isAwait) := by
  unfold Grammar.forExpression
  refine .skip fun initStart => .skip fun startsWithLet => ?_
  refine (hg.assignmentCover _).bind fun e he => .skip fun isOf => .skip fun _ => ?_
  split
  · refine (stops_failAt _ _).preserves_guard (.skip fun isMarked => ?_)
    refine (stops_failAt _ _).preserves_guard ?_
    refine (patternTarget ctx he _).bind fun target htarget => ?_
    exact hg.forEach ctx start (.single trivial htarget rfl) _ isAwait ho
  · refine .skip fun _ => (hg.sequenceAfter _ initStart he).bind fun init hinit => ?_
    exact hg.forRest ctx start (.single trivial hinit rfl) ho

theorem forHead (ctx : Context) (start : Nat) (isAwait : Bool) (ho : o.labelChain = none) :
    ReadsLoop o ctx (forHead g ctx start isAwait) := by
  unfold Grammar.forHead
  refine .skip fun atSemicolon => ?_
  split
  · exact .skip fun _ => hg.forRest ctx start (.leaf trivial rfl) ho
  · refine .skip fun kind => ?_
    split
    · exact hg.forVariables ctx start isAwait _ ho
    · exact hg.forExpression ctx start isAwait ho

theorem forStatement (ctx : Context) (start : Nat) (ho : o.labelChain = none) :
    ReadsLoop o ctx (forStatement g ctx start) := by
  unfold Grammar.forStatement
  refine .skip fun _ => .skip fun isAwait => ?_
  have hhead : ReadsLoop o ctx (expect .leftParen >>= fun _ =>
      inScope [.forHead] (Grammar.forHead g ctx start isAwait)) :=
    .skip fun _ => Balances.inScope (hg.forHead ctx start isAwait ho)
  split
  · exact stops_unexpected.preserves_guard (.skip fun offset => .skip fun _ => .skip fun _ => hhead)
  · exact hhead

omit hg in
theorem importDeclaration (ctx : Context) : Lands o ctx (importDeclaration g ctx) := by
  unfold Grammar.importDeclaration
  refine .skip fun start => .skip fun _ => .skip fun bare => ?_
  extract_lets rest
  have hrest : ∀ r, Lands o ctx (rest r) := fun r =>
    .skip fun _ => .skip fun span => .pure (.node rfl nofun)
  split
  · exact .skip fun source => .skip hrest
  · exact .skip fun specifiers => .skip fun source => .skip hrest

omit hg in
theorem exportAll (ctx : Context) (start : Nat) : Lands o ctx (exportAll g ctx start) := by
  unfold Grammar.exportAll
  refine .skip fun _ => .skip fun named => ?_
  extract_lets rest
  have hrest : ∀ name, Lands o ctx (rest name) := fun name =>
    .skip fun source => .skip fun _ => .skip fun span => .pure (.node rfl nofun)
  split
  · exact .skip fun _ => .skip fun start => .skip fun name => .skip fun _ => .skip hrest
  · exact .skip hrest

omit hg in
theorem exportNames (ctx : Context) (start : Nat) :
    Lands o ctx (exportNames g ctx start) := by
  unfold Grammar.exportNames
  refine .skip fun _ => .skip fun entries => .skip fun _ => .skip fun named => ?_
  extract_lets rest
  have hrest : ∀ found, Lands o ctx (rest found) := by
    intro found
    unfold rest
    extract_lets last
    have hlast : ∀ u, Lands o ctx (last u) := fun u =>
      .skip fun _ => .skip fun _ => .skip fun span => .pure (.node rfl nofun)
    split
    · exact .skip hlast
    · exact hlast ()
  split
  · exact .skip fun _ => .skip hrest
  · exact .skip hrest

theorem exportDecorators (ctx : Context) {before : List Decorator}
    (hbefore : ∀ d ∈ before, Enclosed (.decorator d)) :
    ConfinesAll o .decorator (exportDecorators g ctx before) := by
  unfold Grammar.exportDecorators
  refine .skip fun atSign => ?_
  split
  · exact (stops_fail _).preserves_guard (hg.decorators ctx)
  · exact .pure hbefore

theorem exportDefault (ctx : Context) (start : Nat) {before : List Decorator}
    (hbefore : ∀ d ∈ before, Enclosed (.decorator d)) :
    Lands o ctx (exportDefault g ctx start before) := by
  have hfunction : ∀ isAsync, Lands o ctx (do
      let value ← Grammar.functionDeclaration g ctx isAsync false
      return .exportDefaultFunction (← spanFrom start) value) := fun isAsync =>
    (hg.functionDeclaration ctx isAsync false).bind fun value hvalue =>
      .skip fun span => .pure (.node rfl (List.forall_mem_singleton.mpr (.of_enclosed rfl hvalue)))
  unfold Grammar.exportDefault
  refine .skip fun keywordStart => .skip fun _ => ?_
  refine (hg.exportDecorators ctx hbefore).bind fun found hfound => ?_
  refine .skip fun _ => .skip fun valueStart => .skip fun atClass => ?_
  split
  · refine (hg.classDefinition ctx valueStart true hfound true).bind fun value hvalue => ?_
    exact .skip fun span =>
      .pure (.node rfl (List.forall_mem_singleton.mpr (.of_enclosed rfl hvalue)))
  · refine (stops_fail _).preserves_guard (.skip fun atFunction => ?_)
    split
    · exact hfunction false
    · refine .skip fun atAsync => ?_
      split
      · exact hfunction true
      · refine (hg.assignment ctx).bind fun e he => .skip fun _ => .skip fun span => ?_
        exact .pure (.node rfl (List.forall_mem_singleton.mpr (.expression he)))

theorem exportedDeclaration (ctx : Context) {found : List Decorator}
    (hfound : ∀ d ∈ found, Enclosed (.decorator d)) (ho : o.labelChain = none) :
    Lands o ctx (exportedDeclaration g ctx found) := by
  unfold Grammar.exportedDeclaration
  refine .skip fun start => .skip fun token => ?_
  split
  case h_1 | h_2 | h_3 => exact hg.listItem ctx ho
  · refine .skip fun escaped => ?_
    split
    · exact stops_unexpected.preserves
    · exact hg.listItem ctx ho
  · refine .skip fun atAsync => ?_
    split
    · exact hg.listItem ctx ho
    · exact stops_unexpected.preserves
  · exact hg.classStatement ctx start hfound
  · exact stops_unexpected.preserves

theorem exportDeclaration (ctx : Context) (start : Nat) {found : List Decorator}
    (hfound : ∀ d ∈ found, Enclosed (.decorator d)) (ho : o.labelChain = none) :
    Lands o ctx (exportDeclaration g ctx start found) := by
  unfold Grammar.exportDeclaration
  refine .skip fun declarationStart => ?_
  refine (hg.exportedDeclaration ctx hfound ho).bind fun declaration hdeclaration => ?_
  refine (stops_failAt _ _).preserves_guard (.skip fun _ => .skip fun span => ?_)
  exact .pure (.node rfl (List.forall_mem_singleton.mpr hdeclaration))

theorem exportStatement (ctx : Context) (start : Nat) {before : List Decorator}
    (hbefore : ∀ d ∈ before, Enclosed (.decorator d)) (ho : o.labelChain = none) :
    Lands o ctx (exportStatement g ctx start before) := by
  unfold Grammar.exportStatement
  refine .skip fun _ => (hg.exportDecorators ctx hbefore).bind fun found hfound => ?_
  refine .skip fun token => (stops_fail _).preserves_guard ?_
  split
  · exact exportAll ctx start
  · exact hg.exportDefault ctx start hfound
  · exact exportNames ctx start
  · exact hg.exportDeclaration ctx start hfound ho

end Phrases.Targets

end EcmaSyntax.Grammar
