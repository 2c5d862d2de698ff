import EcmaSyntax.Proofs.Places.Conversion
import EcmaSyntax.Proofs.Places.Repeats

/-!
The phrases that contain each other abide by the rules: what is read in a context may stand wherever
the context covers the place. Here are sequences, templates, names of properties, arguments and
binding patterns, which also tell which names they declare. The expressions in markup stand in the
region around it.
-/

namespace EcmaSyntax.Grammar

open EcmaSyntax.Diagnostic EcmaSyntax.Lexer EcmaSyntax.Scope EcmaSyntax.Tree

variable {version : Nat} [Unicode.IdentifierChars version]

variable {α : Type} {q : Inquiry} {effect : Effect}

/-- What the step reads is allowed in the context. -/
abbrev Obeys (q : Inquiry) (effect : Effect) (ctx : Context) (node : α → Node) (step : Parser α) :
    Prop :=
  KeepsPlacement q effect (fun exposed a => Allowed q.options exposed ctx.grant (node a)) step

abbrev ObeysAll (q : Inquiry) (effect : Effect) (ctx : Context) (node : α → Node)
    (step : Parser (List α)) : Prop :=
  KeepsPlacement q effect (fun exposed as =>
    ∀ a ∈ as, Allowed q.options exposed ctx.grant (node a)) step

/-- A statement is allowed in the context, and is no directive as yet. -/
structure Permits (options : Options) (ctx : Context) (x : Statement) : Prop where
  allowed : Allowed options True ctx.grant (.statement x)
  directive : x.directive? = none

structure Phrases.KeepPlacement (g : Phrases) (q : Inquiry) : Prop where
  options : g.options = q.options
  assignmentCover : ∀ ctx, Obeys q .none ctx .expression (g.assignmentCover ctx)
  unary : ∀ ctx, Obeys q .none ctx .expression (g.unary ctx)
  binary : ∀ ctx start left minimum, KeepsPlacement q .none (fun exposed found =>
    Allowed q.options exposed ctx.grant (.expression left) →
      Allowed q.options exposed ctx.grant (.expression found.1)) (g.binary ctx start left minimum)
  newCall : ∀ ctx, Obeys q .none ctx .expression (g.newCall ctx)
  leftHandSide : ∀ ctx, Obeys q .none ctx .expression (g.leftHandSide ctx)
  markup : ∀ ctx exit, Obeys q .none ctx .markup (g.markup ctx exit)
  bindingTarget : ∀ ctx kind, Obeys q .declares ctx .pattern (g.bindingTarget ctx kind)
  targetNames : ∀ ctx kind, Declares q.text (ctx.manner g.options kind) [] Pattern.boundNames
    (g.bindingTarget ctx kind)
  statement : ∀ ctx position, ctx.inParameters = false →
    KeepsPlacement q .declares (fun _ x => Permits q.options ctx x) (g.statement ctx position)
  listItem : ∀ ctx, ctx.inParameters = false →
    KeepsPlacement q .declares (fun _ x => Permits q.options ctx x) (g.listItem ctx)
  /-- There is evidence for every complaint about a repeated parameter. -/
  shows : ∀ failure s list, RepeatsParameter g q.text list failure s → q.Shows failure s

section Spellings

variable {s : State}

/-- A word as a name. -/
theorem KeepsPlacementAt.word (h : s.token.isWord = true) :
    KeepsPlacementAt q effect (fun _ id => IsWord id.name) Grammar.identifier s := by
  intro hs
  obtain ⟨hfits, hnonempty⟩ := hs.legible.name h
  refine KeepsPlacementAt.identifier.mono (fun _ id hid => ?_) hs
  rw [hid]
  exact ⟨hfits, hnonempty⟩

/-- Every token that may be a name is a word. -/
theorem isWord_of_isIdentifier {token : Token} (h : token.isIdentifier = true) :
    token.isWord = true := by
  revert h
  cases token <;> decide

/-- A word that was checked to be a name. -/
theorem KeepsPlacementAt.reference {ctx : Context} (h : s.token.isIdentifier = true)
    (hname : referenceFault? ctx s.lexer.value.text = none) :
    KeepsPlacementAt q effect (fun exposed id =>
      Allowed q.options exposed ctx.grant (.expression (.identifier id))) Grammar.identifier s := by
  intro hs
  obtain ⟨hfits, hnonempty⟩ := hs.legible.name (isWord_of_isIdentifier h)
  refine KeepsPlacementAt.identifier.mono (fun _ id hid => ?_) hs
  rw [← hid] at hfits hnonempty hname
  exact .identifier ⟨hfits, hnonempty⟩ hname

/-- What starts like a literal where a token stands starts so in the text of the token. -/
theorem opensLiteral_raw {text : List Char} (h : Oriented text s.lexer)
    (hopens : OpensLiteral s.lexer.start.rest) (htoken : s.token ≠ .endOfSource) :
    OpensLiteral s.raw.toList := by
  obtain ⟨before, raw, -, hraw⟩ := h.sound.place
  rw [hraw.extent.rest] at hopens
  rw [State.raw, String.toList_ofList, Lexer.State.raw, hraw.extent.textTo]
  exact hopens.of_initial (List.prefix_append _ _) fun hnil => htoken (hraw.isEmpty.mp hnil)

theorem keptRaw_run (options : Options) (s : State) : ∃ raw, keptRaw options s = .ok raw s ∧
    ∀ text ∈ raw, text = s.raw := by
  unfold keptRaw
  split
  · exact ⟨some s.raw, rfl, by rintro _ ⟨⟩; rfl⟩
  · exact ⟨none, rfl, nofun⟩

/-- What the text and the value of a literal say. -/
theorem literalValue_meets (ctx : Context) {text : List Char} (hs : Oriented text s.lexer)
    (hescaped : s.token.isWord = true → s.lexer.flags.escaped = false) :
    Meets Failure.IsImmediate (literalValue ctx) (fun value s' => Moves s s' ∧
      (OpensLiteral s.raw.toList ∨ s.raw ∈ ["true", "false", "null"]) ∧
      ∀ digits, value = .bigint digits → OpensLiteral digits.toList) s := by
  have hopens : lexemeKind s.token = .string ∨ lexemeKind s.token = .number →
      OpensLiteral s.raw.toList := by
    refine fun hkind => opensLiteral_raw hs (hs.legible.literal hkind) fun hend => ?_
    rw [hend] at hkind
    rcases hkind with hkind | hkind <;> cases hkind
  have hkeyword : ∀ keyword, s.token = keyword → keyword.isWord = true → keyword ≠ .identifier →
      s.raw = keyword.text := by
    rintro _ rfl hword hother
    rw [State.raw, hs.legible.plain hword (hescaped hword), String.ofList_toList]
    exact hs.isSpelled hword hother
  have hplain : ∀ keyword, s.token = keyword → keyword.text ∈ ["true", "false", "null"] →
      keyword.isWord = true → keyword ≠ .identifier →
        OpensLiteral s.raw.toList ∨ s.raw ∈ ["true", "false", "null"] :=
    fun keyword htoken hmem hword hother => .inr (hkeyword keyword htoken hword hother ▸ hmem)
  unfold literalValue
  refine .run rfl (.run rfl ?_)
  split
  case h_1 htoken =>
    split
    · exact (tells_fail s).mono fun _ _ h => h.2.elim
    · exact .run rfl (.pure ⟨.refl, .inl (hopens (.inl (congrArg lexemeKind htoken))),
        by rintro _ ⟨⟩⟩)
  case h_2 htoken =>
    split
    · exact (tells_fail s).mono fun _ _ h => h.2.elim
    · exact .run rfl (.pure ⟨.refl, .inl (hopens (.inr (congrArg lexemeKind htoken))),
        by rintro _ ⟨⟩⟩)
  case h_3 htoken =>
    refine .run rfl (.pure ⟨.refl, .inl (hopens (.inr (congrArg lexemeKind htoken))), ?_⟩)
    rintro _ ⟨⟩
    exact hs.legible.digits htoken
  case h_4 htoken =>
    exact .pure ⟨.refl, hplain _ htoken (by decide) rfl (by decide), by rintro _ ⟨⟩⟩
  case h_5 htoken =>
    exact .pure ⟨.refl, hplain _ htoken (by decide) rfl (by decide), by rintro _ ⟨⟩⟩
  case h_6 htoken =>
    exact .pure ⟨.refl, hplain _ htoken (by decide) rfl (by decide), by rintro _ ⟨⟩⟩
  case h_7 => exact (tells_unexpected s).mono fun _ _ h => h.2.elim

/-- A literal that is kept as it is. -/
theorem KeepsPlacementAt.literal (options : Options) (ctx : Context)
    (h : s.token.isWord = true → s.lexer.flags.escaped = false) :
    KeepsPlacementAt q effect (fun _ lit => lit.IsSpelled) (Grammar.literal options ctx) s := by
  intro hs
  obtain ⟨raw, hkept, hraw⟩ := keptRaw_run options s
  unfold Grammar.literal
  refine KeepsPlacementAt.look rfl (.look hkept (.moves (literalValue_meets ctx hs h) ?_)) hs
  intro value s₁ _ hvalue
  refine .skip fun _ _ _ => .skip fun span _ _ => .pure fun _ => ⟨fun text htext => ?_, hvalue.2⟩
  rw [hraw text htext]
  exact hvalue.1

/-- The text of a regular expression starts with the slash at which it is read. -/
theorem KeepsPlacementAt.regexLiteral (options : Options)
    (h : s.token = .divide ∨ s.token = .divideAssign) :
    KeepsPlacementAt q effect (fun _ lit => lit.IsSpelled) (Grammar.regexLiteral options) s := by
  intro hs
  have hopens : OpensLiteral s.lexer.start.rest := by
    obtain ⟨before, raw, -, htoken⟩ := hs.sound.place
    have hslash : raw.head? = some '/' :=
      htoken.shape.opening '/' (by rcases h with h | h <;> exact congrArg opening? h)
    obtain ⟨rest, rfl⟩ := List.head?_eq_some_iff.mp hslash
    rw [htoken.extent.rest]
    exact .cons rfl _
  have hplace : Yields (withLexer rescanRegex)
      (fun _ s' => s'.lexer.start = s.lexer.start ∧ s'.token ≠ .endOfSource) s := by
    have hrescan := (rescanRegex_meets s.lexer).weaken fun _ _ => trivial
    refine hrescan.withLexer.mono fun _ s' hs' => ?_
    obtain ⟨lexer, ⟨raw, hread⟩, rfl⟩ := hs'
    refine ⟨hread.start, fun hend => ?_⟩
    rcases h with h | h <;> cases h.symm.trans (hread.ending hend)
  unfold Grammar.regexLiteral
  refine KeepsPlacementAt.look rfl (.moves
    (((Light.moves s).mono fun _ _ h => h.toMoves).and hplace) ?_) hs
  rintro _ s₁ - ⟨hstart, htoken⟩ hs₁
  obtain ⟨raw, hkept, hraw⟩ := keptRaw_run options s₁
  refine KeepsPlacementAt.look rfl (.look rfl (.look hkept (.skip fun _ _ _ => .skip fun span _ _ =>
    .pure fun _ => ⟨fun text htext => .inl ?_, nofun⟩))) hs₁
  rw [hraw text htext]
  exact opensLiteral_raw hs₁ (hstart ▸ hopens) htoken

theorem keepsPlacement_memberName (ctx : Context) : KeepsPlacement q effect
    (fun exposed property => AllowedKey q.options exposed ctx.grant false property) memberName := by
  unfold memberName
  refine fun s => .look rfl ?_
  split
  · exact .skip fun id _ _ => .pure fun _ => .leaf rfl rfl
  · split
    · rename_i hword
      exact (KeepsPlacementAt.word hword).bind fun id _ _ => .pure fun _ hid => .name hid
    · exact keepsPlacement_unexpected s

end Spellings

theorem reads_elementFrom (ctx : Context) (start : Nat) (isSpread : Bool) (e : Expression) :
    KeepsPlacement q effect (fun exposed x => Allowed q.options exposed ctx.grant (.expression e) →
      Allowed q.options exposed ctx.grant (.element x)) (elementFrom start isSpread e) := by
  unfold elementFrom
  split
  · exact .skip fun _ => .skip fun span => .pure fun _ he => .single rfl he rfl
  · exact .pure fun _ he => .single rfl he rfl

namespace Phrases.KeepPlacement

variable {g : Phrases} (hg : g.KeepPlacement q)

include hg

theorem assignment (ctx : Context) : Obeys q .none ctx .expression (g.assignment ctx) :=
  (hg.assignmentCover ctx).bind fun _ => .skip fun _ => .pure fun _ he => he

theorem covered (ctx : Context) : KeepsPlacement q .none (fun exposed found =>
    Allowed q.options exposed ctx.grant (.expression found.1)) (g.covered ctx) :=
  (hg.assignmentCover ctx).bind fun _ => .skip fun _ => .pure fun _ he => he

theorem sequenceAfter (ctx : Context) (start : Nat) (first : Expression) :
    KeepsPlacement q .none (fun exposed e =>
      Allowed q.options exposed ctx.grant (.expression first) →
      Allowed q.options exposed ctx.grant (.expression e)) (g.sequenceAfter ctx start first) := by
  unfold Phrases.sequenceAfter
  refine .skip fun atComma => ?_
  split
  · refine KeepsPlacement.bind (keepsPlacement_collect (P := fun exposed e =>
      Allowed q.options exposed ctx.grant (.expression e)) fun earlier => .skip fun found => ?_)
      fun rest => .skip fun _ => .skip fun span => .pure fun _ hrest hfirst => ?_
    · split
      · exact (hg.assignment ctx).bind fun e => .pure fun _ he => he
      · exact .pure fun _ => trivial
    · exact .list rfl (List.forall_mem_cons.mpr ⟨hfirst, hrest⟩) rfl
  · exact .pure fun _ hfirst => hfirst

theorem expression (ctx : Context) : Obeys q .none ctx .expression (g.expression ctx) :=
  .skip fun start => (hg.assignment ctx).bind fun first => hg.sequenceAfter ctx start first

theorem template (ctx : Context) (tagged : Bool) : KeepsPlacement q .none (fun exposed parts =>
    ∀ e ∈ parts.expressions, Allowed q.options exposed ctx.grant (.expression e))
      (template g ctx tagged) := by
  unfold Grammar.template
  refine .skip fun start => KeepsPlacement.bind (keepsPlacement_collect
    (P := fun exposed (part : TemplateElement × Option Expression) =>
      ∀ e ∈ part.2, Allowed q.options exposed ctx.grant (.expression e)) fun earlier => ?_)
      fun parts => .skip fun span => .pure fun _ hparts e he => ?_
  · refine .skip fun token => .skip fun quasi => .skip fun _ => ?_
    split
    · exact .pure fun _ => nofun
    · -- What follows the expression is read anew only at a brace.
      refine (hg.expression ctx.withIn).bind fun e s => .look rfl ?_
      split
      · refine .skip fun atEnd _ _ => ?_
        split
        · exact .tells tells_fail fun _ _ _ => False.elim
        · exact .tells tells_fail fun _ _ _ => False.elim
      · rename_i hbrace
        have htoken : s.token = .rightBrace := by simpa using hbrace
        refine .moves ((meets_rescanTemplate htoken).mono fun _ _ h => ⟨h.toMoves, trivial⟩) ?_
        refine fun _ _ _ _ => .pure fun _ he => ?_
        rintro _ ⟨⟩
        exact he
  · obtain ⟨part, hpart, heq⟩ := List.mem_filterMap.mp he
    exact hparts part hpart e heq

theorem propertyKey (ctx : Context) (allowPrivate : Bool) :
    KeepsPlacement q .none (fun exposed found =>
    AllowedKey q.options exposed ctx.grant found.2 found.1) (propertyKey g ctx allowPrivate) := by
  unfold Grammar.propertyKey
  refine fun s => .look rfl ?_
  split
  · refine .skip fun _ s₁ _ => (hg.assignment ctx.withIn).bind (fun key => ?_) s₁
    exact .skip fun _ => .pure fun _ hkey => hkey
  · rename_i htoken
    refine (KeepsPlacementAt.literal _ _ ?_).bind fun lit _ _ => .pure fun _ hlit => .literal hlit
    rw [htoken]
    rintro ⟨⟩
  · rename_i htoken
    refine (KeepsPlacementAt.literal _ _ ?_).bind fun lit _ _ => .pure fun _ hlit => .literal hlit
    rw [htoken]
    rintro ⟨⟩
  · rename_i htoken
    refine (KeepsPlacementAt.literal _ _ ?_).bind fun lit _ _ => .pure fun _ hlit => .literal hlit
    rw [htoken]
    rintro ⟨⟩
  · split
    · exact .skip fun id _ _ => .pure fun _ => .leaf rfl rfl
    · exact keepsPlacement_fail s
  · split
    · rename_i hword
      exact (KeepsPlacementAt.word hword).bind fun id _ _ => .pure fun _ hid => .name hid
    · exact keepsPlacement_unexpected s

theorem coveredArguments (ctx : Context) : KeepsPlacement q .none (fun exposed found =>
    ∀ x ∈ found, Allowed q.options exposed ctx.grant (.element x.1)) (coveredArguments g ctx) := by
  unfold Grammar.coveredArguments
  refine .skip fun _ => KeepsPlacement.bind
    (keepsPlacement_listed (P := fun exposed (x : Element × Cover) =>
    Allowed q.options exposed ctx.grant (.element x.1)) fun earlier => ?_) fun found =>
      .skip fun _ => .pure fun _ hfound => hfound
  refine .skip fun start => .skip fun isSpread => (hg.covered ctx.withIn).bind fun r => ?_
  exact (reads_elementFrom ctx start isSpread r.1).bind fun x => .pure fun _ hx he => hx he

theorem arguments (ctx : Context) : ObeysAll q .none ctx .element (arguments g ctx) := by
  unfold Grammar.arguments
  refine .skip fun _ => KeepsPlacement.bind (keepsPlacement_listed (P := fun exposed x =>
    Allowed q.options exposed ctx.grant (.element x)) fun earlier => ?_) fun found =>
      .skip fun _ => .pure fun _ hfound => hfound
  refine .skip fun start => .skip fun isSpread => (hg.assignment ctx.withIn).bind fun e => ?_
  exact reads_elementFrom ctx start isSpread e

theorem bindingElement (ctx : Context) (kind : BindingKind) :
    Obeys q .declares ctx .pattern (bindingElement g ctx kind) := by
  unfold Grammar.bindingElement
  refine .skip fun start => (hg.bindingTarget ctx kind).bind fun target => .skip fun found => ?_
  split
  · refine (hg.assignment ctx.withIn).quiet.bind fun right => .skip fun span => ?_
    exact .pure fun _ hright htarget => .pair rfl htarget hright rfl
  · exact .pure fun _ htarget => htarget

theorem bindingRest (ctx : Context) (kind : BindingKind) (close : Token) :
    KeepsPlacement q .declares (fun exposed found =>
      Allowed q.options exposed ctx.grant (.pattern found.2)) (bindingRest g ctx kind close) := by
  unfold Grammar.bindingRest
  refine .skip fun start => .skip fun _ => ?_
  extract_lets rest
  have hrest : ∀ argument, KeepsPlacement q .declares (fun exposed found =>
      Allowed q.options exposed ctx.grant (.pattern argument) →
        Allowed q.options exposed ctx.grant (.pattern found.2)) (rest argument) := by
    intro argument
    refine .skip fun atAssign => .guard tells_fail fun _ => .skip fun atComma => ?_
    dsimp only
    split
    · refine .skip fun comma => .skip fun _ => .skip fun atClose => ?_
      split
      · exact .tells tells_failAt fun _ => False.elim
      · exact .tells tells_failAt fun _ => False.elim
    · exact .skip fun span => .pure fun _ hargument => hargument
  split
  · refine KeepsPlacement.bind (.map (keepsPlacement_bindingIdentifier.mono fun exposed id hid =>
      ?_)) hrest
    exact .binding (isBindable_of_binding hid)
  · exact (hg.bindingTarget ctx kind).bind hrest

theorem arrayBinding (ctx : Context) (kind : BindingKind) :
    Obeys q .declares ctx .pattern (arrayBinding g ctx kind) := by
  unfold Grammar.arrayBinding
  refine .skip fun start => .skip fun _ =>
    KeepsPlacement.bind (keepsPlacement_collect (P := fun exposed p =>
    Allowed q.options exposed ctx.grant (.pattern p)) fun earlier => .skip fun token => ?_)
    fun elements => .skip fun _ => .skip fun span => .pure fun _ helements =>
      .list rfl helements rfl
  split
  · exact .pure fun _ => trivial
  · exact .skip fun _ => .pure fun _ => .leaf rfl rfl
  · refine (hg.bindingRest ctx kind .rightBracket).bind fun r => .pure fun _ hr => ?_
    exact .single rfl hr rfl
  · refine (hg.bindingElement ctx kind).bind fun element => .skip fun _ => ?_
    exact .pure fun _ helement => helement

theorem shorthandBinding (ctx : Context) (kind : BindingKind) (start : Nat) (id : Identifier) :
    Obeys q .declares ctx .pattern (shorthandBinding g ctx kind start id) := by
  unfold Grammar.shorthandBinding
  refine .tells (tells_checkBinding ctx kind id.name start) fun _ hname => ?_
  have hid : ∀ exposed, Allowed q.options exposed ctx.grant (.pattern (.identifier id)) :=
    fun _ => .binding (isBindable_of_binding hname)
  refine fun s => .declared fun s' _ => KeepsPlacement.skip (fun found => ?_) s'
  split
  · refine (hg.assignment ctx.withIn).quiet.bind fun right => .skip fun span => ?_
    exact .pure fun _ hright => .pair rfl (hid _) hright rfl
  · exact .pure hid

theorem propertyBinding (ctx : Context) (kind : BindingKind) (keys : List String) :
    KeepsPlacement q .declares (fun exposed found =>
      Allowed q.options exposed ctx.grant (.patternProperty found.1))
      (propertyBinding g ctx kind keys) := by
  unfold Grammar.propertyBinding
  refine .skip fun start => .skip fun token => .skip fun escaped => ?_
  refine (hg.propertyKey ctx false).quiet.bind fun r => ?_
  obtain ⟨key, computed⟩ := r
  dsimp -zeta only
  extract_lets rest
  have hrest : ∀ keys, KeepsPlacement q .declares (fun exposed found =>
      AllowedKey q.options exposed ctx.grant computed key →
        Allowed q.options exposed ctx.grant (.patternProperty found.1)) (rest keys) := by
    intro keys
    refine .skip fun found => ?_
    split
    · refine (hg.bindingElement ctx kind).bind fun value => .skip fun span => ?_
      exact .pure fun _ hvalue hkey => .patternProperty hkey hvalue
    · refine .skip fun id => (hg.shorthandBinding ctx kind start id).bind fun value => ?_
      exact .skip fun span => .pure fun _ hvalue hkey => .patternProperty hkey hvalue
  split
  · exact .skip hrest
  · exact .tells (gives_noteKey _ _ _).tells fun keys _ => hrest keys

theorem objectBinding (ctx : Context) (kind : BindingKind) :
    Obeys q .declares ctx .pattern (objectBinding g ctx kind) := by
  unfold Grammar.objectBinding
  refine .skip fun start => .skip fun _ => KeepsPlacement.bind (keepsPlacement_collect
    (P := fun exposed (r : PatternProperty × List String) =>
      Allowed q.options exposed ctx.grant (.patternProperty r.1)) fun earlier => ?_)
    fun properties => .skip fun _ => .skip fun span => .pure fun _ hproperties => ?_
  · refine .skip fun token => ?_
    split
    · exact .pure fun _ => trivial
    · refine (hg.bindingRest ctx kind .rightBrace).bind fun r => .pure fun _ hr => ?_
      exact AllowedAs.single rfl hr rfl
    · refine (hg.propertyBinding ctx kind _).bind fun property => .skip fun _ => ?_
      exact .pure fun _ hproperty => hproperty
  · exact .list rfl (List.forall_mem_map.mpr hproperties) rfl

theorem bindingTarget_body (ctx : Context) (kind : BindingKind) :
    Obeys q .declares ctx .pattern (Grammar.bindingTarget g ctx kind) := by
  refine KeepsPlacement.nested (.skip fun token => ?_)
  split
  · exact hg.arrayBinding ctx kind
  · exact hg.objectBinding ctx kind
  · refine keepsPlacement_bindingIdentifier.bind fun id => .pure fun _ hid => ?_
    exact .binding (isBindable_of_binding hid)

theorem attributeValue (ctx : Context) :
    Obeys q .none ctx .markupValue (Grammar.attributeValue g ctx) := by
  unfold Grammar.attributeValue
  refine .skip fun start => .skip fun token => ?_
  split
  · refine .skip fun s => .skip fun value => .skip fun raw => .skip fun _ => ?_
    exact .pure fun _ => .leaf rfl rfl
  · refine .skip fun _ => .skip fun atBrace => .guard tells_failAt fun _ => ?_
    refine (hg.assignment ctx.withIn).bind fun e => .skip fun _ => .skip fun span => ?_
    exact .skip fun _ => .pure fun _ he => .single rfl he rfl
  · exact (hg.markup ctx .attribute).bind fun m => .pure fun _ hm => .single rfl hm rfl
  · exact keepsPlacement_unexpected

theorem namedAttribute (ctx : Context) :
    Obeys q .none ctx .markupAttribute (Grammar.namedAttribute g ctx) := by
  unfold Grammar.namedAttribute
  refine .skip fun start => .skip fun first => .skip fun atColon => ?_
  extract_lets rest
  have hrest : ∀ name, Obeys q .none ctx .markupAttribute (rest name) := by
    intro name
    refine .skip fun atAssign => ?_
    extract_lets last
    have hlast : ∀ value, KeepsPlacement q .none (fun exposed a =>
        Allowed q.options exposed ctx.grant (.markupValue value) →
          Allowed q.options exposed ctx.grant (.markupAttribute a)) (last value) :=
      fun value => .skip fun span => .pure fun _ hvalue => .single rfl hvalue rfl
    split
    · exact .skip fun _ => (hg.attributeValue ctx).bind hlast
    · exact KeepsPlacement.bind (.pure fun _ => .leaf rfl rfl) hlast
  split
  · exact .skip fun _ => .skip fun name => .skip fun span => .skip hrest
  · exact .skip hrest

theorem spreadAttribute (ctx : Context) :
    Obeys q .none ctx .markupAttribute (Grammar.spreadAttribute g ctx) := by
  unfold Grammar.spreadAttribute
  refine .skip fun start => .skip fun _ => .skip fun _ => ?_
  refine (hg.assignment ctx.withIn).bind fun e => ?_
  exact .skip fun _ => .skip fun span => .skip fun _ => .pure fun _ he => .single rfl he rfl

theorem attributes (ctx : Context) :
    ObeysAll q .none ctx .markupAttribute (Grammar.attributes g ctx) := by
  refine keepsPlacement_collect fun earlier => .skip fun token => ?_
  split
  · exact .pure fun _ => trivial
  · exact .pure fun _ => trivial
  · exact (hg.spreadAttribute ctx).bind fun a => .pure fun _ ha => ha
  · exact keepsPlacement_fail
  · split
    · exact (hg.namedAttribute ctx).bind fun a => .pure fun _ ha => ha
    · exact keepsPlacement_unexpected

theorem childExpression (ctx : Context) :
    Obeys q .none ctx .markupChild (Grammar.childExpression g ctx) := by
  unfold Grammar.childExpression
  refine .skip fun s => .skip fun _ => .skip fun isSpread => ?_
  split
  · refine (hg.expression ctx.withIn).bind fun e => .skip fun _ => .skip fun whole => ?_
    exact .skip fun _ => .pure fun _ he => .single rfl he rfl
  · refine .skip fun atBrace => ?_
    split
    · refine .skip fun stop => .skip fun whole => .skip fun _ => ?_
      exact .pure fun _ => .leaf rfl rfl
    · refine (hg.expression ctx.withIn).bind fun e => .skip fun _ => .skip fun whole => ?_
      exact .skip fun _ => .pure fun _ he => .single rfl he rfl

theorem children (ctx : Context) : ObeysAll q .none ctx .markupChild (Grammar.children g ctx) := by
  refine keepsPlacement_collect fun earlier => .skip fun token => ?_
  split
  · refine .skip fun s => .skip fun value => .skip fun raw => .skip fun _ => ?_
    exact .pure fun _ => AllowedAs.leaf rfl rfl
  · exact (hg.childExpression ctx).bind fun c => .pure fun _ hc => hc
  · refine .skip fun following => ?_
    split
    · exact .pure fun _ => trivial
    · exact (hg.markup ctx .child).bind fun m => .pure fun _ hm => AllowedAs.single rfl hm rfl
  · exact keepsPlacement_fail
  · exact keepsPlacement_unexpected

theorem fragmentFrom (ctx : Context) (exit : MarkupExit) (start : Nat) :
    Obeys q .none ctx .markup (Grammar.fragmentFrom g ctx exit start) := by
  unfold Grammar.fragmentFrom
  refine .skip fun openingSpan => .skip fun _ => (hg.children ctx).bind fun found => ?_
  refine .skip fun closingStart => .skip fun _ => .skip fun _ => .skip fun atEnd => ?_
  refine .guard tells_fail fun _ => .skip fun closingSpan => .skip fun _ => .skip fun span => ?_
  exact .pure fun _ hfound => .list rfl hfound rfl

theorem markupElement (ctx : Context) (exit : MarkupExit) (start : Nat) :
    Obeys q .none ctx .markup (Grammar.markupElement g ctx exit start) := by
  unfold Grammar.markupElement
  refine .skip fun name => (hg.attributes ctx).bind fun found => .skip fun selfClosing => ?_
  extract_lets inner rest
  have hrest : ∀ u, KeepsPlacement q .none (fun exposed m =>
      (∀ a ∈ found, Allowed q.options exposed ctx.grant (.markupAttribute a)) →
        Allowed q.options exposed ctx.grant (.markup m)) (rest u) := by
    intro u
    refine .skip fun atEnd => .guard tells_unexpected fun _ => .skip fun openingSpan => ?_
    split
    · refine .skip fun _ => .skip fun span => .pure fun exposed hfound => ?_
      have hnone : ∀ c ∈ ([] : List MarkupChild),
          Allowed q.options exposed ctx.grant (.markupChild c) := nofun
      exact .lists rfl hfound hnone rfl
    · refine .skip fun _ => (hg.children ctx).bind fun children => .skip fun closing => ?_
      exact .skip fun _ => .skip fun span => .pure fun _ hchildren hfound =>
        .lists rfl hfound hchildren rfl
  split
  · exact .skip hrest
  · exact hrest ()

theorem markup_body (ctx : Context) (exit : MarkupExit) :
    Obeys q .none ctx .markup (Grammar.markup g ctx exit) := by
  refine KeepsPlacement.nested (.skip fun start => .skip fun _ => .skip fun atEnd => ?_)
  split
  · exact hg.fragmentFrom ctx exit start
  · exact hg.markupElement ctx exit start

end Phrases.KeepPlacement

end EcmaSyntax.Grammar
