import EcmaSyntax.Grammar.Program
import EcmaSyntax.Proofs.Progress.Course

/-!
Tokens and loops. A token that is not the end of the text is taken for good. A loop gets on if every
round that is followed by another takes a token: then there are fewer rounds than characters, and
each starts further on than the one before. The rounds of all loops of the grammar have names here
and stand as the phrases write them, so that a phrase is the same with the name in place of the
round.
-/

namespace EcmaSyntax

open EcmaSyntax.Diagnostic

@[reducible] def Token.isEnd : Token → Bool
  | .endOfSource => true
  | _ => false

/-- A token that some text spells. That it is one is found out by the instance below, which
computes it for the tokens that a step names. -/
class Token.IsSpelled (token : Token) : Prop where
  ne : token ≠ .endOfSource

instance {token : Token} [h : IsFalse token.isEnd] : token.IsSpelled where
  ne heq := by
    have hend := h.eq
    rw [heq] at hend
    cases hend

end EcmaSyntax

namespace EcmaSyntax.Grammar

open EcmaSyntax.Diagnostic EcmaSyntax.Lexer EcmaSyntax.Scope EcmaSyntax.Text EcmaSyntax.Tree

variable {version : Nat} [Unicode.IdentifierChars version]

section Rounds

variable (g : Phrases)

namespace Round

section Lists

variable {α : Type}

abbrev listed (close : Token) (item : List α → Parser α) (earlier : List α) :
    Parser (Round α) := do
  if ← atToken close then return .stop
  let a ← item earlier
  Phrases.separator close
  return .more a

abbrev upTo (close : Token) (item : Parser α) (_ : List α) : Parser (Round α) := do
  if ← atToken close then return .stop
  if ← atToken .endOfSource then unexpected
  return .more (← item)

end Lists

section Expressions

variable (ctx : Context)

abbrev sequence (_ : List Expression) : Parser (Round Expression) := do
  if ← accept .comma then return .more (← g.assignment ctx)
  else return .stop

abbrev template (tagged : Bool) (_ : List (TemplateElement × Option Expression)) :
    Parser (Round (TemplateElement × Option Expression)) := do
  let token ← currentToken
  let isTail := token == .noSubstitutionTemplate || token == .templateTail
  let quasi ← templateElement tagged isTail
  next
  if isTail then return .last (quasi, none)
  let e ← g.expression ctx.withIn
  if !(← atToken .rightBrace) then
    if ← atToken .endOfSource then fail .unterminatedTemplateLiteral
    else fail (.expectedToken "\x7d")
  let _ ← withLexer rescanTemplate
  return .more (quasi, some e)

abbrev coveredArgument (_ : List (Element × Cover)) : Parser (Element × Cover) := do
  let start ← currentStart
  let isSpread ← accept .ellipsis
  let (e, cover) ← g.covered ctx.withIn
  return (← elementFrom start isSpread e, cover)

abbrev argument (_ : List Element) : Parser Element := do
  let start ← currentStart
  let isSpread ← accept .ellipsis
  let e ← g.assignment ctx.withIn
  elementFrom start isSpread e

abbrev arrayElement (_ : List (Element × Cover)) : Parser (Round (Element × Cover)) := do
  if ← atToken .rightBracket then return .stop
  if ← accept .comma then return .more (Element.hole, Cover.none)
  let elementStart ← currentStart
  let isSpread ← accept .ellipsis
  let (e, cover) ← g.covered ctx.withIn
  let element ← elementFrom elementStart isSpread e
  Phrases.separator .rightBracket
  return .more (element, cover)

abbrev path (start : Nat) (object : Expression) : Parser (Option Expression) := do
  if ← accept .dot then
    let property ← memberName
    return some (.member (← spanFrom start) object property false false)
  else return none

end Expressions

section Bindings

variable (ctx : Context) (kind : BindingKind)

abbrev arrayBinding (_ : List Pattern) : Parser (Round Pattern) := do
  match ← currentToken with
  | .rightBracket => return .stop
  | .comma =>
    next
    return .more .hole
  | .ellipsis =>
    let (span, argument) ← bindingRest g ctx kind .rightBracket
    return .last (.rest span argument)
  | _ =>
    let element ← bindingElement g ctx kind
    Phrases.separator .rightBracket
    return .more element

abbrev objectBinding (earlier : List (PatternProperty × List String)) :
    Parser (Round (PatternProperty × List String)) := do
  match ← currentToken with
  | .rightBrace => return .stop
  | .ellipsis =>
    let (span, argument) ← bindingRest g ctx kind .rightBrace
    return .last (.rest span argument, [])
  | _ =>
    let keys := (earlier.head?.map Prod.snd).getD []
    let property ← propertyBinding g ctx kind keys
    Phrases.separator .rightBrace
    return .more property

abbrev parameter (_ : List Pattern) : Parser (Round Pattern) := do
  match ← currentToken with
  | .rightParen => return .stop
  | .ellipsis =>
    let (span, argument) ← bindingRest g ctx .parameter .rightParen
    return .last (.rest span argument)
  | _ =>
    let param ← bindingElement g ctx .parameter
    Phrases.separator .rightParen
    return .more param

abbrev declarator (kind : VariableKind) (inHead : Bool) (_ : List VariableDeclarator) :
    Parser (Round VariableDeclarator) := do
  let declarator ← variableDeclarator g ctx kind
  if !inHead then checkInitializer kind declarator
  if ← accept .comma then return .more declarator
  else return .last declarator

end Bindings

section Bodies

variable (ctx : Context)

abbrev directive (simpleParams : Bool) (earlier : List (Statement × Prologue)) :
    Parser (Round (Statement × Prologue)) := do
  let before := (earlier.head?.map Prod.snd).getD ⟨ctx, none⟩
  if !(← atToken .stringLiteral) then return .stop
  let s ← get
  let (statement, isDirective) ← Grammar.directive g before.ctx
  if isDirective then
    let after ← before.add simpleParams (unquoted s.lexer.raw) s.start s.lexer.flags.octalEscape
    return .more (statement, after)
  else return .last (statement, before)

abbrev decorator (_ : List Decorator) : Parser (Round Decorator) := do
  let start ← currentStart
  if ← accept .at then
    let e ← decoratorExpression g ctx
    return .more ⟨← spanFrom start, e⟩
  else return .stop

abbrev classElement (derived : Bool) (earlier : List (Option ClassElement)) :
    Parser (Round (Option ClassElement)) := do
  if ← atToken .rightBrace then return .stop
  if ← accept .semicolon then return .more none
  if ← atToken .endOfSource then unexpected
  return .more (some (← Grammar.classElement g ctx derived (earlier.filterMap id)))

abbrev caseItem (_ : List Statement) : Parser (Round Statement) := do
  if endsCase (← currentToken) then return .stop
  return .more (← g.listItem ctx)

abbrev switchCase (earlier : List SwitchCase) : Parser (Round SwitchCase) := do
  if ← atToken .rightBrace then return .stop
  return .more (← Grammar.switchCase g ctx earlier)

end Bodies

section Markup

variable (ctx : Context)

abbrev markupPath (start : Nat) (object : MarkupPath) : Parser (Option MarkupPath) := do
  if ← atToken .dot then
    nextInTag
    let property ← markupIdentifier
    return some (.member (← spanFrom start) object property)
  else return none

abbrev markupAttribute (_ : List MarkupAttribute) : Parser (Round MarkupAttribute) := do
  match ← currentToken with
  | .divide | .greaterThan => return .stop
  | .leftBrace => return .more (← spreadAttribute g ctx)
  | .endOfSource => fail .markupUnterminated
  | token => if token.isWord then return .more (← namedAttribute g ctx) else unexpected

abbrev child (_ : List MarkupChild) : Parser (Round MarkupChild) := do
  match ← currentToken with
  | .jsxText =>
    let span := (← get).lexer.span
    let value ← currentValue
    let raw ← currentRaw
    nextChild
    return .more (.text span value raw)
  | .leftBrace => return .more (← childExpression g ctx)
  | .lessThan =>
    if (← peekToken) == .divide then return .stop
    return .more (.markup (← g.markup ctx .child))
  | .endOfSource => fail .markupUnterminated
  | _ => unexpected

end Markup

end Round

/-- The loops over lists. -/
inductive ListLoop : {α : Type} → (List α → Parser (Round α)) → Prop
  | sequence (ctx) : ListLoop (Round.sequence g ctx)
  | template (ctx tagged) : ListLoop (Round.template g ctx tagged)
  | coveredArguments (ctx) : ListLoop (Round.listed .rightParen (Round.coveredArgument g ctx))
  | arguments (ctx) : ListLoop (Round.listed .rightParen (Round.argument g ctx))
  | array (ctx) : ListLoop (Round.arrayElement g ctx)
  | object (ctx) : ListLoop (Round.listed .rightBrace fun _ => objectMember g ctx)
  | group (ctx) : ListLoop (fun _ => groupItem g ctx)
  | arrayBinding (ctx kind) : ListLoop (Round.arrayBinding g ctx kind)
  | objectBinding (ctx kind) : ListLoop (Round.objectBinding g ctx kind)
  | parameters (ctx) : ListLoop (Round.parameter g ctx)
  | declarators (ctx kind inHead) : ListLoop (Round.declarator g ctx kind inHead)
  | directives (ctx simpleParams) : ListLoop (Round.directive g ctx simpleParams)
  | statements (ctx close) : ListLoop (Round.upTo close (g.listItem ctx))
  | decorators (ctx) : ListLoop (Round.decorator g ctx)
  | classElements (ctx derived) : ListLoop (Round.classElement g ctx derived)
  | caseItems (ctx) : ListLoop (Round.caseItem g ctx)
  | switchCases (ctx) : ListLoop (Round.switchCase g ctx)
  | attributes (ctx) : ListLoop (Round.markupAttribute g ctx)
  | children (ctx) : ListLoop (Round.child g ctx)
  | importAttributes (ctx) : ListLoop (Round.listed .rightBrace (importAttribute g ctx))
  | importSpecifiers (ctx) : ListLoop (Round.listed .rightBrace fun _ => importSpecifier g ctx)
  | exportEntries (ctx) : ListLoop (Round.listed .rightBrace fun _ => exportEntry g ctx)

/-- The loops that apply one thing after the other to a value. -/
inductive ValueLoop : {α : Type} → (α → Parser (Option α)) → Prop
  | markupPath (start) : ValueLoop (Round.markupPath start)
  | path (start) : ValueLoop (Round.path start)
  | chain (ctx start allowCalls) : ValueLoop (chainLink g ctx start allowCalls)
  | binary (ctx start minimum) : ValueLoop (binaryLink g ctx start minimum)

end Rounds

variable {α β : Type} {c : Course} {more : Nat} {s : State}

section Tokens

/-- A word of markup is read anew from where it starts. -/
theorem passes_scanMarkupName : Passes c more (fun _ => False) (withLexer scanMarkupName) s := by
  intro hs
  obtain ⟨lexer, hname⟩ : ∃ lexer, scanMarkupName s.lexer = .ok ⟨⟩ lexer := ⟨_, rfl⟩
  have hrun : withLexer scanMarkupName s = .ok ⟨⟩ { s with lexer := lexer } := by
    unfold withLexer
    rw [hname]
  obtain ⟨hsituated, hstart⟩ := (situated_rescan hs.situated fun _ htoken =>
    (scanMarkupName_meets htoken).weaken fun _ _ => trivial).result hname
  have hoffset : s.start = lexer.start.offset := (congrArg Cursor.offset hstart).symm
  have hend : s.previousEnd ≤ lexer.start.offset := hoffset ▸ hs.previousEnd
  exact .ok hrun ⟨⟨⟨hsituated, hend⟩, Nat.le_of_eq hoffset, Nat.le_refl _, fun _ => rfl⟩,
    False.elim⟩

/-- The current token becomes the last one taken. -/
theorem advance_previousEnd (step : Lexer Token) (s : State) :
    Yields (advance step) (fun _ s' => s'.previousEnd = s.lexer.cursor.offset) s := by
  obtain ⟨observations, hrecord⟩ := recordToken_frame s
  unfold advance
  refine .run rfl ?_
  dsimp only
  rw [hrecord]
  refine (withLexer_frame _ _).bind fun _ s₁ hs₁ => .run rfl ?_
  obtain ⟨lexer, rfl⟩ := hs₁
  split
  · refine (withLexer_frame _ _).bind fun comments s₂ hs₂ => .ok rfl ?_
    obtain ⟨lexer', rfl⟩ := hs₂
    obtain ⟨observations', hcomments⟩ := recordComments_frame { s with
      lexer := lexer'
      observations := observations
      previousEnd := s.lexer.cursor.offset } comments
    exact congrArg State.previousEnd hcomments
  · exact .pure rfl

theorem passes_advance {step : Lexer Token} [h : Light (advance step)]
    (hend : s.token ≠ .endOfSource) :
    Passes c more (fun _ => True) (advance step) s := by
  intro hs
  refine (((h.moves s).and (advance_previousEnd step s)).mono fun _ s' hs' =>
    ⟨.of_strides hs'.1 hs, fun _ => ?_⟩).weaken fun _ => .of_immediate
  obtain ⟨before, raw, -, htoken⟩ := hs.situated.sound.place
  rw [hs'.2]
  exact htoken.start_lt_stop hend

theorem passes_next (hend : s.token ≠ .endOfSource) : Passes c more (fun _ => True) next s :=
  passes_advance (h := inferInstanceAs (Light next)) hend

theorem passes_nextInTag (hend : s.token ≠ .endOfSource) :
    Passes c more (fun _ => True) nextInTag s :=
  passes_advance (h := inferInstanceAs (Light nextInTag)) hend

theorem passes_nextChild (hend : s.token ≠ .endOfSource) :
    Passes c more (fun _ => True) nextChild s :=
  passes_advance (h := inferInstanceAs (Light nextChild)) hend

theorem passes_accept {token : Token} [h : token.IsSpelled] :
    Passes c more (· = true) (accept token) s := by
  unfold accept
  refine .look rfl ?_
  split
  · rename_i hat
    exact .taken (passes_next (beq_iff_eq.mp hat ▸ h.ne)) fun _ => inferInstance
  · exact .pure nofun

/-- A token that is known to stand here is accepted. -/
theorem Passes.accepted {token : Token} [h : token.IsSpelled] {taking : β → Prop}
    {rest : Bool → Parser β} (hat : s.token = token) (hrest : Proceeds c (rest true)) :
    Passes c more taking (accept token >>= rest) s := by
  unfold accept
  simp only [bind_assoc]
  refine .look rfl ?_
  rw [if_pos (beq_iff_eq.mpr hat), bind_assoc]
  refine .taken (passes_next (hat ▸ h.ne)) fun _ => ?_
  rwa [pure_bind]

theorem passes_expect {token : Token} [h : token.IsSpelled] :
    Passes c more (fun _ => True) (expect token) s := by
  unfold expect
  refine .look rfl ?_
  split
  · rename_i hat
    exact passes_next (beq_iff_eq.mp hat ▸ h.ne)
  · refine .look rfl ?_
    split
    · exact .failed tells_fail
    · exact .failed tells_fail

instance {token : Token} [token.IsSpelled] : Takes c (expect token) := ⟨fun _ => passes_expect⟩

theorem passes_identifier (hend : s.token ≠ .endOfSource) :
    Passes c more (fun _ => True) identifier s :=
  .look rfl (.look rfl (.taken (passes_next hend) fun _ => inferInstance))

/-- No word is the end of the text. -/
theorem State.ne_of_isWord (h : s.token.isWord = true) : s.token ≠ .endOfSource := by
  intro hend
  rw [hend] at h
  cases h

theorem State.ne_of_isIdentifier (h : s.token.isIdentifier = true) : s.token ≠ .endOfSource := by
  intro hend
  rw [hend] at h
  cases h

theorem State.ne_of_eq {token : Token} [h : token.IsSpelled] (hat : s.token = token) :
    s.token ≠ .endOfSource := hat ▸ h.ne

theorem State.ne_of_beq {token : Token} [h : token.IsSpelled] (hat : (s.token == token) = true) :
    s.token ≠ .endOfSource := State.ne_of_eq (beq_iff_eq.mp hat)

theorem State.ne_of_atWord {token : Token} {also : Bool} [h : token.IsSpelled]
    (hat : (s.token == token && also) = true) : s.token ≠ .endOfSource :=
  State.ne_of_beq (Bool.and_eq_true_iff.mp hat).1

end Tokens

section Loops

/-- Another round follows. -/
def Round.GoesOn : Round α → Prop
  | .more _ => True
  | _ => False

/-- A round of a loop gets on, and takes a token if another follows. -/
class Advances (c : Course) (round : List α → Parser (Round α)) : Prop where
  passes : ∀ earlier s, Passes c 2 Round.GoesOn (round earlier) s

/-- A loop where something is known of the items before each round. -/
theorem passes_collectAfter {round : List α → Parser (Round α)} {I : List α → Prop}
    (h : ∀ earlier s, I earlier → Passes c more Round.GoesOn (round earlier) s)
    (hI : ∀ earlier s, I earlier →
      Yields (round earlier) (fun r _ => ∀ item, r = .more item → I (item :: earlier)) s)
    (fuel : Nat) : ∀ earlier s, I earlier → s.left < fuel →
      Passes c more (fun _ => False) (collectAfter round fuel earlier) s := by
  induction fuel with
  | zero => exact fun _ _ _ hlt => absurd hlt (Nat.not_lt_zero _)
  | succ fuel ih =>
    intro earlier s hearlier hlt hs
    unfold collectAfter
    refine ((h earlier s hearlier hs).and (hI earlier s hearlier)).bind fun r s₁ hr => ?_
    obtain ⟨⟨hgoes, htaken⟩, hmore⟩ := hr
    cases r with
    | stop => exact .pure ⟨hgoes, False.elim⟩
    | last item => exact .pure ⟨hgoes, False.elim⟩
    | more item =>
      have hless := hgoes.left_lt hs (htaken trivial)
      exact hgoes.passes hs (ih (item :: earlier) s₁ (hmore item rfl) (by omega))

theorem Advances.collectAfter {round : List α → Parser (Round α)} (h : Advances c round)
    {fuel : Nat} (earlier : List α) (hfuel : s.left < fuel) :
    Passes c 2 (fun _ => False) (Grammar.collectAfter round fuel earlier) s :=
  passes_collectAfter (I := fun _ => True) (fun earlier s _ => h.passes earlier s)
    (fun _ _ _ => .of_results fun _ _ _ _ => trivial) fuel earlier s trivial hfuel

theorem passes_iterate {round : α → Parser (Option α)}
    (h : ∀ a s, Passes c more (·.isSome = true) (round a) s) (fuel : Nat) :
    ∀ a s, s.left < fuel → Passes c more (fun _ => False) (iterate round fuel a) s := by
  induction fuel with
  | zero => exact fun _ _ hlt => absurd hlt (Nat.not_lt_zero _)
  | succ fuel ih =>
    intro a s hlt hs
    unfold iterate
    refine (h a s hs).bind fun found s₁ hfound => ?_
    cases found with
    | none => exact .pure ⟨hfound.1, False.elim⟩
    | some b =>
      have hless := hfound.1.left_lt hs (hfound.2 rfl)
      exact hfound.1.passes hs (ih b s₁ (by omega))

end Loops

/-- The phrases that contain each other get on. Statements need more fuel than the others, since
they may start with an expression. -/
class Phrases.Progresses (g : Phrases) (c : Course) : Prop where
  size : c.text.length < g.size
  assignmentCover : ∀ ctx s, Passes c 1 (fun _ => True) (g.assignmentCover ctx) s
  unary : ∀ ctx s, Passes c 1 (fun _ => True) (g.unary ctx) s
  binary : ∀ ctx start left minimum s,
    Passes c 1 (fun _ => False) (g.binary ctx start left minimum) s
  newCall : ∀ ctx s, s.token ≠ .endOfSource → Passes c 1 (fun _ => True) (g.newCall ctx) s
  leftHandSide : ∀ ctx s, Passes c 1 (fun _ => True) (g.leftHandSide ctx) s
  markup : ∀ ctx exit s, Passes c 1 (fun _ => True) (g.markup ctx exit) s
  bindingTarget : ∀ ctx kind s, Passes c 1 (fun _ => True) (g.bindingTarget ctx kind) s
  statement : ∀ ctx position s, Passes c 2 (fun _ => True) (g.statement ctx position) s
  listItem : ∀ ctx s, (c.quiet → ctx.topLevel = false) →
    Passes c 2 (fun _ => True) (g.listItem ctx) s

/-- Nothing can be exported where the phrase stands, if nothing is to be exported. -/
class Course.Permits (c : Course) (ctx : Context) : Prop where
  topLevel : c.quiet → ctx.topLevel = false

section Phrases

variable {g : Phrases} [hg : g.Progresses c] {ctx : Context}

instance : Takes c (g.assignmentCover ctx) := .of_passes (by decide) (hg.assignmentCover ctx)
instance : Takes c (g.unary ctx) := .of_passes (by decide) (hg.unary ctx)
instance {start minimum : Nat} {left : Expression} : Proceeds c (g.binary ctx start left minimum) :=
  .of_passes (by decide) (hg.binary ctx start left minimum)
instance : Takes c (g.leftHandSide ctx) := .of_passes (by decide) (hg.leftHandSide ctx)
instance {exit : MarkupExit} : Takes c (g.markup ctx exit) :=
  .of_passes (by decide) (hg.markup ctx exit)
instance {kind : BindingKind} : Takes c (g.bindingTarget ctx kind) :=
  .of_passes (by decide) (hg.bindingTarget ctx kind)
instance {position : Position} : Takes c (g.statement ctx position) := ⟨hg.statement ctx position⟩
instance [h : c.Permits ctx] : Takes c (g.listItem ctx) := ⟨fun s => hg.listItem ctx s h.topLevel⟩

instance {round : List α → Parser (Round α)} [h : Advances c round] :
    Proceeds c (g.collect round) :=
  ⟨fun _ hs => h.collectAfter [] (Nat.lt_of_le_of_lt hs.left_le_length hg.size) hs⟩

theorem proceeds_collect {round : List α → Parser (Round α)} {I : List α → Prop} (hnil : I [])
    (h : ∀ earlier s, I earlier → Passes c 2 Round.GoesOn (round earlier) s)
    (hI : ∀ earlier s, I earlier →
      Yields (round earlier) (fun r _ => ∀ item, r = .more item → I (item :: earlier)) s) :
    Proceeds c (g.collect round) :=
  ⟨fun s hs => passes_collectAfter h hI g.size [] s hnil
    (Nat.lt_of_le_of_lt hs.left_le_length hg.size) hs⟩

theorem proceeds_iterate {round : α → Parser (Option α)}
    (h : ∀ a s, Passes c 2 (·.isSome = true) (round a) s) (a : α) :
      Proceeds c (iterate round g.size a) :=
  ⟨fun s hs => passes_iterate h g.size a s (Nat.lt_of_le_of_lt hs.left_le_length hg.size) hs⟩

/-- A loop that is not left before its first round takes a token. -/
theorem passes_collect {round : List α → Parser (Round α)} [h : Advances c round]
    (hfirst : Passes c more (fun _ => True) (round []) s) :
    Passes c more (fun _ => True) (g.collect round) s := by
  have hsize := hg.size
  unfold Phrases.collect
  cases hfuel : g.size with
  | zero => omega
  | succ fuel =>
    unfold collectAfter
    refine fun hs => (hfirst hs).bind fun r s₁ hr => ?_
    cases r with
    | stop => exact .pure hr
    | last item => exact .pure hr
    | more item =>
      have hless := hr.1.left_lt hs (hr.2 trivial)
      have hle := hs.left_le_length
      have hrest := h.collectAfter [item] (show s₁.left < fuel by omega)
      exact (hr.1.proceeds hs (hr.2 trivial) hrest).mono fun _ _ hb => ⟨hb.1, fun _ => hb.2⟩

end Phrases

section Lists

variable {g : Phrases} [hg : g.Progresses c] {close : Token}

instance {item : List α → Parser α} [h : ∀ earlier, Takes c (item earlier)] :
    Advances c (Round.listed close item) := by
  refine ⟨fun earlier s => .look rfl ?_⟩
  split
  · exact .pure id
  · exact .taken ((h earlier).passes s) fun _ => inferInstance

instance {item : Parser α} [h : Takes c item] : Advances c (Round.upTo close item) := by
  refine ⟨fun earlier s => .look rfl ?_⟩
  split
  · exact .pure id
  · refine .look rfl (.guard tells_unexpected fun _ => ?_)
    exact .taken (h.passes s) fun _ => inferInstance

instance {item : List α → Parser α} [∀ earlier, Takes c (item earlier)] :
    Proceeds c (g.listed close item) :=
      inferInstanceAs (Proceeds c (g.collect (Round.listed close item)))

instance {item : Parser α} [Takes c item] : Proceeds c (g.itemsUpTo close item) :=
  inferInstanceAs (Proceeds c (g.collect (Round.upTo close item)))

end Lists

end EcmaSyntax.Grammar
