import EcmaSyntax.Grammar.Operation
import EcmaSyntax.Proofs.Tree.Node
import EcmaSyntax.Proofs.Grammar.Conversion
import EcmaSyntax.Proofs.Grammar.Preserve

/-!
How the operators of an expression group: each operand of an operator holds together
more tightly than the operator does, so a tree in which parentheses are kept can be
written down as it stands.

The phrases that contain each other, with the operators in what they read grouped.
Here are sequences, templates, property names, arguments, binding patterns and
functions, which only put together what other phrases have read.
-/

namespace EcmaSyntax.Grammar

open EcmaSyntax.Diagnostic EcmaSyntax.Lexer EcmaSyntax.Scope EcmaSyntax.Tree

variable {version : Nat} [Unicode.IdentifierChars version]

variable {α : Type}

/-- The operator of an expression that is made with a binary one. -/
def operatorToken? : Expression → Option Token
  | .binary _ _ operator _ => some operator.token
  | .logical _ _ operator _ => some operator.token
  | _ => none

/-- The least strength of an operator in the right operand of another. -/
def rightMinimum (token : Token) : Nat :=
  if token.isRightAssociative then token.strength else token.strength + 1

/-- Only exponentiation groups to the right, and it is the strongest operator. -/
theorem rightMinimum_cases (token : Token) :
    rightMinimum token = token.strength + 1 ∨
      (token = .exponentiate ∧ rightMinimum token = token.strength) := by
  unfold rightMinimum
  cases token <;> first | exact .inl rfl | exact .inr ⟨rfl, rfl⟩

theorem rightMinimum_le (token : Token) : rightMinimum token ≤ Token.exponentiate.strength := by
  cases token <;> decide

/-- The expression holds together less tightly than any made with a binary operator. -/
def isLoose : Expression → Bool
  | .conditional _ _ _ _ | .assignment _ _ _ _ | .arrow _ _ _ _ | .blockArrow _ _ _ _ _
  | .yield _ _ _ | .sequence _ _ => true
  | _ => false

/-- The operands of an operator hold together as tightly as it needs. -/
structure Grouped (token : Token) (left right : Expression) : Prop where
  /-- Operators of equal strength group to the left. -/
  onLeft : ∀ operator, operatorToken? left = some operator →
    token.strength ≤ operator.strength ∧
      (token = .exponentiate → token.strength < operator.strength)
  /-- Exponentiation groups to the right. -/
  onRight : ∀ operator, operatorToken? right = some operator →
    token.strength ≤ operator.strength ∧
      (token ≠ .exponentiate → token.strength < operator.strength)
  tight : isLoose left = false ∧ isLoose right = false
  /-- The base of a power is no operation on one operand. -/
  base : token = .exponentiate → isUnaryOrAwait left = false
  /-- The coalescing operator is not next to another logical one. -/
  unmixed : ∀ operator, operatorToken? left = some operator ∨ operatorToken? right = some operator →
    (token = .coalesce → operator ≠ .logicalAnd ∧ operator ≠ .logicalOr) ∧
      (operator = .coalesce → token ≠ .logicalAnd ∧ token ≠ .logicalOr)

/-- A node with a binary operator groups its operands. -/
def IsGrouped : Node → Prop
  | .expression (.binary _ left operator right) => Grouped operator.token left right
  | .expression (.logical _ left operator right) => Grouped operator.token left right
  | _ => True

/-- The operators in a node, at any depth, group their operands. -/
abbrev AllGrouped (n : Node) : Prop := Node.Every IsGrouped n

def isArrow : Expression → Bool
  | .arrow _ _ _ _ | .blockArrow _ _ _ _ _ => true
  | _ => false

/-- An expression without binary operators outside of brackets, which is loose only as
an arrow function, and that only where one may begin. -/
structure Operand (mayArrow : Prop) (e : Expression) : Prop where
  grouped : AllGrouped (.expression e)
  operator : operatorToken? e = none
  loose : isLoose e = true → isArrow e = true ∧ mayArrow

theorem Operand.tight {mayArrow : Prop} {e : Expression} (h : AllGrouped (.expression e))
    (hoperator : operatorToken? e = none) (htight : isLoose e = false) :
    Operand mayArrow e :=
  ⟨h, hoperator, fun hloose => by simp [htight] at hloose⟩

theorem Operand.arrow {mayArrow : Prop} {e : Expression} (h : AllGrouped (.expression e))
    (harrow : isArrow e = true) (hmay : mayArrow) : Operand mayArrow e := by
  refine ⟨h, ?_, fun _ => ⟨harrow, hmay⟩⟩
  cases e with
  | arrow => rfl
  | blockArrow => rfl
  | _ => cases harrow

theorem Operand.mono {first second : Prop} {e : Expression} (h : Operand first e)
    (himp : first → second) : Operand second e :=
  ⟨h.grouped, h.operator, fun hloose => ⟨(h.loose hloose).1, himp (h.loose hloose).2⟩⟩

/-- The operators in what the step reads are grouped. -/
abbrev Builds (node : α → Node) (step : Parser α) : Prop :=
  Keeps (fun a => AllGrouped (node a)) step

abbrev BuildsAll (node : α → Node) (step : Parser (List α)) : Prop :=
  Keeps (fun as => ∀ a ∈ as, AllGrouped (node a)) step

/-- The loop over binary operators has come to this expression, with its last operator
if there is one. -/
structure Folded (minimum : Nat) (found : Expression × Option Token) : Prop where
  grouped : AllGrouped (.expression found.1)
  tight : isLoose found.1 = false
  operator : operatorToken? found.1 = found.2
  strong : ∀ operator ∈ found.2, minimum ≤ operator.strength

/-- The current token is no binary operator of at least some strength. -/
def Ends (ctx : Context) (minimum : Nat) (s : State) : Prop :=
  ctx.binaryStrength s.token = 0 ∨ ctx.binaryStrength s.token < minimum

structure Phrases.Groups (g : Phrases) : Prop where
  parens : g.options.preserveParens = true
  assignmentCover : ∀ ctx, Builds .expression (g.assignmentCover ctx)
  unary : ∀ ctx, Builds .expression (g.unary ctx)
  binary : ∀ ctx start left minimum s, Ready s → Folded minimum (left, none) →
    Yields (g.binary ctx start left minimum)
      (fun found s' => Ready s' ∧ Folded minimum found ∧ Ends ctx minimum s') s
  newCall : ∀ ctx, Keeps (Operand False) (g.newCall ctx)
  leftHandSide : ∀ ctx, Builds .expression (g.leftHandSide ctx)
  markup : ∀ ctx exit, Builds .markup (g.markup ctx exit)
  bindingTarget : ∀ ctx kind, Builds .pattern (g.bindingTarget ctx kind)
  statement : ∀ ctx position, Builds .statement (g.statement ctx position)
  listItem : ∀ ctx, Builds .statement (g.listItem ctx)

instance : HoldsBelow AllGrouped := .every fun _ => trivial

instance {c : Conversion} : Converts c AllGrouped := .every (fun _ => trivial) fun _ => trivial

section Literals

theorem builds_memberName : Builds .expression memberName := by
  unfold memberName
  refine .skip fun token => ?_
  split
  · exact .skip fun id => .pure (.leaf trivial rfl)
  · split
    · exact .skip fun id => .pure (.leaf trivial rfl)
    · exact stops_unexpected.preserves

theorem builds_elementFrom (start : Nat) (isSpread : Bool) {e : Expression}
    (h : AllGrouped (.expression e)) : Builds .element (elementFrom start isSpread e) := by
  unfold elementFrom
  split
  · exact .skip fun _ => .skip fun span => .pure (.single trivial h rfl)
  · exact .pure (.single trivial h rfl)

end Literals

section Functions

/-- The operators in the parameters and the body are grouped. -/
structure FunctionParts.AreGrouped (parts : FunctionParts) : Prop where
  params : ∀ p ∈ parts.params, AllGrouped (.pattern p)
  body : ∀ x ∈ parts.body, AllGrouped (.statement x)

theorem FunctionParts.AreGrouped.function {parts : FunctionParts} (h : parts.AreGrouped)
    (span : Text.Span) (id : Option Identifier) (generator isAsync : Bool) :
    AllGrouped (.function
      ⟨span, id, generator, isAsync, parts.params, parts.bodySpan, parts.body⟩) :=
  .lists trivial h.params h.body rfl

end Functions

namespace Phrases.Groups

variable {g : Phrases} (hg : g.Groups)

include hg

theorem assignment (ctx : Context) : Builds .expression (g.assignment ctx) :=
  (hg.assignmentCover ctx).bind fun _ he => .skip fun _ => .pure he

theorem covered (ctx : Context) :
    Keeps (fun found => AllGrouped (.expression found.1)) (g.covered ctx) :=
  (hg.assignmentCover ctx).bind fun _ he => .skip fun _ => .pure he

theorem sequenceAfter (ctx : Context) (start : Nat) {first : Expression}
    (hfirst : AllGrouped (.expression first)) :
    Builds .expression (g.sequenceAfter ctx start first) := by
  unfold Phrases.sequenceAfter
  refine .skip fun atComma => ?_
  split
  · refine Preserves.bind (collect_preserves (P := fun e => AllGrouped (.expression e))
      fun earlier _ => ?_) fun rest hrest => ?_
    · refine .skip fun found => ?_
      split
      · exact (hg.assignment ctx).bind fun e he => .pure he
      · exact .pure trivial
    · refine .skip fun _ => .skip fun span => .pure (.list trivial ?_ rfl)
      exact List.forall_mem_cons.mpr ⟨hfirst, hrest⟩
  · exact .pure hfirst

theorem expression (ctx : Context) : Builds .expression (g.expression ctx) :=
  .skip fun start => (hg.assignment ctx).bind fun _ hfirst => hg.sequenceAfter ctx start hfirst

theorem template (ctx : Context) (tagged : Bool) :
    Keeps (fun parts => ∀ e ∈ parts.expressions, AllGrouped (.expression e))
      (template g ctx tagged) := by
  unfold Grammar.template
  refine .skip fun start => Preserves.bind (collect_preserves
    (P := fun part : TemplateElement × Option Expression =>
      ∀ e ∈ part.2, AllGrouped (.expression e)) fun earlier _ => ?_) fun parts hparts => ?_
  · refine .skip fun token => .skip fun quasi => .skip fun _ => ?_
    split
    · exact .pure nofun
    · refine (hg.expression ctx.withIn).bind fun e he => ?_
      -- The brace is checked before it is read as part of the template.
      intro s hs
      refine .run rfl ?_
      dsimp only
      split
      · refine .skip fun atEnd s => ?_
        split
        · exact (stops_fail _).bind
        · exact (stops_fail _).bind
      · rename_i hbrace
        have htoken : s.token = .rightBrace := by simpa using hbrace
        refine (rescanTemplate_yields hs htoken).bind fun _ s' hs' => .pure ⟨hs', ?_⟩
        simpa [Round.Adds] using he
  · refine .skip fun span => .pure fun e he => ?_
    obtain ⟨part, hpart, heq⟩ := List.mem_filterMap.mp he
    exact hparts part hpart e heq

theorem propertyKey (ctx : Context) (allowPrivate : Bool) :
    Keeps (fun found => AllGrouped (.expression found.1)) (propertyKey g ctx allowPrivate) := by
  unfold Grammar.propertyKey
  refine .skip fun token => ?_
  split
  · refine .skip fun _ => (hg.assignment ctx.withIn).bind fun key hkey => ?_
    exact .skip fun _ => .pure hkey
  · exact .skip fun lit => .pure (.leaf trivial rfl)
  · exact .skip fun lit => .pure (.leaf trivial rfl)
  · exact .skip fun lit => .pure (.leaf trivial rfl)
  · split
    · exact .skip fun id => .pure (.leaf trivial rfl)
    · exact (stops_fail _).preserves
  · split
    · exact .skip fun id => .pure (.leaf trivial rfl)
    · exact stops_unexpected.preserves

theorem coveredArguments (ctx : Context) :
    Keeps (fun found => ∀ x ∈ found, AllGrouped (.element x.1)) (coveredArguments g ctx) := by
  unfold Grammar.coveredArguments
  refine .skip fun _ => Preserves.bind (listed_preserves .rightParen fun earlier => ?_)
    fun found hfound => .skip fun _ => .pure hfound
  refine .skip fun start => .skip fun isSpread => (hg.covered ctx.withIn).bind fun r hr => ?_
  exact (builds_elementFrom start isSpread hr).bind fun x hx => .pure hx

theorem arguments (ctx : Context) : BuildsAll .element (arguments g ctx) := by
  unfold Grammar.arguments
  refine .skip fun _ => Preserves.bind (listed_preserves .rightParen fun earlier => ?_)
    fun found hfound => .skip fun _ => .pure hfound
  refine .skip fun start => .skip fun isSpread => (hg.assignment ctx.withIn).bind fun e he => ?_
  exact builds_elementFrom start isSpread he

theorem bindingElement (ctx : Context) (kind : BindingKind) :
    Builds .pattern (bindingElement g ctx kind) := by
  unfold Grammar.bindingElement
  refine .skip fun start => (hg.bindingTarget ctx kind).bind fun target htarget => ?_
  refine .skip fun found => ?_
  split
  · refine (hg.assignment ctx.withIn).bind fun right hright => ?_
    exact .skip fun span => .pure (.pair trivial htarget hright rfl)
  · exact .pure htarget

theorem bindingRest (ctx : Context) (kind : BindingKind) (close : Token) :
    Keeps (fun found => AllGrouped (.pattern found.2)) (bindingRest g ctx kind close) := by
  unfold Grammar.bindingRest
  refine .skip fun start => .skip fun _ => ?_
  extract_lets rest
  have hrest : ∀ argument, AllGrouped (.pattern argument) →
      Keeps (fun found => AllGrouped (.pattern found.2)) (rest argument) := by
    intro argument hargument
    refine .skip fun atAssign => (stops_fail _).preserves_guard (.skip fun atComma => ?_)
    dsimp only
    split
    · refine .skip fun comma => .skip fun _ => .skip fun atClose => ?_
      split
      · exact fun _ _ => (stops_failAt _ _).bind
      · exact fun _ _ => (stops_failAt _ _).bind
    · exact .skip fun span => .pure hargument
  split
  · exact .bind (.map (Steady.keeps.mono fun id _ => .leaf trivial rfl)) hrest
  · exact (hg.bindingTarget ctx kind).bind hrest

theorem arrayBinding (ctx : Context) (kind : BindingKind) :
    Builds .pattern (arrayBinding g ctx kind) := by
  unfold Grammar.arrayBinding
  refine .skip fun start => .skip fun _ => ?_
  refine Preserves.bind (collect_preserves (P := fun p => AllGrouped (.pattern p))
    fun earlier _ => ?_) fun elements helements =>
      .skip fun _ => .skip fun span => .pure (.list trivial helements rfl)
  refine .skip fun token => ?_
  split
  · exact .pure trivial
  · exact .skip fun _ => .pure (.leaf trivial rfl)
  · exact (hg.bindingRest ctx kind .rightBracket).bind fun r hr => .pure (.single trivial hr rfl)
  · refine (hg.bindingElement ctx kind).bind fun element helement => ?_
    exact .skip fun _ => .pure helement

theorem shorthandBinding (ctx : Context) (kind : BindingKind) (start : Nat) (id : Identifier) :
    Builds .pattern (shorthandBinding g ctx kind start id) := by
  unfold Grammar.shorthandBinding
  have hid : AllGrouped (.pattern (.identifier id)) := .leaf trivial rfl
  refine .skip fun _ => .skip fun _ => .skip fun found => ?_
  split
  · refine (hg.assignment ctx.withIn).bind fun right hright => ?_
    exact .skip fun span => .pure (.pair trivial hid hright rfl)
  · exact .pure hid

theorem propertyBinding (ctx : Context) (kind : BindingKind) (keys : List String) :
    Keeps (fun found => AllGrouped (.patternProperty found.1))
      (propertyBinding g ctx kind keys) := by
  unfold Grammar.propertyBinding
  refine .skip fun start => .skip fun token => .skip fun escaped => ?_
  refine (hg.propertyKey ctx false).bind fun r hkey => ?_
  obtain ⟨key, computed⟩ := r
  dsimp -zeta only
  extract_lets rest
  have hrest : ∀ keys, Keeps (fun found => AllGrouped (.patternProperty found.1)) (rest keys) := by
    intro keys
    refine .skip fun found => ?_
    split
    · refine (hg.bindingElement ctx kind).bind fun value hvalue => ?_
      exact .skip fun span => .pure (.pair trivial hkey hvalue rfl)
    · refine .skip fun id => (hg.shorthandBinding ctx kind start id).bind fun value hvalue => ?_
      exact .skip fun span => .pure (.pair trivial hkey hvalue rfl)
  split
  · exact .skip hrest
  · exact .skip hrest

theorem objectBinding (ctx : Context) (kind : BindingKind) :
    Builds .pattern (objectBinding g ctx kind) := by
  unfold Grammar.objectBinding
  refine .skip fun start => .skip fun _ => ?_
  refine Preserves.bind (collect_preserves (P := fun r : PatternProperty × List String =>
    AllGrouped (.patternProperty r.1)) fun earlier _ => ?_) fun properties hproperties => ?_
  · refine .skip fun token => ?_
    split
    · exact .pure trivial
    · refine (hg.bindingRest ctx kind .rightBrace).bind fun r hr => .pure ?_
      exact .single trivial hr rfl
    · refine (hg.propertyBinding ctx kind _).bind fun property hproperty => ?_
      exact .skip fun _ => .pure hproperty
  · refine .skip fun _ => .skip fun span => .pure (.list trivial ?_ rfl)
    exact List.forall_mem_map.mpr hproperties

theorem bindingTarget_body (ctx : Context) (kind : BindingKind) :
    Builds .pattern (Grammar.bindingTarget g ctx kind) := by
  refine Keeps.nested (.skip fun token => ?_)
  split
  · exact hg.arrayBinding ctx kind
  · exact hg.objectBinding ctx kind
  · exact .skip fun id => .pure (.leaf trivial rfl)

theorem directive (ctx : Context) :
    Keeps (fun found => AllGrouped (.statement found.1)) (directive g ctx) := by
  unfold Grammar.directive
  refine .skip fun saved => (hg.listItem ctx).bind fun statement hstatement => ?_
  split
  · split
    · exact .pure (.node trivial fun _ hn => hstatement.below hn)
    · exact .pure hstatement
  · exact .pure hstatement

theorem prologue (ctx : Context) (simpleParams : Bool) :
    Keeps (fun found => ∀ x ∈ found.1, AllGrouped (.statement x))
      (prologue g ctx simpleParams) := by
  unfold Grammar.prologue
  refine Preserves.bind (collect_preserves
    (P := fun r : Statement × Prologue => AllGrouped (.statement r.1)) fun earlier _ => ?_)
    fun found hfound => .pure (List.forall_mem_map.mpr hfound)
  refine .skip fun atString => ?_
  split
  · exact .pure trivial
  · refine .skip fun saved => (hg.directive _).bind fun r hr => ?_
    obtain ⟨statement, isDirective⟩ := r
    dsimp only
    split
    · exact .skip fun after => .pure hr
    · exact .pure hr

theorem bodyStatements (ctx : Context) (simpleParams : Bool) (close : Token) :
    Keeps (fun found => ∀ x ∈ found.1, AllGrouped (.statement x))
      (bodyStatements g ctx simpleParams close) := by
  unfold Grammar.bodyStatements
  refine (hg.prologue ctx simpleParams).bind fun r hdirectives => ?_
  refine Preserves.bind (itemsUpTo_preserves close (hg.listItem r.2))
    fun statements hstatements => ?_
  exact .pure (List.forall_mem_append.mpr ⟨hdirectives, hstatements⟩)

theorem formalParameters (ctx : Context) : BuildsAll .pattern (formalParameters g ctx) := by
  unfold Grammar.formalParameters
  refine .skip fun _ => Preserves.bind (collect_preserves (P := fun p => AllGrouped (.pattern p))
    fun earlier _ => ?_) fun params hparams => .skip fun _ => .pure hparams
  refine .skip fun token => ?_
  split
  · exact .pure trivial
  · exact (hg.bindingRest ctx .parameter .rightParen).bind fun r hr =>
      .pure (.single trivial hr rfl)
  · exact (hg.bindingElement ctx .parameter).bind fun param hparam => .skip fun _ => .pure hparam

theorem functionParts (ctx : Context) (shape : FunctionShape) (name : Option Identifier) :
    Keeps FunctionParts.AreGrouped (functionParts g ctx shape name) := by
  unfold Grammar.functionParts
  refine .asFunction (Keeps.inScope (.skip fun saved => .skip fun paramsStart => ?_) _)
  refine (hg.formalParameters _).bind fun params hparams => ?_
  refine .skip fun _ => .skip fun bodyStart => .skip fun _ => ?_
  have hbody : Keeps (fun found => ∀ x ∈ found.1, AllGrouped (.statement x)) (do
      let found ← Grammar.bodyStatements g ctx (params.all Pattern.isSimple) .rightBrace
      expect .rightBrace
      return found) :=
    (hg.bodyStatements ctx _ .rightBrace).bind fun _ hfound => .skip fun _ => .pure hfound
  refine (hbody.inScope _).bind fun r hr => .skip fun _ => ?_
  dsimp only
  split
  · exact .skip fun _ => .skip fun _ => .skip fun span => .pure ⟨hparams, hr⟩
  · exact .skip fun span => .pure ⟨hparams, hr⟩

theorem functionDeclaration (ctx : Context) (isAsync nameRequired : Bool) :
    Builds .function (functionDeclaration g ctx isAsync nameRequired) := by
  unfold Grammar.functionDeclaration
  refine .skip fun start => .skip fun generator => .skip fun token => ?_
  extract_lets rest
  have hrest : ∀ id, Builds .function (rest id) := by
    intro id
    refine (hg.functionParts _ .plain id).bind fun parts hparts => ?_
    exact .skip fun span => .pure (hparts.function span id generator isAsync)
  split
  · refine .skip fun nameStart => .skip fun name => .skip fun kind => ?_
    exact .skip fun _ => .skip fun _ => .skip hrest
  · split
    · refine .skip fun escaped => ?_
      split
      · exact .skip fun raw => .skip hrest
      · exact .skip hrest
    · exact .skip hrest

theorem functionExpression (ctx : Context) (start : Nat) (isAsync : Bool) :
    Keeps (fun e => ∃ f, e = .function f ∧ AllGrouped (.function f))
      (functionExpression g ctx start isAsync) := by
  unfold Grammar.functionExpression
  refine .skip fun generator => .skip fun token => ?_
  extract_lets rest
  have hrest : ∀ id,
      Keeps (fun e => ∃ f, e = .function f ∧ AllGrouped (.function f)) (rest id) := by
    intro id
    refine (hg.functionParts _ .plain id).bind fun parts hparts => ?_
    exact .skip fun _ => .skip fun span => .pure ⟨_, rfl, hparts.function span id generator isAsync⟩
  split
  · exact .skip fun value => .skip fun start => .skip fun _ => .skip hrest
  · exact .skip hrest

theorem methodFunction (ctx : Context) (isAsync generator : Bool) (shape : FunctionShape) :
    Builds .function (methodFunction g ctx isAsync generator shape) := by
  unfold Grammar.methodFunction
  refine .skip fun start => (hg.functionParts _ shape none).bind fun parts hparts => ?_
  exact .skip fun span => .pure (hparts.function span none generator isAsync)

end Phrases.Groups

end EcmaSyntax.Grammar
