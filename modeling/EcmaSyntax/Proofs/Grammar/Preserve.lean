import EcmaSyntax.Grammar.Phrases
import EcmaSyntax.Grammar.Function
import EcmaSyntax.Proofs.Grammar.Outline
import EcmaSyntax.Grammar.Program

/-!
Conditions that hold between any two steps of a parse: that the parse keeps its parentheses, or that
a certain outline is open. Steps that keep a condition are put together to steps that keep it, and
plain steps keep every such condition, which is left to instances. So what is said about a phrase is
only what the phrase does itself.

The plain steps of the grammar are names, literals, checks and whatever else reads none of the
phrases that contain each other.
-/

namespace EcmaSyntax.Grammar

open EcmaSyntax.Diagnostic EcmaSyntax.Lexer EcmaSyntax.Scope EcmaSyntax.Tree

variable {version : Nat} [Unicode.IdentifierChars version]

section Conditions

variable {α β : Type} {I : State → Prop}

/-- The step keeps the condition, and its results have a property. -/
def Preserves (I : State → Prop) (Q : α → Prop) (step : Parser α) : Prop :=
  ∀ s, I s → Yields step (fun a s' => I s' ∧ Q a) s

/-- The step keeps the condition. -/
class Steady (I : State → Prop) (step : Parser α) : Prop where
  keeps : Preserves I (fun _ => True) step

/-- The condition is one that plain steps keep. -/
class Robust (I : State → Prop) : Prop where
  touched : ∀ {s s'}, Touched s s' → I s → I s'

/-- What holds of a parse that keeps its parentheses goes on to hold. -/
abbrev Keeps (Q : α → Prop) (step : Parser α) : Prop := Preserves Ready Q step

/-- The step leaves the outline alone, and its results have a property. -/
abbrev Balances (o : Outline) (Q : α → Prop) (step : Parser α) : Prop :=
  Preserves (fun s => s.outline = o) Q step

namespace Preserves

variable {P Q : α → Prop} {R : β → Prop} {step : Parser α} {rest : α → Parser β}

theorem mono (h : Preserves I P step) (hPQ : ∀ a, P a → Q a) : Preserves I Q step :=
  fun s hs => (h s hs).mono fun a _ ha => ⟨ha.1, hPQ a ha.2⟩

theorem and (h : Preserves I P step) (h' : Preserves I Q step) :
    Preserves I (fun a => P a ∧ Q a) step :=
  fun s hs => ((h s hs).and (h' s hs)).mono fun _ _ ha => ⟨ha.1.1, ha.1.2, ha.2.2⟩

theorem bind (h : Preserves I P step) (hrest : ∀ a, P a → Preserves I R (rest a)) :
    Preserves I R (step >>= rest) :=
  fun s hs => (h s hs).bind fun a s' ha => hrest a ha.2 s' ha.1

theorem pure {a : α} (h : Q a) : Preserves I Q (Pure.pure a) := fun _ hs => Meets.pure ⟨hs, h⟩

theorem map {f : α → β} (h : Preserves I (fun a => R (f a)) step) : Preserves I R (f <$> step) :=
  fun s hs => Meets.map (h s hs)

/-- A step whose result does not matter. -/
theorem skip [Steady I step] (h : ∀ a, Preserves I R (rest a)) : Preserves I R (step >>= rest) :=
  Steady.keeps.bind fun a _ => h a

/-- A phrase that is there, where it may be missing. -/
theorem optional (h : Preserves I Q step) :
    Preserves I (fun found => ∀ a ∈ found, Q a) (some <$> step) :=
  .map (h.mono fun a ha b hb => by
    obtain rfl : a = b := by simpa using hb
    exact ha)

/-- A loop over a value that has a property after each round. -/
theorem iterate {round : α → Parser (Option α)}
    (hround : ∀ x, P x → Preserves I (fun found => ∀ y ∈ found, P y) (round x)) (fuel : Nat)
    {x : α} (hx : P x) : Preserves I P (iterate round fuel x) := by
  intro s hs
  refine Yields.iterate (I := fun x s => I s ∧ P x) (fun x s hxs => ?_) fuel x s ⟨hs, hx⟩
  refine (hround x hxs.2 s hxs.1).mono fun found s' hfound => ⟨hfound.1, ?_⟩
  cases found with
  | none => exact hxs.2
  | some y => exact hfound.2 y rfl

end Preserves

namespace Stops

variable {step : Parser α}

theorem preserves (h : Stops step) {Q : α → Prop} : Preserves I Q step := fun _ _ => h.yields

/-- A check that either fails or changes nothing. -/
theorem preserves_guard (h : Stops step) {c : Prop} [Decidable c] {rest : α → Parser β}
    {last : Parser β} {Q : β → Prop} (hlast : Preserves I Q last) :
    Preserves I Q (if c then step >>= rest else last) := by
  split
  · exact fun _ _ => h.bind
  · exact hlast

end Stops

/-- What is taken over from a conversion. -/
theorem preserves_ofExcept (found : Except Failure α) :
    Preserves I (fun a => found = .ok a) (ofExcept found) := by
  cases found with
  | ok a => exact .pure rfl
  | error failure => exact fun _ _ => trivial

section Steps

variable {step : Parser α}

instance (priority := low) [Robust I] [Plain step] : Steady I step :=
  ⟨fun s hs => (Plain.touches s).mono fun _ _ hs' => ⟨Robust.touched hs' hs, trivial⟩⟩

instance {a : α} : Steady I (pure a : Parser α) := ⟨.pure trivial⟩

instance [Steady I step] {rest : α → Parser β} [∀ a, Steady I (rest a)] :
    Steady I (step >>= rest) :=
  ⟨.skip fun _ => Steady.keeps⟩

instance {c : Prop} [Decidable c] {first second : Parser α} [Steady I first] [Steady I second] :
    Steady I (if c then first else second) := by
  split
  · infer_instance
  · infer_instance

instance : Robust Ready := ⟨fun h => h.ready⟩

/-- A change to the other parts of the state. -/
instance {observing assignable : State → Bool} {observations : State → Observations}
    {scopes : State → Stack} {privateNames : State → PrivateNames} {labels : State → Labels}
    {exports : State → Exports} {cover : State → Cover} {spreads : State → List Nat}
    {previousEnd depth : State → Nat}
    {labelChain lastYield lastAwait lastAwaitName : State → Option Nat} :
    Steady Ready (modify fun s => ⟨s.lexer, observing s, observations s, scopes s, privateNames s,
      labels s, labelChain s, exports s, assignable s, cover s, s.parenthesized, spreads s,
      lastYield s, lastAwait s, lastAwaitName s, s.assignmentStart, previousEnd s, depth s,
      s.refused⟩ : Parser Unit) :=
  ⟨fun _ hs => .ok rfl ⟨hs, trivial⟩⟩

instance {o : Outline} : Robust (fun s => s.outline = o) := ⟨fun h hs => h.outline.trans hs⟩

/-- A change to the parts of the state that are not in its outline. -/
instance {o : Outline} {lexer : State → Lexer.State} {observing assignable : State → Bool}
    {observations : State → Observations} {exports : State → Exports} {cover : State → Cover}
    {parenthesized spreads : State → List Nat}
    {lastYield lastAwait lastAwaitName assignmentStart : State → Option Nat}
    {previousEnd : State → Nat} :
    Steady (fun s => s.outline = o) (modify fun s => ⟨lexer s, observing s, observations s,
      s.scopes, s.privateNames, s.labels, s.labelChain, exports s, assignable s, cover s,
      parenthesized s, spreads s, lastYield s, lastAwait s, lastAwaitName s, assignmentStart s,
      previousEnd s, s.depth, s.refused⟩ : Parser Unit) :=
  ⟨fun _ hs => .ok rfl ⟨hs, trivial⟩⟩

instance {o : Outline} {step : Lexer α} : Steady (fun s => s.outline = o) (withLexer step) :=
  ⟨fun s hs => (withLexer_outline step s).mono fun _ _ hs' => ⟨hs'.trans hs, trivial⟩⟩

end Steps

section Phrases

variable {P Q : α → Prop} {step : Parser α} {o : Outline}

/-- What a phrase leaves is not changed by counting levels. -/
theorem Keeps.nested (h : Keeps Q step) : Keeps Q (nested step) := by
  unfold Grammar.nested enterNesting leaveNesting
  exact .skip fun _ => h.bind fun a ha => .skip fun _ => .pure ha

theorem Keeps.inScope (h : Keeps Q step) (roles : List Role) : Keeps Q (inScope roles step) := by
  unfold Grammar.inScope
  exact .skip fun _ => h.bind fun a ha => .skip fun _ => .pure ha

theorem Keeps.asFunction (h : Keeps Q step) : Keeps Q (asFunction step) := by
  unfold Grammar.asFunction
  exact .skip fun saved => .skip fun _ => h.bind fun a ha => .skip fun _ => .pure ha

/-- A phrase one level deeper. -/
theorem Balances.nested (h : Balances { o with depth := o.depth + 1 } Q step) :
    Balances o Q (nested step) := by
  intro s hs
  unfold Grammar.nested
  refine (enterNesting_frame s).bind fun _ s' hs' => ?_
  subst hs' hs
  refine (h _ rfl).bind fun a s' ha => .run rfl (.pure ⟨?_, ha.2⟩)
  have hdepth : s'.depth = s.depth + 1 := congrArg Outline.depth ha.1
  change { s'.outline with depth := s'.depth - 1 } = s.outline
  rw [ha.1, hdepth]
  rfl

theorem Balances.inScope {roles : List Role}
    (h : Balances { o with scopes := roles :: o.scopes } Q step) :
    Balances o Q (inScope roles step) := by
  intro s hs
  unfold Grammar.inScope
  subst hs
  refine .run rfl ((h _ rfl).bind fun a s' ha => .run rfl (.pure ⟨?_, ha.2⟩))
  have hroles : s'.scopes.roles = roles :: s.scopes.roles := congrArg Outline.scopes ha.1
  change { s'.outline with scopes := s'.scopes.pop.roles } = s.outline
  rw [ha.1, Stack.roles_pop hroles s.scopes.roles_ne_nil]
  rfl

/-- Labels around a function are not seen in it. -/
theorem Balances.asFunction (h : Balances { o with labels := [], labelChain := none } Q step) :
    Balances o Q (asFunction step) := by
  intro s hs
  unfold Grammar.asFunction
  subst hs
  refine .run rfl (.run rfl ((h _ rfl).bind fun a s' ha => .run rfl (.pure ⟨?_, ha.2⟩)))
  change { s'.outline with labels := s.labels, labelChain := s.labelChain } = s.outline
  rw [ha.1]
  rfl

namespace Phrases

variable {g : Phrases} [Robust I]

omit [Robust I] in
/-- The items of a loop when each new one has a property. -/
theorem collect_preserves {round : List α → Parser (Round α)}
    (hround : ∀ earlier, (∀ x ∈ earlier, P x) → Preserves I (Round.Adds P) (round earlier)) :
    Preserves I (fun items => ∀ x ∈ items, P x) (g.collect round) := by
  intro s hs
  refine (Yields.collectAfter (I := fun items s => I s ∧ ∀ x ∈ items, P x)
    (fun earlier s h => ?_) g.size [] s ⟨hs, by simp⟩).mono fun items s' h => ⟨h.1, fun x hx => ?_⟩
  · refine (hround earlier h.2 s h.1).mono fun r s' hr => ?_
    cases r with
    | stop => exact ⟨hr.1, h.2⟩
    | last item => exact ⟨hr.1, List.forall_mem_cons.mpr ⟨hr.2, h.2⟩⟩
    | more item => exact ⟨hr.1, List.forall_mem_cons.mpr ⟨hr.2, h.2⟩⟩
  · exact h.2 x (List.mem_reverse.mpr hx)

theorem listed_preserves {item : List α → Parser α} (close : Token)
    (hitem : ∀ earlier, Preserves I P (item earlier)) :
    Preserves I (fun items => ∀ x ∈ items, P x) (g.listed close item) := by
  refine collect_preserves fun earlier _ => .skip fun atClose => ?_
  split
  · exact .pure trivial
  · exact (hitem earlier).bind fun x hx => .skip fun _ => .pure hx

theorem itemsUpTo_preserves {item : Parser α} (close : Token) (hitem : Preserves I P item) :
    Preserves I (fun items => ∀ x ∈ items, P x) (g.itemsUpTo close item) := by
  refine collect_preserves fun earlier _ => .skip fun atClose => ?_
  split
  · exact .pure trivial
  · refine .skip fun atEnd => stops_unexpected.preserves_guard ?_
    exact hitem.bind fun x hx => .pure hx

end Phrases

end Phrases

end Conditions

section Literals

instance {options : Options} : Plain (keptRaw options) := by unfold keptRaw; infer_instance

instance {ctx : Context} : Plain (literalValue ctx) := by
  unfold literalValue
  refine ⟨.skip fun flags => .skip fun token => ?_⟩
  split <;> exact Plain.touches

instance {options : Options} {ctx : Context} : Plain (literal options ctx) := by
  unfold literal; infer_instance

instance {options : Options} : Plain (regexLiteral options) := by
  unfold regexLiteral; infer_instance

instance {tagged isTail : Bool} : Plain (templateElement tagged isTail) := by
  unfold templateElement; infer_instance

instance {start : Nat} : Plain (noteSpread start) := by unfold noteSpread; infer_instance

instance {token : Token} {escaped : Bool} {start : Nat} {key : Expression} :
    Plain (shorthandName token escaped start key) := by
  unfold shorthandName
  split
  · infer_instance
  · infer_instance

end Literals

section Functions

instance {options : Options} {ctx : Context} {kind : BindingKind} {p : Pattern} :
    Plain (declarePattern options ctx kind p) := by
  unfold declarePattern; infer_instance

instance {ctx : Context} {kind : BindingKind} {p : Pattern} :
    Plain (checkBoundNames ctx kind p) := by
  unfold checkBoundNames; infer_instance

instance {prologue : Prologue} {simpleParams : Bool} {directive : String} {start : Nat}
    {hasOctalEscape : Bool} : Plain (prologue.add simpleParams directive start hasOctalEscape) := by
  unfold Prologue.add
  generalize (prologue.octalEscape <|> if hasOctalEscape then some start else none) = octalEscape
  dsimp only
  split
  · refine ⟨(stops_failAt _ _).touches_guard ?_⟩
    cases octalEscape with
    | none => exact Plain.touches
    | some offset => exact Plain.touches
  · infer_instance

instance {shape : FunctionShape} {params : List Pattern} {start : Nat} :
    Plain (checkParameterCount shape params start) := by
  unfold checkParameterCount
  split <;> infer_instance

instance {list : ParameterList} {failure : Failure} : Plain (refuseParameters list failure) :=
  ⟨fun _ => trivial⟩

instance {depth : Nat} {list : ParameterList} : Plain (settleParameters depth list) := by
  unfold settleParameters
  refine ⟨fun s => .run rfl ?_⟩
  dsimp only
  have hstart : Touched s { s with scopes := (s.scopes.takeDeferred depth).2 } :=
    ⟨State.outline_scopes (Stack.roles_takeDeferred s.scopes depth), id⟩
  refine .run rfl ?_
  split
  · exact (Plain.touches _).mono fun _ s' hs' => hstart.trans hs'
  · exact .pure hstart

instance {ctx : Context} : Plain (functionBindingKind ctx) := by
  unfold functionBindingKind; infer_instance

instance {isAsync : Bool} : Plain (functionStart isAsync) := by
  unfold functionStart; infer_instance

end Functions

section Classes

instance {token : Token} : Plain (atModifier token) := by unfold atModifier; infer_instance

instance {isStatic : Bool} : Plain (modifiers isStatic) := by
  unfold modifiers
  refine ⟨.skip fun isAsync => ?_⟩
  extract_lets rest
  have hrest : ∀ u, Plain (rest u) := fun u => ⟨.skip fun generator => Plain.touches⟩
  split
  · exact .skip fun u => (hrest u).touches
  · exact (hrest ()).touches

instance {key : Expression} {kind : PrivateKind} {isStatic : Bool} {offset : Nat} :
    Plain (declarePrivate key kind isStatic offset) := by
  unfold declarePrivate
  split
  · refine ⟨fun s => .run rfl ?_⟩
    split
    · exact trivial
    · rename_i names hnames
      exact .ok rfl ⟨State.outline_privateNames (PrivateNames.length_declare hnames), id⟩
  · infer_instance

end Classes

section Markup

variable {g : Phrases}

instance {exit : MarkupExit} : Plain (leaveTag exit) := by
  unfold leaveTag
  split
  · infer_instance
  · infer_instance
  · infer_instance

instance : Plain markupIdentifier := by
  unfold markupIdentifier
  exact ⟨.skip fun token => (stops_fail _).touches_guard Plain.touches⟩

instance : Plain expectClosingBrace := by unfold expectClosingBrace; infer_instance

instance : Plain (markupName g) := by
  unfold markupName
  refine ⟨.skip fun start => .skip fun first => .skip fun atColon => ?_⟩
  split
  · exact Plain.touches
  · exact .bind (.iterate (fun object => Plain.touches) g.size _) fun path => .pure

instance {name : MarkupName} : Plain (closingTag g name) := by
  unfold closingTag
  refine ⟨.skip fun start => .skip fun _ => .skip fun _ => .skip fun atEnd => ?_⟩
  extract_lets rest
  have hrest : ∀ closing, Plain (rest closing) := by
    intro closing
    cases closing with
    | none => exact ⟨Plain.touches⟩
    | some found =>
      refine ⟨(stops_failAt _ _).touches_guard (.skip fun atEnd => ?_)⟩
      exact stops_unexpected.touches_guard Plain.touches
  split
  · exact .skip fun closing => (hrest closing).touches
  · exact .skip fun closing => (hrest closing).touches

end Markup

section Expressions

instance : Plain propertyHead := by
  unfold propertyHead
  refine ⟨.skip fun isAsync => ?_⟩
  extract_lets rest
  have hrest : ∀ u, Plain (rest u) := fun u => ⟨.skip fun generator => Plain.touches⟩
  split
  · exact .skip fun u => (hrest u).touches
  · exact (hrest ()).touches

instance {name : String} {offset : Nat} : Plain (noteAwaitName name offset) := by
  unfold noteAwaitName; infer_instance

instance {noted : Option Nat} {start : Nat} {cause : Cause} :
    Plain (checkNone noted start cause) := by
  unfold checkNone
  split
  · infer_instance
  · infer_instance

instance : Plain checkArrow := by unfold checkArrow; infer_instance

instance {options : Options} {use : PatternUse} {ctx : Context} :
    Plain (conversion options use ctx) := by
  unfold conversion; infer_instance

instance {e : Expression} : Plain (isBareArrow e) := by
  unfold isBareArrow
  split <;> infer_instance

instance {ctx : Context} {target : Expression} {position : String} :
    Plain (checkUpdateTarget ctx target position) := by
  unfold checkUpdateTarget
  refine ⟨.skip fun s => ?_⟩
  split
  · exact Plain.touches
  · split <;> exact Plain.touches

instance {ctx : Context} {argument : Expression} {start : Nat} :
    Plain (checkDelete ctx argument start) := by
  unfold checkDelete
  split <;> infer_instance

instance {e : Expression} : Plain (refusePrivateName e) := by
  unfold refusePrivateName
  split <;> infer_instance

instance {a b : Option Token} : Plain (checkMixing a b) := by
  unfold checkMixing
  split <;> infer_instance

end Expressions

section Statements

variable {g : Phrases}

instance : Plain atLetDeclaration := by unfold atLetDeclaration; infer_instance

instance : Plain atAsyncFunction := by unfold atAsyncFunction; infer_instance

instance : Plain atMisplacedLet := by unfold atMisplacedLet; infer_instance

instance : Plain atImportDeclaration := by unfold atImportDeclaration; infer_instance

instance {kind : VariableKind} {declarator : VariableDeclarator} :
    Plain (checkInitializer kind declarator) := by
  unfold checkInitializer; infer_instance

instance {isContinue : Bool} : Plain (jumpLabel isContinue) := by
  unfold jumpLabel
  refine ⟨.skip fun name => .skip fun s => ?_⟩
  split
  · exact Plain.touches
  · exact (stops_fail _).touches_guard Plain.touches

instance {ctx : Context} {start : Nat} {isContinue : Bool} :
    Plain (checkJump ctx start isContinue) := by
  unfold checkJump; infer_instance

instance {ctx : Context} {start : Nat} {kind : VariableKind} {isOf : Bool}
    {declarations : List VariableDeclarator} :
    Plain (checkForDeclarators g ctx start kind isOf declarations) := by
  unfold checkForDeclarators
  dsimp only
  split <;> infer_instance

instance : Plain forKeyword? := by unfold forKeyword?; infer_instance

instance {isAwait : Bool} {isOf : Option Bool} : Plain (checkAwait isAwait isOf) := by
  unfold checkAwait; infer_instance

instance : Plain forDeclaration? := by unfold forDeclaration?; infer_instance

end Statements

section Modules

variable {g : Phrases} {ctx : Context}

instance : Plain (moduleName g ctx) := by
  unfold moduleName
  refine ⟨.skip fun token => ?_⟩
  split
  · exact .skip fun s => (stops_fail _).touches_guard Plain.touches
  · exact stops_unexpected.touches_guard Plain.touches

instance : Plain (expectString g ctx) := by
  unfold expectString
  exact ⟨.skip fun atString => (stops_fail _).touches_guard Plain.touches⟩

instance : Plain (attributeKey g ctx) := by unfold attributeKey; infer_instance

instance {earlier : List ImportAttribute} : Plain (importAttribute g ctx earlier) := by
  unfold importAttribute
  exact ⟨.skip fun start => .skip fun key => (stops_failAt _ _).touches_guard Plain.touches⟩

instance : Plain (importAttributes g ctx) := by unfold importAttributes; infer_instance

instance : Plain (moduleSource g ctx) := by unfold moduleSource; infer_instance

instance : Plain (fromClause g ctx) := by
  unfold fromClause
  exact ⟨.skip fun atFrom => (stops_fail _).touches_guard Plain.touches⟩

instance : Plain (importBinding g ctx) := by unfold importBinding; infer_instance

instance {isName : Bool} {name : ModuleName} : Plain (sameBinding g ctx isName name) := by
  unfold sameBinding
  split
  · exact ⟨(stops_failAt _ _).touches_guard Plain.touches⟩
  · infer_instance

instance : Plain (importSpecifier g ctx) := by unfold importSpecifier; infer_instance

instance : Plain (importAll g ctx) := by
  unfold importAll
  refine ⟨.skip fun start => .skip fun _ => .skip fun atAs => ?_⟩
  exact stops_unexpected.touches_guard Plain.touches

instance : Plain (importSpecifiers g ctx) := by
  unfold importSpecifiers
  refine ⟨.skip fun token => ?_⟩
  split <;> exact Plain.touches

instance : Plain (importClause g ctx) := by unfold importClause; infer_instance

instance {name : String} {offset : Nat} : Plain (addExport name offset) := by
  unfold addExport
  refine ⟨.skip fun s => ?_⟩
  split
  · exact Plain.touches
  · exact Plain.touches

instance : Plain (localFault? ctx) := by unfold localFault?; infer_instance

instance : Plain (exportEntry g ctx) := by unfold exportEntry; infer_instance

instance {isLocal : Bool} {specifier : ExportSpecifier} :
    Plain (noteExport isLocal specifier) := by
  unfold noteExport; infer_instance

instance {options : Options} : Plain (checkExports options) := by
  unfold checkExports; infer_instance

end Modules

end EcmaSyntax.Grammar
