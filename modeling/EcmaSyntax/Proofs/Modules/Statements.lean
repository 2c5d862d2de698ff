import EcmaSyntax.Proofs.Grammar.TopLevel
import EcmaSyntax.Proofs.Modules.Declarations

/-!
Names that phrases declare. Expressions declare none outside of them, nor do the bodies of
functions and classes. A binding pattern declares the names that it binds: those of variables may
come out of the scopes around them, the others stay where they are.

Variables that statements declare. Whatever comes to be bound at the top level while a statement is
read is a variable that stands in it, however deep; what else is declared in it stays there.
-/

set_option synthInstance.maxSize 2000

namespace EcmaSyntax.Grammar

open EcmaSyntax.Diagnostic EcmaSyntax.Lexer EcmaSyntax.Scope EcmaSyntax.Tree

variable {version : Nat} [Unicode.IdentifierChars version]

variable {α β : Type} {w : Search} {depth : Nat} {D : Prop}

section Declaring

variable {m : Manner} {stack : Stack} {names : List Identifier} {options : Options} {ctx : Context}
  {kind : BindingKind} {s : State}

theorem depth_declareNames (m : Manner) (stack : Stack) (names : List Identifier) :
    (declareNames m stack names).depth = stack.depth := by
  induction names generalizing stack with
  | nil => rfl
  | cons id rest ih => exact (ih _).trans (Stack.depth_declare ..)

theorem binds_top_declareNames {name : String}
    (h : (declareNames m stack names).top.Binds name) : stack.top.Binds name ∨
      (stack.depth = 0 ∨ m.kind.isVarLike = true) ∧ name ∈ names.map Identifier.name := by
  induction names generalizing stack with
  | nil => exact .inl h
  | cons id rest ih =>
    rw [List.map_cons, List.mem_cons]
    rcases ih h with h | ⟨hreaches, hmem⟩
    · refine (Stack.binds_top_declare h).imp_right fun ⟨hname, hreaches⟩ => ⟨?_, .inl hname⟩
      exact hreaches.imp List.length_eq_zero_iff.mpr And.left
    · rw [Stack.depth_declare] at hreaches
      exact .inr ⟨hreaches, .inr hmem⟩

/-- The names of variables may reach the outermost scope from everywhere. -/
theorem tracksBinding_of_declares {names : α → List Identifier} {step : Parser α}
    (h : Declares w.text m [] names step) : TracksBinding w depth D (fun a => D ∨
      (depth = 0 ∨ m.kind.isVarLike = true) ∧ w.name ∈ (names a).map Identifier.name) step := by
  refine ⟨fun s hs => (h s.scopes s hs.oriented rfl).mono fun a s' ha =>
    ⟨ha.1, ?_, fun hbinds => ?_⟩⟩
  · rw [ha.2, depth_declareNames, hs.depth]
  · rw [ha.2] at hbinds
    rw [← hs.depth]
    exact (binds_top_declareNames hbinds).imp_left hs.known

/-- A name that is not that of a variable reaches the outermost scope only from there, and so does
a name that is declared at a boundary. -/
theorem Search.At.declared (hs : w.At depth D s) (name : String) (offset : Nat)
    (hkind : kind.isVarLike = true → s.scopes.current.has Role.isVarBoundary = true) :
    Yields (declare options ctx kind name offset) (fun _ s' => s'.lexer = s.lexer ∧
      w.At depth (D ∨ depth = 0 ∧ w.name = name) s') s := by
  refine (declare_yields options ctx kind name offset s).mono fun _ s' hs' => ?_
  subst hs'
  refine ⟨rfl, hs.oriented, (Stack.depth_declare ..).trans hs.depth, fun hbinds => ?_⟩
  refine (Stack.binds_top_declare hbinds).imp hs.known fun ⟨hname, hreaches⟩ => ⟨?_, hname⟩
  rcases hreaches with houter | ⟨hvariable, hopen⟩
  · rw [← hs.depth]
    exact List.length_eq_zero_iff.mpr houter
  · rw [hkind hvariable] at hopen
    cases hopen

theorem identifier_moves (s : State) : Yields identifier
    (fun id s' => Moves s s' ∧ id.name = s.lexer.value.text) s := by
  have hmoves : Yields identifier (fun _ s' => Moves s s') s :=
    ((Light.moves s).weaken fun _ _ => trivial).mono fun _ _ h => h.toMoves
  refine hmoves.and ?_
  unfold identifier
  exact .run rfl (.run rfl (.skip fun _ _ => .run rfl (.pure rfl)))

/-- The current token is declared and read as a name. -/
theorem Search.At.named {F : β → Prop} {rest : Option Identifier → Parser β}
    (hs : w.At depth D s) (offset : Nat)
    (hkind : kind.isVarLike = true → s.scopes.current.has Role.isVarBoundary = true)
    (hrest : ∀ id : Option Identifier,
      TracksBinding w depth (D ∨ depth = 0 ∧ w.name ∈ id.toList.map Identifier.name) F (rest id)) :
    Yields (declare options ctx kind s.lexer.value.text offset >>= fun _ =>
      some <$> identifier >>= rest) (fun b s' => w.At depth (F b) s') s := by
  refine (hs.declared _ _ hkind).bind fun _ s₁ ⟨hlexer, hs₁⟩ => ?_
  rw [bind_map_left]
  refine (identifier_moves s₁).bind fun id s₂ ⟨hmoves, hname⟩ => (hrest (some id)).ends s₂ ?_
  obtain ⟨horiented, hdepth, hknown⟩ := hs₁.moves (hmoves.oriented hs₁.oriented).1 hmoves.scopes
  exact ⟨horiented, hdepth, fun hbinds => by simpa [hname, hlexer] using hknown hbinds⟩

end Declaring

/-- A statement of a scope introduces the name, or a variable of the name stands in it. -/
def Search.Brings (w : Search) (depth : Nat) (x : Statement) : Prop :=
  depth = 0 ∧ w.name ∈ x.introducedNames.map Identifier.name ∨
    (Node.statement x).HasVariable w.name

/-- What phrases declare is accounted for, in strict code. Elsewhere a function may be declared
after a label. -/
class Phrases.Searched (w : outParam Search) (g : Phrases) : Prop where
  keepPlacement : g.KeepPlacement w.toInquiry
  statement : ∀ depth ctx position, ctx.strict = true →
    ShowsBinding w depth (g.statement ctx position)
  listItem : ∀ depth ctx D, ctx.strict = true →
    TracksBinding w depth D (fun x => D ∨ w.Brings depth x) (g.listItem ctx)

/-- Strict code. -/
class Context.IsStrict (ctx : Context) : Prop where
  strict : ctx.strict = true

section Contexts

variable {ctx : Context} {module inFunction inGenerator inAsync inIteration inSwitch disallowIn
  inMethod inDerivedConstructor inClassField inStaticBlock inParameters newTarget topLevel : Bool}

/-- A context that differs in other flags. -/
instance [h : ctx.IsStrict] : Context.IsStrict
    ⟨ctx.strict, module, inFunction, inGenerator, inAsync,
    inIteration, inSwitch, disallowIn, inMethod, inDerivedConstructor, inClassField, inStaticBlock,
    inParameters, newTarget, topLevel⟩ := ⟨h.strict⟩

end Contexts

section Phrases

variable {g : Phrases} [hg : g.Searched w] {ctx : Context}

instance : Silent w (g.assignmentCover ctx) :=
    silent_of_keepsPlacement (hg.keepPlacement.assignmentCover ctx)
instance : Silent w (g.assignment ctx) := silent_of_keepsPlacement (hg.keepPlacement.assignment ctx)
instance : Silent w (g.expression ctx) := silent_of_keepsPlacement (hg.keepPlacement.expression ctx)
instance {start : Nat} {first : Expression} : Silent w (g.sequenceAfter ctx start first) :=
  silent_of_keepsPlacement (hg.keepPlacement.sequenceAfter ctx start first)
instance : Silent w (g.leftHandSide ctx) :=
    silent_of_keepsPlacement (hg.keepPlacement.leftHandSide ctx)
instance {derived : Bool} : Silent w (classBody g ctx derived) :=
  silent_of_keepsPlacement (hg.keepPlacement.classBody ctx derived)
instance : Silent w (decorators g ctx) := silent_of_keepsPlacement (hg.keepPlacement.decorators ctx)

instance {left : Expression} {cause : Cause} [cause.IsImmediate] :
    Silent w (patternTarget g ctx left cause) :=
  have := (tells_patternTarget g ctx left cause w.options).light
  inferInstance

instance {isAsync isGenerator : Bool} {shape : FunctionShape} {name : Option Identifier} :
    Silent w (functionParts g (ctx.enterFunction isAsync isGenerator) shape name) :=
  silent_of_keepsPlacement (hg.keepPlacement.functionParts
    (congrArg Grant.inParameters (grant_enterFunction ctx isAsync isGenerator)) shape name)

instance {position : Position} [h : ctx.IsStrict] :
    ShowsBinding w depth (g.statement ctx position) :=
  hg.statement depth ctx position h.strict

/-- Inside of other scopes only variables are seen. -/
instance [h : ctx.IsStrict] : ShowsBinding w (depth + 1) (g.listItem ctx) := by
  refine .of_tracksBinding fun D => (hg.listItem (depth + 1) ctx D h.strict).mono fun x hx => ?_
  refine hx.imp_right fun hbrings => ?_
  rcases hbrings with ⟨hdepth, -⟩ | hvariable
  · cases hdepth
  · exact fun hlacks => hlacks.all hvariable

end Phrases

section Declarations

variable {g : Phrases} [hg : g.Searched w] {ctx : Context} {kind : VariableKind}

/-- The names are declared as a kind that the outermost scope sees. -/
def Search.Sees (w : Search) (depth : Nat) (kind : VariableKind) (names : List Identifier) : Prop :=
  (depth = 0 ∨ kind = .varKind) ∧ w.name ∈ names.map Identifier.name

theorem tracksBinding_variableDeclarator (D : Prop) : TracksBinding w depth D
    (fun d => D ∨ w.Sees depth kind d.id.boundNames) (variableDeclarator g ctx kind) := by
  have htarget : TracksBinding w depth D (fun p => D ∨ w.Sees depth kind p.boundNames)
      (g.bindingTarget ctx (variableBinding kind)) := by
    refine (tracksBinding_of_declares (hg.keepPlacement.targetNames ctx
      (variableBinding kind))).mono
      fun p hp => hp.imp_right fun ⟨hreaches, hname⟩ => ⟨hreaches.imp_right ?_, hname⟩
    cases kind <;> simp [variableBinding, BindingKind.isVarLike]
  unfold variableDeclarator
  refine .skip fun start => htarget.bind fun target => .skip fun hasInit => ?_
  extract_lets rest
  have hrest : ∀ init, TracksBinding w depth (D ∨ w.Sees depth kind target.boundNames)
      (fun d => D ∨ w.Sees depth kind d.id.boundNames) (rest init) :=
    fun init => .skip fun span => .pure id
  clear_value rest
  infer_instance

theorem tracksBinding_variableDeclarators (D : Prop) (inHead : Bool) : TracksBinding w depth D
    (fun ds => D ∨ w.Sees depth kind (ds.flatMap fun d => d.id.boundNames))
      (variableDeclarators g ctx kind inHead) := by
  have hcollect : TracksBinding w depth D
      (fun ds => D ∨ ∃ d ∈ ds, w.Sees depth kind d.id.boundNames)
      (variableDeclarators g ctx kind inHead) := by
    refine tracksBinding_collect fun earlier D => ?_
    refine (tracksBinding_variableDeclarator D).bind fun declarator => ?_
    extract_lets rest
    have hrest : ∀ u, TracksBinding w depth (D ∨ w.Sees depth kind declarator.id.boundNames)
        (Round.Knows D fun d => w.Sees depth kind d.id.boundNames) (rest u) := by
      refine fun u => .skip fun more => ?_
      split <;> exact .pure id
    clear_value rest
    infer_instance
  refine hcollect.mono fun ds hds => hds.imp_right ?_
  rintro ⟨d, hd, hsees, hname⟩
  refine ⟨hsees, ?_⟩
  rw [List.map_flatMap]
  exact List.mem_flatMap.mpr ⟨d, hd, hname⟩

/-- A declaration of variables brings the names that are seen. -/
instance : TracksBinding w depth D (fun x => D ∨ w.Brings depth x)
    (variableStatement g ctx kind) := by
  unfold variableStatement
  refine .skip fun start => .skip fun _ =>
    (tracksBinding_variableDeclarators D false).bind fun ds => ?_
  refine .skip fun _ => .skip fun span => .pure fun h => h.imp_right ?_
  rintro ⟨htop | hvariable, hname⟩
  · exact .inl ⟨htop, hname⟩
  · subst hvariable
    exact .inr (.here hname)

theorem checkBinding_yields (ctx : Context) (kind : BindingKind) (name : String) (offset : Nat)
    (s : State) : Yields (checkBinding ctx kind name offset) (fun _ s' => s' = s) s := by
  unfold checkBinding
  cases refuse offset (bindingFault? ctx kind name) with
  | ok => exact .pure rfl
  | error => trivial

theorem functionBindingKind_yields (s : State) : Yields (functionBindingKind ctx) (fun kind s' =>
    s' = s ∧ (kind.isVarLike = true → s.scopes.current.has Role.isVarBoundary = true)) s := by
  unfold functionBindingKind
  refine .run rfl ?_
  dsimp only
  split
  · rename_i hfound
    refine .pure ⟨rfl, fun _ => ?_⟩
    have hboundary : ∀ role ∈ s.scopes.current.roles,
        (role == .functionBody || role == .staticBlock || role == .topLevel) = true →
        role.isVarBoundary = true := fun role _ => by cases role <;> decide
    unfold Frame.has at hfound ⊢
    grind
  · exact .pure ⟨rfl, nofun⟩

/-- A function is declared where it stands, and nothing else that is seen around it. -/
theorem tracksBinding_functionDeclaration (D : Prop) (isAsync nameRequired : Bool) :
    TracksBinding w depth D (fun f => D ∨ depth = 0 ∧ w.name ∈ f.id.toList.map Identifier.name)
      (functionDeclaration g ctx isAsync nameRequired) := by
  unfold functionDeclaration
  refine .skip fun start => .skip fun generator => ⟨fun s hs => .run rfl ?_⟩
  extract_lets rest
  have hrest : ∀ found : Option Identifier,
      TracksBinding w depth (D ∨ depth = 0 ∧ w.name ∈ found.toList.map Identifier.name)
        (fun f => D ∨ depth = 0 ∧ w.name ∈ f.id.toList.map Identifier.name) (rest found) :=
    fun _ => .skip fun parts => .skip fun span => .pure id
  clear_value rest
  split
  · refine .run rfl (.run rfl ((functionBindingKind_yields s).bind fun kind s₁ ⟨hs₁, hkind⟩ => ?_))
    subst hs₁
    refine (checkBinding_yields ctx kind s₁.lexer.value.text _ s₁).bind fun _ s₂ hs₂ => ?_
    subst hs₂
    exact hs.named _ hkind hrest
  · have hquiet := fun found => (hrest found).given .inl
    exact TracksBinding.ends s hs

/-- A class that is declared is so where it stands, and nothing else that is seen around it. -/
theorem tracksBinding_classDefinition (D : Prop) (start : Nat) (isDefault : Bool)
    (decorators : List Decorator) :
    TracksBinding w depth D (fun c => D ∨ depth = 0 ∧ w.name ∈ c.id.toList.map Identifier.name)
      (classDefinition g ctx start true decorators isDefault) := by
  unfold classDefinition
  refine .skip fun _ => ?_
  extract_lets inner rest
  refine ⟨fun s hs => .run rfl ?_⟩
  have hrest : ∀ found : Option Identifier,
      TracksBinding w depth (D ∨ depth = 0 ∧ w.name ∈ found.toList.map Identifier.name)
        (fun c => D ∨ depth = 0 ∧ w.name ∈ c.id.toList.map Identifier.name) (rest found) := by
    intro found
    refine .skip fun hasHeritage => ?_
    extract_lets last
    have hlast : ∀ heritage, TracksBinding w depth
        (D ∨ depth = 0 ∧ w.name ∈ found.toList.map Identifier.name)
        (fun c => D ∨ depth = 0 ∧ w.name ∈ c.id.toList.map Identifier.name) (last heritage) :=
      fun heritage => .skip fun body => .skip fun _ => .skip fun span => .pure id
    clear_value last
    infer_instance
  clear_value rest
  split
  · refine .run rfl (.run rfl ?_)
    refine (checkBinding_yields inner .className s.lexer.value.text _ s).bind fun _ s₁ hs₁ => ?_
    subst hs₁
    exact hs.named _ nofun hrest
  · have hquiet := fun found => (hrest found).given .inl
    exact TracksBinding.ends s hs

end Declarations

set_option synthInstance.maxSize 40000

variable {g : Phrases} [hg : g.Searched w] {ctx : Context} [hctx : ctx.IsStrict] {start : Nat}

section Parts

instance {role : Role} : ShowsBinding w depth (block g ctx role) := by
  unfold block
  infer_instance

omit hctx in
instance : Silent w (parenExpression g ctx) := by
  unfold parenExpression
  infer_instance

instance : ShowsBinding w depth (loopBody g ctx) := by
  unfold loopBody
  infer_instance

omit hctx in
instance : ShowsBinding w depth (variableStatement g ctx .varKind) := by
  refine .of_tracksBinding fun D => ?_
  unfold variableStatement
  refine .skip fun start => .skip fun _ =>
    (tracksBinding_variableDeclarators D false).bind fun ds => ?_
  refine .skip fun _ => .skip fun span => .pure fun h => h.imp_right fun hsees hlacks => ?_
  exact hlacks.all (.here hsees.2)

end Parts

section Simple

instance : ShowsBinding w depth (ifStatement g ctx start) := by
  unfold ifStatement
  infer_instance

instance : ShowsBinding w depth (whileStatement g ctx start) := by
  unfold whileStatement
  infer_instance

instance : ShowsBinding w depth (doWhileStatement g ctx start) := by
  unfold doWhileStatement
  infer_instance

omit hctx hg in
instance {isContinue : Bool} : ShowsBinding w depth (jump ctx start isContinue) := by
  unfold jump
  infer_instance

omit hctx in
instance : ShowsBinding w depth (returnStatement g ctx start) := by
  unfold returnStatement
  infer_instance

omit hctx in
instance : ShowsBinding w depth (throwStatement g ctx start) := by
  unfold throwStatement
  infer_instance

omit hctx in
instance {earlier : List SwitchCase} : Silent w (caseTest g ctx earlier) := by
  unfold caseTest
  refine Silent.skip fun token => ?_
  split <;> infer_instance

instance {earlier : List SwitchCase} : ShowsBinding w (depth + 1) (switchCase g ctx earlier) := by
  unfold switchCase
  infer_instance

instance : ShowsBinding w depth (switchStatement g ctx start) := by
  unfold switchStatement
  infer_instance

instance {position : Position} : ShowsBinding w depth (labeledStatement g ctx start position) := by
  unfold labeledStatement
  infer_instance

instance {position : Position} : ShowsBinding w depth
    (expressionOrLabeled g ctx start position) := by
  unfold expressionOrLabeled
  infer_instance

omit [hg : g.Searched w] in
instance {position : Position} : ShowsBinding w depth (misplacedFunction g ctx position) := by
  refine .of_tracksBinding fun D => ?_
  unfold misplacedFunction
  simp only [hctx.strict, Bool.not_true, Bool.false_and, Bool.not_false, if_true]
  infer_instance

end Simple

section Compound

instance : ShowsBinding w depth (withStatement g ctx start) := by
  refine .of_tracksBinding fun D => ?_
  unfold withStatement
  extract_lets rest
  have hrest : ∀ u, TracksBinding w depth D (fun x => D ∨ ¬ AllIn w.Lacks x) (rest u) := by
    refine fun u => .skip fun _ => .skip fun object =>
      .bind (ShowsBinding.tracksBinding D) fun body => ?_
    extract_lets last
    have hlast : ∀ u, TracksBinding w depth (D ∨ ¬ AllIn w.Lacks body)
        (fun x => D ∨ ¬ AllIn w.Lacks x) (last u) := fun u => inferInstance
    clear_value last
    split <;> infer_instance
  clear_value rest
  infer_instance

/-- The parameter of a handler is seen nowhere else. -/
instance : ShowsBinding w depth (catchClause g ctx) := by
  refine .of_tracksBinding fun D => ?_
  have htarget : ∀ kind : BindingKind, kind.isVarLike = false →
      TracksBinding w (depth + 1) D (fun _ => D) (g.bindingTarget ctx kind) := fun kind hkind =>
    (tracksBinding_of_declares (hg.keepPlacement.targetNames ctx kind)).mono fun param h =>
      h.elim id fun ⟨hreaches, _⟩ => by simp [hkind] at hreaches
  unfold catchClause
  refine .skip fun start => .skip fun _ => .inScope (.skip fun hasParam => ?_)
  extract_lets rest
  have hrest : ∀ param, TracksBinding w (depth + 1) D (fun x => D ∨ ¬ AllIn w.Lacks x)
    (rest param) := by
    rintro (_ | param) <;> infer_instance
  clear_value rest
  split
  · refine .skip fun token => .bind (htarget _ ?_) fun param => .skip fun _ => hrest (some param)
    split <;> rfl
  · exact hrest none

instance : ShowsBinding w depth (tryStatement g ctx start) := by
  refine .of_tracksBinding fun D => ?_
  unfold tryStatement
  refine .skip fun _ => .bind (ShowsBinding.tracksBinding D) fun (blockSpan, body) =>
    .skip fun atCatch => ?_
  extract_lets rest
  have hrest : ∀ handler, TracksBinding w depth
      ((D ∨ ¬ AllIn w.Lacks (blockSpan, body)) ∨ ¬ AllIn w.Lacks handler)
      (fun x => D ∨ ¬ AllIn w.Lacks x) (rest handler) := by
    refine fun handler => .skip fun atFinally => ?_
    extract_lets last
    have hlast : ∀ finalizer, TracksBinding w depth
        (((D ∨ ¬ AllIn w.Lacks (blockSpan, body)) ∨ ¬ AllIn w.Lacks handler) ∨
          ¬ AllIn w.Lacks finalizer) (fun x => D ∨ ¬ AllIn w.Lacks x) (last finalizer) := by
      refine fun finalizer => .skip fun span => ?_
      obtain _ | handler := handler <;> obtain _ | ⟨finalSpan, final⟩ := finalizer <;>
        infer_instance
    have hnone := (hlast none).given .inl
    clear_value last
    infer_instance
  have hnone := (hrest none).given .inl
  clear_value rest
  infer_instance

end Compound

section Loops

variable {D' : Prop}

instance {init : ForHead} [h : Leads D' (D ∨ ¬ AllIn w.Lacks init)] :
    TracksBinding w depth D' (fun x => D ∨ ¬ AllIn w.Lacks x) (forRest g ctx start init) := by
  refine .given ?_ h.leads
  unfold forRest
  infer_instance

instance {left : ForHead} {isOf isAwait : Bool} [h : Leads D' (D ∨ ¬ AllIn w.Lacks left)] :
    TracksBinding w depth D' (fun x => D ∨ ¬ AllIn w.Lacks x)
      (forEach g ctx start left isOf isAwait) := by
  refine .given ?_ h.leads
  unfold forEach
  infer_instance

instance {isAwait : Bool} {kind : VariableKind} :
    ShowsBinding w (depth + 1) (forVariables g ctx start isAwait kind) := by
  refine .of_tracksBinding fun D => ?_
  unfold forVariables
  refine .skip fun initStart => .skip fun _ => ?_
  refine (tracksBinding_variableDeclarators D true).bind fun ds => .skip fun span => ?_
  extract_lets head
  have hsees : D ∨ w.Sees (depth + 1) kind (ds.flatMap fun d => d.id.boundNames) →
      D ∨ ¬ AllIn w.Lacks head := fun h => h.imp_right fun ⟨hreaches, hname⟩ hlacks => by
    obtain rfl : kind = .varKind := by simpa using hreaches
    exact hlacks.all (.here hname)
  refine .given (.skip fun isOf => .skip fun _ => ?_) hsees
  split <;> infer_instance

instance {isAwait : Bool} : ShowsBinding w depth (forExpression g ctx start isAwait) := by
  refine .of_tracksBinding fun D => ?_
  unfold forExpression
  refine .skip fun initStart => .skip fun startsWithLet => .skip fun e => .skip fun isOf => ?_
  refine .skip fun _ => ?_
  split <;> infer_instance

instance {isAwait : Bool} : ShowsBinding w (depth + 1) (forHead g ctx start isAwait) := by
  refine .of_tracksBinding fun D => ?_
  unfold forHead
  refine .skip fun atSemicolon => ?_
  split
  · infer_instance
  · refine .skip fun kind => ?_
    split <;> infer_instance

instance : ShowsBinding w depth (forStatement g ctx start) := by
  unfold forStatement
  infer_instance

end Loops

section Statements

instance {position : Position} : ShowsBinding w depth (statementBody g ctx position) := by
  refine .of_tracksBinding fun D => ?_
  unfold statementBody
  refine .skip fun start => .skip fun token => .skip fun escaped => ?_
  extract_lets rest
  have hrest : ∀ u, TracksBinding w depth D (fun x => D ∨ ¬ AllIn w.Lacks x) (rest u) := by
    intro u
    dsimp only [rest]
    split <;> infer_instance
  clear_value rest
  infer_instance

instance {position : Position} : ShowsBinding w depth (statement g ctx position) := by
  unfold statement
  infer_instance

end Statements

end EcmaSyntax.Grammar
