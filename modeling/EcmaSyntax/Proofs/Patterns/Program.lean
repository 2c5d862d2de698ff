import EcmaSyntax.Proofs.Patterns.Expressions
import EcmaSyntax.Proofs.Cover.Program
import EcmaSyntax.Unicode.IdentifierRanges

/-!
Statements, and with them whole programs, in which patterns are put together as they should be.
Where names of properties are to be unique, names and strings are, and numbers are not compared.

Literals that become the parameters of an arrow function. What was read as an expression may hold
patterns that were made for an assignment, with members as targets and names that nothing may bind.
In what becomes a parameter there is neither, however deep, and rest elements stand last.
-/

set_option synthInstance.maxSize 4000

namespace EcmaSyntax.Grammar

open EcmaSyntax.Diagnostic EcmaSyntax.Scope EcmaSyntax.Tree EcmaSyntax.Tree.Node

variable {unique : Bool} {g : Phrases} [hg : g.Tidies unique] {ctx : Context}
  {start : Nat}

section

variable {version : Nat} [Unicode.IdentifierChars version]

section Parts

instance {role : Role} : Makes (Tidy unique) (block g ctx role) := by
  unfold block
  infer_instance

instance {kind : VariableKind} : Makes (Tidy unique) (variableDeclarator g ctx kind) := by
  unfold variableDeclarator
  infer_instance

instance {kind : VariableKind} {inHead : Bool} :
    Makes (Tidy unique) (variableDeclarators g ctx kind inHead) := by
  unfold variableDeclarators
  infer_instance

instance {kind : VariableKind} : Makes (Tidy unique) (variableStatement g ctx kind) := by
  unfold variableStatement
  infer_instance

instance : Makes (Tidy unique) (parenExpression g ctx) := by
  unfold parenExpression
  infer_instance

instance : Makes (Tidy unique) (loopBody g ctx) := by
  unfold loopBody
  infer_instance

end Parts

section Simple

instance : Makes (Tidy unique) (ifStatement g ctx start) := by
  unfold ifStatement
  infer_instance

instance : Makes (Tidy unique) (whileStatement g ctx start) := by
  unfold whileStatement
  infer_instance

instance : Makes (Tidy unique) (doWhileStatement g ctx start) := by
  unfold doWhileStatement
  infer_instance

omit hg in
instance {isContinue : Bool} : Makes (Tidy unique) (jump ctx start isContinue) := by
  unfold jump
  infer_instance

instance : Makes (Tidy unique) (returnStatement g ctx start) := by
  unfold returnStatement
  infer_instance

instance : Makes (Tidy unique) (withStatement g ctx start) := by
  unfold withStatement
  extract_lets rest
  have hrest : ∀ u, Makes (Tidy unique) (rest u) := by
    refine fun u => .skip fun _ => Makes.bind (P := Tidy unique) inferInstance fun object _ => ?_
    refine Makes.bind (P := Tidy unique) inferInstance fun body hbody => ?_
    extract_lets last
    have hlast : ∀ u, Makes (Tidy unique) (last u) := fun u => inferInstance
    clear_value last
    split <;> infer_instance
  clear_value rest
  infer_instance

instance : Makes (Tidy unique) (throwStatement g ctx start) := by
  unfold throwStatement
  infer_instance

end Simple

section Compound

instance {earlier : List SwitchCase} : Makes (Tidy unique) (caseTest g ctx earlier) := by
  unfold caseTest
  refine .skip fun token => ?_
  split <;> infer_instance

instance {earlier : List SwitchCase} : Makes (Tidy unique) (switchCase g ctx earlier) := by
  unfold switchCase
  infer_instance

instance : Makes (Tidy unique) (switchStatement g ctx start) := by
  unfold switchStatement
  infer_instance

instance : Makes (Tidy unique) (catchClause g ctx) := by
  unfold catchClause
  have hparam : ∀ start (bodySpan : Text.Span) (body : {body // AllIn (Tidy unique) body})
      (param : {param // AllIn (Tidy unique) param}), Makes (Tidy unique) (
        match param.1 with
        | none => do return CatchClause.plain (← spanFrom start) bodySpan body.1
        | some param => do return .binding (← spanFrom start) param bodySpan body.1) := by
    rintro start bodySpan body ⟨_ | param, hparam⟩
    · infer_instance
    · have := hparam.of_some
      infer_instance
  infer_instance

instance : Makes (Tidy unique) (tryStatement g ctx start) := by
  have hlast : ∀ span blockSpan (body : {body // AllIn (Tidy unique) body})
      (handler : {handler // AllIn (Tidy unique) handler})
      (finalizer : {finalizer // AllIn (Tidy unique) finalizer}),
      Makes (Tidy unique) (show Parser Statement from
        match handler.1, finalizer.1 with
        | none, none => fail .missingCatchOrFinally
        | some handler, none => return .tryCatch span blockSpan body.1 handler
        | none, some (finalSpan, final) =>
          return .tryFinally span blockSpan body.1 finalSpan final
        | some handler, some (finalSpan, final) =>
          return .tryCatchFinally span blockSpan body.1 handler finalSpan final) := by
    rintro span blockSpan body ⟨_ | handler, hhandler⟩ ⟨_ | ⟨finalSpan, final⟩, hfinal⟩
    · infer_instance
    · have : AllIn (Tidy unique) final := ⟨hfinal.of_some.all.2⟩
      infer_instance
    · have := hhandler.of_some
      infer_instance
    · have := hhandler.of_some
      have : AllIn (Tidy unique) final := ⟨hfinal.of_some.all.2⟩
      infer_instance
  unfold tryStatement
  infer_instance

instance {position : Position} :
    Makes (Tidy unique) (labeledStatement g ctx start position) := by
  unfold labeledStatement
  infer_instance

instance {position : Position} :
    Makes (Tidy unique) (expressionOrLabeled g ctx start position) := by
  unfold expressionOrLabeled
  infer_instance

instance {position : Position} : Makes (Tidy unique) (misplacedFunction g ctx position) := by
  unfold misplacedFunction
  infer_instance

end Compound

section Loops

instance {init : ForHead} [AllIn (Tidy unique) init] :
    Makes (Tidy unique) (forRest g ctx start init) := by
  unfold forRest
  infer_instance

instance {left : ForHead} {isOf isAwait : Bool} [AllIn (Tidy unique) left] :
    Makes (Tidy unique) (forEach g ctx start left isOf isAwait) := by
  unfold forEach
  infer_instance

instance {isAwait : Bool} {kind : VariableKind} :
    Makes (Tidy unique) (forVariables g ctx start isAwait kind) := by
  unfold forVariables
  refine .skip fun initStart => .skip fun _ => ?_
  refine Makes.bind (P := Tidy unique) inferInstance fun declarations hdeclarations => ?_
  refine .skip fun span => .skip fun isOf => .skip fun _ => ?_
  split <;> infer_instance

instance {isAwait : Bool} : Makes (Tidy unique) (forExpression g ctx start isAwait) := by
  unfold forExpression
  refine .skip fun initStart => .skip fun startsWithLet => ?_
  refine Makes.bind (P := Tidy unique) inferInstance fun e he => ?_
  refine .skip fun isOf => .skip fun _ => ?_
  split <;> infer_instance

instance {isAwait : Bool} : Makes (Tidy unique) (forHead g ctx start isAwait) := by
  unfold forHead
  refine .skip fun atSemicolon => ?_
  split
  · infer_instance
  · refine .skip fun kind => ?_
    split <;> infer_instance

instance : Makes (Tidy unique) (forStatement g ctx start) := by
  unfold forStatement
  infer_instance

end Loops

section Statements

instance {position : Position} : Makes (Tidy unique) (statementBody g ctx position) := by
  unfold statementBody
  refine .skip fun start => .skip fun token => .skip fun escaped => ?_
  extract_lets rest
  have hrest : ∀ u, Makes (Tidy unique) (rest u) := by
    intro u
    dsimp only [rest]
    split <;> infer_instance
  clear_value rest
  infer_instance

instance {position : Position} : Makes (Tidy unique) (statement g ctx position) := by
  unfold statement
  infer_instance

end Statements

section Modules

omit hg in
instance : Makes (Tidy unique) (importDeclaration g ctx) := by
  unfold importDeclaration
  infer_instance

omit hg in
instance : Makes (Tidy unique) (exportAll g ctx start) := by
  unfold exportAll
  infer_instance

instance {before : List Decorator} [AllIn (Tidy unique) before] :
    Makes (Tidy unique) (exportDecorators g ctx before) := by
  unfold exportDecorators
  infer_instance

instance {before : List Decorator} [AllIn (Tidy unique) before] :
    Makes (Tidy unique) (exportDefault g ctx start before) := by
  unfold exportDefault
  infer_instance

omit hg in
instance : Makes (Tidy unique) (exportNames g ctx start) := by
  unfold exportNames
  infer_instance

instance {decorators : List Decorator} [AllIn (Tidy unique) decorators] :
    Makes (Tidy unique) (exportedDeclaration g ctx decorators) := by
  unfold exportedDeclaration
  refine .skip fun start => .skip fun token => ?_
  split <;> infer_instance

instance {decorators : List Decorator} [AllIn (Tidy unique) decorators] :
    Makes (Tidy unique) (exportDeclaration g ctx start decorators) := by
  unfold exportDeclaration
  infer_instance

instance {before : List Decorator} [AllIn (Tidy unique) before] :
    Makes (Tidy unique) (exportStatement g ctx start before) := by
  unfold exportStatement
  refine .skip fun _ => Makes.bind (P := Tidy unique) inferInstance fun found hfound => ?_
  refine .skip fun token => ?_
  extract_lets rest
  have hrest : ∀ u, Makes (Tidy unique) (rest u) := by
    intro u
    dsimp only [rest]
    split <;> infer_instance
  clear_value rest
  infer_instance

omit hg in
instance {word : String} {phrase : Parser Statement} [h : Makes (Tidy unique) phrase] :
    Makes (Tidy unique) (topLevelItem ctx word phrase) := by
  unfold topLevelItem
  infer_instance

instance : Makes (Tidy unique) (decoratedItem g ctx start) := by
  unfold decoratedItem
  refine Makes.bind (P := Tidy unique) inferInstance fun found hfound => ?_
  refine .skip fun token => ?_
  split
  · infer_instance
  · split <;> infer_instance
  · infer_instance

instance : Makes (Tidy unique) (listItem g ctx) := by
  unfold listItem
  infer_instance

end Modules

theorem phrases_tidies (options : Options) (size fuel : Nat) :
    (phrases options size fuel).Tidies options.uniqueKeysInPatterns := by
  induction fuel with
  | zero =>
    exact
      { uniqueKeys := rfl
        assignmentCover := fun _ => .stop (stops_fail _)
        unary := fun _ => .stop (stops_fail _)
        binary := fun _ _ _ _ _ => .stop (stops_fail _)
        newCall := fun _ => .stop (stops_fail _)
        leftHandSide := fun _ => .stop (stops_fail _)
        markup := fun _ _ => .stop (stops_fail _)
        bindingTarget := fun _ _ => (stops_fail _).preserves
        statement := fun _ _ => .stop (stops_fail _)
        listItem := fun _ => .stop (stops_fail _) }
  | succ fuel ih =>
    exact
      { uniqueKeys := rfl
        assignmentCover := fun ctx =>
          inferInstanceAs (Makes _ (assignmentCover (phrases options size fuel) ctx))
        unary := fun ctx => inferInstanceAs (Makes _ (unary (phrases options size fuel) ctx))
        binary := fun ctx start left minimum _ =>
          inferInstanceAs (Makes _ (binary (phrases options size fuel) ctx start left minimum))
        newCall := fun ctx => inferInstanceAs (Makes _ (newCall (phrases options size fuel) ctx))
        leftHandSide := fun ctx =>
          inferInstanceAs (Makes _ (leftHandSide (phrases options size fuel) ctx))
        markup := fun ctx exit =>
          inferInstanceAs (Makes _ (markup (phrases options size fuel) ctx exit))
        bindingTarget := fun ctx kind =>
          have hpattern : Makes _ (bindingTarget (phrases options size fuel) ctx kind) :=
            inferInstance
          hpattern.makes.and returns_bindingTarget
        statement := fun ctx position =>
          inferInstanceAs (Makes _ (statement (phrases options size fuel) ctx position))
        listItem := fun ctx =>
          inferInstanceAs (Makes _ (listItem (phrases options size fuel) ctx)) }

theorem tidy_program (length : Nat) (s : State) : Yields (program g length)
    (fun p _ => ∀ x ∈ p.body, Tidy unique (.statement x)) s := by
  have hbody : Makes (Tidy unique) (bodyStatements g (startContext g.options) true .endOfSource) :=
    inferInstance
  unfold program
  refine .skip fun _ s => (hbody.yields s).bind fun found s hfound => ?_
  exact .skip fun _ s => .pure hfound.all.1

/-- Every pattern in a program is put together as it should be. -/
theorem parse_patternFits {options : Options} {text : String} {p : Program}
    (h : parse options text = .ok p) {n : Node} (hn : p.Contains n) :
    n.PatternFits options.uniqueKeysInPatterns := by
  obtain ⟨x, hx, hn⟩ := hn
  unfold parse run at h
  split at h
  · rename_i q s hok
    cases h
    have hg := phrases_tidies options (text.toList.length + 2) (8 * (text.toList.length + 2))
    exact (tidy_program _ _).result hok x hx n hn
  · cases h

/-- With unique names, two properties of a pattern have the same name only if the key of one of them
is a number: names and strings are compared, and numbers are not. -/
theorem parse_names_differ {options : Options} {text : String} {p : Program}
    (h : parse options text = .ok p) (hunique : options.uniqueKeysInPatterns = true)
    {span : Text.Span} {properties : List PatternProperty}
    (hn : p.Contains (.pattern (.object span properties))) :
    properties.Pairwise fun q r => ∀ name, q.name? = some name → r.name? = some name →
      q.hasNumber = true ∨ r.hasNumber = true :=
  ((parse_patternFits h hn).keysDiffer hunique).names

/-- The properties of the one pattern that a declaration takes a value apart with. -/
def declaredProperties? : Except Failure Program → Option (List PatternProperty)
  | .ok ⟨_, _, [.variables _ _ [⟨_, .object _ properties, _⟩]]⟩ => some properties
  | _ => none

theorem declaredProperties_contained {p : Program} {properties : List PatternProperty}
    (h : declaredProperties? (.ok p) = some properties) :
    ∃ span, p.Contains (.pattern (.object span properties)) := by
  unfold declaredProperties? at h
  split at h
  · rename_i heq
    cases heq
    cases h
    exact ⟨_, _, List.mem_cons_self, .step List.mem_cons_self (.step List.mem_cons_self (.refl _))⟩
  · cases h

theorem exists_declared (text : String) (test : List PatternProperty → Bool)
    (h : (declaredProperties? (parse { Options.script with uniqueKeysInPatterns := true } text)).any
      test = true) :
    ∃ p span properties, parse { Options.script with uniqueKeysInPatterns := true } text = .ok p ∧
      p.Contains (.pattern (.object span properties)) ∧ test properties = true := by
  obtain ⟨properties, hfound, htest⟩ := (Option.any_eq_true _ _).mp h
  cases hparse : parse { Options.script with uniqueKeysInPatterns := true } text with
  | error failure =>
    rw [hparse] at hfound
    cases hfound
  | ok p =>
    rw [hparse] at hfound
    obtain ⟨span, hcontained⟩ := declaredProperties_contained hfound
    exact ⟨p, span, properties, rfl, hcontained, htest⟩

end

theorem parse_names_differ_mixed : ∃ p span properties,
    parse { Options.script with uniqueKeysInPatterns := true }
        "var \x7ba, \"b\": [c], [a]: d\x7d = e" = .ok p ∧
      p.Contains (.pattern (.object span properties)) ∧
      properties.Pairwise fun q r => ∀ name, q.name? = some name → r.name? = some name →
        q.hasNumber = true ∨ r.hasNumber = true := by
  obtain ⟨p, span, properties, hp, hn, -⟩ := exists_declared
    "var \x7ba, \"b\": [c], [a]: d\x7d = e" (fun _ => true) (by decide +kernel)
  exact ⟨p, span, properties, hp, hn, parse_names_differ hp rfl hn⟩

/-- A number is the key of two properties of one pattern. -/
theorem exists_number_repeated : ∃ p span properties,
    parse { Options.script with uniqueKeysInPatterns := true } "var {1: a, 1: b} = c" = .ok p ∧
      p.Contains (.pattern (.object span properties)) ∧
      ¬ (properties.filterMap PatternProperty.name?).Nodup := by
  obtain ⟨p, span, properties, hp, hn, htest⟩ := exists_declared
    "var {1: a, 1: b} = c"
    (fun properties => !decide (properties.filterMap PatternProperty.name?).Nodup)
    (by decide +kernel)
  exact ⟨p, span, properties, hp, hn, by simpa using htest⟩

section

variable {version : Nat} [Unicode.IdentifierChars version]

variable {c : Conversion} {options : Options} {e : Expression} {p : Pattern}

/-- The parser found the expression by itself or in another one. -/
def IsRead (options : Options) (e : Expression) : Prop :=
  ∃ size fuel ctx s root s',
    (conditional (phrases options size fuel) ctx s = .ok root s' ∨
      (phrases options size fuel).assignmentCover ctx s = .ok root s') ∧
    Within (.expression root) (.expression e)

/-- Patterns that were made earlier are put together as they should be. -/
theorem IsRead.tidy (h : IsRead options e) : Tidy options.uniqueKeysInPatterns (.expression e) := by
  obtain ⟨size, fuel, ctx, s, root, s', hread, hin⟩ := h
  have hg := phrases_tidies options size fuel
  have hconditional : Makes (Tidy options.uniqueKeysInPatterns)
      (conditional (phrases options size fuel) ctx) := inferInstance
  have hroot : AllIn (Tidy options.uniqueKeysInPatterns) root := by
    rcases hread with hread | hread
    · exact (hconditional.yields s).result hread
    · exact ((hg.assignmentCover ctx).yields s).result hread
  exact fun m hm => hroot.all m (hin.trans hm)

/-- A rest element stands last in what a literal becomes, be names of properties unique or not. -/
theorem toPattern_restsLast (h : toPattern c e = .ok p)
    (he : Tidy options.uniqueKeysInPatterns (.expression e)) {n : Node}
    (hn : Within (.pattern p) n) : n.RestsLast := by
  have hloose : Tidy false (.expression e) := fun m hm => ⟨(he m hm).restsLast, nofun⟩
  have hconverts : Converts c (Tidy false) := converts_tidy nofun
  have hp : AllIn (Tidy false) p := toPattern_allIn e h ⟨hloose⟩
  exact (hp.all n hn).restsLast

/-- In a binding only names that may be bound are targets. -/
theorem Conversion.Admits.binding (huse : c.use = .binding) {id : Identifier}
    (h : c.Admits (.identifier id)) : bindingFault? c.ctx .parameter id.name = none := by
  unfold Conversion.Admits Conversion.checkName at h
  rw [huse] at h
  dsimp only at h
  cases hfault : bindingFault? c.ctx .parameter id.name with
  | none => rfl
  | some cause =>
    rw [hfault] at h
    cases h

/-- An expression that becomes a parameter has no members as targets, binds only names that may be
bound as parameters, and nothing comes after a rest element in it. -/
theorem toPattern_binding (he : IsRead options e) (huse : c.use = .binding)
    (h : toPattern c e = .ok p) :
    (∀ t ∈ p.targets, t.isMember = false) ∧
      (∀ id ∈ p.boundNames, bindingFault? c.ctx .parameter id.name = none) ∧
      ∀ n, Within (.pattern p) n → n.RestsLast := by
  have hadmits := toPattern_admits h
  refine ⟨fun t ht => ?_, fun id hid => ?_, fun n hn => toPattern_restsLast h he.tidy hn⟩
  · cases t with
    | member span object property computed optional =>
      have hassignment := hadmits _ ht rfl
      rw [huse] at hassignment
      cases hassignment
    | _ => rfl
  · exact (hadmits _ (Pattern.mem_targets_of_mem_boundNames hid)).binding huse

/-- The expression at the start of a text. -/
def firstExpression (text : String) : EStateM.Result Failure State Expression :=
  match next (State.initial Options.script false text.toList) with
  | .ok _ s => conditional (phrases Options.script 40 80) Context.none s
  | .error failure s => .error failure s

theorem isRead_firstExpression {text : String} {s : State} (h : firstExpression text = .ok e s) :
    IsRead Options.script e := by
  unfold firstExpression at h
  split at h
  · exact ⟨_, _, _, _, e, s, .inl h, .refl _⟩
  · cases h

end

/-- A list with an assignment in it that became a pattern before. -/
theorem toPattern_binding_nested :
    ∃ e p, IsRead Options.script e ∧
      toPattern ⟨.binding, Context.none, false, [], []⟩ e = .ok p ∧
      (∀ t ∈ p.targets, t.isMember = false) ∧
      (∀ id ∈ p.boundNames, bindingFault? Context.none .parameter id.name = none) ∧
      ∀ n, Within (.pattern p) n → n.RestsLast := by
  have hok : (match firstExpression "[{a: [b] = c}, , {d, ...e}, ...f]" with
    | .ok e _ => (toPattern ⟨.binding, Context.none, false, [], []⟩ e).isOk
    | .error _ _ => false) = true := by decide +kernel
  split at hok
  · rename_i e s hread
    cases hp : toPattern ⟨.binding, Context.none, false, [], []⟩ e with
    | ok p =>
      have he := isRead_firstExpression hread
      exact ⟨e, p, he, hp, toPattern_binding he rfl hp⟩
    | error failure =>
      rw [hp] at hok
      cases hok
  · cases hok

end EcmaSyntax.Grammar
