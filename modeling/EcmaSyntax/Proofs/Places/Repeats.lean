import EcmaSyntax.Proofs.Places.Placement
import EcmaSyntax.Proofs.Tree.Places

/-!
Parameters that repeat a name. The names of a list of parameters are declared in the order
in which they stand, so the error that their scope keeps is about the first of them that has
the name of an earlier one. When it is raised, the run that raises it tells which list that
is and why it may not repeat names.
-/

namespace EcmaSyntax.Grammar

open EcmaSyntax.Diagnostic EcmaSyntax.Lexer EcmaSyntax.Scope EcmaSyntax.Tree

variable {version : Nat} [Unicode.IdentifierChars version]

variable {α β : Type}

/-- How names are declared. -/
structure Manner where
  kind : BindingKind
  repeatFunctions : Bool

/-- How a phrase of the context declares names. -/
abbrev Context.manner (ctx : Context) (options : Options) (kind : BindingKind) : Manner :=
  ⟨kind, options.webCompat && !ctx.strict⟩

/-- Declare the names where they stand. -/
def declareNames (m : Manner) (stack : Stack) (names : List Identifier) : Stack :=
  names.foldl (fun stack id =>
    (stack.declare id.name m.kind id.span.start m.repeatFunctions).2) stack

theorem declareNames_append (m : Manner) (stack : Stack) (names others : List Identifier) :
    declareNames m stack (names ++ others) = declareNames m (declareNames m stack names) others :=
  List.foldl_append

theorem declareNames_parameter (repeatFunctions : Bool) (stack : Stack) (names : List Identifier) :
    declareNames ⟨.parameter, repeatFunctions⟩ stack names =
      stack.declareParameters (names.map fun id => (id.name, id.span.start)) := by
  rw [Stack.declareParameters, List.foldl_map]
  rfl

theorem outer_declareNames (repeatFunctions : Bool) (stack : Stack) (names : List Identifier) :
    (declareNames ⟨.parameter, repeatFunctions⟩ stack names).outer = stack.outer := by
  rw [declareNames_parameter]
  exact Stack.outer_declareParameters _ _

/-- From a stack with the names `before` on, the step declares names until there are those that
belong to its result, and nothing else. -/
def Declares (text : List Char) (m : Manner) (before : List Identifier)
    (names : α → List Identifier) (step : Parser α) : Prop :=
  ∀ base s, Oriented text s.lexer → s.scopes = declareNames m base before →
    Yields step (fun a s' => Oriented text s'.lexer ∧ s'.scopes = declareNames m base (names a)) s

namespace Declares

variable {text : List Char} {m : Manner} {before : List Identifier} {names : α → List Identifier}
  {others : β → List Identifier} {step : Parser α} {rest : α → Parser β}

theorem pure {a : α} (h : before = names a) : Declares text m before names (Pure.pure a) :=
  fun _ _ hs hscopes => .pure ⟨hs, h ▸ hscopes⟩

theorem bind (h : Declares text m before names step)
    (hrest : ∀ a, Declares text m (names a) others (rest a)) :
    Declares text m before others (step >>= rest) :=
  fun base s hs hscopes => (h base s hs hscopes).bind fun a s' ha => hrest a base s' ha.1 ha.2

theorem map {f : α → β} (h : Declares text m before (fun a => others (f a)) step) :
    Declares text m before others (f <$> step) := fun base s hs hscopes =>
      .map (h base s hs hscopes)

theorem tells {P : α → Prop} (h : Tells P step)
    (hrest : ∀ a, P a → Declares text m before others (rest a)) :
    Declares text m before others (step >>= rest) :=
  fun base s hs hscopes => ((h s).weaken fun _ _ => trivial).bind fun a s' ha =>
    hrest a ha.2 base s' (ha.1.oriented hs).1 (ha.1.scopes.trans hscopes)

theorem skip [Light step] (hrest : ∀ a, Declares text m before others (rest a)) :
    Declares text m before others (step >>= rest) := .tells tells_light fun a _ => hrest a

theorem of_tells (h : Tells (fun _ => False) step) : Declares text m before names step := by
  rw [← bind_pure step]
  exact .tells h fun _ => False.elim

/-- A check that either fails or changes nothing. -/
theorem guard {c : Prop} [Decidable c] {last : Parser β} (hstep : Tells (fun _ => False) step)
    (hlast : Declares text m before others last) :
    Declares text m before others (if c then step >>= rest else last) := by
  split
  · exact .tells hstep fun _ => False.elim
  · exact hlast

/-- What was declared earlier stays where it is. -/
theorem after (h : Declares text m [] names step) :
    Declares text m before (fun a => before ++ names a) step := by
  intro base s hs hscopes
  refine (h (declareNames m base before) s hs hscopes).mono fun a s' ha => ⟨ha.1, ?_⟩
  rw [declareNames_append]
  exact ha.2

theorem quiet {q : Inquiry} {P : Prop → α → Prop} (h : KeepsPlacement q .none P step)
    (hrest : ∀ a, Declares q.text m before others (rest a)) :
    Declares q.text m before others (step >>= rest) :=
  fun base s hs hscopes => Meets.bind (Meets.yields_iff.mpr fun _ _ hrun => (h s hs).result hrun)
    fun a s' ha => hrest a base s' ha.oriented (Eq.trans ha.scopes hscopes)

theorem nested (h : Declares text m before names step) :
    Declares text m before names (nested step) := by
  unfold Grammar.nested
  exact .skip fun _ => h.bind fun a => .skip fun _ => .pure rfl

end Declares

/-- The names that belong to what a round adds. -/
def Round.names (names : α → List Identifier) : Round α → List Identifier
  | .stop => []
  | .last item | .more item => names item

theorem declares_collect {text : List Char} {m : Manner} {g : Phrases} (names : α → List Identifier)
    {round : List α → Parser (Round α)}
    (hround : ∀ earlier, Declares text m [] (Round.names names) (round earlier)) :
    Declares text m [] (fun items => items.flatMap names) (g.collect round) := by
  suffices h : ∀ fuel earlier, Declares text m (earlier.reverse.flatMap names)
      (fun items => items.flatMap names) (collectAfter round fuel earlier) from h g.size []
  intro fuel
  induction fuel with
  | zero => exact fun _ _ _ _ _ => trivial
  | succ fuel ih =>
    intro earlier
    unfold collectAfter
    refine (hround earlier).after.bind fun r => ?_
    cases r with
    | stop => exact .pure (List.append_nil _)
    | last item => exact .pure (by simp [Round.names])
    | more item =>
      have hmore := ih (item :: earlier)
      rwa [List.reverse_cons, List.flatMap_append, List.flatMap_singleton] at hmore

/-- A name that can be declared is. -/
theorem declare_yields (options : Options) (ctx : Context) (kind : BindingKind) (name : String)
    (offset : Nat) (s : State) : Yields (declare options ctx kind name offset) (fun _ s' =>
      s' = { s with scopes := (s.scopes.declare name kind offset
        (ctx.manner options kind).repeatFunctions).2 }) s := by
  refine Meets.yields_iff.mpr fun _ s' hrun => ?_
  rw [declare_run] at hrun
  cases hfound : (s.scopes.declare name kind offset (options.webCompat && !ctx.strict)).1 with
  | error error =>
    rw [hfound] at hrun
    cases hrun
  | ok =>
    rw [hfound] at hrun
    cases hrun
    rfl

/-- A name is declared where it stands. -/
theorem declares_bindingIdentifier (text : List Char) (options : Options) (ctx : Context)
    (kind : BindingKind) : Declares text (ctx.manner options kind) [] (fun id => [id])
      (bindingIdentifier options ctx kind) := by
  unfold bindingIdentifier
  refine fun base s hs hscopes => .run rfl ?_
  split
  · refine Declares.skip (fun escaped => ?_) base s hs hscopes
    split
    · exact .skip fun _ => .of_tells tells_fail
    · exact .of_tells tells_unexpected
  · refine .run rfl (.run rfl ?_)
    cases hfault : bindingFault? ctx kind s.lexer.value.text with
    | some cause =>
      refine ((tells_checkBinding ctx kind s.lexer.value.text s.start s).weaken
        fun _ _ => trivial).bind fun _ _ h => ?_
      rw [hfault] at h
      cases h.2
    | none =>
      have hrun : checkBinding ctx kind s.lexer.value.text s.start s = .ok ⟨⟩ s := by
        unfold checkBinding
        rw [hfault]
        rfl
      refine .run hrun ((declare_yields options ctx kind _ _ s).bind fun _ s₁ hs₁ => ?_)
      subst hs₁
      unfold identifier
      refine .run rfl (.run rfl ?_)
      have hnext : Light next := inferInstance
      refine ((hnext.moves _).weaken fun _ _ => trivial).bind fun _ s₂ h₂ => ?_
      refine .run rfl (.pure ⟨(h₂.oriented hs).1, h₂.scopes.trans ?_⟩)
      rw [hscopes]
      rfl

section Settling

/-- The failure is about the first of the parameters that has the name of an earlier one. -/
def RepeatsFirst (params : List Pattern) (failure : Failure) : Prop :=
  ∃ before id after, parameterNames params = before ++ id :: after ∧ AreDistinct before ∧
    id.name ∈ before.map Identifier.name ∧
    failure = Error.failure ⟨.duplicateParameter, id.name, id.span.start⟩

/-- One name repeats none. -/
theorem not_repeatsFirst_single {id : Identifier} {failure : Failure} :
    ¬ RepeatsFirst [.identifier id] failure := by
  rintro ⟨before, other, after, heq, -, hmem, -⟩
  have hbefore : before = [] := by
    cases before with
    | nil => rfl
    | cons first rest => simp [parameterNames, Pattern.boundNames] at heq
  simp [hbefore] at hmem

theorem repeatsFirst_of_firstRepeat {params : List Pattern} {param : String × Nat}
    (h : FirstRepeat ((parameterNames params).map fun id => (id.name, id.span.start)) param) :
    RepeatsFirst params (Error.failure ⟨.duplicateParameter, param.1, param.2⟩) := by
  obtain ⟨before, after, heq, hnodup, hmem⟩ := h
  obtain ⟨names, others, hparams, rfl, hothers⟩ := List.map_eq_append_iff.mp heq
  obtain ⟨id, rest, rfl, rfl, -⟩ := List.map_eq_cons_iff.mp hothers
  rw [List.map_map] at hnodup hmem
  exact ⟨names, id, rest, hparams, hnodup, hmem, rfl⟩

theorem settleParameters_run (list : ParameterList) (s : State) :
    settleParameters s.scopes.depth list s =
      (match s.scopes.current.deferred with
        | some error => if list.isUnique then refuseParameters list error.failure else pure ()
        | none => pure () : Parser Unit)
      { s with
        scopes := { s.scopes with current := { s.scopes.current with deferred := none } } } := by
  have htake := Stack.takeDeferred_depth s.scopes
  change (match (s.scopes.takeDeferred s.scopes.depth).1 with
    | some error => if list.isUnique then refuseParameters list error.failure else pure ()
    | none => pure () : Parser Unit)
      { s with scopes := (s.scopes.takeDeferred s.scopes.depth).2 } = _
  rw [htake]

variable {q : Inquiry} {s : State}

/-- Parameters that are declared in the current scope are distinct if they have to be, or
there is a complaint about the first repeated one, and the list is left behind as refused. -/
theorem keepsPlacementAt_settleParameters {depth : Nat} {list : ParameterList}
    {repeatFunctions : Bool}
    {stack : Stack} {roles : List Role} (hdepth : s.scopes.depth = depth)
    (hscopes : s.scopes = declareNames ⟨.parameter, repeatFunctions⟩ (stack.push roles)
      (parameterNames list.params))
    (hshows : ∀ failure z, list.isUnique = true → z.refused = some list →
      RepeatsFirst list.params failure → q.Shows failure z) :
    KeepsPlacementAt q .current
      (fun _ _ => list.isUnique = true → AreDistinct (parameterNames list.params))
      (settleParameters depth list) s := by
  intro hs
  have hkeeps : Stack.Keeps s.scopes.current
      ((parameterNames list.params).map fun id => (id.name, id.span.start)) := by
    rw [hscopes, declareNames_parameter]
    exact Stack.keeps_parameters stack roles _
  have harrives : ∀ {P : Prop}, P → Arrives q .current (fun _ => P) s { s with
      scopes := { s.scopes with current := { s.scopes.current with deferred := none } } } :=
    fun h => ⟨hs, Nat.le_refl _, rfl, fun _ _ _ hcalm => ⟨hcalm, h⟩⟩
  unfold EndsIn
  rw [← hdepth, settleParameters_run]
  cases hdeferred : s.scopes.current.deferred with
  | none =>
    refine harrives fun _ => ?_
    have hnodup := hkeeps.none hdeferred
    rwa [List.map_map] at hnodup
  | some error =>
    obtain ⟨param, hparam, rfl⟩ := hkeeps.some error hdeferred
    dsimp only
    split
    · rename_i heq
      split at heq
      · cases heq
      · rename_i hunique
        cases heq
        exact harrives fun h => absurd h hunique
    · rename_i heq
      split at heq
      · rename_i hunique
        cases heq
        exact fun _ => hshows _ _ hunique rfl (repeatsFirst_of_firstRepeat hparam)
      · cases heq

end Settling

section Evidence

/-- The state in which the parameters of a function are read. -/
def State.entered (s : State) : State :=
  { s with
    labels := []
    labelChain := none
    lastYield := none
    lastAwait := none
    lastAwaitName := none
    scopes := s.scopes.push [.functionParams] }

/-- The statements of a function body up to its closing brace, and the context after its
directives. -/
def bracedBody (g : Phrases) (ctx : Context) (simpleParams : Bool) :
    Parser (List Statement × Context) := inScope [.functionBody] do
  let found ← bodyStatements g ctx simpleParams .rightBrace
  expect .rightBrace
  return found

/-- A body follows, and its code is strict: by itself, or since the code around it is. -/
def ReadsBody (g : Phrases) (ctx : Context) (simpleParams isStrict : Bool) (s : State) : Prop :=
  ∃ s₁ s₂ found, expect .leftBrace s = .ok () s₁ ∧
    bracedBody g ctx simpleParams s₁ = .ok found s₂ ∧
      isStrict = (ctx.strict || startsStrict found.1)

/-- The list belongs to an arrow function, a method, a generator, an asynchronous function, a
function with parameters that are no plain names, or one whose code is strict. -/
def ParameterList.MustDiffer (list : ParameterList) : Prop :=
  match list.kind with
  | .arrow => True
  | .function shape isStrict =>
    shape ≠ .plain ∨ list.ctx.inGenerator = true ∨ list.ctx.inAsync = true ∨
      (∃ p ∈ list.params, p.isSimple = false) ∨ isStrict = true

theorem ParameterList.mustDiffer {list : ParameterList} (h : list.isUnique = true) :
    list.MustDiffer := by
  unfold ParameterList.isUnique at h
  unfold ParameterList.MustDiffer
  split
  · trivial
  · rename_i shape isStrict hkind
    rw [hkind] at h
    simp only [Bool.or_eq_true, Bool.not_eq_true', bne_iff_ne] at h
    rcases h with (((hstrict | hsimple) | hshape) | hgenerator) | hasync
    · exact .inr (.inr (.inr (.inr hstrict)))
    · obtain ⟨p, hp, hcomplex⟩ := List.all_eq_false.mp hsimple
      exact .inr (.inr (.inr (.inl ⟨p, hp, Bool.eq_false_iff.mpr hcomplex⟩)))
    · exact .inl hshape
    · exact .inr (.inl hgenerator)
    · exact .inr (.inr (.inl hasync))

/-- The parameters are those of a function in the text whose run ends with the failure. -/
inductive WasRead (g : Phrases) (text : List Char) (failure : Failure) (z : State) :
    ParameterList → Prop where
  /-- Not of an arrow function. Both the parameters and the body have been read. -/
  | function {ctx : Context} {shape : FunctionShape} {name : Option Identifier} {s s₁ : State}
      {params : List Pattern} {isStrict : Bool} (sound : Sound text s.lexer)
      (reads : formalParameters g { ctx with inParameters := true } s.entered = .ok params s₁)
      (body : ReadsBody g ctx (params.all Pattern.isSimple) isStrict s₁)
      (fails : functionParts g ctx shape name s = .error failure z) :
      WasRead g text failure z ⟨s.start, .function shape isStrict, ctx, params⟩
  /-- Of an arrow function with parentheses. -/
  | group {ctx : Context} {start : Nat} {s s₁ s₂ : State} {items : List GroupItem}
      {c : Conversion} {params : List Pattern} (sound : Sound text s.lexer)
      (reads : g.collect (fun _ => groupItem g ctx.withIn) s = .ok items s₁) (moves : Moves s₁ s₂)
      (becomes : items.mapM (groupParameter c) = .ok params)
      (fails : arrowFunction g ctx start params false s₂ = .error failure z) :
      WasRead g text failure z ⟨start, .arrow, ctx.enterArrow false, params⟩
  /-- Of an asynchronous arrow function with parentheses. -/
  | call {ctx : Context} {start : Nat} {s s₁ s₂ : State} {found : List (Element × Cover)}
      {c : Conversion} {params : List Pattern} (sound : Sound text s.lexer)
      (reads : coveredArguments g ctx s = .ok found s₁) (moves : Moves s₁ s₂)
      (becomes : toPatterns c (found.map Prod.fst) = .ok params)
      (fails : arrowFunction g ctx start params true s₂ = .error failure z) :
      WasRead g text failure z ⟨start, .arrow, ctx.enterArrow true, params⟩

/-- A run left parameters behind that it refused. They were read from the text, the failure is
about the first of them that repeats a name, and they may not repeat names. -/
structure RepeatsParameter (g : Phrases) (text : List Char) (list : ParameterList)
    (failure : Failure) (z : State) : Prop where
  refused : z.refused = some list
  read : WasRead g text failure z list
  repeats : RepeatsFirst list.params failure
  differ : list.MustDiffer

end Evidence

end EcmaSyntax.Grammar
