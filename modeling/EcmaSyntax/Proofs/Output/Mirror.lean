import EcmaSyntax.Lexer.Scan
import EcmaSyntax.Grammar.Phrases
import EcmaSyntax.Proofs.Tree.Raws

/-!
Two runs of which one shows less. The erased run starts where the states of the other are once
erased, and ends as that one does: with the same failure, or with its result erased. This is an
equation for each start, so it composes along `bind`, and a step that does not look at what is
erased mirrors itself.

In a parse that nobody observes, taking a token is the one step that tells the observer something,
and what it hands over does not come back. No other step looks at what was recorded or at the
comments, which is left to instances.
-/

variable {version : Nat} [EcmaSyntax.Unicode.IdentifierChars version]

namespace EcmaSyntax

variable {ε σ α β : Type}

/-- An ending with its state and its result erased. -/
def erased (e : σ → σ) (k : α → α) : EStateM.Result ε σ α → EStateM.Result ε σ α
  | .ok a s => .ok (k a) (e s)
  | .error failure s => .error failure (e s)

/-- From an erased state the second step ends as the first does from the state itself,
but for what is erased. -/
def Mirrors (e : σ → σ) (k : α → α) (step image : EStateM ε σ α) : Prop :=
  ∀ s, image (e s) = erased e k (step s)

/-- A step that does not look at what is erased, and whose result has nothing to erase. -/
class Blind (e : σ → σ) (step : EStateM ε σ α) : Prop where
  mirrors : Mirrors e id step step

/-- A step that never has a result, and fails alike when the state was erased. -/
class Refuses (e : σ → σ) (step : EStateM ε σ α) : Prop where
  fails : ∀ s, ∃ failure s', step s = .error failure s' ∧ step (e s) = .error failure (e s')

namespace Mirrors

variable {e : σ → σ} {k : α → α} {l : β → β}

theorem pure {a b : α} (h : b = k a) : Mirrors e k (Pure.pure a : EStateM ε σ α) (Pure.pure b) := by
  subst h
  exact fun _ => rfl

theorem bind {step image : EStateM ε σ α} {rest rest' : α → EStateM ε σ β}
    (h : Mirrors e k step image) (hrest : ∀ a, Mirrors e l (rest a) (rest' (k a))) :
    Mirrors e l (step >>= rest) (image >>= rest') := by
  intro s
  change EStateM.bind image rest' (e s) = erased e l (EStateM.bind step rest s)
  simp only [EStateM.bind, h s]
  cases step s with
  | ok a s' => exact hrest a s'
  | error failure s' => rfl

theorem map {step image : EStateM ε σ α} {f f' : α → β} (h : Mirrors e k step image)
    (hf : ∀ a, f' (k a) = l (f a)) : Mirrors e l (f <$> step) (f' <$> image) := by
  rw [← bind_pure_comp, ← bind_pure_comp]
  exact h.bind fun a => .pure (hf a)

/-- A part that may be there. -/
theorem optional {step image : EStateM ε σ α} (h : Mirrors e k step image) :
    Mirrors e (Option.map k) (some <$> step) (some <$> image) :=
  h.map fun _ => rfl

/-- A step whose result has nothing to erase, and what follows it. -/
theorem skip {step : EStateM ε σ α} [Blind e step] {rest rest' : α → EStateM ε σ β}
    (h : ∀ a, Mirrors e l (rest a) (rest' a)) : Mirrors e l (step >>= rest) (step >>= rest') :=
  Blind.mirrors.bind h

/-- The erased run sees the erased state. -/
theorem look {rest rest' : σ → EStateM ε σ β} (h : ∀ s, Mirrors e l (rest s) (rest' (e s))) :
    Mirrors e l (get >>= rest) (get >>= rest') :=
  fun s => h s s

protected theorem modify {f f' : σ → σ} (hf : ∀ s, f' (e s) = e (f s)) :
    Mirrors e id (modify f : EStateM ε σ Unit) (modify f') :=
  fun s => congrArg (EStateM.Result.ok ()) (hf s)

/-- A change of the state that goes past what is erased. -/
theorem change {f f' : σ → σ} {rest rest' : Unit → EStateM ε σ β}
    (hf : ∀ s, f' (e s) = e (f s)) (h : ∀ u, Mirrors e l (rest u) (rest' u)) :
    Mirrors e l (modify f >>= rest) (modify f' >>= rest') := by
  intro s
  change rest' () (f' (e s)) = _
  rw [hf s]
  exact h () (f s)

/-- A branch that does not depend on what is erased. -/
theorem ite {c : Prop} [Decidable c] {first first' second second' : EStateM ε σ α}
    (hfirst : Mirrors e k first first') (hsecond : Mirrors e k second second') :
    Mirrors e k (if c then first else second) (if c then first' else second') := by
  split
  · exact hfirst
  · exact hsecond

/-- There is no result to erase. -/
theorem refuse {step : EStateM ε σ α} [h : Refuses e step] : Mirrors e k step step := by
  intro s
  obtain ⟨failure, s', hstep, himage⟩ := h.fails s
  rw [hstep, himage]
  rfl

/-- A step that is seen to fail only when it is unfolded. -/
theorem failing (step : EStateM ε σ α) [Refuses e step] : Mirrors e k step step := refuse

/-- Nothing follows a failure. -/
theorem halt {step : EStateM ε σ α} [h : Refuses e step] {rest rest' : α → EStateM ε σ β} :
    Mirrors e l (step >>= rest) (step >>= rest') := by
  intro s
  obtain ⟨failure, s', hstep, himage⟩ := h.fails s
  change EStateM.bind step rest' (e s) = erased e l (EStateM.bind step rest s)
  simp only [EStateM.bind, hstep, himage]
  rfl

/-- A check that either fails or changes nothing. -/
theorem guard {step : EStateM ε σ α} [Refuses e step] {c : Prop} [Decidable c]
    {rest rest' : α → EStateM ε σ β} {last last' : EStateM ε σ β} (hlast : Mirrors e l last last') :
    Mirrors e l (if c then step >>= rest else last) (if c then step >>= rest' else last') :=
  .ite .halt hlast

end Mirrors

section Blind

variable {e : σ → σ}

/-- A step that ends the same whether or not the state was erased. -/
theorem blind_of_eq {step : EStateM ε σ α} (h : ∀ s, step (e s) = erased e id (step s)) :
    Blind e step :=
  ⟨h⟩

theorem blind_modify {f : σ → σ} (h : ∀ s, f (e s) = e (f s)) :
    Blind e (modify f : EStateM ε σ Unit) :=
  ⟨.modify h⟩

/-- A step that goes on in a way that the erased state leads to as well. -/
theorem blind_look {rest : σ → EStateM ε σ α} (hrest : ∀ s, rest (e s) = rest s)
    [∀ s, Blind e (rest s)] : Blind e (get >>= rest) :=
  ⟨.look fun s => by
    rw [hrest s]
    exact Blind.mirrors⟩

instance {a : α} : Blind e (pure a : EStateM ε σ α) := ⟨.pure rfl⟩

instance {failure : ε} : Refuses e (throw failure : EStateM ε σ α) :=
  ⟨fun s => ⟨failure, s, rfl, rfl⟩⟩

instance {step : EStateM ε σ α} [Refuses e step] : Blind e step := ⟨.refuse⟩

instance {step : EStateM ε σ α} [Blind e step] {rest : α → EStateM ε σ β}
    [∀ a, Blind e (rest a)] : Blind e (step >>= rest) :=
  ⟨.skip fun _ => Blind.mirrors⟩

instance {step : EStateM ε σ α} [Blind e step] {f : α → β} : Blind e (f <$> step) :=
  ⟨Blind.mirrors.map fun _ => rfl⟩

instance {c : Prop} [Decidable c] {first second : EStateM ε σ α} [Blind e first]
    [Blind e second] : Blind e (if c then first else second) := by
  split
  · infer_instance
  · infer_instance

instance {first second : EStateM ε σ Bool} [Blind e first] [Blind e second] :
    Blind e (first <&&> second) := by
  unfold andM
  refine ⟨.skip fun found => ?_⟩
  split
  · exact Blind.mirrors
  · exact Blind.mirrors

instance {first second : EStateM ε σ Bool} [Blind e first] [Blind e second] :
    Blind e (first <||> second) := by
  unfold orM
  refine ⟨.skip fun found => ?_⟩
  split
  · exact Blind.mirrors
  · exact Blind.mirrors

instance {items : List α} {f : α → EStateM ε σ PUnit} [∀ a, Blind e (f a)] :
    Blind e (items.forM f) := by
  induction items with
  | nil => exact ⟨.pure rfl⟩
  | cons item rest ih =>
    change Blind e (f item >>= fun _ => rest.forM f)
    infer_instance

instance {item : Option α} {f : α → EStateM ε σ PUnit} [∀ a, Blind e (f a)] :
    Blind e (item.forM f) := by
  cases item with
  | none => exact ⟨.pure rfl⟩
  | some item =>
    change Blind e (f item)
    infer_instance

end Blind

namespace Lexer

open EcmaSyntax.Diagnostic

/-- The state as it is where comments are not kept. -/
def State.withoutComments (s : State) : State :=
  { s with collectComments := false, comments := [] }

variable {α : Type}

instance {start : Cursor} {found : Fault} :
    Blind State.withoutComments (raise start found : Lexer α) := by
  unfold raise
  split
  · exact ⟨.change (fun _ => rfl) fun _ => Blind.mirrors⟩
  · infer_instance

instance {start : Cursor} {reading : Reading α} :
    Blind State.withoutComments (ofReading start reading) := by
  unfold ofReading
  split
  · infer_instance
  · infer_instance

instance {start : Cursor} {lexeme : Lexeme} :
    Blind State.withoutComments (accept start lexeme) :=
  blind_modify fun _ => rfl

/-- Comments that are skipped are added to the others or are not kept. -/
instance : Blind State.withoutComments beginToken := by
  unfold beginToken
  refine ⟨.look fun s => ?_⟩
  dsimp only [State.withoutComments]
  split
  · exact Blind.mirrors
  · exact fun _ => rfl

instance : Blind State.withoutComments scan := by
  unfold scan
  refine ⟨.skip fun _ => .look fun s => ?_⟩
  dsimp only [State.withoutComments]
  split
  · exact .change (fun _ => rfl) fun _ => .pure rfl
  · exact .skip fun lexeme => .skip fun _ => .change (fun _ => rfl) fun _ => .pure rfl

instance : Blind State.withoutComments rescanGreaterThan := by
  unfold rescanGreaterThan
  refine ⟨.look fun s => ?_⟩
  dsimp only [State.withoutComments]
  split
  · exact fun _ => rfl
  · exact .pure rfl

instance : Blind State.withoutComments rescanTemplate :=
  blind_look fun _ => rfl

instance : Blind State.withoutComments rescanRegex := by
  unfold rescanRegex
  refine ⟨.look fun s => ?_⟩
  exact .skip fun literal => .change (fun _ => rfl) fun _ => .pure rfl

instance : Blind State.withoutComments scanMarkupName := by
  unfold scanMarkupName
  refine blind_modify fun s => ?_
  dsimp only [State.withoutComments]
  split
  · split
    · rfl
    · rfl
  · rfl

instance : Blind State.withoutComments scanMarkupChild := by
  unfold scanMarkupChild
  refine ⟨.look fun s => .change (fun _ => rfl) fun _ => ?_⟩
  dsimp only [State.withoutComments]
  split
  case h_4 => exact .skip fun body => .skip fun found => .change (fun _ => rfl) fun _ => .pure rfl
  all_goals exact .skip fun found => .change (fun _ => rfl) fun _ => .pure rfl

instance : Blind State.withoutComments scanMarkupAttributeValue := by
  unfold scanMarkupAttributeValue
  refine ⟨.skip fun _ => .look fun s => ?_⟩
  dsimp only [State.withoutComments]
  split
  · split
    · split
      · exact .change (fun _ => rfl) fun _ => .pure rfl
      · exact Blind.mirrors
    · exact Blind.mirrors
  · exact Blind.mirrors

/-- What is restored keeps as many comments as there were, which is none. -/
instance {step : Lexer α} [h : Blind State.withoutComments step] :
    Blind State.withoutComments (lookAhead step) := by
  refine ⟨fun s => ?_⟩
  unfold lookAhead
  rw [h.mirrors s]
  cases step s with
  | ok a after => rfl
  | error failure after => rfl

instance : Blind State.withoutComments peek := by
  have hahead : Blind State.withoutComments (do
      let token ← scan
      return (token, (← get).flags)) := ⟨.skip fun token => fun _ => rfl⟩
  unfold peek
  refine ⟨.skip fun found => ?_⟩
  cases found with
  | ok next => exact .pure rfl
  | error failure => exact .pure rfl

end Lexer

/-- The settings without those that only say what is written about a tree. -/
def Options.quiet (o : Options) : Options := { o with ranges := false, loc := false, raw := false }

end EcmaSyntax

namespace EcmaSyntax.Grammar

open EcmaSyntax.Diagnostic EcmaSyntax.Lexer

variable {α : Type}

/-- The parameters without the text they were read from. -/
def ParameterList.withoutRaw (list : ParameterList) : ParameterList :=
  { list with params := list.params.map Tree.Pattern.withoutRaw }

/-- The state as it is where nobody observes. -/
def State.unobserved (s : State) : State :=
  { s with
    lexer := s.lexer.withoutComments
    observing := false
    observations := Observations.none
    refused := s.refused.map ParameterList.withoutRaw }

/-- A step that does not look at what is observed. -/
abbrev Unwatched (step : Parser α) : Prop := Blind State.unobserved step

/-- Where nobody observes, the second step does what the first does, and its result is
changed by `k`. -/
abbrev Echoes (k : α → α) (step image : Parser α) : Prop :=
  Mirrors State.unobserved k step image

/-- What is changed in the item that a round found. -/
def Round.map (k : α → α) : Round α → Round α
  | .stop => .stop
  | .last item => .last (k item)
  | .more item => .more (k item)

section Steps

instance {cause : Cause} {offset : Nat} :
    Refuses State.unobserved (failAt cause offset : Parser α) :=
  ⟨fun _ => ⟨_, _, rfl, rfl⟩⟩

instance {cause : Cause} : Refuses State.unobserved (fail cause : Parser α) :=
  ⟨fun _ => ⟨_, _, rfl, rfl⟩⟩

instance : Refuses State.unobserved (unexpected : Parser α) := ⟨fun _ => ⟨_, _, rfl, rfl⟩⟩

instance : Unwatched currentToken := blind_of_eq fun _ => rfl
instance : Unwatched currentStart := blind_of_eq fun _ => rfl
instance : Unwatched currentEnd := blind_of_eq fun _ => rfl
instance : Unwatched currentFlags := blind_of_eq fun _ => rfl
instance : Unwatched currentValue := blind_of_eq fun _ => rfl
instance : Unwatched currentRaw := blind_of_eq fun _ => rfl
instance : Unwatched isEscaped := blind_of_eq fun _ => rfl
instance : Unwatched afterLineBreak := blind_of_eq fun _ => rfl
instance {token : Token} : Unwatched (atToken token) := blind_of_eq fun _ => rfl
instance {token : Token} : Unwatched (atWord token) := blind_of_eq fun _ => rfl
instance {start : Nat} : Unwatched (spanFrom start) := blind_of_eq fun _ => rfl
instance {start : Nat} : Unwatched (spanThrough start) := blind_of_eq fun _ => rfl

instance {step : Lexer α} [h : Blind Lexer.State.withoutComments step] :
    Unwatched (withLexer step) := by
  refine ⟨fun s => ?_⟩
  have hstep := h.mirrors s.lexer
  unfold withLexer
  dsimp only [State.unobserved]
  rw [hstep]
  cases step s.lexer with
  | ok a lexer => rfl
  | error failure lexer => rfl

/-- The token and the comments before it go to the observer, and nothing else does. -/
instance {step : Lexer Token} [Blind Lexer.State.withoutComments step] :
    Unwatched (advance step) := by
  unfold advance
  refine ⟨.change (fun s => ?_) fun _ => .skip fun _ s => ?_⟩
  · unfold State.recordToken
    split
    · rename_i h
      cases h
    · split
      · rfl
      · rfl
  · change EStateM.Result.ok () s.unobserved = erased _ id
      ((if s.observing then do
          let comments ← withLexer takeComments
          modify fun s => s.recordComments comments
        else pure () : Parser Unit) s)
    split
    · rename_i h
      change EStateM.Result.ok () s.unobserved = EStateM.Result.ok () (State.recordComments
        { s with lexer := { s.lexer with comments := [] } } s.lexer.comments).unobserved
      simp only [State.recordComments, h]
      rfl
    · rfl

instance : Unwatched next := by unfold next; infer_instance
instance : Unwatched nextInTag := by unfold nextInTag; infer_instance
instance : Unwatched nextChild := by unfold nextChild; infer_instance
instance : Unwatched nextAttributeValue := by unfold nextAttributeValue; infer_instance
instance : Unwatched peekNext := by unfold peekNext; infer_instance
instance : Unwatched peekToken := by unfold peekToken; infer_instance

instance : Unwatched peekSecond := by
  unfold peekSecond
  refine ⟨.skip fun found => ?_⟩
  cases found with
  | ok token => exact .pure rfl
  | error failure => exact .pure rfl

instance {token : Token} : Unwatched (accept token) := by unfold accept; infer_instance
instance {token : Token} : Unwatched (expect token) := by unfold expect; infer_instance
instance {assignable : Bool} : Unwatched (setAssignable assignable) := blind_modify fun _ => rfl
instance {cover : Cover} : Unwatched (setCover cover) := blind_modify fun _ => rfl
instance : Unwatched takeCover := blind_of_eq fun _ => rfl
instance : Unwatched plainExpression := by unfold plainExpression; infer_instance

instance : Unwatched enterNesting := by
  unfold enterNesting
  refine ⟨.change (fun _ => rfl) fun _ => .look fun s => ?_⟩
  dsimp only [State.unobserved]
  exact Blind.mirrors

instance : Unwatched leaveNesting := blind_modify fun _ => rfl

instance : Unwatched (modify State.insertSemicolon : Parser Unit) := by
  refine blind_modify fun s => ?_
  unfold State.insertSemicolon
  split
  · rename_i h
    cases h
  · split
    · rfl
    · rfl

instance : Unwatched endStatement := by unfold endStatement; infer_instance

instance {found : Except Scope.Error Unit} : Unwatched (ofScope found) := by
  unfold ofScope
  split
  · infer_instance
  · infer_instance

instance {found : Except Failure α} : Unwatched (ofExcept found) := by
  unfold ofExcept
  split
  · infer_instance
  · infer_instance

instance {ctx : Context} {name : String} {offset : Nat} :
    Unwatched (checkReference ctx name offset) := by
  unfold checkReference; infer_instance

instance {ctx : Context} {id : Tree.Identifier} : Unwatched (checkTarget ctx id) := by
  unfold checkTarget; infer_instance

instance {ctx : Context} {kind : Scope.BindingKind} {name : String} {offset : Nat} :
    Unwatched (checkBinding ctx kind name offset) := by
  unfold checkBinding; infer_instance

instance {options : Options} {ctx : Context} {kind : Scope.BindingKind} {name : String}
    {offset : Nat} : Unwatched (declare options ctx kind name offset) := by
  unfold declare
  refine ⟨.look fun s => ?_⟩
  dsimp only [State.unobserved]
  exact .change (fun _ => rfl) fun _ => Blind.mirrors

@[simp] theorem declare_quiet (options : Options) : declare options.quiet = declare options := rfl

instance : Unwatched identifier := by unfold identifier; infer_instance

instance {options : Options} {ctx : Context} {kind : Scope.BindingKind} :
    Unwatched (bindingIdentifier options ctx kind) := by
  unfold bindingIdentifier; infer_instance

@[simp] theorem bindingIdentifier_quiet (options : Options) :
    bindingIdentifier options.quiet = bindingIdentifier options := rfl

instance : Unwatched privateName := by unfold privateName; infer_instance

instance : Unwatched privateReference := by
  unfold privateReference
  refine ⟨.look fun s => .skip fun value => .skip fun start => ?_⟩
  dsimp only [State.unobserved]
  split
  · exact Blind.mirrors
  · exact .change (fun _ => rfl) fun _ => Blind.mirrors

end Steps

end EcmaSyntax.Grammar

namespace EcmaSyntax.Mirrors

open EcmaSyntax.Grammar

variable {α : Type} {k : α → α} {step image : Parser α}

theorem nested (h : Echoes k step image) : Echoes k (nested step) (nested image) := by
  unfold Grammar.nested
  exact .skip fun _ => h.bind fun a => .skip fun _ => .pure rfl

theorem inScope (h : Echoes k step image) (roles : List Scope.Role) :
    Echoes k (inScope roles step) (inScope roles image) := by
  unfold Grammar.inScope
  exact .change (fun _ => rfl) fun _ => h.bind fun a => .change (fun _ => rfl) fun _ => .pure rfl

theorem collectAfter {round round' : List α → Parser (Round α)}
    (hround : ∀ earlier, Echoes (Round.map k) (round earlier) (round' (earlier.map k)))
    (fuel : Nat) (earlier : List α) :
    Echoes (List.map k) (collectAfter round fuel earlier)
      (collectAfter round' fuel (earlier.map k)) := by
  induction fuel generalizing earlier with
  | zero => exact .failing (fail .exhausted)
  | succ fuel ih =>
    unfold Grammar.collectAfter
    refine (hround earlier).bind fun r => ?_
    cases r with
    | stop => exact .pure (by simp)
    | last item => exact .pure (by simp)
    | more item => exact ih (item :: earlier)

theorem iterate {round round' : α → Parser (Option α)}
    (hround : ∀ x, Echoes (Option.map k) (round x) (round' (k x))) (fuel : Nat) (x : α) :
    Echoes k (iterate round fuel x) (iterate round' fuel (k x)) := by
  induction fuel generalizing x with
  | zero => exact .failing (fail .exhausted)
  | succ fuel ih =>
    unfold Grammar.iterate
    refine (hround x).bind fun r => ?_
    cases r with
    | none => exact .pure rfl
    | some y => exact ih y

end EcmaSyntax.Mirrors
