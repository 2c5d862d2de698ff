import EcmaSyntax.Proofs.Outcome
import EcmaSyntax.Proofs.Grammar.LightSteps
import EcmaSyntax.Proofs.Scope.Parameters

/-!
Phrases that abide by the rules. Such a phrase goes on in the text, declares names no
further out than it may, and what it reads is what the rules ask for; should it complain
about a repeated parameter, there is evidence for that. Whether something in it uses `yield`
or `await` outside of functions can be told afterwards from the marks in the state, so what
is read is described twice: as it is, and as it is if there are no marks.
-/

namespace EcmaSyntax.Grammar

open EcmaSyntax.Diagnostic EcmaSyntax.Lexer EcmaSyntax.Scope

variable {version : Nat} [Unicode.IdentifierChars version]

variable {α β : Type}

/-- What a phrase may do to the open scopes. -/
inductive Effect where
  | none
  /-- Names are declared no further out than the nearest boundary for variables. -/
  | declares
  /-- Nothing is declared outside of the current scope. -/
  | current
deriving DecidableEq, Repr

namespace Effect

def Allows : Effect → Stack → Stack → Prop
  | .none, stack, stack' => stack' = stack
  | .declares, stack, stack' => stack.KeepsOuter stack'
  | .current, stack, stack' => stack'.outer = stack.outer

variable {effect : Effect} {a b c : Stack}

theorem Allows.of_eq (h : b = a) : effect.Allows a b := by
  subst h
  cases effect with
  | none => rfl
  | declares => exact .refl
  | current => rfl

theorem Allows.trans (h : effect.Allows a b) (h' : effect.Allows b c) : effect.Allows a c := by
  cases effect with
  | none => exact h'.trans h
  | declares => exact Stack.KeepsOuter.trans h h'
  | current => exact Eq.trans h' h

end Effect

/-- What is asked about the reading of a text. -/
structure Inquiry where
  options : Options
  text : List Char
  /-- The evidence for a complaint about a repeated parameter. -/
  Shows : Failure → State → Prop

def Inquiry.Blames (q : Inquiry) (failure : Failure) (s : State) : Prop :=
  failure.cause = .duplicateParameter → q.Shows failure s

theorem Inquiry.blames_of_immediate (q : Inquiry) {failure : Failure} (h : failure.IsImmediate)
    (s : State) : q.Blames failure s := fun hcause => by
  rw [Failure.IsImmediate, hcause] at h
  cases h

/-- Nothing is exposed at or after an offset, or it does not matter. -/
def Calm (exposed : Prop) (offset : Nat) (s : State) : Prop :=
  exposed ∨ (∀ mark ∈ s.lastYield, mark < offset) ∧ ∀ mark ∈ s.lastAwait, mark < offset

/-- A state that a phrase comes to, with what is known of its result in case something is
exposed and in case nothing is. -/
structure Arrives (q : Inquiry) (effect : Effect) (Q : Prop → Prop) (s s' : State) : Prop where
  oriented : Oriented q.text s'.lexer
  start_le : s.start ≤ s'.start
  scopes : effect.Allows s.scopes s'.scopes
  calm : ∀ exposed offset, offset ≤ s.start → Calm exposed offset s' →
    Calm exposed offset s ∧ Q exposed

def KeepsPlacementAt (q : Inquiry) (effect : Effect) (Q : Prop → α → Prop)
    (step : Parser α) (s : State) :
    Prop :=
  Oriented q.text s.lexer → EndsIn q.Blames step (fun a s' => Arrives q effect (Q · a) s s') s

def KeepsPlacement (q : Inquiry) (effect : Effect) (Q : Prop → α → Prop) (step : Parser α) : Prop :=
  ∀ s, KeepsPlacementAt q effect Q step s

variable {q : Inquiry} {effect : Effect} {s s' : State}

namespace Arrives

variable {P Q : Prop → Prop} {s₁ s₂ : State}

theorem always (h : Arrives q effect Q s s') : Q True :=
  (h.calm True s.start (Nat.le_refl _) (.inl trivial)).2

theorem trans (h : Arrives q effect P s s₁)
    (h' : Arrives q effect (fun exposed => P exposed → Q exposed) s₁ s₂) :
    Arrives q effect Q s s₂ where
  oriented := h'.oriented
  start_le := Nat.le_trans h.start_le h'.start_le
  scopes := h.scopes.trans h'.scopes
  calm exposed offset hoffset hcalm := by
    obtain ⟨hcalm₁, hQ⟩ := h'.calm exposed offset (Nat.le_trans hoffset h.start_le) hcalm
    obtain ⟨hcalm₀, hP⟩ := h.calm exposed offset hoffset hcalm₁
    exact ⟨hcalm₀, hQ hP⟩

theorem mono (h : Arrives q effect P s s') (hPQ : ∀ exposed, P exposed → Q exposed) :
    Arrives q effect Q s s' :=
  { h with calm := fun exposed offset hoffset hcalm =>
      (h.calm exposed offset hoffset hcalm).imp_right (hPQ exposed) }

theorem of_moves (h : Moves s s') (hs : Oriented q.text s.lexer) (hQ : ∀ exposed, Q exposed) :
    Arrives q effect Q s s' where
  oriented := (h.oriented hs).1
  start_le := (h.oriented hs).2
  scopes := .of_eq h.scopes
  calm exposed _ _ hcalm := by
    unfold Calm at hcalm
    rw [h.lastYield, h.lastAwait] at hcalm
    exact ⟨hcalm, hQ exposed⟩

theorem refl (hs : Oriented q.text s.lexer) (hQ : ∀ exposed, Q exposed) : Arrives q effect Q s s :=
  .of_moves .refl hs hQ

end Arrives

section At

variable {P : Prop → α → Prop} {Q : Prop → β → Prop} {step : Parser α} {rest : α → Parser β}

theorem KeepsPlacementAt.mono {Q : Prop → α → Prop} (h : KeepsPlacementAt q effect P step s)
    (hPQ : ∀ exposed a, P exposed a → Q exposed a) : KeepsPlacementAt q effect Q step s :=
  fun hs => (h hs).mono fun a _ ha => ha.mono fun exposed => hPQ exposed a

theorem KeepsPlacementAt.bind (h : KeepsPlacementAt q effect P step s)
    (hrest : ∀ a s', Arrives q effect (P · a) s s' →
      KeepsPlacementAt q effect (fun exposed b => P exposed a → Q exposed b) (rest a) s') :
    KeepsPlacementAt q effect Q (step >>= rest) s :=
  fun hs => (h hs).bind fun a s₁ ha => (hrest a s₁ ha ha.oriented).mono fun _ _ hb => ha.trans hb

/-- A step that moves on from this state, with a result of which something is known. -/
theorem KeepsPlacementAt.roams {R : α → State → Prop}
    (h : Meets (fun failure => failure.cause ≠ .duplicateParameter) step
      (fun a s' => Moves s s' ∧ R a s') s)
    (hrest : ∀ a s', Moves s s' → R a s' → KeepsPlacementAt q effect Q (rest a) s') :
    KeepsPlacementAt q effect Q (step >>= rest) s := by
  intro hs
  have hstep : EndsIn q.Blames step (fun a s' => Moves s s' ∧ R a s') s := by
    refine .intro (fun a s' hok => h.result hok) fun failure s' herror hcause => ?_
    unfold Meets at h
    rw [herror] at h
    exact absurd hcause h
  refine hstep.bind fun a s₁ ha => ?_
  have hmoves : Arrives q effect (fun _ => True) s s₁ := .of_moves ha.1 hs fun _ => trivial
  refine (hrest a s₁ ha.1 ha.2 hmoves.oriented).mono fun b s₂ hb => ?_
  exact hmoves.trans (hb.mono fun _ hQ _ => hQ)

theorem KeepsPlacementAt.moves {R : α → State → Prop}
    (h : Meets Failure.IsImmediate step (fun a s' => Moves s s' ∧ R a s') s)
    (hrest : ∀ a s', Moves s s' → R a s' → KeepsPlacementAt q effect Q (rest a) s') :
    KeepsPlacementAt q effect Q (step >>= rest) s :=
  .roams (h.weaken fun _ himmediate hcause => by
    rw [Failure.IsImmediate, hcause] at himmediate
    cases himmediate) hrest

/-- A light step, whose result may be known. -/
theorem KeepsPlacementAt.tells {R : α → Prop} (h : Tells R step)
    (hrest : ∀ a s', Moves s s' → R a → KeepsPlacementAt q effect Q (rest a) s') :
    KeepsPlacementAt q effect Q (step >>= rest) s :=
  .moves ((h s).mono fun _ _ ha => ⟨ha.1.toMoves, ha.2⟩) hrest

/-- A step that looks ahead. -/
theorem KeepsPlacementAt.peeks (h : Peeks step)
    (hrest : ∀ a s', Moves s s' → s'.token = s.token → KeepsPlacementAt q effect Q (rest a) s') :
    KeepsPlacementAt q effect Q (step >>= rest) s :=
  .moves ((h s).mono fun _ _ ha => ⟨ha.1.toMoves, ha.2⟩) hrest

theorem KeepsPlacementAt.skip [h : Loose step]
    (hrest : ∀ a s', Moves s s' → KeepsPlacementAt q effect Q (rest a) s') :
    KeepsPlacementAt q effect Q (step >>= rest) s :=
  .roams ((h.moves s).mono fun _ _ ha => ⟨ha, trivial⟩) fun a s' hmoves _ => hrest a s' hmoves

/-- A check that does not change the state. -/
theorem KeepsPlacementAt.still (h : Meets Failure.IsImmediate step (fun _ s' => s' = s) s)
    (hrest : ∀ a, KeepsPlacementAt q effect Q (rest a) s) :
      KeepsPlacementAt q effect Q (step >>= rest) s := by
  refine .moves (R := fun _ s' => s' = s) (h.mono fun a s' hs' => ⟨hs' ▸ .refl, hs'⟩) ?_
  rintro a s' - rfl
  exact hrest a

/-- A step that only looks at the state. -/
theorem KeepsPlacementAt.look {a : α} (h : step s = .ok a s)
    (hrest : KeepsPlacementAt q effect Q (rest a) s) :
    KeepsPlacementAt q effect Q (step >>= rest) s := fun hs => .run h (hrest hs)

theorem KeepsPlacementAt.pure {a : α} (h : ∀ exposed, P exposed a) :
    KeepsPlacementAt q effect P (Pure.pure a) s := fun hs =>
      .pure (.refl hs fun exposed => h exposed)

/-- A mark for a `yield` or `await` that stands here, after which something is exposed. -/
theorem KeepsPlacementAt.mark {step : Parser PUnit} {rest : PUnit → Parser β} {s₁ : State}
    (hstep : step s = .ok ⟨⟩ s₁) (hlexer : s₁.lexer = s.lexer) (hscopes : s₁.scopes = s.scopes)
    (hmark : s₁.lastYield = some s.start ∨ s₁.lastAwait = some s.start)
    (hrest : KeepsPlacementAt q effect (fun exposed b => exposed → Q exposed b) (rest ⟨⟩) s₁) :
    KeepsPlacementAt q effect Q (step >>= rest) s := by
  intro hs
  refine .run hstep ((hrest (hlexer ▸ hs)).mono fun b s' hb => ?_)
  have hstart : s₁.start = s.start := by
    unfold State.start
    rw [hlexer]
  refine ⟨hb.oriented, hstart ▸ hb.start_le, .trans (.of_eq hscopes) hb.scopes, ?_⟩
  intro exposed offset hoffset hcalm
  obtain ⟨hcalm₁, hQ⟩ := hb.calm exposed offset (hstart ▸ hoffset) hcalm
  have hexposed : exposed := by
    rcases hcalm₁ with hexposed | ⟨hyield, hawait⟩
    · exact hexposed
    · rcases hmark with hmark | hmark
      · exact absurd (hyield _ hmark) (Nat.not_lt.mpr hoffset)
      · exact absurd (hawait _ hmark) (Nat.not_lt.mpr hoffset)
  exact ⟨.inl hexposed, hQ hexposed⟩

/-- A step whose run is looked at, and which does to the scopes what is known of it. -/
theorem KeepsPlacementAt.bindRun {inner : Effect} (h : KeepsPlacementAt q inner P step s)
    (hscopes : ∀ a s', step s = .ok a s' → inner.Allows s.scopes s'.scopes →
      effect.Allows s.scopes s'.scopes)
    (hrest : ∀ a s', step s = .ok a s' → Arrives q inner (P · a) s s' →
      KeepsPlacementAt q effect (fun exposed b => P exposed a → Q exposed b) (rest a) s') :
    KeepsPlacementAt q effect Q (step >>= rest) s := by
  intro hs
  refine (h hs).noted.bind fun a s₁ ha => ?_
  refine (hrest a s₁ ha.1 ha.2 ha.2.oriented).mono fun b s₂ hb => ?_
  exact Arrives.trans { ha.2 with scopes := hscopes a s₁ ha.1 ha.2.scopes } hb

/-- What comes after a phrase that declares nothing. -/
theorem KeepsPlacementAt.quietBind (h : KeepsPlacementAt q .none P step s)
    (hrest : ∀ a s', Arrives q .none (P · a) s s' →
      KeepsPlacementAt q effect (fun exposed b => P exposed a → Q exposed b) (rest a) s') :
    KeepsPlacementAt q effect Q (step >>= rest) s :=
  h.bindRun (fun _ _ _ hscopes => .of_eq hscopes) fun a s' _ ha => hrest a s' ha

/-- The evidence for a complaint, where it follows from the run that ends with it. -/
theorem KeepsPlacementAt.shown {P : Prop → α → Prop} {E : Failure → State → Prop}
    (hshows : ∀ failure s', step s = .error failure s' → E failure s' → q.Shows failure s')
    (h : KeepsPlacementAt
      { q with Shows := fun failure s' => q.Shows failure s' ∨ E failure s' } effect P step s) :
    KeepsPlacementAt q effect P step s := by
  intro hs
  refine .intro (fun a s' hok => ?_) fun failure s' herror hdeferred => ?_
  · have ha := (h hs).result hok
    exact ⟨ha.oriented, ha.start_le, ha.scopes, ha.calm⟩
  · rcases (h hs).failure herror hdeferred with hfailure | hfailure
    · exact hfailure
    · exact hshows failure s' herror hfailure

end At

namespace KeepsPlacement

variable {P : Prop → α → Prop} {Q : Prop → β → Prop} {step : Parser α} {rest : α → Parser β}

theorem mono {Q : Prop → α → Prop} (h : KeepsPlacement q effect P step)
    (hPQ : ∀ exposed a, P exposed a → Q exposed a) : KeepsPlacement q effect Q step :=
  fun s => (h s).mono hPQ

/-- What is known of a result is known of what follows. -/
theorem bind (h : KeepsPlacement q effect P step)
    (hrest : ∀ a, KeepsPlacement q effect (fun exposed b => P exposed a → Q exposed b) (rest a)) :
    KeepsPlacement q effect Q (step >>= rest) :=
  fun s => (h s).bind fun a s' _ => hrest a s'

/-- What holds whatever is exposed may be used at once. -/
theorem known {R : α → Prop} (h : KeepsPlacement q effect (fun _ a => R a) step)
    (hrest : ∀ a, R a → KeepsPlacement q effect Q (rest a)) :
      KeepsPlacement q effect Q (step >>= rest) :=
  fun s => (h s).bind fun a s' ha => (hrest a ha.always s').mono fun _ _ hQ _ => hQ

theorem tells {R : α → Prop} (h : Tells R step)
    (hrest : ∀ a, R a → KeepsPlacement q effect Q (rest a)) :
      KeepsPlacement q effect Q (step >>= rest) :=
  fun _ => .tells h fun _ _ _ ha => hrest _ ha _

theorem skip [Loose step] (hrest : ∀ a, KeepsPlacement q effect Q (rest a)) :
    KeepsPlacement q effect Q (step >>= rest) := fun _ => .skip fun a _ _ => hrest a _

theorem pure {a : α} (h : ∀ exposed, P exposed a) : KeepsPlacement q effect P (Pure.pure a) :=
  fun _ => .pure h

theorem of_tells {R : α → Prop} (h : Tells R step) (hP : ∀ exposed a, R a → P exposed a) :
    KeepsPlacement q effect P step := by
  rw [← bind_pure step]
  exact .tells h fun a ha => .pure fun exposed => hP exposed a ha

/-- What all results of a loose step have in common. -/
theorem of_yields [h : Loose step] {R : α → Prop} (hR : ∀ s, Yields step (fun a _ => R a) s)
    (hP : ∀ exposed a, R a → P exposed a) : KeepsPlacement q effect P step := by
  rw [← bind_pure step]
  exact fun s => .roams ((h.moves s).and (hR s)) fun a _ _ ha => .pure fun exposed =>
    hP exposed a ha

theorem map {f : α → β} (h : KeepsPlacement q effect (fun exposed a => Q exposed (f a)) step) :
    KeepsPlacement q effect Q (f <$> step) := by
  rw [← bind_pure_comp]
  exact h.bind fun a => .pure fun _ ha => ha

/-- A phrase that is there, where it may be missing. -/
theorem optional (h : KeepsPlacement q effect P step) :
    KeepsPlacement q effect (fun exposed found => ∀ a ∈ found, P exposed a) (some <$> step) := by
  refine .map (h.mono fun exposed a ha b hb => ?_)
  obtain rfl : a = b := by simpa using hb
  exact ha

/-- What holds if something is exposed does not depend on what comes later. -/
theorem always (h : KeepsPlacement q effect P step) :
    KeepsPlacement q effect (fun _ a => P True a) step :=
  fun s hs => (h s hs).mono fun _ _ ha =>
    { ha with calm := fun exposed offset hoffset hcalm =>
        ⟨(ha.calm exposed offset hoffset hcalm).1, ha.always⟩ }

/-- A phrase that declares nothing stands anywhere. -/
theorem quiet (h : KeepsPlacement q .none P step) : KeepsPlacement q effect P step :=
  fun s hs => (h s hs).mono fun _ _ ha => { ha with scopes := .of_eq ha.scopes }

theorem weaken {q' : Inquiry} (h : KeepsPlacement q effect P step) (htext : q'.text = q.text)
    (hshows : ∀ failure s, q.Shows failure s → q'.Shows failure s) :
      KeepsPlacement q' effect P step :=
  fun s hs => ((h s (htext ▸ hs)).mono fun _ _ ha =>
    { ha with oriented := htext ▸ ha.oriented }).weaken
      fun failure s hblames hdeferred => hshows failure s (hblames hdeferred)

end KeepsPlacement

section Failures

variable {P : Prop → α → Prop} {Q : Prop → β → Prop} {step : Parser α} {rest : α → Parser β}

theorem keepsPlacement_failAt {cause : Cause} {offset : Nat} [cause.IsImmediate] :
    KeepsPlacement q effect P (failAt cause offset) := .of_tells tells_failAt fun _ _ => False.elim

theorem keepsPlacement_fail {cause : Cause} [cause.IsImmediate] :
    KeepsPlacement q effect P (fail cause) :=
  .of_tells tells_fail fun _ _ => False.elim

theorem keepsPlacement_unexpected : KeepsPlacement q effect P unexpected :=
  .of_tells tells_unexpected fun _ _ => False.elim

/-- There is no fuel left. -/
theorem keepsPlacement_exhausted : KeepsPlacement q effect P (fail .exhausted) := fun _ _ => by
  rintro ⟨⟩

/-- A check that either fails or changes nothing. -/
theorem KeepsPlacement.guard {c : Prop} [Decidable c] {last : Parser β}
    (hstep : Tells (fun _ => False) step) (hlast : ¬ c → KeepsPlacement q effect Q last) :
    KeepsPlacement q effect Q (if c then step >>= rest else last) := by
  split
  · exact .tells hstep fun _ => False.elim
  · rename_i hc
    exact hlast hc

end Failures

section Loops

variable {P : Prop → α → Prop} {g : Phrases}

theorem keepsPlacement_collectAfter {round : List α → Parser (Round α)}
    (hround : ∀ earlier, KeepsPlacement q effect (fun exposed r => r.Adds (P exposed))
    (round earlier))
    (fuel : Nat) : ∀ earlier : List α, KeepsPlacement q effect
      (fun exposed items => (∀ a ∈ earlier, P exposed a) → ∀ a ∈ items, P exposed a)
      (collectAfter round fuel earlier) := by
  induction fuel with
  | zero => exact fun _ => keepsPlacement_exhausted
  | succ fuel ih =>
    intro earlier
    unfold collectAfter
    refine (hround earlier).bind fun r => ?_
    cases r with
    | stop => exact .pure fun _ _ hearlier a ha => hearlier a (List.mem_reverse.mp ha)
    | last item =>
      refine .pure fun exposed hitem hearlier a ha => ?_
      rcases List.mem_cons.mp (List.mem_reverse.mp ha) with rfl | ha
      · exact hitem
      · exact hearlier a ha
    | more item =>
      refine (ih (item :: earlier)).mono fun exposed items hitems hitem hearlier => ?_
      exact hitems (List.forall_mem_cons.mpr ⟨hitem, hearlier⟩)

/-- The items of a loop when each new one has a property. -/
theorem keepsPlacement_collect {round : List α → Parser (Round α)}
    (hround : ∀ earlier, KeepsPlacement q effect (fun exposed r => r.Adds (P exposed))
    (round earlier)) :
    KeepsPlacement q effect (fun exposed items => ∀ a ∈ items, P exposed a) (g.collect round) :=
  (keepsPlacement_collectAfter hround g.size []).mono fun _ _ h => h nofun

theorem keepsPlacement_listed {close : Token} {item : List α → Parser α}
    (hitem : ∀ earlier, KeepsPlacement q effect P (item earlier)) :
    KeepsPlacement q effect (fun exposed items => ∀ a ∈ items, P exposed a)
      (g.listed close item) := by
  refine keepsPlacement_collect fun earlier => .skip fun atClose => ?_
  split
  · exact .pure fun _ => trivial
  · exact (hitem earlier).bind fun a => .skip fun _ => .pure fun _ ha => ha

theorem keepsPlacement_itemsUpTo {close : Token} {item : Parser α}
    (hitem : KeepsPlacement q effect P item) :
    KeepsPlacement q effect (fun exposed items => ∀ a ∈ items, P exposed a)
      (g.itemsUpTo close item) := by
  refine keepsPlacement_collect fun earlier => .skip fun atClose => ?_
  split
  · exact .pure fun _ => trivial
  · refine .skip fun atEnd => .guard tells_unexpected fun _ => ?_
    exact hitem.bind fun a => .pure fun _ ha => ha

/-- A loop over a value that has a property after each round. -/
theorem keepsPlacement_iterate {round : α → Parser (Option α)}
    (hround : ∀ a, KeepsPlacement q effect
    (fun exposed found => P exposed a → ∀ b ∈ found, P exposed b)
      (round a)) (fuel : Nat) :
    ∀ a, KeepsPlacement q effect (fun exposed b => P exposed a → P exposed b)
      (iterate round fuel a) := by
  induction fuel with
  | zero => exact fun _ => keepsPlacement_exhausted
  | succ fuel ih =>
    intro a
    unfold iterate
    refine (hround a).bind fun found => ?_
    cases found with
    | none => exact .pure fun _ _ ha => ha
    | some b => exact (ih b).mono fun exposed c hc hb ha => hc (hb ha b rfl)

/-- The items so far, with the latest first, have a property after each round that goes on,
and the items found have another. -/
def Round.Leads (I J : List α → Prop) (earlier : List α) : Round α → Prop
  | .stop => J earlier.reverse
  | .last item => J (item :: earlier).reverse
  | .more item => I (item :: earlier)

/-- A loop whose items have a property together. -/
theorem keepsPlacement_collect_of {I J : List α → Prop}
    {round : List α → Parser (Round α)} (hnil : I [])
    (hround : ∀ earlier, I earlier →
      KeepsPlacement q effect (fun _ r => r.Leads I J earlier) (round earlier)) :
    KeepsPlacement q effect (fun _ items => J items) (g.collect round) := by
  suffices h : ∀ fuel earlier, I earlier →
      KeepsPlacement q effect (fun _ items => J items) (collectAfter round fuel earlier) from
    h g.size [] hnil
  intro fuel
  induction fuel with
  | zero => exact fun _ _ => keepsPlacement_exhausted
  | succ fuel ih =>
    intro earlier hearlier
    unfold collectAfter
    refine (hround earlier hearlier).known fun r hr => ?_
    cases r with
    | stop => exact .pure fun _ => hr
    | last item => exact .pure fun _ => hr
    | more item => exact ih (item :: earlier) hr

end Loops

section Declarations

variable {options : Options} {ctx : Context} {kind : BindingKind} {name : String} {offset : Nat}

/-- What comes after the check of a name stands where the check stood. -/
theorem KeepsPlacementAt.accepted {Q : Prop → β → Prop} {rest : Unit → Parser β}
    {fault : Option Cause}
    (hspared : Spared fault) (hrest : fault = none → KeepsPlacementAt q effect Q (rest ⟨⟩) s) :
    KeepsPlacementAt q effect Q (ofExcept (refuse offset fault) >>= rest) s := by
  cases fault with
  | none => exact .look rfl (hrest rfl)
  | some cause => exact .tells (gives_refuse hspared offset).tells fun _ _ _ h => nomatch h

theorem KeepsPlacementAt.checked {Q : Prop → β → Prop} {rest : Unit → Parser β}
    (hrest : bindingFault? ctx kind name = none → KeepsPlacementAt q effect Q (rest ⟨⟩) s) :
    KeepsPlacementAt q effect Q (checkBinding ctx kind name offset >>= rest) s :=
  .accepted (spared_bindingFault ctx kind name) hrest

theorem KeepsPlacementAt.referenced {Q : Prop → β → Prop} {rest : Unit → Parser β}
    (hrest : referenceFault? ctx name = none → KeepsPlacementAt q effect Q (rest ⟨⟩) s) :
    KeepsPlacementAt q effect Q (checkReference ctx name offset >>= rest) s :=
  .accepted (spared_referenceFault ctx name) hrest

theorem declare_error_isImmediate {stack : Stack} {error : Error} {repeatFunctions : Bool}
    (h : (stack.declare name kind offset repeatFunctions).1 = .error error) :
    error.failure.IsImmediate := by
  have hbinding : error = ⟨.duplicateBinding, name, offset⟩ := by
    unfold Stack.declare Stack.declareVar Stack.declareLexical at h
    grind
  subst hbinding
  rfl

theorem declare_run (s : State) : declare options ctx kind name offset s =
    ofScope (s.scopes.declare name kind offset (options.webCompat && !ctx.strict)).1
      { s with
        scopes := (s.scopes.declare name kind offset (options.webCompat && !ctx.strict)).2 } := rfl

/-- To declare a name leaves the lexer where it is. -/
theorem KeepsPlacementAt.declared {Q : Prop → β → Prop} {rest : Unit → Parser β}
    (hrest : ∀ s', s'.lexer = s.lexer → KeepsPlacementAt q .declares Q (rest ⟨⟩) s') :
    KeepsPlacementAt q .declares Q (declare options ctx kind name offset >>= rest) s := by
  intro hs
  have hkeeps := Stack.keepsOuter_declare s.scopes name kind offset
    (options.webCompat && !ctx.strict)
  obtain ⟨⟨found, scopes⟩, hfound⟩ :
      ∃ r, s.scopes.declare name kind offset (options.webCompat && !ctx.strict) = r := ⟨_, rfl⟩
  have hrun : declare options ctx kind name offset s =
      ofScope found { s with scopes := scopes } := by
    rw [declare_run, hfound]
  rw [hfound] at hkeeps
  cases found with
  | error error =>
    have herror : error.failure.IsImmediate := declare_error_isImmediate (congrArg Prod.fst hfound)
    refine EndsIn.bind (Q := fun _ _ => False) (.error hrun ?_) fun _ _ => False.elim
    exact q.blames_of_immediate herror _
  | ok =>
    have harrives : Arrives q .declares (fun _ => True) s { s with scopes := scopes } :=
      ⟨hs, Nat.le_refl _, hkeeps, fun _ _ _ hcalm => ⟨hcalm, trivial⟩⟩
    refine .run hrun ((hrest { s with scopes := scopes } rfl hs).mono fun b s' hb => ?_)
    exact harrives.trans (hb.mono fun _ hQ _ => hQ)

/-- The current token as a name. -/
theorem KeepsPlacementAt.identifier :
    KeepsPlacementAt q effect (fun _ id => id.name = s.lexer.value.text)
    Grammar.identifier s := by
  unfold Grammar.identifier
  refine .look rfl (.look rfl (.skip fun _ _ _ => .skip fun span _ _ => ?_))
  exact .pure fun _ => rfl

/-- A name that stands where one may be missing. -/
theorem KeepsPlacementAt.named {Q : Prop → β → Prop} {rest : Option Tree.Identifier → Parser β}
    (hrest : ∀ id : Tree.Identifier, id.name = s.lexer.value.text →
      KeepsPlacement q effect Q (rest (some id))) :
    KeepsPlacementAt q effect Q (some <$> Grammar.identifier >>= rest) s := by
  rw [bind_map_left]
  exact KeepsPlacementAt.identifier.bind fun id s' hid =>
    (hrest id hid.always s').mono fun _ _ h _ => h

theorem keepsPlacement_bindingIdentifier : KeepsPlacement q .declares
    (fun _ id => bindingFault? ctx kind id.name = none) (bindingIdentifier options ctx kind) := by
  intro s
  unfold bindingIdentifier
  refine .look rfl ?_
  split
  · refine .skip fun escaped _ _ => ?_
    split
    · exact .skip fun _ _ _ => keepsPlacement_fail _
    · exact keepsPlacement_unexpected _
  · refine .look rfl (.look rfl (.checked fun hfault => .declared fun s' hs' => ?_))
    refine KeepsPlacementAt.identifier.mono fun _ id hid => ?_
    rwa [hid, hs']

end Declarations

section Wrappers

variable {P : Prop → α → Prop} {step : Parser α}

theorem KeepsPlacement.nested (h : KeepsPlacement q effect P step) :
    KeepsPlacement q effect P (nested step) := by
  unfold Grammar.nested
  exact .skip fun _ => h.bind fun a => .skip fun _ => .pure fun _ ha => ha

/-- What a phrase does to the scopes is known when its own is closed. -/
theorem KeepsPlacementAt.inScope {inner : Effect} {roles : List Role}
    (hscopes : ∀ stack, inner.Allows (s.scopes.push roles) stack → effect.Allows s.scopes stack.pop)
    (h : KeepsPlacementAt q inner P step { s with scopes := s.scopes.push roles }) :
    KeepsPlacementAt q effect P (inScope roles step) s := by
  intro hs
  unfold Grammar.inScope
  refine .run rfl ((h hs).bind fun a s₁ ha => .run rfl (.pure ?_))
  exact ⟨ha.oriented, ha.start_le, hscopes _ ha.scopes, ha.calm⟩

theorem allows_pop_quiet {stack inner : Stack} {roles : List Role}
    (h : Effect.none.Allows (stack.push roles) inner) : effect.Allows stack inner.pop := by
  cases show inner = stack.push roles from h
  exact .of_eq rfl

theorem KeepsPlacement.inScope_quiet {roles : List Role} (h : KeepsPlacement q .none P step) :
    KeepsPlacement q effect P (inScope roles step) :=
  fun _ => .inScope (fun _ => allows_pop_quiet) (h _)

/-- Nothing is declared around a function body, a static block or a program. -/
theorem KeepsPlacement.inScope_boundary {roles : List Role}
    (hroles : roles.any Role.isVarBoundary = true) (h : KeepsPlacement q .declares P step) :
    KeepsPlacement q effect P (inScope roles step) :=
  fun s => .inScope (fun stack (hinner : Effect.declares.Allows (s.scopes.push roles) stack) =>
    .of_eq (Stack.KeepsOuter.pop_boundary hroles hinner)) (h _)

theorem KeepsPlacement.inScope_block {roles : List Role}
    (hroles : roles.any Role.isVarBoundary = false) (h : KeepsPlacement q .declares P step) :
    KeepsPlacement q .declares P (inScope roles step) :=
  fun s => .inScope (fun stack (hinner : Effect.declares.Allows (s.scopes.push roles) stack) =>
    Stack.KeepsOuter.pop hroles hinner) (h _)

/-- What happens in the current scope is gone when it is closed. -/
theorem allows_pop_current {stack inner : Stack} {roles : List Role}
    (h : Effect.current.Allows (stack.push roles) inner) : effect.Allows stack inner.pop := by
  obtain ⟨frame, outer⟩ := inner
  obtain rfl : outer = stack.frames := h
  exact .of_eq rfl

theorem KeepsPlacementAt.inScope_current {roles : List Role}
    (h : KeepsPlacementAt q .current P step { s with scopes := s.scopes.push roles }) :
    KeepsPlacementAt q effect P (Grammar.inScope roles step) s :=
  .inScope (fun _ hinner => allows_pop_current hinner) h

/-- What is exposed in a function is not so around it. -/
theorem KeepsPlacementAt.asFunction (h : KeepsPlacementAt q effect P step
    { s with
      labels := [], labelChain := none, lastYield := none, lastAwait := none,
      lastAwaitName := none }) :
    KeepsPlacementAt q effect (fun _ a => P True a) (asFunction step) s := by
  intro hs
  unfold Grammar.asFunction
  refine .run rfl (.run rfl ((h hs).bind fun a s₁ ha => .run rfl (.pure ?_)))
  exact ⟨ha.oriented, ha.start_le, ha.scopes, fun _ _ _ hcalm => ⟨hcalm, ha.always⟩⟩

theorem KeepsPlacement.asFunction (h : KeepsPlacement q effect P step) :
    KeepsPlacement q effect (fun _ a => P True a) (asFunction step) := fun _ => .asFunction (h _)

end Wrappers

end EcmaSyntax.Grammar
