import EcmaSyntax.Proofs.Grammar.LightSteps

/-!
Steps that get on with the text. Wherever a parse stands, the last token taken ends where the
current one starts, or before, and no step goes back behind that place. A step that takes a
token leaves less of the text, and as much fuel as there was text before it is enough for what
is left. Steps made of steps that get on get on, which is left to instances.
-/

namespace EcmaSyntax.Lexer

open EcmaSyntax.Text

/-- The further a cursor stands in a text, the less is left of the text. -/
theorem Cursor.In.rest_le {text before₁ before₂ : List Char} {a b : Cursor}
    (ha : a.In text before₁) (hb : b.In text before₂) (h : a.offset ≤ b.offset) :
    b.rest.length ≤ a.rest.length := by
  rw [ha.offset_eq, hb.offset_eq] at h
  have heq := ha.text_eq.symm.trans hb.text_eq
  obtain ⟨between, -, hrest⟩ | ⟨between, hbefore, hrest⟩ := List.append_eq_append_iff.mp heq
  · rw [hrest, List.length_append]
    omega
  · cases between with
    | nil => exact Nat.le_of_eq (congrArg List.length hrest)
    | cons first others =>
      have hpos := byteLength_pos (List.cons_ne_nil first others)
      rw [hbefore, byteLength_append] at h
      omega

theorem Cursor.In.rest_lt {text before₁ before₂ : List Char} {a b : Cursor}
    (ha : a.In text before₁) (hb : b.In text before₂) (h : a.offset < b.offset) :
    b.rest.length < a.rest.length := by
  refine Nat.lt_of_not_le fun hle => ?_
  rw [ha.offset_eq, hb.offset_eq] at h
  have heq := ha.text_eq.symm.trans hb.text_eq
  obtain ⟨between, hbefore, hrest⟩ | ⟨between, hbefore, -⟩ := List.append_eq_append_iff.mp heq
  · have hnil : between = [] := by
      rw [hrest, List.length_append] at hle
      exact List.eq_nil_of_length_eq_zero (by omega)
    rw [hbefore, hnil, List.append_nil] at h
    exact Nat.lt_irrefl _ h
  · rw [hbefore, byteLength_append] at h
    omega

end EcmaSyntax.Lexer

namespace EcmaSyntax.Grammar

open EcmaSyntax.Diagnostic EcmaSyntax.Lexer EcmaSyntax.Scope EcmaSyntax.Tree

variable {version : Nat} [Unicode.IdentifierChars version]

variable {α β : Type}

/-- How much of the text the current token starts. -/
def State.left (s : State) : Nat := s.lexer.start.rest.length

/-- A state where a parse of the text may stand. -/
structure Stands (text : List Char) (s : State) : Prop where
  situated : Situated text s.lexer
  previousEnd : s.previousEnd ≤ s.start

/-- What is read, and with how much fuel. -/
structure Course where
  text : List Char
  fuel : Nat
  /-- Nothing is exported. -/
  quiet : Prop

/-- A state that a step comes to. -/
structure Goes (c : Course) (s s' : State) : Prop where
  stands : Stands c.text s'
  start_le : s.start ≤ s'.start
  previousEnd_le : s.previousEnd ≤ s'.previousEnd
  exports : c.quiet → s'.exports = s.exports

/-- If there is enough fuel for what is left, and some more, then it is not the lack of fuel
that makes a step fail. -/
def Course.Lasts (c : Course) (more : Nat) (s : State) (failure : Failure) : Prop :=
  2 * s.left + more ≤ c.fuel → failure.cause ≠ .exhausted

/-- The step gets on from this state, and takes a token if its result is such. -/
def Passes (c : Course) (more : Nat) (taking : α → Prop) (step : Parser α) (s : State) : Prop :=
  Stands c.text s → Meets (c.Lasts more s) step
    (fun a s' => Goes c s s' ∧ (taking a → s.start < s'.previousEnd)) s

/-- The step gets on from any state. -/
class Proceeds (c : Course) (step : Parser α) : Prop where
  passes : ∀ s, Passes c 2 (fun _ => False) step s

/-- The step takes a token. -/
class Takes (c : Course) (step : Parser α) : Prop where
  passes : ∀ s, Passes c 2 (fun _ => True) step s

section Relations

variable {c : Course} {text : List Char} {s s₁ s₂ : State} {more : Nat}

theorem Stands.left_le (h : Stands text s) (h₁ : Stands text s₁) (hle : s.start ≤ s₁.start) :
    s₁.left ≤ s.left := by
  obtain ⟨before, raw, hin, -⟩ := h.situated.sound.place
  obtain ⟨before₁, raw₁, hin₁, -⟩ := h₁.situated.sound.place
  exact hin.rest_le hin₁ hle

theorem Stands.left_lt (h : Stands text s) (h₁ : Stands text s₁) (hlt : s.start < s₁.start) :
    s₁.left < s.left := by
  obtain ⟨before, raw, hin, -⟩ := h.situated.sound.place
  obtain ⟨before₁, raw₁, hin₁, -⟩ := h₁.situated.sound.place
  exact hin.rest_lt hin₁ hlt

theorem Stands.left_le_length (h : Stands text s) : s.left ≤ text.length := by
  obtain ⟨before, raw, hin, -⟩ := h.situated.sound.place
  rw [hin.text_eq, List.length_append]
  exact Nat.le_add_left _ _

namespace Goes

theorem refl (h : Stands c.text s) : Goes c s s :=
  ⟨h, Nat.le_refl _, Nat.le_refl _, fun _ => rfl⟩

theorem trans (h : Goes c s s₁) (h' : Goes c s₁ s₂) : Goes c s s₂ :=
  ⟨h'.stands, Nat.le_trans h.start_le h'.start_le, Nat.le_trans h.previousEnd_le h'.previousEnd_le,
    fun hquiet => (h'.exports hquiet).trans (h.exports hquiet)⟩

theorem of_strides (h : Strides s s₁) (hs : Stands c.text s) : Goes c s s₁ := by
  obtain ⟨hsituated, hstart⟩ := h.goesOn c.text hs.situated
  obtain ⟨hle, hend⟩ := h.previousEnd c.text hs.situated hs.previousEnd
  exact ⟨⟨hsituated, hend⟩, hstart, hle, fun _ => h.exports⟩

/-- A state that differs in nothing that is looked at. -/
theorem of_same (hs : Stands c.text s) (hlexer : s₁.lexer = s.lexer)
    (hend : s₁.previousEnd = s.previousEnd) (hexports : c.quiet → s₁.exports = s.exports) :
    Goes c s s₁ := by
  have hstart : s₁.start = s.start := congrArg (fun lexer => lexer.start.offset) hlexer
  refine ⟨⟨hlexer ▸ hs.situated, ?_⟩, Nat.le_of_eq hstart.symm, Nat.le_of_eq hend.symm, hexports⟩
  rw [hend, hstart]
  exact hs.previousEnd

/-- A token that has been taken is not left. -/
theorem left_lt (h : Goes c s s₁) (hs : Stands c.text s) (htaken : s.start < s₁.previousEnd) :
    s₁.left < s.left :=
  hs.left_lt h.stands (Nat.lt_of_lt_of_le htaken h.stands.previousEnd)

/-- After a token has been taken there is fuel for more. -/
theorem lasts_taken (h : Goes c s s₁) (hs : Stands c.text s) (htaken : s.start < s₁.previousEnd)
    {failure : Failure} (hlasts : c.Lasts (more + 2) s₁ failure) : c.Lasts more s failure := by
  intro henough
  have hlt := h.left_lt hs htaken
  exact hlasts (by omega)

theorem lasts (h : Goes c s s₁) (hs : Stands c.text s) {failure : Failure}
    (hlasts : c.Lasts more s₁ failure) : c.Lasts more s failure := by
  intro henough
  have hle := hs.left_le h.stands h.start_le
  exact hlasts (by omega)

end Goes

theorem Course.Lasts.of_immediate {failure : Failure} (h : failure.IsImmediate) :
    c.Lasts more s failure := by
  intro _ hcause
  rw [Failure.IsImmediate, hcause] at h
  cases h

theorem Course.Lasts.mono {failure : Failure} {less : Nat} (h : c.Lasts less s failure)
    (hle : less ≤ more) : c.Lasts more s failure := fun henough => h (by omega)

end Relations

section Passing

variable {c : Course} {more : Nat} {s s₁ : State} {taking : α → Prop} {also : β → Prop}
  {step : Parser α} {rest : α → Parser β}

/-- What comes after a step that need not have taken a token. -/
theorem Goes.passes {last : Parser β} (h : Goes c s s₁) (hs : Stands c.text s)
    (hlast : Passes c more also last s₁) :
    Meets (c.Lasts more s) last (fun b s₂ => Goes c s s₂ ∧
      (also b → s.start < s₂.previousEnd)) s₁ :=
  ((hlast h.stands).mono fun _ _ hb =>
    ⟨h.trans hb.1, fun halso => Nat.lt_of_le_of_lt h.start_le (hb.2 halso)⟩).weaken fun _ =>
      h.lasts hs

/-- What comes after a step that has taken a token. -/
theorem Goes.proceeds {last : Parser β} (h : Goes c s s₁) (hs : Stands c.text s)
    (htaken : s.start < s₁.previousEnd) (hlast : Passes c 2 (fun _ => False) last s₁) :
    Meets (c.Lasts more s) last (fun _ s₂ => Goes c s s₂ ∧ s.start < s₂.previousEnd) s₁ :=
  ((hlast h.stands).mono fun _ _ hb =>
    ⟨h.trans hb.1, Nat.lt_of_lt_of_le htaken hb.1.previousEnd_le⟩).weaken fun _ hlasts =>
      h.lasts_taken hs htaken (hlasts.mono (Nat.le_add_left 2 more))

namespace Passes

/-- More fuel and less to show. -/
theorem mono {less : Nat} {taking' : α → Prop} (h : Passes c less taking step s)
    (hle : less ≤ more) (htaking : ∀ a, taking' a → taking a) : Passes c more taking' step s :=
  fun hs => ((h hs).mono fun a _ ha => ⟨ha.1, fun h' => ha.2 (htaking a h')⟩).weaken
    fun _ hlasts => hlasts.mono hle

theorem pure {a : α} (h : ¬ taking a) : Passes c more taking (Pure.pure a) s :=
  fun hs => .pure ⟨.refl hs, fun ha => absurd ha h⟩

/-- What comes after a step that need not take a token. -/
theorem next (h : Passes c more taking step s)
    (hrest : ∀ a s', Goes c s s' → Passes c more also (rest a) s') :
    Passes c more also (step >>= rest) s :=
  fun hs => (h hs).bind fun a s' ha => ha.1.passes hs (hrest a s' ha.1)

/-- What comes after a step that takes a token. -/
theorem taken (h : Passes c more (fun _ => True) step s) (hrest : ∀ a, Proceeds c (rest a)) :
    Passes c more also (step >>= rest) s :=
  fun hs => (h hs).bind fun a s' ha =>
    (ha.1.proceeds hs (ha.2 trivial) ((hrest a).passes s')).mono fun _ _ hb =>
    ⟨hb.1, fun _ => hb.2⟩

/-- A step whose result tells whether it has taken a token. -/
theorem cases (h : Passes c more taking step s) (hyes : ∀ a, taking a → Proceeds c (rest a))
    (hno : ∀ a s', ¬ taking a → Goes c s s' → Passes c more also (rest a) s') :
    Passes c more also (step >>= rest) s := by
  refine fun hs => (h hs).bind fun a s' ha => ?_
  by_cases htaking : taking a
  · exact (ha.1.proceeds hs (ha.2 htaking) ((hyes a htaking).passes s')).mono fun _ _ hb =>
      ⟨hb.1, fun _ => hb.2⟩
  · exact ha.1.passes hs (hno a s' htaking ha.1)

/-- A light step. -/
theorem of_light [h : Light step] : Passes c more (fun _ => False) step s := fun hs =>
  ((h.moves s).mono fun _ _ ha => ⟨.of_strides ha hs, False.elim⟩).weaken
    fun _ himmediate => .of_immediate himmediate

theorem skip [Light step] (hrest : ∀ a s', Goes c s s' → Passes c more also (rest a) s') :
    Passes c more also (step >>= rest) s := of_light.next hrest

/-- A step that only looks at the state. -/
theorem look {a : α} (h : step s = .ok a s) (hrest : Passes c more also (rest a) s) :
    Passes c more also (step >>= rest) s := fun hs => .run h (hrest hs)

/-- A light step after which something is known of the state. -/
theorem knows [h : Light step] {P : State → Prop} (hP : Yields step (fun _ s' => P s') s)
    (hrest : ∀ a s', P s' → Goes c s s' → Passes c more also (rest a) s') :
    Passes c more also (step >>= rest) s :=
  fun hs => (((h.moves s).and hP).weaken fun _ => .of_immediate).bind fun a s' ha =>
    have hgoes : Goes c s s' := .of_strides ha.1 hs
    hgoes.passes hs (hrest a s' ha.2 hgoes)

/-- A step after which the current token is the same. -/
theorem peeks (h : Peeks step)
    (hrest : ∀ a s', s'.token = s.token → Goes c s s' → Passes c more also (rest a) s') :
    Passes c more also (step >>= rest) s :=
  have : Light step := ⟨fun s => (h s).mono fun _ _ ha => ha.1⟩
  .knows (((h s).mono fun _ _ ha => ha.2).weaken fun _ _ => trivial) hrest

/-- A step that fails. -/
theorem stop (h : Tells (fun _ => False) step) : Passes c more also (step >>= rest) s :=
  fun _ => Meets.bind ((h s).weaken fun _ => .of_immediate) fun _ _ ha => ha.2.elim

theorem failed (h : Tells (fun _ => False) step) : Passes c more taking step s :=
  fun _ => ((h s).mono fun _ _ ha => ha.2.elim).weaken fun _ => .of_immediate

/-- A check that either fails or changes nothing. -/
theorem guard {p : Prop} [Decidable p] (h : Tells (fun _ => False) step) {last : Parser β}
    (hlast : ¬ p → Passes c more also last s) :
    Passes c more also (if p then step >>= rest else last) s := by
  split
  · exact .stop h
  · rename_i hp
    exact hlast hp

theorem map {f : α → β} (h : Passes c more (fun a => also (f a)) step s) :
    Passes c more also (f <$> step) s := fun hs => .map (h hs)

/-- A step that gets on, where the results are known to have a property. -/
theorem known {P : α → Prop} (h : Passes c more taking step s) (hP : Yields step (fun a _ => P a) s)
    (hrest : ∀ a s', P a → Goes c s s' → Passes c more also (rest a) s') :
    Passes c more also (step >>= rest) s :=
  fun hs => ((h hs).and hP).bind fun a s' ha => ha.1.1.passes hs (hrest a s' ha.2 ha.1.1)

/-- A change to a part of the state that is not looked at. -/
theorem change {s₁ : State} {a : α} (h : step s = .ok a s₁) (hlexer : s₁.lexer = s.lexer)
    (hend : s₁.previousEnd = s.previousEnd) (hexports : c.quiet → s₁.exports = s.exports)
    (hrest : Passes c more also (rest a) s₁) : Passes c more also (step >>= rest) s :=
  fun hs => .run h (Goes.passes (.of_same hs hlexer hend hexports) hs hrest)

/-- A step after which the rest of the state is put in order. -/
theorem closed {f : State → State} (h : Passes c more taking step s)
    (hf : ∀ s, (f s).lexer = s.lexer ∧ (f s).previousEnd = s.previousEnd ∧
      (f s).exports = s.exports) :
    Passes c more taking (do let a ← step; modify f; return a) s := by
  refine fun hs => (h hs).bind fun a s' ha => .run rfl (.pure ?_)
  obtain ⟨hlexer, hend, hexports⟩ := hf s'
  have hgoes : Goes c s' (f s') := .of_same ha.1.stands hlexer hend fun _ => hexports
  exact ⟨ha.1.trans hgoes, fun htaking => Nat.lt_of_lt_of_le (ha.2 htaking) hgoes.previousEnd_le⟩

/-- Counting levels takes no token. -/
theorem nested (h : ∀ depth, Passes c more taking step { s with depth := depth }) :
    Passes c more taking (nested step) s := by
  intro hs
  have henter := ((inferInstance : Light enterNesting).moves s).and (enterNesting_frame s)
  refine (henter.weaken fun _ => .of_immediate).bind fun _ s' hs' => ?_
  obtain ⟨-, rfl⟩ := hs'
  have hstands : Stands c.text { s with depth := s.depth + 1 } := ⟨hs.situated, hs.previousEnd⟩
  have hclosed := (h (s.depth + 1)).closed (f := fun s => { s with depth := s.depth - 1 })
    (fun s => ⟨rfl, rfl, rfl⟩) hstands
  exact hclosed.mono fun a s' ha =>
    ⟨⟨ha.1.stands, ha.1.start_le, ha.1.previousEnd_le, ha.1.exports⟩, ha.2⟩

theorem inScope (roles : List Role)
    (h : ∀ scopes, Passes c more taking step { s with scopes := scopes }) :
    Passes c more taking (inScope roles step) s := by
  unfold Grammar.inScope
  refine .change rfl rfl rfl (fun _ => rfl) ?_
  exact (h _).closed fun s => ⟨rfl, rfl, rfl⟩

end Passes

end Passing

section Instances

variable {c : Course} {more : Nat} {taking : α → Prop} {step : Parser α} {rest : α → Parser β}

theorem Proceeds.of_passes (hmore : more ≤ 2) (h : ∀ s, Passes c more taking step s) :
    Proceeds c step :=
  ⟨fun s => (h s).mono hmore fun _ => False.elim⟩

theorem Takes.of_passes (hmore : more ≤ 2) (h : ∀ s, Passes c more (fun _ => True) step s) :
    Takes c step := ⟨fun s => (h s).mono hmore fun _ => id⟩

theorem Takes.always {s : State} [h : Takes c step] : Passes c 2 taking step s :=
  (h.passes s).mono (Nat.le_refl 2) fun _ _ => trivial

instance (priority := low) [Light step] : Proceeds c step := ⟨fun _ => .of_light⟩

instance (priority := low) [h : Takes c step] : Proceeds c step :=
    .of_passes (Nat.le_refl 2) h.passes

theorem Proceeds.bind (h : Proceeds c step) (hrest : ∀ a, Proceeds c (rest a)) :
    Proceeds c (step >>= rest) :=
  ⟨fun s => (h.passes s).next fun a s' _ => (hrest a).passes s'⟩

instance [h : Proceeds c step] [hrest : ∀ a, Proceeds c (rest a)] : Proceeds c (step >>= rest) :=
  h.bind hrest

theorem Proceeds.skip [h : Proceeds c step] (hrest : ∀ a, Proceeds c (rest a)) :
    Proceeds c (step >>= rest) :=
  h.bind hrest

instance [h : Proceeds c step] {f : α → β} : Proceeds c (f <$> step) :=
  ⟨fun s => .map ((h.passes s).mono (Nat.le_refl 2) fun _ => False.elim)⟩

instance {p : Prop} [Decidable p] {first second : Parser α} [Proceeds c first] [Proceeds c second] :
    Proceeds c (if p then first else second) := by
  split <;> infer_instance

/-- A check that fails or changes nothing. -/
theorem Proceeds.guard {p : Prop} [Decidable p] {last : Parser β} (h : Tells (fun _ => False) step)
    (hlast : Proceeds c last) : Proceeds c (if p then step >>= rest else last) :=
  ⟨fun s => .guard h fun _ => hlast.passes s⟩

instance {first second : Parser Bool} [Proceeds c first] [Proceeds c second] :
    Proceeds c (first <&&> second) := by
  unfold andM
  refine .skip fun found => ?_
  split <;> infer_instance

instance {items : List α} {f : α → Parser PUnit} [∀ a, Proceeds c (f a)] :
    Proceeds c (items.forM f) := by
  induction items with
  | nil => exact inferInstanceAs (Proceeds c (pure _))
  | cons item rest ih =>
    change Proceeds c (f item >>= fun _ => rest.forM f)
    infer_instance

instance {item : Option α} {f : α → Parser PUnit} [∀ a, Proceeds c (f a)] :
    Proceeds c (item.forM f) := by
  cases item with
  | none => exact inferInstanceAs (Proceeds c (pure _))
  | some a => exact inferInstanceAs (Proceeds c (f a))

/-- A change to the parts of the state that are not looked at. -/
instance {observing assignable : State → Bool} {observations : State → Observations}
    {scopes : State → Stack} {privateNames : State → PrivateNames} {labels : State → Labels}
    {cover : State → Cover} {parenthesized spreads : State → List Nat}
    {labelChain lastYield lastAwait lastAwaitName assignmentStart : State → Option Nat}
    {depth : State → Nat} :
    Proceeds c (modify fun s => ⟨s.lexer, observing s, observations s, scopes s, privateNames s,
      labels s, labelChain s, s.exports, assignable s, cover s, parenthesized s, spreads s,
      lastYield s, lastAwait s, lastAwaitName s, assignmentStart s, s.previousEnd, depth s,
      s.refused⟩ : Parser Unit) := by
  rw [← bind_pure (modify _)]
  exact ⟨fun s => .change rfl rfl rfl (fun _ => rfl) (.pure id)⟩

instance [h : Proceeds c step] : Proceeds c (nested step) := ⟨fun _ => .nested fun _ => h.passes _⟩

instance {roles : List Role} [h : Proceeds c step] : Proceeds c (inScope roles step) :=
  ⟨fun _ => .inScope roles fun _ => h.passes _⟩

theorem Proceeds.inScope {roles : List Role} (h : Proceeds c step) :
    Proceeds c (inScope roles step) :=
  inferInstance

instance [h : Takes c step] [∀ a, Proceeds c (rest a)] : Takes c (step >>= rest) :=
  ⟨fun s => (h.passes s).taken inferInstance⟩

theorem Takes.first [Takes c step] (hrest : ∀ a, Proceeds c (rest a)) : Takes c (step >>= rest) :=
  inferInstance

theorem Takes.later [h : Proceeds c step] (hrest : ∀ a, Takes c (rest a)) :
    Takes c (step >>= rest) :=
  ⟨fun s => (h.passes s).next fun a s' _ => (hrest a).passes s'⟩

instance (priority := low) [Proceeds c step] [∀ a, Takes c (rest a)] : Takes c (step >>= rest) :=
  .later inferInstance

instance {p : Prop} [Decidable p] {first second : Parser α} [Takes c first] [Takes c second] :
    Takes c (if p then first else second) := by
  split <;> infer_instance

instance [h : Takes c step] : Takes c (nested step) := ⟨fun _ => .nested fun _ => h.passes _⟩

end Instances

end EcmaSyntax.Grammar
